import Recalc.Address.Rect
import Recalc.NumberFormat

namespace Recalc

-- Formula text is kept as it was given; only text that starts with `=` is a formula.
structure Entry where
  formula : Option String
  value : Content
  format : Option NumberFormat

namespace Entry

def blank : Entry := ⟨none,.empty,none⟩

def formula? (e : Entry) : Option String := e.formula.filter fun text => text.toList.head? == some '='

end Entry

structure Worksheet where
  name : String
  entries : List (Position × Entry)

namespace Worksheet

def find? (s : Worksheet) (p : Position) : Option Entry :=
  (s.entries.find? fun (q,_) => q == p).map Prod.snd

def entry (s : Worksheet) (p : Position) : Entry := (s.find? p).getD Entry.blank

def extents (s : Worksheet) : Extents :=
  s.entries.foldl (fun e (p,_) => ⟨max e.columns p.column,max e.rows p.row⟩) ⟨0,0⟩

def updateEntries (p : Position) (f : Entry → Entry) : List (Position × Entry) → List (Position × Entry)
  | [] => [(p,f Entry.blank)]
  | (q,e) :: rest => if q = p then (q,f e) :: rest else (q,e) :: updateEntries p f rest

def update (s : Worksheet) (p : Position) (f : Entry → Entry) : Worksheet :=
  {s with entries := updateEntries p f s.entries}

-- The cell an address names within this sheet; a sheet in the address is not looked at.
def position (text : String) : Except ReferenceError Position := do
  let address ← Address.parse text
  match address.row with
  | none => throw (.invalidAddress text)
  | some row => return ⟨address.column,row⟩

def change (s : Worksheet) (text : String) (f : Entry → Entry) : Except ReferenceError Worksheet := do
  return s.update (← position text) f

def putValue (s : Worksheet) (text : String) (value : Content) : Except ReferenceError Worksheet :=
  s.change text fun e => ⟨none,value,e.format⟩

def putFormula (s : Worksheet) (text formula : String) (cached : Content) : Except ReferenceError Worksheet :=
  s.change text fun e => ⟨some formula,cached,e.format⟩

def putFormat (s : Worksheet) (text : String) (format : NumberFormat) : Except ReferenceError Worksheet :=
  s.change text fun e => ⟨e.formula,e.value,some format⟩

def valueAt (s : Worksheet) (p : Position) : Content := (s.entry p).value

end Worksheet

structure Block where
  formulas : List (List (Option String))
  values : List (List Content)
  formats : List (List (Option NumberFormat))

namespace Block

def ofEntries (rows : List (List Entry)) : Block :=
  ⟨rows.map (·.map Entry.formula?),rows.map (·.map Entry.value),rows.map (·.map Entry.format)⟩

def rows (b : Block) : Nat := b.values.length
def columns (b : Block) : Nat := (b.values.head?.map List.length).getD 0

def hasShape {α : Type} (grid : List (List α)) (rows columns : Nat) : Bool :=
  grid.length == rows && grid.all fun row => row.length == columns

def checkShape (b : Block) (address : String) (rows columns : Nat) : Except ReferenceError Unit :=
  if hasShape b.values rows columns ∧ hasShape b.formulas rows columns ∧ hasShape b.formats rows columns
  then .ok ()
  else .error (.shapeMismatch address rows columns b.rows b.columns)

def at? {α : Type} (grid : List (List α)) (row column : Nat) : Option α := do (← grid[row]?)[column]?

def formula? (b : Block) (row column : Nat) : Option String := (at? b.formulas row column).join
def value? (b : Block) (row column : Nat) : Option Content := at? b.values row column
def format? (b : Block) (row column : Nat) : Option NumberFormat := (at? b.formats row column).join

end Block

-- Sheets in order of creation, names without repetition; the active one is counted from 0.
structure Workbook where
  sheets : List Worksheet
  active : Nat

namespace Workbook

def empty : Workbook := ⟨[],0⟩

def find? (w : Workbook) (name : String) : Option Worksheet := w.sheets.find? fun s => s.name == name

def activeName (w : Workbook) : String := (w.sheets[w.active]?.map Worksheet.name).getD ""

def extents (w : Workbook) : Extents := (w.sheets[w.active]?.map Worksheet.extents).getD ⟨0,0⟩

def select (w : Workbook) (name : String) : Except ReferenceError Workbook :=
  match w.sheets.findIdx? fun s => s.name == name with
  | some index => .ok {w with active := index}
  | none => .error (.sheetNotFound name)

def addSheet (w : Workbook) (name : String) : Workbook :=
  if (w.find? name).isSome then w else {w with sheets := w.sheets ++ [⟨name,[]⟩]}

def change (w : Workbook) (name : String) (f : Worksheet → Except ReferenceError Worksheet) :
    Except ReferenceError Workbook :=
  let rec go : List Worksheet → Except ReferenceError (List Worksheet)
    | [] => .error (.sheetNotFound name)
    | s :: rest => if s.name = name then (· :: rest) <$> f s else (s :: ·) <$> go rest
  return {w with sheets := ← go w.sheets}

def read (w : Workbook) (text : String) : Except ReferenceError Block := do
  let name := (splitSheet text).1.getD w.activeName
  match w.find? name with
  | none => throw (.sheetNotFound name)
  | some sheet =>
    let rect ← Rect.parse text name
    return Block.ofEntries (rect.grid.map (·.map fun cell => sheet.entry cell.position))

def formulaAt (w : Workbook) (text : String) : Except ReferenceError (Option String) := do
  return (← w.read text).formula? 0 0

def putValue (w : Workbook) (text : String) (value : Content) : Except ReferenceError Workbook :=
  let (sheet,cell) := splitSheet text
  w.change (sheet.getD w.activeName) fun s => s.putValue cell value

end Workbook
end Recalc
