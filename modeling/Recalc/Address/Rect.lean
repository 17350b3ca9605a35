import Recalc.Address.Cell

namespace Recalc

def isRange (text : String) : Bool :=
  match Text.splitFirst ':' text.toList with
  | some (before,_) => before ≠ []
  | none => false

structure RangeParts where
  sheet : Option String
  first : String
  last : String
  deriving DecidableEq, Repr

def splitRange (text : String) : Option RangeParts :=
  let (sheet,rest) := splitSheet text
  (Text.splitFirst ':' rest.toList).map fun (first,last) => ⟨sheet,String.ofList first,String.ofList last⟩

-- Columns and rows of a sheet that hold anything; an empty sheet still has one of each.
structure Extents where
  columns : Nat
  rows : Nat
  deriving DecidableEq, Repr

-- A missing first row is 1, a missing last row the last of the sheet.
def clampRange (text : String) (extents : Extents) : Except ReferenceError String :=
  let text := Text.without '$' text
  match splitRange text with
  | none => .ok text
  | some parts => do
    let maxColumn := max extents.columns 1
    let maxRow := max extents.rows 1
    let first ← Address.parse parts.first
    let last ← Address.parse parts.last
    if last.column < first.column then throw (.nonIncreasingColumns text maxColumn maxRow)
    else
      let corner (column row : Nat) := Column.letters (min column maxColumn) ++ toString row
      let clamped := corner first.column (first.row.elim 1 (min · maxRow)) ++ ":" ++
        corner last.column (last.row.elim maxRow (min · maxRow))
      return match parts.sheet with
        | some sheet => sheet ++ "!" ++ clamped
        | none => clamped

structure Rect where
  sheet : String
  firstColumn : Nat
  firstRow : Nat
  lastColumn : Nat
  lastRow : Nat
  deriving DecidableEq, Repr

namespace Rect

def ofCorners (sheet : String) (firstColumn firstRow lastColumn lastRow : Nat) : Rect :=
  ⟨sheet,firstColumn,min firstRow lastRow,lastColumn,max firstRow lastRow⟩

def ofCell (cell : CellRef) : Rect := ⟨cell.sheet,cell.column,cell.row,cell.column,cell.row⟩

def parse (text sheet : String) : Except ReferenceError Rect :=
  match splitRange text with
  | none => do return ofCell (← CellRef.parse text sheet)
  | some parts => do
    let first ← Address.parse parts.first
    let last ← Address.parse parts.last
    match first.row, last.row with
    | some firstRow, some lastRow =>
      if last.column < first.column then throw (.invalidRange text)
      else
        let sheet := parts.sheet.getD sheet
        if sheet = "" then throw (.missingSheet text)
        else return ofCorners sheet first.column firstRow last.column lastRow
    | _, _ => throw (.missingBounds text)

def rows (r : Rect) : Nat := r.lastRow - r.firstRow + 1
def columns (r : Rect) : Nat := r.lastColumn - r.firstColumn + 1

def start (r : Rect) : CellRef := ⟨r.sheet,r.firstColumn,r.firstRow⟩

-- Offsets count from 0.
def cellAt (r : Rect) (row column : Nat) : CellRef := ⟨r.sheet,r.firstColumn + column,r.firstRow + row⟩

def cell? (r : Rect) (row column : Nat) : Option CellRef :=
  if row < r.rows ∧ column < r.columns then some (r.cellAt row column) else none

def contains (r : Rect) (cell : CellRef) : Bool :=
  cell.sheet == r.sheet && r.firstColumn ≤ cell.column && cell.column ≤ r.lastColumn &&
    r.firstRow ≤ cell.row && cell.row ≤ r.lastRow

-- Slices count from 1.
def columnSlice (r : Rect) (index : Nat) : Option Rect :=
  if 1 ≤ index ∧ index ≤ r.columns then
    let column := r.firstColumn + (index - 1)
    some ⟨r.sheet,column,r.firstRow,column,r.lastRow⟩
  else none

def rowSlice (r : Rect) (index : Nat) : Option Rect :=
  if 1 ≤ index ∧ index ≤ r.rows then
    let row := r.firstRow + (index - 1)
    some ⟨r.sheet,r.firstColumn,row,r.lastColumn,row⟩
  else none

def grid (r : Rect) : List (List CellRef) :=
  (List.range r.rows).map fun row => (List.range r.columns).map fun column => r.cellAt row column

def cells (r : Rect) : List CellRef := r.grid.flatten

def a1 (r : Rect) : String :=
  r.start.a1 ++ ":" ++ (⟨r.sheet,r.lastColumn,r.lastRow⟩ : CellRef).a1

def text (r : Rect) : String := r.sheet ++ "!" ++ r.a1

end Rect

-- Cells in rows, taken from one rectangle or from the two slices of a table that a lookup reads.
structure Region where
  rows : List (List String)
  columns : Nat
  rects : List Rect
  deriving DecidableEq, Repr

namespace Region

def ofRect (r : Rect) : Region := ⟨r.grid.map (·.map CellRef.text),r.columns,[r]⟩

def besides (key result : Rect) : Region :=
  ⟨List.zipWith (fun k r => [k.text,r.text]) key.cells result.cells,2,[key,result]⟩

def stacked (key result : Rect) : Region :=
  ⟨[key.cells.map CellRef.text,result.cells.map CellRef.text],key.columns,[key,result]⟩

def address (r : Region) : String := String.intercalate ";" (r.rects.map Rect.text)

end Region

def canonicalPart (part sheet : String) : Except ReferenceError String :=
  if isRange part then Rect.text <$> Rect.parse part sheet else CellRef.text <$> CellRef.parse part sheet

def canonicalize (text sheet : String) : Except ReferenceError String := do
  let parts ← (Text.splitEach ';' text.toList).mapM fun part => canonicalPart (String.ofList part) sheet
  return String.intercalate ";" parts

end Recalc
