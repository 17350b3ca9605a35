import Recalc.Library.Numbers

namespace Recalc.Library

-- A range or a grid by row and column from 0. Transposed, rows and columns change places.
structure Table where
  source : Rect ⊕ List (List Value)
  transposed : Bool

namespace Table

def of (o : Operand) (transposed : Bool) : Query Table :=
  match o with
  | .range r => .done ⟨.inl r,transposed⟩
  | o => do return ⟨.inr (← o.grid),transposed⟩

def shape (t : Table) : Nat × Nat :=
  let (rows,columns) := match t.source with
    | .inl r => (r.rows,r.columns)
    | .inr grid => (grid.length,(grid.head?.map List.length).getD 0)
  if t.transposed then (columns,rows) else (rows,columns)

def rows (t : Table) : Nat := t.shape.1
def columns (t : Table) : Nat := t.shape.2

def get (t : Table) (row column : Nat) : Query Value :=
  let (row,column) := if t.transposed then (column,row) else (row,column)
  match t.source with
  | .inl r => r.valueAt row column
  | .inr grid => .done ((do (← grid[row]?)[column]?).getD (.error .ref))

def findText (t : Table) (wanted : List Char) : List Nat → Query (Option Nat)
  | [] => return none
  | row :: more => do
    let key ← t.get row 0
    if key.isBlank then t.findText wanted more
    else if Text.lower key.toText.toList = wanted then return some row
    else t.findText wanted more

-- Keys ascend: the last number not above the target, up to the first number above it.
def findBelow (t : Table) (target : Float) : Option Nat → List Nat → Query (Option Nat)
  | found, [] => return found
  | found, row :: more => do
    match ← t.get row 0 with
    | .number key => if key ≤ target then t.findBelow target (some row) more else return found
    | _ => t.findBelow target found more

end Table

def lookup (transposed : Bool) (args : List Operand) : Work Value := do
  let item : Value ← (arg args 0).scalar
  if let .error e := item then throw e
  if item.isBlank ∨ item.same (.boolean false) then throw .na
  let table ← Table.of (arg args 1) transposed
  let index ← (arg args 2).number
  if !index.isFinite ∨ index < 1.0 then throw .value
  let index := Decimal.toCount index
  if table.columns < index then throw .ref
  let approximate ← match args[3]? with
    | some o => o.truth
    | none => pure false
  let keys := List.range table.rows
  let found : Option Nat ←
    if approximate then
      match item with
      | .number target => table.findBelow target none keys
      | _ => throw .value
    else table.findText (Text.lower item.toText.toList) keys
  match found with
  | some row => table.get row (index - 1)
  | none => throw .na

inductive MatchMode where
  | exact
  | ascending
  | descending
  deriving DecidableEq, Repr

def MatchMode.step (mode : MatchMode) (value item : Value) : Bool × Bool :=
  match mode with
  | .exact => if value.equal item then (true,false) else (false,true)
  | .ascending => match value.compare item with
    | .ok .lt => (true,true)
    | .ok .eq => (true,false)
    | .ok .gt => (false,false)
    | .error _ => (false,true)
  | .descending => match value.compare item with
    | .ok .gt => (true,true)
    | .ok .eq => (true,false)
    | .ok .lt => (false,false)
    | .error _ => (false,true)

def scan (mode : MatchMode) (item : Value) (get : Nat → Query Value) :
    Option Nat → List Nat → Query (Option Nat)
  | found, [] => return found
  | found, i :: more => do
    let value ← get i
    if value.isBlank then scan mode item get found more
    else
      let (keep,goOn) := mode.step value item
      let found := if keep then some i else found
      if goOn then scan mode item get found more else return found

def matchPosition (args : List Operand) : Work Value := do
  let item : Value ← (arg args 0).scalar
  if let .error e := item then throw e
  let kind ← numberOr 1.0 args[2]?
  let mode := if Decimal.toInt kind = 0 then MatchMode.exact
    else if 0 < Decimal.toInt kind then .ascending else .descending
  let table ← Table.of (arg args 1) false
  if table.rows ≠ 1 ∧ table.columns ≠ 1 then throw .na
  let get := fun i => if table.rows = 1 then table.get 0 i else table.get i 0
  match (← scan mode item get none (List.range (max table.rows table.columns)) : Option Nat) with
  | some i => return .number (Float.ofNat (i + 1))
  | none => throw .na

def badIndex (n : Float) : Bool := !n.isFinite || n ≤ -1.0

def index (args : List Operand) : Work Value := do
  let table ← Table.of (arg args 0) false
  let row ← (arg args 1).number
  let column : Option Float ← match args[2]? with
    | some o => some <$> o.number
    | none => pure none
  if badIndex row ∨ column.any badIndex then throw .value
  let (row,column) := match column with
    | some column => (Decimal.toCount row,Decimal.toCount column)
    | none => if table.rows = 1 then (1,Decimal.toCount row) else (Decimal.toCount row,1)
  if row = 0 ∨ column = 0 then throw .value
  if table.rows < row ∨ table.columns < column then throw .ref
  table.get (row - 1) (column - 1)

end Recalc.Library
