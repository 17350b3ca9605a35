import Recalc.Library.Criterion
import Recalc.Library.Numbers

namespace Recalc.Library

open Operand

def countIf (args : List Operand) : Work Value := do
  let criterion := Criterion.ofValue (← (arg args 1).scalar)
  let values ← (arg args 0).flatten
  return .number (Float.ofNat (values.filter criterion.holds).length)

-- Where the summed value of a tested cell stands: the cell itself, the same place of a grid,
-- or the same place counted from the first cell of a range.
inductive SumSource where
  | tested
  | grid (rows : List (List Value))
  | range (r : Rect)

def SumSource.of (rows columns : Nat) : Option Operand → Query SumSource
  | none => .done .tested
  | some (.range r) =>
    .done (.range ⟨r.sheet,r.firstColumn,r.firstRow,r.firstColumn + (columns - 1),r.firstRow + (rows - 1)⟩)
  | some o => do return .grid (← o.grid)

def SumSource.summed (source : SumSource) (row column : Nat) (value : Value) : Query Value :=
  match source with
  | .tested => .done value
  | .range r => r.valueAt row column
  | .grid rows => .done ((do (← rows[row]?)[column]?).getD .empty)

def sumIf (args : List Operand) : Work Value := do
  let criterion := Criterion.ofValue (← (arg args 1).scalar)
  let grid ← (arg args 0).grid
  let source ← SumSource.of grid.length ((grid.head?.map List.length).getD 0) args[2]?
  let places := (grid.mapIdx fun r row => row.mapIdx fun c v => (r,c,v)).flatten
  let result ← (places.filter fun (_,_,v) => criterion.holds v).foldlM (fun (sum : Float) (r,c,v) => do
    match (← source.summed r c v : Value) with
    | .number n => return sum + n
    | .error e => throw e
    | _ => return sum) 0.0
  return .number result

def ifError (args : List Operand) : Query Value := do
  let value ← (arg args 0).scalar
  if value.isError then (arg args 1).scalar else return value

end Recalc.Library
