import Recalc.Library.Numbers

namespace Recalc.Library

def fitNumber : Value → Except ErrorValue Float
  | .number n => .ok n
  | .error e => .error e
  | _ => .error .value

def fitValues (vs : List Value) : Except ErrorValue (List Float) :=
  (vs.filter fun v => !v.isBlank).mapM fitNumber

def absBits (x : Float) : Nat := x.abs.toBits.toNat

-- The place of the largest leading entry; of equal ones the last.
def pivotPlace (rows : List (List Float)) : Nat :=
  (rows.foldl (fun (best,size,i) row =>
    let bits := absBits (row.headD 0.0)
    if size ≤ bits then (i,bits,i + 1) else (best,size,i + 1)) (0,0,0)).1

def swapFirst (place : Nat) (rows : List (List Float)) : List (List Float) :=
  match rows with
  | [] => []
  | first :: rest =>
    if place = 0 then rows else rest.getD (place - 1) [] :: rest.set (place - 1) first

def reduceRow (pivot row : List Float) : List Float :=
  let factor := row.headD 0.0 / pivot.headD 0.0
  List.zipWith (fun p x => x - factor * p) (pivot.drop 1) (row.drop 1)

def eliminate (tolerance : Float) : Nat → List (List Float) → Except ErrorValue (List (List Float))
  | 0, _ => .ok []
  | steps + 1, rows => do
    match swapFirst (pivotPlace rows) rows with
    | [] => return []
    | pivot :: rest =>
      if (pivot.headD 0.0).abs ≤ tolerance then throw .num
      else return pivot :: (← eliminate tolerance steps (rest.map (reduceRow pivot)))

def backSubstitute : List (List Float) → List Float
  | [] => []
  | row :: rows =>
    let after := backSubstitute rows
    let tail := total (List.zipWith (· * ·) (row.drop 1) after)
    (row.getLastD 0.0 - tail) / row.headD 0.0 :: after

-- A pivot counts as zero relative to the largest coefficient.
def solve (rows : List (List Float)) : Except ErrorValue (List Float) :=
  let n := rows.length
  let largest := ((rows.map (List.take n)).flatten.map Float.abs).foldl greater 0.0
  if largest == 0.0 ∨ !largest.isFinite then .error .num
  else do return backSubstitute (← eliminate (largest * Float.ofNat n * 1e-12) n rows)

def columnScale (xs : List Float) (p : Nat) : Float :=
  let norm := (total (xs.map fun x => Decimal.power (Decimal.power x p) 2)).sqrt
  if 0.0 < norm ∧ norm.isFinite then norm else 1.0

def addObservation (matrix : List (List Float)) (row : List Float) (y : Float) : List (List Float) :=
  List.zipWith (fun line r => List.zipWith (· + ·) line (row.map (r * ·) ++ [r * y])) matrix row

-- Least squares over the powers of x, highest first. Columns are scaled to unit length, so
-- data of any magnitude fits as well as data near 1.
def polyFit (xs ys : List Float) (degree : Nat) (intercept : Bool) : Except ErrorValue (List Float) := do
  let powers := ((List.range (degree + 1)).drop (if intercept then 0 else 1)).reverse
  let scales := powers.map (columnScale xs)
  let zero := List.replicate powers.length (List.replicate (powers.length + 1) 0.0)
  let matrix := (xs.zip ys).foldl (fun matrix (x,y) =>
    addObservation matrix (List.zipWith (fun p scale => Decimal.power x p / scale) powers scales) y) zero
  return List.zipWith (· / ·) (← solve matrix) scales

-- Coefficients come highest power first; without an intercept the last one is 0.
def linest (args : List Operand) (degree : Nat) (coefficient : Option Nat) : Work Value := do
  let ys ← match args[0]? with
    | some o => Work.ofExcept (fitValues (← o.flatten))
    | none => throw .value
  let xs ← match args[1]? with
    | some o => Work.ofExcept (fitValues (← o.flatten))
    | none => pure ((List.range ys.length).map fun i => Float.ofNat (i + 1))
  let intercept ← match args[2]? with
    | some o => o.truth
    | none => pure true
  if xs.length ≠ ys.length ∨ ys = [] then throw .ref
  let fitted ← Work.ofExcept (polyFit xs ys degree intercept)
  let coefficients := if intercept then fitted else fitted ++ [0.0]
  match coefficient with
  | some i => match coefficients[i]? with
    | some c => return .number c
    | none => throw .ref
  | none => return .array [coefficients.map Value.number]

end Recalc.Library
