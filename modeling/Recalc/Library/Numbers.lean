import Recalc.Decimal.Scaled
import Recalc.Operator
import Recalc.Query

namespace Recalc.Library

open Operand

def arg (args : List Operand) (i : Nat) : Operand := args[i]?.getD (.value (.error .value))

def numberOr (fallback : Float) : Option Operand → Work Float
  | some o => o.number
  | none => return fallback

-- What aggregates count. A value in the call counts when it converts to a number; values
-- from ranges and arrays count only when they are numbers. Blanks are passed over.
def countedNumber (direct : Bool) : Value → Except ErrorValue (Option Float)
  | .number n => .ok (some n)
  | .error e => .error e
  | .empty => .ok none
  | v => if direct then some <$> v.toNumber else .ok none

def numbersOf (o : Operand) : Work (List Float) := do
  let values ← o.flatten
  Work.ofExcept do return (← values.mapM (countedNumber o.isDirect)).filterMap id

def numbers (args : List Operand) : Work (List Float) := do return (← args.mapM numbersOf).flatten

def total (ns : List Float) : Float := ns.foldl (· + ·) 0.0

def sum (args : List Operand) : Work Value := do return .number (total (← numbers args))

def average (args : List Operand) : Work Value := do
  let ns ← numbers args
  if ns = [] then throw .div0 else return .number (total ns / Float.ofNat ns.length)

def lesser (a b : Float) : Float := if a.isNaN then b else if b < a then b else a
def greater (a b : Float) : Float := if a.isNaN then b else if a < b then b else a

def extreme (pick : Float → Float → Float) : List Float → Float
  | [] => 0.0
  | n :: ns => ns.foldl pick n

def least (args : List Operand) : Work Value := do return .number (extreme lesser (← numbers args))
def greatest (args : List Operand) : Work Value := do return .number (extreme greater (← numbers args))

def isCounted (direct : Bool) : Value → Bool
  | .number _ => true
  | .empty => false
  | .error _ => false
  | .array _ => false
  | v => direct && v.number?.isSome && !v.isBlank

def tally (test : Bool → Value → Bool) (args : List Operand) : Work Value := do
  let counts ← args.mapM fun o => do
    return ((← (o.flatten : Query (List Value))).filter (test o.isDirect)).length
  return .number (Float.ofNat (counts.foldl (· + ·) 0))

def count (args : List Operand) : Work Value := tally isCounted args

def countA (args : List Operand) : Work Value := tally (fun _ v => !v.isEmpty) args

-- Ties share the best rank. Order 0 ranks the largest first.
def rank (args : List Operand) : Work Value := do
  let number ← (arg args 0).number
  let order ← numberOr 0.0 args[2]?
  let values ← (arg args 1).flatten
  let ns ← Work.ofExcept do return (← values.mapM (countedNumber false)).filterMap id
  if ns.any (· == number) then
    let ahead := ns.filter fun n => if order != 0.0 then n < number else number < n
    return .number (Float.ofNat (ahead.length + 1))
  else throw .na

def factor : Value → Except ErrorValue Float
  | .number n => .ok n
  | .error e => .error e
  | _ => .ok 0.0

def sameShape (a b : List (List Value)) : Bool := a.map List.length == b.map List.length

def products : List Value → Option (List Value) → Except ErrorValue (List Float)
  | vs, none => vs.mapM factor
  | vs, some ws => (vs.zip ws).mapM fun (v,w) => do return (← factor v) * (← factor w)

def sumProduct (args : List Operand) : Work Value := do
  let first ← (arg args 0).grid
  match args[1]? with
  | none => return .number (total (← Work.ofExcept (products first.flatten none)))
  | some o =>
    let second ← o.grid
    if sameShape first second then
      return .number (total (← Work.ofExcept (products first.flatten (some second.flatten))))
    else throw .value

def npv (args : List Operand) : Work Value := do
  let rate ← (arg args 0).number
  if rate == -1.0 then throw .div0
  let values ← numbers (args.drop 1)
  return .number (total (values.mapIdx fun i v => v / Decimal.power (1.0 + rate) (i + 1)))

def rounded (mode : Decimal.Rounding) (args : List Operand) : Work Value := do
  let n ← (arg args 0).number
  let digits ← numberOr 0.0 args[1]?
  return .number (Decimal.round mode (Decimal.toWord digits) n)

def mod (args : List Operand) : Work Value := do
  let n ← (arg args 0).number
  let d ← (arg args 1).number
  if d == 0.0 then throw .div0 else return .number (n - d * (n / d).floor)

def ofOne (f : Float → Except ErrorValue Float) (o : Operand) : Work Value := do
  let result ← Work.ofExcept (f (← o.number))
  if result.isFinite then return .number result else throw .num

def ln (n : Float) : Except ErrorValue Float := if n ≤ 0.0 then .error .num else .ok n.log
def sqrt (n : Float) : Except ErrorValue Float := if n < 0.0 then .error .num else .ok n.sqrt

def power (args : List Operand) : Work Value := do
  let exponent ← (arg args 1).number
  ofOne (fun base => if base == 0.0 ∧ exponent < 0.0 then .error .div0 else .ok (base.pow exponent)) (arg args 0)

def pi : Float := 3.141592653589793

def lanczosFirst : Float := 0.9999999999998099
def lanczosRest : List Float :=
  [676.5203681218851,-1259.1392167224028,771.3234287776531,-176.6150291621406,12.507343278686905,
    -0.13857109526572012,9.984369578019572e-6,1.5056327351493116e-7]

-- The logarithm of the gamma function from 1/2 on, by the Lanczos series with g = 7.
def lnGammaAbove (x : Float) : Float :=
  let x := x - 1.0
  let t := x + 7.0 + 0.5
  let series := (lanczosRest.mapIdx fun i c => c / (x + Float.ofNat (i + 1))).foldl (· + ·) lanczosFirst
  0.5 * (2.0 * pi).log + (x + 0.5) * t.log - t + series.log

def lnGamma (x : Float) : Float :=
  if x < 0.5 then (pi / (pi * x).sin).log - lnGammaAbove (1.0 - x) else lnGammaAbove x

def gammaLn (n : Float) : Except ErrorValue Float := if n ≤ 0.0 then .error .num else .ok (lnGamma n)

end Recalc.Library
