import Recalc.Decimal.Binary

namespace Recalc.Decimal

structure Digits where
  digits : Nat
  exponent : Int
  deriving DecidableEq, Repr

structure Interval where
  low : Nat
  value : Nat
  high : Nat
  closed : Bool

-- Four times the mantissa leaves room for halves and quarters of a unit in the last place.
-- Below a power of two the neighbour is twice as near; ends belong when the mantissa is even.
def Interval.around (mantissa : Nat) (exponent : Int) : Interval :=
  let gap := if mantissa = Nat.pow 2 52 ∧ exponent > -1074 then 1 else 2
  ⟨4 * mantissa - gap,4 * mantissa,4 * mantissa + 2,mantissa % 2 == 0⟩

-- d · 10 ^ place against n · 2 ^ (exponent - 2), as d · gridScale against n · unitScale.
def gridScale (exponent place : Int) : Nat := Nat.pow 10 place.toNat * Nat.pow 2 (2 - exponent).toNat
def unitScale (exponent place : Int) : Nat := Nat.pow 2 (exponent - 2).toNat * Nat.pow 10 (-place).toNat

def Interval.reaches (i : Interval) (exponent place : Int) (d : Nat) : Bool :=
  let grid := d * gridScale exponent place
  let low := i.low * unitScale exponent place
  let high := i.high * unitScale exponent place
  if i.closed then low ≤ grid && grid ≤ high else low < grid && grid < high

-- The nearer of the two neighbours on the grid that round back, of two equally near the upper.
def onGrid (mantissa : Nat) (exponent place : Int) : Option Nat :=
  let i := Interval.around mantissa exponent
  let grid := gridScale exponent place
  let value := i.value * unitScale exponent place
  let down := value / grid
  let downFits := i.reaches exponent place down
  let upFits := i.reaches exponent place (down + 1)
  if downFits && upFits then if 2 * (value % grid) < grid then some down else some (down + 1)
  else if downFits then some down
  else if upFits then some (down + 1)
  else none

def magnitude (mantissa : Nat) (exponent : Int) : Int :=
  let guess := Int.fdiv ((mantissa.log2 + exponent) * 30103) 100000
  let above (p : Int) : Bool :=
    mantissa * Nat.pow 2 exponent.toNat * Nat.pow 10 (-p).toNat < Nat.pow 10 p.toNat * Nat.pow 2 (-exponent).toNat
  ([guess - 1,guess,guess + 1,guess + 2].find? above).getD (guess + 3)

def dropZeros : Nat → Digits → Digits
  | 0, d => d
  | n + 1, d => if d.digits % 10 = 0 ∧ d.digits ≠ 0 then dropZeros n ⟨d.digits / 10,d.exponent + 1⟩ else d

def shortest (mantissa : Nat) (exponent : Int) : Digits :=
  if mantissa = 0 then ⟨0,0⟩ else
  let top := magnitude mantissa exponent
  let found := (List.range 17).findSome? fun n =>
    let place := top - (n + 1 : Nat)
    (onGrid mantissa exponent place).map fun d => (⟨d,place⟩ : Digits)
  dropZeros 20 (found.getD ⟨0,0⟩)

def zeros (n : Nat) : List Char := List.replicate n '0'

def Digits.plain (d : Digits) : List Char :=
  let text := Nat.toDigits 10 d.digits
  if 0 ≤ d.exponent then if d.digits = 0 then text else text ++ zeros d.exponent.toNat
  else
    let places := (-d.exponent).toNat
    if text.length ≤ places then ['0','.'] ++ zeros (places - text.length) ++ text
    else text.take (text.length - places) ++ '.' :: text.drop (text.length - places)

def display (x : Float) : String :=
  match Binary.ofFloat x with
  | .nan => "NaN"
  | .infinite negative => if negative then "-inf" else "inf"
  | .finite negative mantissa exponent =>
    let text := (shortest mantissa exponent).plain
    String.ofList (if negative then '-' :: text else text)

end Recalc.Decimal
