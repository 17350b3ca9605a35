import Recalc.Decimal.Numeral
import Recalc.Decimal.Shortest

namespace Recalc.Decimal

-- mantissa / 10 ^ scale, with room for 96 bits and 28 places.
structure Scaled where
  negative : Bool
  mantissa : Nat
  scale : Nat
  deriving DecidableEq, Repr

def mantissaLimit : Nat := Nat.pow 2 96
def scaleLimit : Nat := 28

inductive Rounding where
  | half
  | up
  | down
  deriving DecidableEq, Repr

def roundQuotient (mode : Rounding) (numerator divisor : Nat) : Nat :=
  let quotient := numerator / divisor
  let rest := numerator % divisor
  match mode with
  | .half => if divisor ≤ 2 * rest then quotient + 1 else quotient
  | .up => if rest = 0 then quotient else quotient + 1
  | .down => quotient

def roundQuotientEven (numerator divisor : Nat) : Nat :=
  let quotient := numerator / divisor
  let rest := numerator % divisor
  if divisor < 2 * rest ∨ (divisor = 2 * rest ∧ quotient % 2 = 1) then quotient + 1 else quotient

-- Places past the last one kept are dropped; the first of them decides whether to go up.
def Scaled.ofFloat (x : Float) : Option Scaled :=
  match Binary.ofFloat x with
  | .finite negative mantissa exponent =>
    let d := shortest mantissa exponent
    if 0 ≤ d.exponent then
      let whole := d.digits * Nat.pow 10 d.exponent.toNat
      if whole < mantissaLimit then some ⟨negative,whole,0⟩ else none
    else
      let places := (-d.exponent).toNat
      if places ≤ scaleLimit then some ⟨negative,d.digits,places⟩
      else some ⟨negative,roundQuotient .half d.digits (Nat.pow 10 (places - scaleLimit)),scaleLimit⟩
  | _ => none

def Scaled.roundPlaces (mode : Rounding) (places : Nat) (d : Scaled) : Scaled :=
  if d.scale ≤ places then d
  else ⟨d.negative,roundQuotient mode d.mantissa (Nat.pow 10 (d.scale - places)),places⟩

def Scaled.shiftDown (k : Nat) (d : Scaled) : Scaled :=
  let scale := d.scale + k
  if scale ≤ scaleLimit then ⟨d.negative,d.mantissa,scale⟩
  else ⟨d.negative,roundQuotientEven d.mantissa (Nat.pow 10 (scale - scaleLimit)),scaleLimit⟩

def Scaled.shiftUp (k : Nat) (d : Scaled) : Option Scaled :=
  let mantissa := d.mantissa * Nat.pow 10 k
  if mantissa < mantissaLimit then some ⟨d.negative,mantissa,d.scale⟩ else none

def Scaled.toFloat (d : Scaled) : Float :=
  let magnitude :=
    if d.scale = 0 then nearest d.mantissa 0
    else
      let unit := Nat.pow 10 d.scale
      let whole := nearest (d.mantissa / unit) 0
      let fraction := nearest (d.mantissa % unit) 0 / nearest unit 0
      if fraction == 0.0 then whole
      else
        let places := power 10.0 d.scale
        ((whole + fraction) * places).round / places
  if d.negative then -magnitude else magnitude

-- The least count has no opposite in 64 bits: negated, it is still negative and asks for none.
def leftPlaces (digits : Int64) : Option Nat :=
  let k := (-digits).toInt
  if 0 ≤ k ∧ k ≤ 18 then some k.toNat else none

def round (mode : Rounding) (digits : Int64) (x : Float) : Float :=
  match Scaled.ofFloat x with
  | none => x
  | some d =>
    if 0 ≤ digits then (d.roundPlaces mode (min digits.toInt.toNat scaleLimit)).toFloat
    else match leftPlaces digits with
      | none => 0.0
      | some k => match ((d.shiftDown k).roundPlaces mode 0).shiftUp k with
        | some rounded => rounded.toFloat
        | none => x

end Recalc.Decimal
