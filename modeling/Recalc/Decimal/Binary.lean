namespace Recalc.Decimal

-- A double as the number it stands for: mantissa · 2 ^ exponent.
inductive Binary where
  | nan
  | infinite (negative : Bool)
  | finite (negative : Bool) (mantissa : Nat) (exponent : Int)
  deriving DecidableEq, Repr

def Binary.ofFloat (x : Float) : Binary :=
  let bits : Nat := x.toBits.toNat
  let negative := bits / Nat.pow 2 63 % 2 == 1
  let exponent : Nat := bits / Nat.pow 2 52 % 2048
  let fraction : Nat := bits % Nat.pow 2 52
  if exponent = 2047 then if fraction = 0 then .infinite negative else .nan
  else if exponent = 0 then .finite negative fraction (-1074)
  else .finite negative (fraction + Nat.pow 2 52) ((exponent : Int) - 1075)

def wholeMagnitude (mantissa : Nat) (exponent : Int) : Nat :=
  if 0 ≤ exponent then mantissa * Nat.pow 2 exponent.toNat else mantissa / Nat.pow 2 (-exponent).toNat

-- Toward zero. Not-a-number counts as 0, an infinity as a number beyond every double.
def toInt (x : Float) : Int :=
  match Binary.ofFloat x with
  | .nan => 0
  | .infinite negative => if negative then -Int.ofNat (Nat.pow 2 1024) else Int.ofNat (Nat.pow 2 1024)
  | .finite negative mantissa exponent =>
    if negative then -(wholeMagnitude mantissa exponent : Int) else wholeMagnitude mantissa exponent

def toWord (x : Float) : Int64 :=
  let limit := Int.ofNat (Nat.pow 2 63)
  Int64.ofInt (max (-limit) (min (limit - 1) (toInt x)))

def toCount (x : Float) : Nat := (toInt x).toNat

def isWhole (x : Float) : Bool :=
  match Binary.ofFloat x with
  | .finite _ mantissa exponent =>
    decide (0 ≤ exponent) || mantissa % Nat.pow 2 (-exponent).toNat == 0
  | _ => false

-- x ^ n by repeated squaring, in the order that fixes how each product is rounded.
def power (x : Float) (n : Nat) : Float := go n.log2.succ 1.0 x n
where
  go : Nat → Float → Float → Nat → Float
    | 0, result, _, _ => result
    | steps + 1, result, x, n =>
      let result := if n % 2 = 1 then result * x else result
      if n / 2 = 0 then result else go steps result (x * x) (n / 2)

end Recalc.Decimal
