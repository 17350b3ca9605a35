import Recalc.Decimal.Numeral
import Recalc.Proofs.Decimal.NumberOrder

namespace Recalc
open Float.Model
open UnpackedFloat (Sign packComponents)

variable {x y : UnpackedFloat}

-- Only a full exponent with something below it is no number.
theorem components_number {spec : Format} {s : Sign} {e : BitVec spec.exponentBits} {m : BitVec spec.mantissaBitsWithoutImplicit}
    (number : e = -BitVec.ofNat spec.exponentBits 1 → m = BitVec.ofNat spec.mantissaBitsWithoutImplicit 0) :
    (UnpackedFloat.unpack spec (packComponents spec s e m)).isNaN = false := by
  unfold UnpackedFloat.unpack
  simp only [UnpackedFloat.unpackExponent_packComponents,UnpackedFloat.unpackMantissa_packComponents]
  split
  · rename_i full
    rw [if_pos (number full)]
    rfl
  · split
    · split <;> rfl
    · rfl

theorem pack_number (number : x.isNaN = false) : (pack x).unpack.isNaN = false := by
  change (UnpackedFloat.unpack Format.binary64 (UnpackedFloat.pack Format.binary64 x)).isNaN = false
  cases x with
  | notANumber => cases number
  | infinity s => exact components_number fun _ => rfl
  | zero s => exact components_number fun _ => rfl
  | finite s m e positive =>
    unfold UnpackedFloat.pack
    dsimp only
    split
    · exact components_number fun _ => rfl
    · rename_i small
      split
      · refine components_number fun full => ?_
        have size : _ % 2 ^ 11 = 2 ^ 11 - 1 := congrArg BitVec.toNat full
        rw [Nat.mod_eq_of_lt (by omega)] at size
        omega
      · exact components_number fun full => absurd full (by decide)

theorem round_number {spec : Format} {s : Sign} {m : Nat} {e : Int} {a : UnpackedFloat.Accuracy} :
    (UnpackedFloat.roundWithAccuracy spec s m e a).isNaN = false := by
  unfold UnpackedFloat.roundWithAccuracy
  dsimp only
  split <;> rfl

def sized : UnpackedFloat → Bool
  | .finite _ _ _ _ => true
  | _ => false

theorem mul_number (left : x.isNaN = false) (right : sized y = true) : (UnpackedFloat.mul .binary64 x y).isNaN = false := by
  cases y with
  | finite s m e positive =>
    cases x with
    | notANumber => cases left
    | infinity s => rfl
    | zero s => rfl
    | finite s m e positive => exact round_number
  | _ => cases right

theorem div_number (left : x.isNaN = false) (right : sized y = true) : (UnpackedFloat.div .binary64 x y).isNaN = false := by
  cases y with
  | finite s m e positive =>
    cases x with
    | notANumber => cases left
    | infinity s => rfl
    | zero s => rfl
    | finite s m e positive => exact round_number
  | _ => cases right

theorem ofScientific_number (m : Nat) (e : Int) : (UnpackedFloat.ofScientific .binary64 m e).isNaN = false := by
  unfold UnpackedFloat.ofScientific
  split
  · rfl
  · split
    · rfl
    · split
      · rfl
      · split
        · exact mul_number rfl rfl
        · exact div_number rfl rfl

theorem integer_number (n : UInt64) : n.toFloat.isNaN = false := by
  refine pack_number ?_
  change (UnpackedFloat.normalize .binary64 _ 0 .positive).isNaN = false
  unfold UnpackedFloat.normalize
  split
  · exact round_number
  · rfl
  · exact round_number

theorem powers_sized : ∀ e : Fin 23, sized (numberParts Float.exactlyRepresentablePowersOfTen[e]) = true := by decide

theorem scientific_number (m : Nat) (s : Bool) (e : Nat) : (Float.ofScientific m s e).isNaN = false := by
  unfold Float.ofScientific
  split
  · rename_i small
    have power := powers_sized ⟨e,Nat.lt_succ_of_le small.2⟩
    dsimp only
    split
    · exact pack_number (div_number (integer_number _) power)
    · exact pack_number (mul_number (integer_number _) power)
  · exact pack_number (ofScientific_number _ _)

theorem neg_number (a : Float) (number : a.isNaN = false) : (-a).isNaN = false := by
  refine pack_number ?_
  change (numberParts a).isNaN = false at number
  change (UnpackedFloat.neg (numberParts a)).isNaN = false
  cases parts : numberParts a with
  | notANumber =>
    rw [parts] at number
    cases number
  | _ => rfl

theorem nearest_number (digits : Nat) (exponent : Int) : (Decimal.nearest digits exponent).isNaN = false := by
  unfold Decimal.nearest
  dsimp only
  split
  · decide
  · split
    · decide
    · split
      · decide
      · split <;> exact scientific_number _ _ _

end Recalc
