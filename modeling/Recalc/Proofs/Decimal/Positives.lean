import Recalc.Proofs.Decimal.Counts
import Recalc.Proofs.Decimal.Numerals
import Recalc.Proofs.Formula.Render.Delimiting

namespace Recalc
open Float.Model
open UnpackedFloat (Sign packComponents)

variable {x y : UnpackedFloat}

-- Without a minus sign. Not-a-number has none.
inductive Positive : UnpackedFloat → Prop where
  | notANumber : Positive .notANumber
  | infinity : Positive (.infinity .positive)
  | zero : Positive (.zero .positive)
  | finite (m : Nat) (e : Int) (above : 0 < m) : Positive (.finite .positive m e above)

instance : DecidablePred Positive
  | .notANumber => isTrue .notANumber
  | .infinity .positive => isTrue .infinity
  | .infinity .negative => isFalse nofun
  | .zero .positive => isTrue .zero
  | .zero .negative => isFalse nofun
  | .finite .positive m e above => isTrue (.finite m e above)
  | .finite .negative _ _ _ => isFalse nofun

theorem components_positive {spec : Format} {e : BitVec spec.exponentBits} {m : BitVec spec.mantissaBitsWithoutImplicit} :
    Positive (UnpackedFloat.unpack spec (packComponents spec .positive e m)) := by
  unfold UnpackedFloat.unpack
  simp only [sign_packed]
  split
  · split <;> constructor
  · split
    · split <;> constructor
    · constructor

theorem pack_positive (positive : Positive x) : Positive (pack x).unpack := by
  change Positive (UnpackedFloat.unpack Format.binary64 (UnpackedFloat.pack Format.binary64 x))
  cases positive with
  | notANumber | infinity | zero => exact components_positive
  | finite m e above =>
    unfold UnpackedFloat.pack
    dsimp only
    split
    · exact components_positive
    · split <;> exact components_positive

theorem round_positive {spec : Format} {m : Nat} {e : Int} {a : UnpackedFloat.Accuracy} :
    Positive (UnpackedFloat.roundWithAccuracy spec .positive m e a) := by
  unfold UnpackedFloat.roundWithAccuracy
  dsimp only
  split <;> constructor

theorem mul_positive (left : Positive x) (right : Positive y) : Positive (UnpackedFloat.mul .binary64 x y) := by
  cases left <;> cases right <;> first | exact round_positive | constructor

theorem div_positive (left : Positive x) (right : Positive y) : Positive (UnpackedFloat.div .binary64 x y) := by
  cases left <;> cases right <;> first | exact round_positive | constructor

theorem ofScientific_positive (m : Nat) (e : Int) : Positive (UnpackedFloat.ofScientific .binary64 m e) := by
  unfold UnpackedFloat.ofScientific
  split
  · constructor
  · split
    · constructor
    · split
      · constructor
      · split
        · exact mul_positive (.finite _ _ _) (.finite _ _ _)
        · exact div_positive (.finite _ _ _) (.finite _ _ _)

theorem integer_positive (n : UInt64) : Positive (numberParts n.toFloat) := by
  refine pack_positive ?_
  change Positive (UnpackedFloat.normalize .binary64 (n.toNat : Int) 0 .positive)
  unfold UnpackedFloat.normalize
  split
  · rename_i below
    exact absurd (Int.compare_eq_lt.mp below) (by omega)
  · constructor
  · exact round_positive

theorem powers_positive : ∀ e : Fin 23, Positive (numberParts Float.exactlyRepresentablePowersOfTen[e]) := by decide

theorem scientific_positive (m : Nat) (s : Bool) (e : Nat) : Positive (numberParts (Float.ofScientific m s e)) := by
  unfold Float.ofScientific
  split
  · rename_i small
    have power := powers_positive ⟨e,Nat.lt_succ_of_le small.2⟩
    dsimp only
    split
    · exact pack_positive (div_positive (integer_positive _) power)
    · exact pack_positive (mul_positive (integer_positive _) power)
  · exact pack_positive (ofScientific_positive _ _)

theorem count_positive (n : Nat) : Positive (numberParts (Float.ofNat n)) := scientific_positive n false 0

theorem nearest_positive (digits : Nat) (exponent : Int) : Positive (numberParts (Decimal.nearest digits exponent)) := by
  unfold Decimal.nearest
  dsimp only
  split
  · exact scientific_positive _ _ _
  · split
    · exact scientific_positive _ _ _
    · split
      · exact pack_positive (div_positive (scientific_positive _ _ _) (scientific_positive _ _ _))
      · split <;> exact scientific_positive _ _ _

theorem positive_spelled {x : Float} (positive : Positive (numberParts x)) : (Value.numberText x).toList.head? ≠ some '-' := by
  have plain {parts : UnpackedFloat} (positive : Positive parts) : (Decimal.Binary.ofParts parts).negative = false := by
    cases positive <;> rfl
  rcases Value.numberText_spelled x with numeral | ⟨negative,-⟩
  · obtain ⟨c,first,sort⟩ := numeral.first
    rintro minus
    obtain rfl := Option.some.inj ((Option.mem_def.mp first).symm.trans minus)
    revert sort
    decide
  · rw [Decimal.ofFloat_parts,plain positive] at negative
    cases negative

namespace Decimal
variable {cs : List Char} {x : Float}

theorem unsigned_positive (found : unsigned cs = some x) : Positive (numberParts x) := by
  rw [unsigned_parts] at found
  dsimp only at found
  split at found
  · cases found
  · obtain ⟨e,-,rfl⟩ := Option.map_eq_some_iff.mp found
    exact nearest_positive _ _

theorem unmarked_positive (found : unmarked cs = some x) : Positive (numberParts x) := by
  unfold unmarked at found
  split at found
  · cases found
    decide
  · cases found
    decide
  · cases found
    decide
  · exact unsigned_positive found

theorem number?_positive (found : number? cs = some x) (plain : cs.head? ≠ some '-') : Positive (numberParts x) := by
  rw [number?_parts] at found
  obtain ⟨y,read,rfl⟩ := Option.map_eq_some_iff.mp found
  have unsigned : (splitSign cs).1 = false := by
    unfold splitSign
    split
    · exact absurd rfl plain
    · rfl
    · rfl
  rw [unsigned]
  exact unmarked_positive read

end Decimal
end Recalc
