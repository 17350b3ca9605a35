import Recalc.Library.Apply
import Recalc.Proofs.Decimal.WholeDecimals

namespace Recalc.Decimal
open Library (rounded)
variable {mode : Rounding} {unit k : Nat} {n r : Int}

-- Which multiple of the unit a whole number is rounded to: the nearest, the farther from zero of two; the
-- least of its sign that reaches it; or the greatest that it reaches.
def Rounding.Picks (mode : Rounding) (unit : Nat) (n r : Int) : Prop := (unit : Int) ∣ r ∧ match mode with
  | .half => ∀ other : Int, (unit : Int) ∣ other →
      (n - r).natAbs < (n - other).natAbs ∨ (n - r).natAbs = (n - other).natAbs ∧ other.natAbs ≤ r.natAbs
  | .up => (r.sign = n.sign ∧ n.natAbs ≤ r.natAbs) ∧ ∀ other : Int, (unit : Int) ∣ other →
      other.sign = n.sign → n.natAbs ≤ other.natAbs → r.natAbs ≤ other.natAbs
  | .down => ((r ≠ 0 → r.sign = n.sign) ∧ r.natAbs ≤ n.natAbs) ∧ ∀ other : Int, (unit : Int) ∣ other →
      other.natAbs ≤ n.natAbs → other.natAbs ≤ r.natAbs

theorem multiples_apart {x y : Int} (one : (unit : Int) ∣ x) (two : (unit : Int) ∣ y) : x = y ∨ x + unit ≤ y ∨ y + unit ≤ x := by
  obtain ⟨i,rfl⟩ := one
  obtain ⟨j,rfl⟩ := two
  rcases Int.lt_trichotomy i j with less | rfl | more
  · refine .inr (.inl ?_)
    calc (unit : Int) * i + unit = unit * (i + 1) := by ring
      _ ≤ unit * j := Int.mul_le_mul_of_nonneg_left less (Int.natCast_nonneg unit)
  · exact .inl rfl
  · refine .inr (.inr ?_)
    calc (unit : Int) * j + unit = unit * (j + 1) := by ring
      _ ≤ unit * i := Int.mul_le_mul_of_nonneg_left more (Int.natCast_nonneg unit)

theorem sign_same {x y : Int} : x.sign = y.sign ↔ (0 < x ↔ 0 < y) ∧ (x < 0 ↔ y < 0) := by
  have side (z : Int) : z.sign = if 0 < z then 1 else if z < 0 then -1 else 0 := by
    rcases Int.lt_trichotomy z 0 with below | rfl | above
    · rw [Int.sign_eq_neg_one_of_neg below,if_neg (by omega),if_pos below]
    · rfl
    · rw [Int.sign_eq_one_of_pos above,if_pos above]
  rw [side,side]
  omega

theorem picks_opposite (picks : mode.Picks unit n r) : mode.Picks unit (-n) (-r) := by
  obtain ⟨multiple,best⟩ := picks
  refine ⟨Int.dvd_neg.mpr multiple,?_⟩
  cases mode with
  | half =>
    intro other divides
    have known := best (-other) (Int.dvd_neg.mpr divides)
    omega
  | up =>
    dsimp only at best ⊢
    simp only [sign_same] at best ⊢
    refine ⟨by omega,fun other divides side reaches => ?_⟩
    have known := best.2 (-other) (Int.dvd_neg.mpr divides) (by omega) (by omega)
    omega
  | down =>
    dsimp only at best ⊢
    simp only [sign_same] at best ⊢
    refine ⟨by omega,fun other divides reached => ?_⟩
    have known := best.2 other divides (by omega)
    omega

theorem picks_natural (mode : Rounding) (a : Nat) (some : 0 < unit) :
    mode.Picks unit (a : Int) ((roundQuotient mode a unit * unit : Nat) : Int) := by
  have parts : unit * (a / unit) + a % unit = a := Nat.div_add_mod a unit
  have small : a % unit < unit := Nat.mod_lt a some
  have next : (a / unit + 1) * unit = unit * (a / unit) + unit := by ring
  have here : a / unit * unit = unit * (a / unit) := Nat.mul_comm _ _
  have base : (unit : Int) ∣ ((unit * (a / unit) : Nat) : Int) := Int.natCast_dvd_natCast.mpr ⟨_,rfl⟩
  refine ⟨Int.natCast_dvd_natCast.mpr ⟨_,Nat.mul_comm _ _⟩,?_⟩
  unfold roundQuotient
  generalize a % unit = rest at *
  cases mode with
  | half =>
    intro other divides
    have apart := multiples_apart base divides
    dsimp only
    split
    · rw [next]
      generalize unit * (a / unit) = q at *
      omega
    · rw [here]
      generalize unit * (a / unit) = q at *
      omega
  | up =>
    simp only [sign_same]
    split
    · rw [here]
      generalize unit * (a / unit) = q at *
      exact ⟨by omega,fun other divides side reaches => by omega⟩
    · rw [next]
      generalize unit * (a / unit) = q at *
      refine ⟨by omega,fun other divides side reaches => ?_⟩
      have apart := multiples_apart base divides
      omega
  | down =>
    simp only [sign_same]
    rw [here]
    generalize unit * (a / unit) = q at *
    refine ⟨by omega,fun other divides reached => ?_⟩
    have apart := multiples_apart base divides
    have apart' := multiples_apart base (Int.dvd_neg.mpr divides)
    omega

theorem picks_whole (mode : Rounding) (n : Int) (some : 0 < unit) :
    mode.Picks unit n (if n < 0 then -(roundQuotient mode n.natAbs unit * unit : Nat) else (roundQuotient mode n.natAbs unit * unit : Nat)) := by
  have natural := picks_natural mode n.natAbs some
  split
  · have opposite := picks_opposite natural
    rwa [show -(n.natAbs : Int) = n by omega] at opposite
  · rwa [show (n.natAbs : Int) = n by omega] at natural

def Converts (r : Int) (x : Float) : Prop :=
  ∃ negative, (r ≠ 0 → negative = decide (r < 0)) ∧ x = (⟨negative,r.natAbs,0⟩ : Scaled).toFloat

-- A count of places to the left, in 64 bits: one that they do not hold stops at the least number.
def leftward (k : Nat) : Int64 := Int64.ofInt (max (-(2 ^ 63)) (-(k : Int)))

theorem toInt_leftward (k : Nat) : (leftward k).toInt = max (-(2 ^ 63)) (-(k : Int)) :=
  Int64.toInt_ofInt_of_le (by omega) (by omega)

theorem toInt_neg_leftward (k : Nat) : (-leftward k).toInt = if k < 2 ^ 63 then (k : Int) else -(2 ^ 63) := by
  rw [Int64.toInt_neg,toInt_leftward]
  split
  · rw [show -max (-(2 ^ 63)) (-(k : Int)) = k by omega]
    exact Int.bmod_eq_of_le (by omega) (by omega)
  · rw [show -max (-(2 ^ 63)) (-(k : Int)) = 2 ^ 63 by omega]
    rfl

theorem neg_leftward_exact (k : Nat) : (-leftward k).toInt = -(leftward k).toInt ↔ k < 2 ^ 63 := by
  rw [toInt_neg_leftward,toInt_leftward]
  split <;> omega

theorem leftPlaces_leftward (k : Nat) : leftPlaces (leftward k) = if k ≤ 18 then some k else none := by
  unfold leftPlaces
  rw [toInt_neg_leftward]
  dsimp only
  by_cases few : k ≤ 18
  · rw [if_pos (by omega : k < 2 ^ 63),if_pos (by omega),if_pos few,Int.toNat_natCast]
  · rw [if_neg few,if_neg]
    split <;> omega

theorem leftward_negative (some : 0 < k) : ¬ 0 ≤ leftward k := by
  rw [Int64.le_iff_toInt_le,toInt_leftward]
  change ¬ (0 : Int) ≤ _
  omega

theorem roundQuotient_one (mode : Rounding) (a : Nat) : roundQuotient mode a 1 = a := by
  unfold roundQuotient
  rw [Nat.div_one,Nat.mod_one]
  cases mode <;> rfl

theorem roundQuotient_le (mode : Rounding) (a unit : Nat) : roundQuotient mode a unit * unit ≤ a + unit := by
  have quotient : a / unit * unit ≤ a := Nat.div_mul_le_self a unit
  have next : (a / unit + 1) * unit = a / unit * unit + unit := Nat.succ_mul _ _
  unfold roundQuotient
  cases mode <;> dsimp only <;> try split
  all_goals omega

-- Up to the largest power of ten of 64 bits: divided, rounded and multiplied back without loss.
theorem round_near (mode : Rounding) (few : k ≤ 18) (exact : n.natAbs < countLimit) : round mode (leftward k) (Float.ofInt n) =
    (⟨decide (n < 0),roundQuotient mode n.natAbs (10 ^ k) * 10 ^ k,0⟩ : Scaled).toFloat := by
  unfold round
  rw [scaled_whole n exact]
  dsimp only
  cases k with
  | zero => rw [if_pos (by decide),Nat.pow_zero,roundQuotient_one,Nat.mul_one]; rfl
  | succ k =>
    have fits : roundQuotient mode n.natAbs (10 ^ (k + 1)) * 10 ^ (k + 1) < mantissaLimit := by
      have most : 10 ^ (k + 1) ≤ 10 ^ 18 := Nat.pow_le_pow_right (by decide) few
      have bound := roundQuotient_le mode n.natAbs (10 ^ (k + 1))
      have limits : countLimit + 10 ^ 18 < mantissaLimit := by decide
      omega
    rw [if_neg (leftward_negative k.succ_pos),leftPlaces_leftward,if_pos few]
    simp only [Scaled.shiftDown,Nat.zero_add,if_pos (show k + 1 ≤ scaleLimit from Nat.le_trans few (by decide)),Scaled.roundPlaces,
      if_neg (Nat.not_succ_le_zero k),Nat.sub_zero,Scaled.shiftUp,Nat.pow_eq,if_pos fits]

theorem round_far (mode : Rounding) (many : 18 < k) (exact : n.natAbs < countLimit) :
    round mode (leftward k) (Float.ofInt n) = 0.0 := by
  unfold round
  rw [scaled_whole n exact]
  dsimp only
  rw [if_neg (leftward_negative (by omega)),leftPlaces_leftward,if_neg (by omega)]

-- Where a power of ten no longer fits into 64 bits, rounding up is cut off.
def CutOff (mode : Rounding) (n : Int) (k : Nat) : Prop := mode = .up ∧ n ≠ 0 ∧ 18 < k

theorem roundQuotient_far (mode : Rounding) (many : 18 < k) (exact : n.natAbs < countLimit) (reached : ¬ CutOff mode n k) :
    roundQuotient mode n.natAbs (10 ^ k) = 0 := by
  have great : 2 * countLimit < 10 ^ k := Nat.lt_of_lt_of_le (by decide) (Nat.pow_le_pow_right (by decide) many)
  unfold roundQuotient
  rw [Nat.div_eq_of_lt (by omega),Nat.mod_eq_of_lt (by omega)]
  cases mode with
  | half => exact if_neg (by omega)
  | up =>
    have zero : n.natAbs = 0 := by
      by_contra some
      exact reached ⟨rfl,Int.natAbs_ne_zero.mp some,many⟩
    exact if_pos zero
  | down => rfl

def Rounding.function : Rounding → Function
  | .half => .round
  | .up => .roundUp
  | .down => .roundDown

theorem apply_function (mode : Rounding) (x digits : Float) :
    Library.apply mode.function [.value (.number x),.value (.number digits)] = .done (.number (round mode (toWord digits) x)) := by
  cases mode <;> rfl

theorem toWord_leftward {digits : Float} (asked : toInt digits = -(k : Int)) : toWord digits = leftward k := by
  have limit : Int.ofNat (Nat.pow 2 63) = 2 ^ 63 := rfl
  unfold toWord leftward
  dsimp only
  rw [asked,limit]
  congr 1
  omega

-- Rounding a whole number left of the point. Whatever the count of places, the result is the multiple of the
-- power of ten that the mode picks, unless rounding up is cut off: then nothing is left. The count is turned
-- around without loss unless it is the least number of 64 bits, to which greater ones come too.
theorem rounds_left (mode : Rounding) (n : Int) (k : Nat) (exact : n.natAbs < countLimit) :
    (¬ CutOff mode n k → ∃ r, mode.Picks (10 ^ k) n r ∧ Converts r (round mode (leftward k) (Float.ofInt n))) ∧
    (CutOff mode n k → round mode (leftward k) (Float.ofInt n) = 0.0) ∧
    ((-leftward k).toInt = -(leftward k).toInt ↔ k < 2 ^ 63) ∧
    ∀ digits, toInt digits = -(k : Int) →
      Library.apply mode.function [.value (.number (Float.ofInt n)),.value (.number digits)] =
        .done (.number (round mode (leftward k) (Float.ofInt n))) := by
  refine ⟨fun reached => ⟨_,picks_whole mode n (Nat.pow_pos (by decide)),?_⟩,fun cut => round_far mode cut.2.2 exact,
    neg_leftward_exact k,fun digits asked => by rw [apply_function,toWord_leftward asked]⟩
  by_cases few : k ≤ 18
  · refine ⟨decide (n < 0),fun some => ?_,?_⟩
    · split at some
      · rename_i below
        rw [if_pos below,decide_eq_true below,eq_comm,decide_eq_true_eq]
        omega
      · rename_i above
        rw [if_neg above,decide_eq_false above,eq_comm,decide_eq_false_iff_not]
        omega
    · rw [round_near mode few exact]
      congr 2
      split <;> omega
  · have zero := roundQuotient_far mode (by omega) exact reached
    refine ⟨false,fun some => ?_,?_⟩
    · exact absurd (by rw [zero]; split <;> omega) some
    · rw [round_far mode (by omega) exact,zero,Nat.zero_mul]
      split <;> rfl

theorem rounds_left_last : (-9007199254740991 : Int).natAbs < countLimit ∧
    (∃ r, Rounding.up.Picks (10 ^ 18) (-9007199254740991) r ∧
      Converts r (round .up (leftward 18) (Float.ofInt (-9007199254740991)))) ∧
    ∃ r, Rounding.half.Picks (10 ^ 400) (-9007199254740991) r ∧
      Converts r (round .half (leftward 400) (Float.ofInt (-9007199254740991))) := by
  have exact : (-9007199254740991 : Int).natAbs < countLimit := by decide
  exact ⟨exact,(rounds_left .up _ 18 exact).1 fun cut => absurd cut.2.2 (by decide),
    (rounds_left .half _ 400 exact).1 fun cut => by cases cut.1⟩

-- 1 rounded up to 19 places left of the point is 10 ^ 19, not 0; and the least number of 64 bits has no opposite.
theorem rounds_left_cut : (¬ ∃ r, Rounding.up.Picks (10 ^ 19) 1 r ∧ Converts r (round .up (leftward 19) (Float.ofInt 1))) ∧
    (-leftward (2 ^ 63)).toInt ≠ -(leftward (2 ^ 63)).toInt := by
  refine ⟨?_,fun same => absurd ((neg_leftward_exact _).mp same) (by decide)⟩
  rintro ⟨r,⟨multiple,⟨side,-⟩,least⟩,negative,same,converts⟩
  have most := least (10 ^ 19) (by decide) (by decide) (by decide)
  have above : 0 < r := Int.sign_eq_one_iff_pos.mp side
  obtain rfl : r = 10 ^ 19 := by
    obtain ⟨i,rfl⟩ := multiple
    omega
  rw [same (by decide)] at converts
  revert converts
  decide

end Recalc.Decimal
