import Recalc.Proofs.Decimal.NumberOrder

namespace Recalc
open Float.Model
open Value (compareNumbers)
variable {x y : UnpackedFloat} {a b c : Float}

-- A number lies on the line by its side of zero, then by its exponent, then by its mantissa.
def lineSide : UnpackedFloat → Int
  | .infinity .negative => -2
  | .finite .negative _ _ _ => -1
  | .finite .positive _ _ _ => 1
  | .infinity .positive => 2
  | _ => 0

def lineExponent : UnpackedFloat → Int
  | .finite .negative _ e _ => -e
  | .finite .positive _ e _ => e
  | _ => 0

def lineMantissa : UnpackedFloat → Int
  | .finite .negative m _ _ => -m
  | .finite .positive m _ _ => m
  | _ => 0

def lineOrder : UnpackedFloat → UnpackedFloat → Ordering :=
  compareLex (compareOn lineSide) (compareLex (compareOn lineExponent) (compareOn lineMantissa))

theorem compare_opposites (i j : Int) : compare (-i) (-j) = compare j i := by
  simp only [Int.compare_eq_ite_lt,Int.neg_lt_neg_iff]

theorem compare_counts (m n : Nat) : compare (m : Int) (n : Int) = compare m n := by
  simp only [Int.compare_eq_ite_lt,Nat.compare_eq_ite_lt,Int.ofNat_lt]

theorem parts_line (left : x.isNaN = false) (right : y.isNaN = false) : x.compare y = some (lineOrder x y) := by
  cases x with
  | notANumber => cases left
  | infinity s => cases y with
    | notANumber => cases right
    | infinity t => cases s <;> cases t <;> rfl
    | zero t => cases s <;> rfl
    | finite t n f filled => cases s <;> cases t <;> rfl
  | zero s => cases y with
    | notANumber => cases right
    | infinity t => cases t <;> rfl
    | zero t => rfl
    | finite t n f filled => cases t <;> rfl
  | finite s m e filled => cases y with
    | notANumber => cases right
    | infinity t => cases s <;> cases t <;> rfl
    | zero t => cases s <;> rfl
    | finite t n f filled => cases s with
      | positive => cases t with
        | positive =>
          change _ = some ((compare e f).then (compare (m : Int) (n : Int)))
          rw [compare_counts]
          rfl
        | negative => rfl
      | negative => cases t with
        | positive => rfl
        | negative =>
          change _ = some ((compare (-e) (-f)).then (compare (-(m : Int)) (-(n : Int))))
          rw [compare_opposites,compare_opposites,compare_counts,← size_swap]
          rfl

theorem compareNumbers_line (left : a.isNaN = false) (right : b.isNaN = false) :
    compareNumbers a b = some (lineOrder (numberParts a) (numberParts b)) := by
  rw [compareNumbers_parts]
  exact parts_line left right

theorem compareNumbers_number {o : Ordering} (compared : compareNumbers a b = some o) : a.isNaN = false ∧ b.isNaN = false := by
  refine ⟨Bool.eq_false_iff.mpr fun nan => ?_,Bool.eq_false_iff.mpr fun nan => ?_⟩
  · rw [compareNumbers_none.mpr (.inl nan)] at compared
    cases compared
  · rw [compareNumbers_none.mpr (.inr nan)] at compared
    cases compared

theorem less_iff : a < b ↔ compareNumbers a b = some .lt := by rw [less_parts,compareNumbers_parts]

theorem atMost_iff : a ≤ b ↔ ∃ o, compareNumbers a b = some o ∧ o.isLE = true := by
  rw [compareNumbers_parts]
  change (decide (Float.Model.le _ _ = true)) = true ↔ _
  rw [decide_eq_true_iff]
  exact Option.any_eq_true _ _

theorem finite_number (finite : a.isFinite = true) : a.isNaN = false := by
  change (numberParts a).isFinite = true at finite
  change (numberParts a).isNaN = false
  cases parts : numberParts a with
  | notANumber =>
    rw [parts] at finite
    cases finite
  | _ => rfl

instance : Std.TransCmp lineOrder :=
  inferInstanceAs (Std.TransCmp (compareLex (compareOn lineSide) (compareLex (compareOn lineExponent) (compareOn lineMantissa))))

section
variable (first : a.isNaN = false) (second : b.isNaN = false)
include first second

theorem less_line : a < b ↔ lineOrder (numberParts a) (numberParts b) = .lt := by
  rw [less_iff,compareNumbers_line first second,Option.some.injEq]

theorem atMost_line : a ≤ b ↔ (lineOrder (numberParts a) (numberParts b)).isLE = true := by
  rw [atMost_iff,compareNumbers_line first second]
  simp

theorem atMost_not : a ≤ b ↔ ¬ b < a := by
  have swapped : lineOrder (numberParts b) (numberParts a) = (lineOrder (numberParts a) (numberParts b)).swap := Std.OrientedCmp.eq_swap
  rw [atMost_line first second,less_line second first,swapped]
  cases lineOrder (numberParts a) (numberParts b) <;> simp

end

theorem atMost_total (first : a.isNaN = false) (second : b.isNaN = false) : a ≤ b ∨ b ≤ a := by
  obtain ⟨o,compared⟩ := compareNumbers_total first second
  have up : a ≤ b ↔ o.isLE = true := by simp [atMost_iff,compared]
  have down : b ≤ a ↔ o.swap.isLE = true := by simp [atMost_iff,← compareNumbers_swap a,compared]
  rw [up,down]
  cases o <;> simp

theorem atMost_numbers (low : a ≤ b) : a.isNaN = false ∧ b.isNaN = false := by
  obtain ⟨o,compared,-⟩ := atMost_iff.mp low
  exact compareNumbers_number compared

theorem atMost_trans (one : a ≤ b) (two : b ≤ c) : a ≤ c := by
  obtain ⟨left,middle⟩ := atMost_numbers one
  have right := (atMost_numbers two).2
  rw [atMost_line left middle] at one
  rw [atMost_line middle right] at two
  exact (atMost_line left right).mpr (Std.TransCmp.isLE_trans one two)

theorem equal_atMost (same : (a == b) = true) : a ≤ b := atMost_iff.mpr ⟨_,compareNumbers_eq.mpr same,rfl⟩

theorem atMost_both : (a ≤ b ∧ b ≤ a) ↔ (a == b) = true := by
  refine ⟨fun ⟨one,two⟩ => ?_,fun same => ⟨equal_atMost same,equal_atMost ((numbers_comm b a).trans same)⟩⟩
  obtain ⟨o,compared,low⟩ := atMost_iff.mp one
  obtain ⟨o',compared',high⟩ := atMost_iff.mp two
  rw [← compareNumbers_swap,compared,Option.map_some,Option.some.injEq] at compared'
  subst compared'
  refine compareNumbers_eq.mp (compared.trans ?_)
  cases o with
  | lt => cases high
  | eq => rfl
  | gt => cases low

theorem atMost_refl (number : a.isNaN = false) : a ≤ a := equal_atMost ((self_equal a).trans (by rw [number]; rfl))

end Recalc
