import Mathlib
import Recalc.Operator

namespace Recalc
open Float.Model
open Value (compareNumbers)

def numberParts (n : Float) : UnpackedFloat := n.toModel.unpack

theorem sign_swap (s t : UnpackedFloat.Sign) : (compare s t).swap = compare t s := by cases s <;> cases t <;> rfl

theorem size_swap (e f : Int) (m n : Nat) : ((compare e f).then (compare m n)).swap = (compare f e).then (compare n m) := by
  rw [Ordering.swap_then,Int.compare_swap,Nat.compare_swap]

theorem parts_swap (x y : UnpackedFloat) : (x.compare y).map Ordering.swap = y.compare x := by
  fun_cases UnpackedFloat.compare x y with
  | case1 => cases y <;> rfl
  | case3 s t => exact congrArg some (sign_swap s t)
  | case13 m e _ n f _ =>
    rw [Option.map_some,size_swap]
    rfl
  | case16 m e _ n f _ => exact congrArg some (size_swap e f m n)
  | _ => simp_all [UnpackedFloat.compare]

theorem parts_none {x y : UnpackedFloat} : x.compare y = none ↔ x.isNaN = true ∨ y.isNaN = true := by
  fun_cases UnpackedFloat.compare x y with
  | case1 => simp [UnpackedFloat.isNaN]
  | case2 => simp [UnpackedFloat.isNaN]
  | _ => simp [UnpackedFloat.isNaN]

theorem less_parts (a b : Float) : a < b ↔ (numberParts a).compare (numberParts b) = some .lt := by
  change (decide (Float.Model.lt _ _ = true)) = true ↔ _
  rw [decide_eq_true_iff]
  exact beq_iff_eq

theorem equal_parts (a b : Float) : (a == b) = true ↔ (numberParts a).compare (numberParts b) = some .eq := by
  change ((numberParts a).compare (numberParts b) == some Ordering.eq) = true ↔ _
  rw [beq_iff_eq]

-- The three tests that are made one after the other are one comparison.
theorem compareNumbers_parts (a b : Float) : compareNumbers a b = (numberParts a).compare (numberParts b) := by
  unfold compareNumbers
  simp only [less_parts,equal_parts]
  rw [← parts_swap (numberParts a)]
  cases (numberParts a).compare (numberParts b) with
  | none => rfl
  | some o => cases o <;> rfl

theorem compareNumbers_swap (a b : Float) : (compareNumbers a b).map Ordering.swap = compareNumbers b a := by
  rw [compareNumbers_parts,compareNumbers_parts,parts_swap]

theorem compareNumbers_none {a b : Float} : compareNumbers a b = none ↔ a.isNaN = true ∨ b.isNaN = true := by
  rw [compareNumbers_parts]
  exact parts_none

theorem compareNumbers_total {a b : Float} (left : a.isNaN = false) (right : b.isNaN = false) : ∃ o, compareNumbers a b = some o := by
  refine Option.ne_none_iff_exists'.mp fun none => ?_
  rcases compareNumbers_none.mp none with nan | nan
  · exact absurd (left.symm.trans nan) nofun
  · exact absurd (right.symm.trans nan) nofun

theorem compareNumbers_eq {a b : Float} : compareNumbers a b = some .eq ↔ (a == b) = true := by
  rw [compareNumbers_parts,equal_parts]

theorem numbers_comm (a b : Float) : (a == b) = (b == a) := by
  rw [Bool.eq_iff_iff,← compareNumbers_eq,← compareNumbers_eq,← compareNumbers_swap a b]
  cases compareNumbers a b with
  | none => simp
  | some o => cases o <;> simp

theorem self_equal (n : Float) : (n == n) = !n.isNaN := by
  cases number : n.isNaN with
  | true =>
    refine Bool.eq_false_iff.mpr fun same => ?_
    rw [← compareNumbers_eq,compareNumbers_none.mpr (.inl number)] at same
    cases same
  | false =>
    obtain ⟨o,compared⟩ := compareNumbers_total number number
    have swapped := compareNumbers_swap n n
    rw [compared,Option.map_some,Option.some.injEq] at swapped
    refine compareNumbers_eq.mp (compared.trans ?_)
    cases o <;> [cases swapped; rfl; cases swapped]

end Recalc
