import Mathlib.Order.Filter.AtTopBot.Basic
import Mathlib.Order.Filter.Finite
import Recalc.Proofs.Model.Session.Session

namespace Recalc

-- What a growing sequence of approximations comes to in the end.
def Comes {α : Type} (f : Nat → Except FormulaError α) (r : Except FormulaError α) : Prop := ∃ n, ∀ k, n ≤ k → f k = r

namespace Comes
variable {α : Type} {f g : Nat → Except FormulaError α} {r r' : Except FormulaError α}

theorem eq (one : Comes f r) (two : Comes f r') : r = r' := by
  obtain ⟨n,here⟩ := one
  obtain ⟨k,there⟩ := two
  rw [← here (max n k) (Nat.le_max_left n k),there (max n k) (Nat.le_max_right n k)]

theorem of_grows (grows : ∀ n k, n ≤ k → Sharpens (f n) (f k)) (ends : r ≠ circle) (found : f n = r) : Comes f r := by
  refine ⟨n,fun k deep => ?_⟩
  rcases grows n k deep with never | same
  · exact absurd (found.symm.trans never) ends
  · exact same.trans found

section
variable (grows : ∀ n k, n ≤ k → Sharpens (g n) (g k)) (passes : ∀ n, ∃ k, Sharpens (f n) (g k))
include grows passes

theorem passed (ends : r ≠ circle) (comes : Comes f r) : Comes g r := by
  obtain ⟨n,found⟩ := comes
  obtain ⟨k,sharper⟩ := passes n
  rw [found n (Nat.le_refl n)] at sharper
  exact .of_grows grows ends (sharper.resolve_left ends)

theorem same (grown : ∀ n k, n ≤ k → Sharpens (f n) (f k)) (back : ∀ n, ∃ k, Sharpens (g n) (f k)) (one : Comes f r)
    (two : Comes g r') : r = r' := by
  by_cases never : r = circle
  · by_cases ends : r' = circle
    · rw [never,ends]
    · exact one.eq (passed grown back ends two)
  · exact (passed grows passes never one).eq two

end
end Comes

theorem mapError_ok {r : Except FormulaError α} {f : FormulaError → FormulaError} (same : r.mapError f = .ok v) : r = .ok v := by
  cases r with
  | error e => cases same
  | ok w => exact same

namespace Model
variable {o m : Model} {inputs inputs' : NodeId → Option Value} {id : NodeId}

theorem nodeValue_grows (o : Model) (inputs : NodeId → Option Value) (id : NodeId) (n k : Nat) (deep : n ≤ k) :
    Sharpens (o.nodeValue (o.scratch inputs n) id) (o.nodeValue (o.scratch inputs k) id) :=
  o.nodeValue_sharpens (o.scratch_below inputs deep) id

theorem Evaluates.comes {ran : Except FormulaError Value × Model} (evaluates : o.Evaluates inputs m id ran) :
    Comes (fun n => o.nodeValue (o.scratch inputs n) id) (ran.1.mapError FormulaError.kind) := by
  have grows := o.nodeValue_grows inputs id
  cases outcome : ran.1 with
  | ok v =>
    obtain ⟨n,below⟩ := evaluates.grounded.scratch
    exact .of_grows grows (by simp [Except.mapError,circle])
      ((o.nodeValue_sharpens below id).ok (evaluates.value v outcome))
  | error e =>
    have stops := evaluates.error e outcome
    cases e with
    | suspended address depth => exact stops.elim
    | circularReference cell stack =>
      rcases stops with never | ⟨z,listed,-⟩
      · exact ⟨0,fun k _ => never k⟩
      · cases listed
    | _ =>
      obtain ⟨n,found⟩ := stops
      exact .of_grows grows (by simp [Except.mapError,circle,FormulaError.kind]) found

theorem scratch_given (given : inputs id = some v) (n : Nat) : o.scratch inputs (n + 1) id = .ok v := by
  simp [scratch,given]

section
variable (more : ∀ id v, inputs id = some v → inputs' id = some v)
include more

theorem free_of_more (free : inputs' id = none) : inputs id = none := by
  cases given : inputs id with
  | none => rfl
  | some v => simp [more id v given] at free

theorem scratch_more_below (restored : ∀ id v, inputs' id = some v → o.scratch inputs depth id = .ok v) (n : Nat) :
    Below (o.scratch inputs' n) (o.scratch inputs (depth + n)) := by
  induction n with
  | zero => exact fun id => .circle_left _
  | succ n ih =>
    intro id
    cases given : inputs' id with
    | some v =>
      have below := o.scratch_below inputs (Nat.le_add_right depth (n + 1)) id
      exact .inr ((below.ok (restored id v given)).trans (scratch_given given n).symm)
    | none =>
      rw [scratch_unknown o given,← Nat.add_assoc,scratch_unknown o (free_of_more more given)]
      exact o.derive_sharpens ih id

theorem scratch_below_more (restored : ∀ id v, inputs' id = some v → o.scratch inputs depth id = .ok v) (n : Nat) :
    Below (o.scratch inputs n) (o.scratch inputs' n) := by
  induction n with
  | zero => exact fun id => .circle_left _
  | succ n ih =>
    intro id
    cases given : inputs' id with
    | some v =>
      have value := (o.scratch_below inputs (Nat.le_max_left depth (n + 1)) id).ok (restored id v given)
      have sharper := o.scratch_below inputs (Nat.le_max_right depth (n + 1)) id
      rwa [value,← scratch_given given n] at sharper
    | none =>
      rw [scratch_unknown o given,scratch_unknown o (free_of_more more given)]
      exact o.derive_sharpens ih id

end

theorem restored_depth (cells : ∀ id v, inputs' id = some v → o.cell? id ≠ none)
    (restored : ∀ id v, inputs' id = some v → ∃ n, o.scratch inputs n id = .ok v) :
    ∃ depth, ∀ id v, inputs' id = some v → o.scratch inputs depth id = .ok v := by
  have each (id : NodeId) : ∀ᶠ n in Filter.atTop, ∀ v, inputs' id = some v → o.scratch inputs n id = .ok v := by
    cases given : inputs' id with
    | none => exact .of_forall fun n v none => by cases none
    | some v =>
      obtain ⟨n,found⟩ := restored id v given
      refine Filter.eventually_atTop.mpr ⟨n,?_⟩
      rintro k deep _ ⟨⟩
      exact (o.scratch_below inputs deep id).ok found
  obtain ⟨depth,all⟩ := ((Filter.eventually_all_finset (Finset.range o.nodes.length)).mpr fun id _ => each id).exists
  refine ⟨depth,fun id v given => all id ?_ v given⟩
  obtain ⟨c,found⟩ := Option.ne_none_iff_exists'.mp (cells id v given)
  exact Finset.mem_range.mpr (cell?_lt found)

end Model
end Recalc
