import Recalc.Proofs.Model.Evaluate.Steady

namespace Recalc

theorem Run.bind_at {σ α β : Type} (x : ExceptT FormulaError (StateM σ) α) (f : α → ExceptT FormulaError (StateM σ) β) (s : σ) :
    (x >>= f) s = match x s with
    | (.ok a,s') => f a s'
    | (.error e,s') => (.error e,s') := by
  change ExceptT.bindCont f (x s).1 (x s).2 = _
  rcases x s with ⟨r | a,s'⟩ <;> rfl

namespace Model

abbrev Reading (α : Type) := (NodeId → Except FormulaError Value) → Except FormulaError α

def Gradual {α : Type} (result : Reading α) : Prop := ∀ c c', Below c c' → Sharpens (result c) (result c')

-- As long as `y` has no value there is no result; where `y` fails, the result is that failure.
structure Hinges {α : Type} (m : Model) (inputs : NodeId → Option Value) (result : Reading α) (y : NodeId) :
    Prop where
  pending : ∀ n, m.scratch inputs n y = circle → result (m.scratch inputs n) = circle
  fails : ∀ n e, e.isTagged = true → (.error e : Except FormulaError Value) ≠ circle →
    m.scratch inputs n y = .error e → ∃ k, result (m.scratch inputs k) = .error e

-- What an error of a run tells: a suspended one names a cell that has to come first, a
-- circle has no result at any depth, and any other is the failure of evaluation from scratch.
def Fails {α : Type} (m m' : Model) (inputs : NodeId → Option Value) (result : Reading α) : FormulaError → Prop
  | .suspended address _ => ∃ y c, m'.cell? y = some c ∧ c.address = address ∧ c.dirty = true ∧
      c.evaluating = false ∧ m.Hinges inputs result y
  | .circularReference _ _ => (∀ n, result (m.scratch inputs n) = circle) ∨
      ∃ z, m'.isEvaluating z = true ∧ m.Hinges inputs result z
  | e => ∃ n, result (m.scratch inputs n) = .error e.kind

def Foretold {α : Type} (m m' : Model) (inputs : NodeId → Option Value) (result : Reading α) :
    Except FormulaError α → Prop
  | .ok a => result (known m'.settled) = .ok a
  | .error e => Fails m m' inputs result e

structure Follows {α : Type} (o : Model) (inputs : NodeId → Option Value) (m : Model) (result : Reading α)
    (ran : Except FormulaError α × Model) : Prop where
  steady : m.Steady ran.2
  grounded : o.Grounded inputs ran.2.settled
  foretold : o.Foretold ran.2 inputs result ran.1

structure Tracks {α : Type} (o : Model) (inputs : NodeId → Option Value) (x : Run α) (result : Reading α) :
    Prop where
  gradual : Gradual result
  follows : ∀ m, m.outline = o.outline → o.Grounded inputs m.settled → o.Follows inputs m result (x m)

section
variable {α β : Type} {o m m' : Model} {inputs : NodeId → Option Value} {result : Reading α} {further : Reading β}

theorem Hinges.through (alike : ∀ c e, result c = .error e → e.isTagged = true → further c = .error e)
    (hinges : o.Hinges inputs result y) : o.Hinges inputs further y := by
  constructor
  · intro n none
    exact alike _ _ (hinges.pending n none) rfl
  · intro n e tagged ends failed
    obtain ⟨k,there⟩ := hinges.fails n e tagged ends failed
    exact ⟨k,alike _ _ there tagged⟩

theorem Fails.through (alike : ∀ c e, result c = .error e → further c = .error e)
    (fails : o.Fails m' inputs result e) : o.Fails m' inputs further e := by
  cases e with
  | suspended address depth =>
    obtain ⟨y,c,found,named,dirty,idle,hinges⟩ := fails
    exact ⟨y,c,found,named,dirty,idle,hinges.through fun c e failed _ => alike c e failed⟩
  | circularReference cell stack =>
    rcases fails with never | ⟨z,evaluating,hinges⟩
    · exact .inl fun n => alike _ _ (never n)
    · exact .inr ⟨z,evaluating,hinges.through fun c e failed _ => alike c e failed⟩
  | _ =>
    obtain ⟨n,there⟩ := fails
    exact ⟨n,alike _ _ there⟩

-- A result found from known values stands at every great enough depth.
theorem Gradual.stands (gradual : Gradual result) (grounded : o.Grounded inputs values)
    (found : result (known values) = .ok a) : ∃ k, ∀ n, k ≤ n → result (o.scratch inputs n) = .ok a := by
  obtain ⟨k,below⟩ := grounded.scratch
  exact ⟨k,fun n deep => (gradual _ _ (below.trans (o.scratch_below inputs deep))).ok found⟩

theorem Gradual.error_stands (gradual : Gradual result) (ends : (.error e : Except FormulaError α) ≠ circle)
    (failed : result (o.scratch inputs k) = .error e) (deep : k ≤ n) : result (o.scratch inputs n) = .error e :=
  (gradual _ _ (o.scratch_below inputs deep)).error failed ends

section
variable {next : α → Reading β} {a : α} (first : Gradual result) (second : Gradual (next a))
  (stands : ∃ k, ∀ n, k ≤ n → result (o.scratch inputs n) = .ok a)
include first second stands

omit first in
theorem error_after (ends : (.error e : Except FormulaError β) ≠ circle)
    (failed : next a (o.scratch inputs j) = .error e) :
    ∃ k, (result (o.scratch inputs k) >>= fun a => next a (o.scratch inputs k)) = .error e := by
  obtain ⟨k,stands⟩ := stands
  refine ⟨max j k,?_⟩
  simp only [stands _ (Nat.le_max_right j k)]
  exact second.error_stands ends failed (Nat.le_max_left j k)

omit second in
theorem circle_after (never : next a (o.scratch inputs n) = circle) :
    (result (o.scratch inputs n) >>= fun a => next a (o.scratch inputs n)) = circle := by
  obtain ⟨k,stands⟩ := stands
  have sharper := first _ _ (o.scratch_below inputs (Nat.le_max_left n k))
  rw [stands _ (Nat.le_max_right n k)] at sharper
  rcases sharper with early | same
  · rw [early]
    rfl
  · rw [← same]
    exact never

theorem Hinges.after (hinges : o.Hinges inputs (next a) y) :
    o.Hinges inputs (fun c => result c >>= fun a => next a c) y := by
  constructor
  · intro n none
    exact circle_after first stands (hinges.pending n none)
  · intro n e tagged ends failed
    obtain ⟨j,there⟩ := hinges.fails n e tagged ends failed
    exact error_after second stands (by simpa [circle] using ends) there

theorem Fails.after (fails : o.Fails m' inputs (next a) e) :
    o.Fails m' inputs (fun c => result c >>= fun a => next a c) e := by
  cases e with
  | suspended address depth =>
    obtain ⟨y,c,found,named,dirty,idle,hinges⟩ := fails
    exact ⟨y,c,found,named,dirty,idle,hinges.after first second stands⟩
  | circularReference cell stack =>
    rcases fails with never | ⟨z,evaluating,hinges⟩
    · exact .inl fun n => circle_after first stands (never n)
    · exact .inr ⟨z,evaluating,hinges.after first second stands⟩
  | _ =>
    obtain ⟨j,there⟩ := fails
    exact error_after second stands (by simp [circle,FormulaError.kind]) there

end

end

namespace Tracks
variable {α β : Type} {o : Model} {inputs : NodeId → Option Value} {x : Run α} {result : Reading α}

theorem pure (a : α) : o.Tracks inputs (Pure.pure a) fun _ => .ok a :=
  ⟨fun _ _ _ => .refl _,fun m _ grounded => ⟨.refl m,grounded,rfl⟩⟩

theorem bind {f : α → Run β} {next : α → Reading β} (tracks : o.Tracks inputs x result)
    (rest : ∀ a, o.Tracks inputs (f a) (next a)) :
    o.Tracks inputs (x >>= f) fun c => result c >>= fun a => next a c := by
  refine ⟨fun c c' below => (tracks.gradual c c' below).bind fun a => (rest a).gradual c c' below,?_⟩
  intro m same grounded
  have first := tracks.follows m same grounded
  rw [Run.bind_at]
  generalize x m = ran at first
  obtain ⟨r,m'⟩ := ran
  cases r with
  | error e =>
    exact ⟨first.steady,first.grounded,first.foretold.through fun c e failed => by rw [failed]; rfl⟩
  | ok a =>
    have second := (rest a).follows m' (first.steady.outline.trans same) first.grounded
    refine ⟨first.steady.trans second.steady,second.grounded,?_⟩
    have stands := tracks.gradual.stands first.grounded first.foretold
    have foretold := second.foretold
    dsimp only
    generalize f a m' = ran at foretold second
    obtain ⟨r,m''⟩ := ran
    cases r with
    | error e => exact foretold.after tracks.gradual (rest a).gradual stands
    | ok b =>
      have kept : Below (known m'.settled) (known m''.settled) :=
        known_below fun id v found => second.steady.settled found
      have found := (tracks.gradual _ _ kept).ok first.foretold
      change (result (known m''.settled) >>= fun a => next a (known m''.settled)) = .ok b
      rw [found]
      exact foretold

theorem mapM {f : α → Run β} {next : α → Reading β} (each : ∀ a, o.Tracks inputs (f a) (next a)) (as : List α) :
    o.Tracks inputs (as.mapM f) fun c => as.mapM fun a => next a c := by
  induction as with
  | nil => exact pure []
  | cons a as ih =>
    simp only [List.mapM_cons]
    exact (each a).bind fun b => ih.bind fun bs => pure (b :: bs)

theorem ofExcept {f : Model → Except FormulaError α} (told : ∀ m, m.outline = o.outline → f m = r)
    (untagged : ∀ e, r = .error e → e.isTagged = false) : o.Tracks inputs (Run.ofExcept f) fun _ => r := by
  refine ⟨fun _ _ _ => .refl _,fun m same grounded => ?_⟩
  have ran : Run.ofExcept f m = (r,m) := by simp [Run.ofExcept,told m same]
  rw [ran]
  refine ⟨.refl m,grounded,?_⟩
  cases r with
  | ok a => rfl
  | error e =>
    have plain := untagged e rfl
    have kind := FormulaError.kind_untagged plain
    cases e <;> first | exact ⟨0,by rw [kind]⟩ | simp [FormulaError.isTagged] at plain

end Tracks

end Model
end Recalc
