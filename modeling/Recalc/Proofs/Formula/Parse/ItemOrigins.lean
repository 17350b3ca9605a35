import Recalc.Formula.ReversePolish
import Recalc.Proofs.Address.Spelling

namespace Recalc.ReversePolish
namespace Yard

variable {p : Token → Prop} {pending pending' : List Token} {output output' items : List Item} {y z : Yard} {t : Token}

def Given (p : Token → Prop) (pending : List Token) (output : List Item) : Prop := (∀ t ∈ pending, p t) ∧ ∀ i ∈ output, p i.token

theorem Given.move (given : Given p (t :: pending) output) (n : Nat) : Given p pending (⟨t,n⟩ :: output) :=
  ⟨(List.forall_mem_cons.mp given.1).2,List.forall_mem_cons.mpr ⟨(List.forall_mem_cons.mp given.1).1,given.2⟩⟩

theorem Given.drop (given : Given p (t :: pending) output) : Given p pending output := ⟨(List.forall_mem_cons.mp given.1).2,given.2⟩

theorem given_popToStart (given : Given p pending output) : Given p (popToStart pending output).1 (popToStart pending output).2 := by
  induction pending generalizing output with
  | nil => exact given
  | cons t pending ih =>
    unfold popToStart
    split
    · exact given
    · exact ih (given.move 0)

theorem given_popOperators (given : Given p pending output) (popped : popOperators n pending output = .ok (pending',output')) :
    Given p pending' output' := by
  induction pending generalizing output with
  | nil =>
    cases popped
    exact given
  | cons t pending ih =>
    unfold popOperators at popped
    split at popped
    · obtain ⟨m,-,rest⟩ := bind_ok.mp popped
      split at rest
      · exact ih (given.move 0) rest
      · cases rest
        exact given
    · cases popped
      exact given

theorem given_separate (given : Given p y.pending y.output) (separated : y.separate = .ok z) : Given p z.pending z.output := by
  have popped := given_popToStart given
  unfold separate at separated
  dsimp only at separated
  split at separated
  · cases separated
  · split at separated
    · cases separated
    · cases separated
      exact popped

theorem given_close (given : Given p y.pending y.output) (closed : y.close = .ok z) : Given p z.pending z.output := by
  have popped := given_popToStart given
  unfold close at closed
  split at closed
  · cases closed
  · rename_i found
    rw [found] at popped
    split at closed
    · cases closed
      exact popped.drop
    · split at closed
      · split at closed
        · cases closed
          exact popped.drop.move _
        · cases closed
      · cases closed
        exact popped.drop

theorem given_accept (given : Given p y.pending y.output) (here : p t) (accepted : y.accept t = .ok z) : Given p z.pending z.output := by
  have waits : ∀ u ∈ t :: y.pending, p u := List.forall_mem_cons.mpr ⟨here,given.1⟩
  unfold accept at accepted
  split at accepted
  · cases accepted
    exact ⟨given.1,List.forall_mem_cons.mpr ⟨here,given.2⟩⟩
  split at accepted
  · cases accepted
    exact ⟨waits,given.2⟩
  split at accepted
  · exact given_separate given accepted
  split at accepted
  · obtain ⟨n,-,rest⟩ := bind_ok.mp accepted
    obtain ⟨popped,found,last⟩ := bind_ok.mp rest
    cases last
    have kept := given_popOperators given found
    exact ⟨List.forall_mem_cons.mpr ⟨here,kept.1⟩,kept.2⟩
  split at accepted
  · cases accepted
    exact ⟨waits,given.2⟩
  split at accepted
  · exact given_close given accepted
  · cases accepted
    exact given

theorem given_run (given : Given p y.pending y.output) (ts : List Token) (each : ∀ t ∈ ts, p t) (ran : ts.foldlM accept y = .ok z) :
    Given p z.pending z.output := by
  induction ts generalizing y with
  | nil =>
    cases ran
    exact given
  | cons t ts ih =>
    rw [List.foldlM_cons] at ran
    obtain ⟨mid,first,rest⟩ := bind_ok.mp ran
    rw [List.forall_mem_cons] at each
    exact ih (given_accept given each.1 first) each.2 rest

theorem given_finish (given : Given p pending output) (finished : finish pending output = .ok items) : ∀ i ∈ items, p i.token := by
  induction pending generalizing output with
  | nil =>
    cases finished
    exact fun i listed => given.2 i (List.mem_reverse.mp listed)
  | cons t pending ih =>
    unfold finish at finished
    split at finished
    · cases finished
    · exact ih (given.move 0) finished

end Yard

-- Every element in order is one of the tokens, and a function keeps its name.
theorem ofTokens_given (ordered : ofTokens ts = .ok items) : ∀ i ∈ items, i.token ∈ ts.flatMap expand := by
  obtain ⟨y,ran,finished⟩ := bind_ok.mp ordered
  have start : Yard.Given (· ∈ ts.flatMap expand) Yard.start.pending Yard.start.output := ⟨nofun,nofun⟩
  exact Yard.given_finish (Yard.given_run start _ (fun _ listed => listed) ran) finished

theorem function_given (ordered : ofTokens ts = .ok items) (listed : i ∈ items) (function : i.kind = .function) :
    ∃ t ∈ ts, t.kind = .function ∧ t.text = i.token.text := by
  obtain ⟨t,given,expanded⟩ := List.mem_flatMap.mp (ofTokens_given ordered i listed)
  have kind : i.token.kind = .function := by
    unfold Item.kind at function
    split at function
    · split at function <;> cases function
    all_goals first | assumption | cases function
  refine ⟨t,given,?_⟩
  unfold expand at expanded
  split at expanded
  · rename_i opening
    rcases List.mem_cons.mp expanded with same | bracket
    · exact ⟨opening.1,by rw [same]⟩
    · rw [List.mem_singleton.mp bracket] at kind
      cases kind
  · split at expanded
    · rw [List.mem_singleton.mp expanded] at kind
      cases kind
    · obtain rfl := List.mem_singleton.mp expanded
      exact ⟨kind,rfl⟩

end Recalc.ReversePolish
