import Recalc.Proofs.Model.Evaluate.Plan

namespace Recalc.Model
variable {m m' : Model} {id : NodeId}

theorem plans_same (same : m'.outline = m.outline) : m'.nodePlan = m.nodePlan ∧ m'.formulaPlan = m.formulaPlan := by
  have nodes : m'.nodePlan = m.nodePlan := by
    funext id
    have mapped := node_same same id
    unfold nodePlan
    cases here : m.nodes[id]? with
    | none =>
      have there : m'.nodes[id]? = none := by simpa [here] using mapped
      simp [there]
    | some node => cases node with
      | range r => simp only [range_same same here,resolve_same same]
      | cell c =>
        obtain ⟨c',there,-⟩ := cell_same same (cell?_eq_some.mpr here)
        simp [cell?_eq_some.mp there]
  refine ⟨nodes,?_⟩
  funext id
  unfold formulaPlan
  cases here : m.cell? id with
  | none => simp [(cell?_none_same same).mpr here,addressOf_same same]
  | some c =>
    obtain ⟨c',there,alike⟩ := cell_same same here
    have expr : c'.expr = c.expr := by simpa [Cell.outline] using congrArg Cell.expr alike
    have sources (plain : Bool) : m'.planSource plain = m.planSource plain := by
      simp only [planSource,nodes,resolve_same same,rectOf_same same]
    simp only [there,expr,sources]

inductive Called (m : Model) (id : NodeId) : Nat → Except FormulaError Value × Model → Prop where
  | absent (room : Nat) (missing : m.cell? id = none) : Called m id room (.error (.unknownCell (m.addressOf id)),m)
  | busy (room : Nat) (c : Cell) (found : m.cell? id = some c) (evaluating : c.evaluating = true) :
      Called m id room (.error (.circularReference c.address m.callStackText),m)
  | stands (room : Nat) (v : Value) (settled : m.settled id = some v) : Called m id room (.ok v,m)
  | full (c : Cell) (found : m.cell? id = some c) (dirty : c.dirty = true) :
      Called m id 0 (.error (.suspended c.address (m.depthOffset + m.callStack.length)),m)
  | gives (room : Nat) (c : Cell) (v : Value) (ran m' : Model) (found : m.cell? id = some c) (dirty : c.dirty = true)
      (runs : (m.formulaPlan id).perform (Run.cell room) (m.begin id) = (.ok v,ran))
      (ends : m.Ends ran m' id (some (c.format.apply v))) : Called m id (room + 1) (.ok (c.format.apply v),m')
  | fails (room : Nat) (c : Cell) (e : FormulaError) (ran m' : Model) (found : m.cell? id = some c) (dirty : c.dirty = true)
      (runs : (m.formulaPlan id).perform (Run.cell room) (m.begin id) = (.error e,ran)) (ends : m.Ends ran m' id none) :
      Called m id (room + 1)
        (.error (if e.isTagged then e else .evaluation (ran.addressOf id) ran.callStackText e),m')

theorem perform_steady (room : Nat) (p : Plan α) (m : Model) : m.Steady (p.perform (Run.cell room) m).2 := by
  induction p generalizing m with
  | done r => exact .refl m
  | ask id next ih =>
    have first := steady_cell room id m
    rw [Plan.perform_ask]
    generalize Run.cell room id m = ran at first ⊢
    obtain ⟨r,m'⟩ := ran
    cases r with
    | error e => exact first
    | ok v => exact first.trans (ih v m')

theorem cell_formula {c : Cell} (room : Nat) (found : m.cell? id = some c) (dirty : c.dirty = true)
    (idle : c.evaluating = false) : Run.cell (room + 1) id m =
      let ran := (m.formulaPlan id).perform (Run.cell room) (m.begin id)
      ran.2.leave.store id c.format (ran.2.tag id ran.1) := by
  have answers := performs_answer (keeps_cell m room) c.expr.isReference c.expr.query (m.begin id) (m.begin_outline id)
  have plan : m.formulaPlan id = c.expr.query.answer (m.planSource c.expr.isReference) := by simp [formulaPlan,found]
  rw [← plan] at answers
  rw [cell_answers found dirty idle,answers]

theorem called (room : Nat) (id : NodeId) (m : Model) : m.Called id room (Run.cell room id m) := by
  cases found : m.cell? id with
  | none =>
    rw [cell_absent found]
    exact .absent room found
  | some c =>
    cases evaluating : c.evaluating with
    | true =>
      rw [cell_busy found evaluating]
      exact .busy room c found evaluating
    | false => cases dirty : c.dirty with
      | false =>
        rw [cell_clean found dirty evaluating]
        exact .stands room c.value (settled_eq_some.mpr ⟨c,found,dirty,evaluating,rfl⟩)
      | true => cases room with
        | zero =>
          rw [cell_suspended found dirty evaluating]
          exact .full c found dirty
        | succ room =>
          have steady : (m.begin id).Steady ((m.formulaPlan id).perform (Run.cell room) (m.begin id)).2 := perform_steady _ _ _
          rw [cell_formula room found dirty evaluating]
          generalize runs : (m.formulaPlan id).perform (Run.cell room) (m.begin id) = ran at steady
          obtain ⟨r,ran⟩ := ran
          cases r with
          | ok v =>
            exact .gives room c v ran _ found dirty runs (ends found dirty evaluating steady
              (fun d => {d with evaluating := false,value := c.format.apply v}) (some (c.format.apply v)) (fun _ => rfl)
              (.inr ⟨c.format.apply v,by simp [evaluating],rfl⟩))
          | error e =>
            have restored : {c with evaluating := false,dirty := true} = c := by cases c; simp_all
            exact .fails room c e ran _ found dirty runs (ends found dirty evaluating steady
              (fun d => {d with evaluating := false,dirty := true}) none (fun _ => rfl) (.inl ⟨restored,rfl⟩))

theorem called_ok {room : Nat} (calls : m.Called id room (.ok v,m')) : m'.settled id = some v := by
  cases calls with
  | stands _ _ settled => exact settled
  | gives _ _ _ _ _ _ _ _ ends => exact (ends.settled id).trans (if_pos rfl)

theorem called_error {room : Nat} (calls : m.Called id room (.error e,m')) : m'.settled id = none := by
  cases calls with
  | absent _ missing => simp [settled,missing]
  | busy _ c found evaluating => exact settled_eq_none found (.inr evaluating)
  | full c found dirty => exact settled_eq_none found (.inl dirty)
  | fails _ _ _ _ _ _ _ _ ends => exact (ends.settled id).trans (if_pos rfl)

end Recalc.Model
