import Mathlib.Data.List.Induction
import Recalc.Proofs.Build.Growth

namespace Recalc
open Relation

namespace Model
variable {o m : Model} {id : NodeId}

-- The operation makes the cell dirty: the change it makes hands on to it.
def Clears (m : Model) (id : NodeId) : Op → Prop
  | .assign address value => ∃ target c, m.resolve address = .ok target ∧ m.cell? target = some c ∧
      ¬ (c.dirty = false ∧ c.value.same value = true) ∧ ReflTransGen (m.Hands target true) target id
  | .reset address => ∃ target, m.resolve address = .ok target ∧
      ReflTransGen (m.Hands target (m.spreads target)) target id
  | .evaluate _ => False

def Spares (o : Model) (id : NodeId) : Op → Prop
  | .assign address _ => o.resolve address ≠ .ok id
  | .reset address => o.resolve address ≠ .ok id
  | .evaluate _ => True

theorem spares_same (same : m.outline = o.outline) (spares : o.Spares id op) : m.Spares id op := by
  cases op with
  | assign address value => rwa [Spares,resolve_same same]
  | reset address => rwa [Spares,resolve_same same]
  | evaluate address => trivial

theorem evaluate_settled (idle : m.Idle) (resolved : m.resolve address = .ok id) (settled : m.settled id = some v) :
    m.evaluate address = (.ok v,m) := by
  obtain ⟨c,found,clean,unmarked,rfl⟩ := settled_eq_some.mp settled
  have cell : (m.nodes[id]?).bind Node.cell? = some c := found
  have still : {m with depthOffset := 0} = m := by
    have offset := idle.offset
    cases m
    simp_all
  have ran (room : Nat) : Run.node (Run.cell room) id m = (.ok c.value,m) := by
    rw [node_cell found]
    cases room <;> simp [Run.cell,cell,standing,unmarked,clean]
  obtain ⟨steps,enough⟩ : ∃ k, m.resumeSteps = k + 1 := Nat.exists_eq_succ_of_ne_zero (by simp [resumeSteps])
  simp [evaluate,resolved,enough,resume,still,ran,abandon]

theorem settled_evaluate (formed : o.WellFormed) (same : m.outline = o.outline) (idle : m.Idle)
    (resolved : m.resolve address = .ok id) (cell : o.cell? id = some c) (ran : m.evaluate address = (.ok v,m)) :
    m.settled id = some v := by
  have evaluates := evaluate_evaluates formed.distinct formed.deep same (.self o m.settled) idle resolved
  rw [ran] at evaluates
  have value := evaluates.value v rfl
  rw [nodeValue_cell cell] at value
  exact known_ok.mp value

theorem settled_without (settled : m.settled id = some v) (ids : List NodeId) :
    (id ∈ ids → without m.settled ids id = none) ∧ (id ∉ ids → without m.settled ids id = some v) := by
  unfold without
  exact ⟨fun listed => by simp [listed],fun apart => by simp [apart,settled]⟩

theorem settled_perform (formed : o.WellFormed) (same : m.outline = o.outline) (idle : m.Idle) (spares : m.Spares id op)
    (settled : m.settled id = some v) : (m.Clears id op → (m.perform op).settled id = none) ∧
      (¬ m.Clears id op → (m.perform op).settled id = some v) := by
  cases op with
  | evaluate address =>
    obtain ⟨steady,-⟩ := evaluate_steady formed same idle address
    exact ⟨fun clears => clears.elim,fun _ => steady.settled settled⟩
  | reset address =>
    cases resolved : m.resolve address with
    | error e => simpa [Clears,perform,reset,resolved] using settled
    | ok target =>
      have cleared := settled_without settled (m.reached target (m.spreads target))
      simpa [Clears,perform,reset,resolved,settled_invalidate,mem_reached] using cleared
  | assign address value =>
    obtain ⟨result,assigns,next⟩ := m.perform_assigns address value
    rw [next]
    cases assigns with
    | fails e absent =>
      refine ⟨?_,fun _ => settled⟩
      rintro ⟨target,c,resolved,found,-⟩
      simp [absent target resolved] at found
    | skips target c resolved found clean alike =>
      refine ⟨?_,fun _ => settled⟩
      rintro ⟨other,d,resolved',found',changes,-⟩
      rw [resolved] at resolved'
      cases resolved'
      rw [found] at found'
      cases found'
      exact absurd ⟨clean,alike⟩ changes
    | stores target c resolved found changes =>
      have other : id ≠ target := by
        rintro rfl
        exact spares resolved
      obtain ⟨cleared,kept⟩ := settled_without settled (m.reached target true)
      rw [settled_stored idle found]
      simp only [other,if_false]
      refine ⟨?_,fun clears => kept fun listed => clears ⟨target,c,resolved,found,changes,mem_reached.mp listed⟩⟩
      rintro ⟨target',d,resolved',-,-,hands⟩
      rw [resolved] at resolved'
      cases resolved'
      exact cleared (mem_reached.mpr hands)

theorem run_snoc (m : Model) (ops : List Op) (op : Op) : m.run (ops ++ [op]) = (m.run ops).perform op := by
  simp [run]

-- Over a run the value stays just as long as no operation clears the cell: induction on what
-- comes before.
theorem settled_run (formed : o.WellFormed) (same : m.outline = o.outline) (idle : m.Idle)
    (spared : ∀ op ∈ later, o.Spares id op) (settled : m.settled id = some v) :
    (∀ first rest, later = first ++ rest → (m.run first).settled id = some v) ↔
      ∀ first op rest, later = first ++ op :: rest → ¬ (m.run first).Clears id op := by
  have step {first rest : List Op} {op : Op} (split : later = first ++ op :: rest)
      (here : (m.run first).settled id = some v) := by
    obtain ⟨outline,still⟩ := run_idle formed same idle first
    have spares := spares_same (outline.trans same) (spared op (by simp [split]))
    exact settled_perform formed (outline.trans same) still spares here
  constructor
  · intro stays first op rest split clears
    have lost := (step split (stays first (op :: rest) split)).1 clears
    rw [← run_snoc,stays (first ++ [op]) rest (by simp [split])] at lost
    cases lost
  · intro never first
    induction first using List.reverseRecOn with
    | nil => exact fun _ _ => settled
    | append_singleton first op ih =>
      intro rest split
      rw [List.append_assoc] at split
      rw [run_snoc]
      exact (step split (ih (op :: rest) split)).2 (never first op rest split)

theorem settled_assign (idle : m.Idle) (resolved : m.resolve address = .ok id) (assigned : (m.assign address v).1 = .ok ()) :
    ∃ w, (w = v ∨ w.same v = true) ∧ (m.assign address v).2.settled id = some w := by
  have assigns := m.assign_assigns address v
  generalize m.assign address v = result at assigns assigned
  cases assigns with
  | fails e absent => cases assigned
  | skips target c resolved' found clean alike =>
    rw [resolved] at resolved'
    cases resolved'
    have unmarked : c.evaluating = false := by simpa [isEvaluating,found] using idle.marks id
    exact ⟨c.value,.inr alike,settled_eq_some.mpr ⟨c,found,clean,unmarked,rfl⟩⟩
  | stores target c resolved' found changes =>
    rw [resolved] at resolved'
    cases resolved'
    exact ⟨v,.inl rfl,by simp [settled_stored idle found]⟩

theorem constant_kept {trusted : Bool} (sturdy : o.Sturdy trusted) (same : m.outline = o.outline) (found : o.cell? id = some c)
    (constant : c.formula = none) (spares : m.Spares id op) : ¬ m.Clears id op := by
  cases op with
  | evaluate address => exact not_false
  | reset address =>
    rintro ⟨target,resolved,hands⟩
    exact spares (sturdy.reached_constant same found constant (mem_reached.mpr hands) ▸ resolved)
  | assign address value =>
    rintro ⟨target,d,resolved,-,-,hands⟩
    exact spares (sturdy.reached_constant same found constant (mem_reached.mpr hands) ▸ resolved)

end Model

-- What is assigned stays, and the formula is not run, just as long as no other operation clears
-- the cell. Nothing but an operation of its own clears a constant.
theorem assigned_stays {options : BuildOptions} {seeds : List (String × String)} {book : Workbook} {o : Model} {id : NodeId}
    (made : (build options seeds book).1 = .ok o) (before : List Op)
    (assigned : ((o.run before).assign address v).1 = .ok ()) (resolved : o.resolve address = .ok id)
    (spared : ∀ op ∈ later, o.Spares id op) :
    let m := o.run (before ++ [.assign address v])
    ∃ w, (w = v ∨ w.same v = true) ∧
      ((∀ first rest, later = first ++ rest → (m.run first).evaluate address = (.ok w,m.run first)) ↔
        ∀ first op rest, later = first ++ op :: rest → ¬ (m.run first).Clears id op) ∧
      ((∀ c, o.cell? id = some c → c.formula = none) →
        ∀ first rest, later = first ++ rest → (m.run first).evaluate address = (.ok w,m.run first)) := by
  have sturdy := build_sturdy made
  have formed := sturdy.formed
  obtain ⟨outline,idle⟩ := Model.run_idle formed rfl sturdy.idle before
  obtain ⟨w,alike,settled⟩ := Model.settled_assign idle (by rwa [Model.resolve_same outline]) assigned
  intro m
  have performed : m = ((o.run before).assign address v).2 := Model.run_snoc o before (.assign address v)
  obtain ⟨same,still⟩ := Model.run_idle formed rfl sturdy.idle (before ++ [.assign address v])
  rw [← performed] at settled
  obtain ⟨d,there,-⟩ := Model.settled_eq_some.mp settled
  obtain ⟨c,cell,-⟩ := Model.cell_same same.symm there
  have shown (first : List Op) :
      (m.run first).evaluate address = (.ok w,m.run first) ↔ (m.run first).settled id = some w := by
    obtain ⟨outline,quiet⟩ := Model.run_idle formed same still first
    have resolves : (m.run first).resolve address = .ok id := by rwa [Model.resolve_same (outline.trans same)]
    exact ⟨Model.settled_evaluate formed (outline.trans same) quiet resolves cell,Model.evaluate_settled quiet resolves⟩
  have run := Model.settled_run formed same still spared settled
  refine ⟨w,alike,?_,fun constant => ?_⟩
  · simpa only [shown] using run
  · simp only [shown]
    refine run.mpr fun first op rest split => ?_
    obtain ⟨outline,-⟩ := Model.run_idle formed same still first
    have spares := Model.spares_same (outline.trans same) (spared op (by simp [split]))
    exact Model.constant_kept sturdy (outline.trans same) cell (constant c cell) spares

theorem assigned_stays_layered : ∃ o w, (build .standard [("S","A1:A3")] layered).1 = .ok o ∧
    (o.run [.assign "S!A1" (.text "q"),.evaluate "S!A3",.assign "S!A2" (.text "w")]).evaluate "S!A1" =
      (.ok w,o.run [.assign "S!A1" (.text "q"),.evaluate "S!A3",.assign "S!A2" (.text "w")]) := by
  obtain ⟨o,made,assigned,resolved,other,constant⟩ : ∃ o, (build .standard [("S","A1:A3")] layered).1 = .ok o ∧
      (o.assign "S!A1" (.text "q")).1 = .ok () ∧ o.resolve "S!A1" = .ok 0 ∧ o.resolve "S!A2" = .ok 1 ∧
      ((o.cell? 0).all fun c => c.formula.isNone) = true :=
    ⟨_,Workbook.made (by decide +kernel),by decide +kernel,by decide +kernel,by decide +kernel,by decide +kernel⟩
  have spared : ∀ op ∈ [.evaluate "S!A3",.assign "S!A2" (.text "w")], o.Spares 0 op := by
    intro op listed
    simp only [List.mem_cons,List.not_mem_nil,or_false] at listed
    rcases listed with rfl | rfl
    · trivial
    · simp [Model.Spares,other]
  obtain ⟨w,-,-,stays⟩ := assigned_stays made [] assigned resolved spared
  refine ⟨o,w,made,stays (fun c found => ?_) _ [] (List.append_nil _).symm⟩
  simpa [found] using constant

-- A change further down clears a value that was assigned to a formula, and the formula is run.
theorem assigned_lost : ∃ o, (build .standard [("S","A1:A3")] layered).1 = .ok o ∧
    (o.assign "S!A2" (.text "w")).1 = .ok () ∧
    ((o.run [.assign "S!A2" (.text "w"),.assign "S!A1" (.text "q")]).evaluate "S!A2").1 = .ok (.text "qy") :=
  ⟨_,Workbook.made (by decide +kernel),by decide +kernel,shows_text (by decide +kernel)⟩

end Recalc
