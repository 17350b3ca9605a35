import Mathlib.Data.List.Perm.Subperm
import Recalc.Proofs.Model.Evaluate.Resume

namespace Recalc.Model
variable {o m m' m'' : Model} {inputs : NodeId → Option Value} {id next p y : NodeId} {waiting : List NodeId}

structure Idle (m : Model) : Prop where
  current : m.current = []
  offset : m.depthOffset = 0
  marks : ∀ id, m.isEvaluating id = false

structure Drift (m m' : Model) : Prop where
  outline : m'.outline = m.outline
  current : m'.current = m.current
  cells : ∀ id c, m.cell? id = some c → ∃ c', m'.cell? id = some c' ∧
    (c'.dirty = c.dirty ∧ c'.value = c.value ∨ c.dirty = true ∧ c'.dirty = false)

theorem Drift.trans (one : Drift m m') (two : Drift m' m'') : Drift m m'' := by
  refine ⟨two.outline.trans one.outline,two.current.trans one.current,?_⟩
  intro id c found
  obtain ⟨c',found',first⟩ := one.cells id c found
  obtain ⟨c'',found'',second⟩ := two.cells id c' found'
  refine ⟨c'',found'',?_⟩
  rcases first with ⟨dirty,value⟩ | ⟨dirty,clean⟩
  · rw [← dirty,← value]
    exact second
  · rcases second with ⟨still,-⟩ | ⟨again,-⟩
    · exact .inr ⟨dirty,still.trans clean⟩
    · simp [clean] at again

theorem Steady.drift (steady : Steady m m') : Drift m m' := by
  refine ⟨steady.outline,steady.current,?_⟩
  intro id c found
  rcases steady.cells id c found with kept | ⟨dirty,-,v,changed⟩
  · exact ⟨c,kept,.inl ⟨rfl,rfl⟩⟩
  · exact ⟨_,changed,.inr ⟨dirty,rfl⟩⟩

theorem cell_ext {c c' : Cell} (outline : c'.outline = c.outline) (value : c'.value = c.value)
    (dirty : c'.dirty = c.dirty) (evaluating : c'.evaluating = c.evaluating) : c' = c := by
  cases c
  cases c'
  simp only [Cell.outline,Cell.mk.injEq] at *
  simp_all

theorem Drift.steady (drift : Drift m m') (before : m.Idle) (after : m'.Idle) : Steady m m' := by
  refine ⟨drift.outline,drift.current,?_⟩
  intro id c found
  obtain ⟨c',found',change⟩ := drift.cells id c found
  have outline : c'.outline = c.outline := by simpa [found,found'] using cell?_same drift.outline id
  have idle : c.evaluating = false := by simpa [isEvaluating,found] using before.marks id
  have idle' : c'.evaluating = false := by simpa [isEvaluating,found'] using after.marks id
  rcases change with ⟨dirty,value⟩ | ⟨dirty,clean⟩
  · exact .inl (by rw [found',cell_ext outline value dirty (idle'.trans idle.symm)])
  · refine .inr ⟨dirty,idle,c'.value,?_⟩
    have same : c' = {c with value := c'.value,dirty := false} := cell_ext outline rfl clean (idle'.trans idle.symm)
    rw [found',← same]

@[simp] theorem cell?_setEvaluating (m : Model) (p id : NodeId) (b : Bool) : (m.setEvaluating p b).cell? id =
    if p = id then (m.cell? id).map fun c => {c with evaluating := b} else m.cell? id := cell?_changeCell m p id _

@[simp] theorem outline_setEvaluating (m : Model) (p : NodeId) (b : Bool) : (m.setEvaluating p b).outline = m.outline :=
  changeCell_outline m p fun _ => rfl

@[simp] theorem isDirty_setEvaluating (m : Model) (p : NodeId) (b : Bool) (id : NodeId) :
    (m.setEvaluating p b).isDirty id = m.isDirty id := by
  simp only [isDirty_cell?,cell?_setEvaluating]
  split
  · cases m.cell? id <;> rfl
  · rfl

@[simp] theorem isEvaluating_setEvaluating (m : Model) (p : NodeId) (b : Bool) (id : NodeId) :
    (m.setEvaluating p b).isEvaluating id = if p = id then b && (m.cell? id).isSome else m.isEvaluating id := by
  simp only [isEvaluating,cell?_setEvaluating]
  split
  · cases m.cell? id <;> simp
  · rfl

theorem drift_setEvaluating (m : Model) (p : NodeId) (b : Bool) : m.Drift (m.setEvaluating p b) := by
  refine ⟨outline_setEvaluating m p b,rfl,?_⟩
  intro id c found
  rw [cell?_setEvaluating,found]
  split
  · exact ⟨_,rfl,.inl ⟨rfl,rfl⟩⟩
  · exact ⟨_,rfl,.inl ⟨rfl,rfl⟩⟩

theorem settled_setEvaluating (stale : m.cell? p = none ∨ m.isDirty p = true) (b : Bool) :
    (m.setEvaluating p b).settled = m.settled := by
  funext id
  unfold settled
  rw [cell?_setEvaluating]
  split
  · rename_i same
    subst same
    rcases stale with absent | dirty
    · simp [absent]
    · cases found : m.cell? p with
      | none => rfl
      | some c =>
        have dirty : c.dirty = true := by simpa [isDirty_cell?,found] using dirty
        simp [dirty]
  · rfl

theorem abandon_spec (waiting : List (NodeId × Nat)) (m : Model)
    (stale : ∀ p ∈ waiting.map Prod.fst, m.cell? p = none ∨ m.isDirty p = true) :
    m.Drift (m.abandon waiting) ∧ (m.abandon waiting).settled = m.settled ∧ (m.abandon waiting).depthOffset = 0 ∧
      ∀ id, (m.abandon waiting).isEvaluating id = true → m.isEvaluating id = true ∧ id ∉ waiting.map Prod.fst := by
  induction waiting generalizing m with
  | nil => exact ⟨⟨rfl,rfl,fun id c found => ⟨c,found,.inl ⟨rfl,rfl⟩⟩⟩,rfl,rfl,fun id marked => ⟨marked,by simp⟩⟩
  | cons entry rest ih =>
    obtain ⟨p,depth⟩ := entry
    have next : m.abandon ((p,depth) :: rest) = (m.setEvaluating p false).abandon rest := rfl
    have others : ∀ q ∈ rest.map Prod.fst,
        (m.setEvaluating p false).cell? q = none ∨ (m.setEvaluating p false).isDirty q = true := by
      intro q listed
      rw [isDirty_setEvaluating,cell?_setEvaluating]
      refine (stale q (by simp_all)).imp (fun absent => ?_) id
      split <;> simp [absent]
    obtain ⟨drift,settled,offset,marks⟩ := ih (m.setEvaluating p false) others
    rw [next]
    refine ⟨(drift_setEvaluating m p false).trans drift,
      settled.trans (settled_setEvaluating (stale p (by simp)) false),offset,?_⟩
    intro id marked
    obtain ⟨before,apart⟩ := marks id marked
    rw [isEvaluating_setEvaluating] at before
    split at before
    · simp at before
    · rename_i other
      exact ⟨before,by simp_all [Ne.symm other]⟩

-- While `next` is to be evaluated, what waits for it is dirty and marked, and only the last
-- to wait, the one asked for, can be a range.
structure Waits (o : Model) (inputs : NodeId → Option Value) (m : Model) (next : NodeId) (waiting : List NodeId) :
    Prop where
  outline : m.outline = o.outline
  current : m.current = []
  grounded : o.Grounded inputs m.settled
  idle : m.isEvaluating next = false
  marks : ∀ id, m.isEvaluating id = true → id ∈ waiting
  marked : ∀ p ∈ waiting, m.cell? p = none ∨ m.isDirty p = true ∧ m.isEvaluating p = true
  cells : ∀ p ∈ (next :: waiting).dropLast, o.cell? p ≠ none
  stale : waiting ≠ [] → m.isDirty next = true
  apart : (next :: waiting).Nodup
  chain : o.Chain inputs next waiting

theorem Steady.marked (steady : m.Steady m') (marked : m.isEvaluating p = true) : m'.cell? p = m.cell? p := by
  unfold Model.isEvaluating at marked
  cases found : m.cell? p with
  | none => simp [found] at marked
  | some c =>
    rcases steady.cells p c found with kept | ⟨-,idle,-⟩
    · exact kept
    · simp [found,idle] at marked

namespace Waits
variable {ran : Except FormulaError Value × Model}
  (waits : o.Waits inputs m next waiting) (pass : o.Pass inputs m next ran)
include waits pass

theorem marked_after (listed : p ∈ waiting) :
    ran.2.cell? p = none ∨ ran.2.isDirty p = true ∧ ran.2.isEvaluating p = true := by
  have steady := pass.follows.steady
  rcases waits.marked p listed with absent | ⟨dirty,evaluating⟩
  · exact .inl ((cell?_none_same steady.outline).mpr absent)
  · right
    rw [isDirty_cell?,steady.marked evaluating,← isDirty_cell?]
    exact ⟨dirty,steady.isEvaluating.trans evaluating⟩

theorem stale_after (listed : p ∈ waiting) : ran.2.cell? p = none ∨ ran.2.isDirty p = true :=
  (waits.marked_after pass listed).imp_right And.left

theorem free (failed : ran.1 = .error e) : inputs next = none := by
  apply waits.grounded.free
  rcases pass.stale e failed with absent | dirty
  · simp [settled,absent]
  · cases found : m.cell? next with
    | none => simp [settled,found]
    | some c => exact settled_eq_none found (.inl (by simpa [isDirty_cell?,found] using dirty))

theorem push (distinct : o.Distinct) (failed : ran.1 = .error (.suspended address depth)) :
    ∃ y, ran.2.resolve address = .ok y ∧ o.Waits inputs (ran.2.setEvaluating next true) y (next :: waiting) := by
  have steady := pass.follows.steady
  have same := steady.outline.trans waits.outline
  obtain ⟨y,c,found,rfl,dirty,idle,hinges⟩ := pass.fails _ failed
  have distinct := distinct_same same distinct
  have other : next ≠ y := by
    rintro rfl
    obtain ⟨z,d,apart,there,named⟩ := pass.another _ _ failed
    exact apart (distinct.eq (cell?_eq_some.mp there) (cell?_eq_some.mp found) named)
  have stale : ran.2.cell? next = none ∨ ran.2.isDirty next = true := by
    rw [isDirty_cell?,pass.kept _ failed,← isDirty_cell?]
    exact pass.stale _ failed
  refine ⟨y,distinct.resolve found,?_,?_,?_,?_,?_,?_,?_,?_,?_,?_⟩
  · rw [outline_setEvaluating,same]
  · exact steady.current.trans waits.current
  · rw [settled_setEvaluating stale]
    exact pass.follows.grounded
  · rw [isEvaluating_setEvaluating,if_neg other]
    simp [isEvaluating,found,idle]
  · intro id marked
    rw [isEvaluating_setEvaluating] at marked
    split at marked
    · rename_i same
      simp [same]
    · exact List.mem_cons_of_mem _ (waits.marks id (steady.isEvaluating.symm.trans marked))
  · intro p listed
    rw [cell?_setEvaluating,isDirty_setEvaluating,isEvaluating_setEvaluating]
    rcases List.mem_cons.mp listed with rfl | listed
    · refine stale.imp (fun absent => by simp [absent]) fun dirty => ⟨dirty,?_⟩
      cases there : ran.2.cell? p with
      | none => simp [isDirty_cell?,there] at dirty
      | some d => simp
    · have apart : next ≠ p := by
        rintro rfl
        exact (List.nodup_cons.mp waits.apart).1 listed
      simpa [apart] using waits.marked_after pass listed
  · intro p listed
    rw [List.dropLast_cons_of_ne_nil (by simp)] at listed
    rcases List.mem_cons.mp listed with rfl | listed
    · intro absent
      simp [(cell?_none_same same).mpr absent] at found
    · exact waits.cells p listed
  · intro _
    rw [isDirty_setEvaluating]
    simp [isDirty_cell?,found,dirty]
  · refine List.nodup_cons.mpr ⟨?_,waits.apart⟩
    intro listed
    rcases List.mem_cons.mp listed with rfl | listed
    · exact other rfl
    · rcases waits.marked_after pass listed with absent | ⟨-,evaluating⟩
      · simp [absent] at found
      · simp [isEvaluating,found,idle] at evaluating
  · exact ⟨waits.free pass failed,hinges,waits.chain⟩

omit waits in
theorem pop (waits : o.Waits inputs m next (p :: waiting)) :
    o.Waits inputs (ran.2.setEvaluating p false) p waiting := by
  have steady := pass.follows.steady
  have apart := List.nodup_cons.mp (List.nodup_cons.mp waits.apart).2
  refine ⟨?_,?_,?_,?_,?_,?_,?_,?_,?_,?_⟩
  · rw [outline_setEvaluating,steady.outline,waits.outline]
  · exact steady.current.trans waits.current
  · rw [settled_setEvaluating (waits.stale_after pass (by simp))]
    exact pass.follows.grounded
  · simp
  · intro id marked
    rw [isEvaluating_setEvaluating] at marked
    split at marked
    · simp at marked
    · rename_i other
      have listed := waits.marks id (steady.isEvaluating.symm.trans marked)
      exact (List.mem_cons.mp listed).resolve_left (Ne.symm other)
  · intro q listed
    have other : p ≠ q := by
      rintro rfl
      exact apart.1 listed
    simpa [other] using
      waits.marked_after pass (List.mem_cons_of_mem _ listed)
  · exact fun q listed => waits.cells q (List.mem_cons_of_mem _ listed)
  · intro more
    rw [isDirty_setEvaluating]
    have cell : o.cell? p ≠ none := waits.cells p (by
      obtain ⟨q,rest,rfl⟩ := List.exists_cons_of_ne_nil more
      simp)
    refine (waits.stale_after pass (by simp)).resolve_left fun absent => cell ?_
    exact (cell?_none_same (steady.outline.trans waits.outline)).mp absent
  · exact (List.nodup_cons.mp waits.apart).2
  · exact waits.chain.2.2

omit pass in
theorem length_le : waiting.length ≤ m.nodes.length := by
  have cells : (next :: waiting).dropLast ⊆ List.range m.nodes.length := by
    intro p listed
    cases found : m.cell? p with
    | none => exact absurd ((cell?_none_same waits.outline).mp found) (waits.cells p listed)
    | some c => exact List.mem_range.mpr (cell?_lt found)
  have apart : (next :: waiting).dropLast.Nodup := waits.apart.sublist (List.dropLast_sublist _)
  simpa using (List.subperm_of_subset apart cells).length_le

end Waits

def dirtyCount (m : Model) : Nat := ((List.range m.nodes.length).filter m.isDirty).length

namespace Drift
variable (drift : Drift m m')
include drift

theorem dirty_before (dirty : m'.isDirty id = true) : m.isDirty id = true := by
  rw [isDirty_cell?] at dirty ⊢
  cases found : m.cell? id with
  | none => simp [(cell?_none_same drift.outline).mpr found] at dirty
  | some c =>
    obtain ⟨c',found',change⟩ := drift.cells id c found
    rcases change with ⟨same,-⟩ | ⟨was,-⟩
    · simpa [found',same] using dirty
    · simpa using was

theorem filter_dirty : (List.range m'.nodes.length).filter m'.isDirty =
    ((List.range m.nodes.length).filter m.isDirty).filter m'.isDirty := by
  rw [List.filter_filter,length_same drift.outline]
  apply List.filter_congr
  intro id _
  cases dirty : m'.isDirty id with
  | false => rfl
  | true => simp [drift.dirty_before dirty]

theorem dirtyCount_le : m'.dirtyCount ≤ m.dirtyCount := by
  unfold dirtyCount
  rw [drift.filter_dirty]
  exact List.length_filter_le _ _

theorem dirtyCount_lt (was : m.isDirty id = true) (now : m'.isDirty id = false) : m'.dirtyCount < m.dirtyCount := by
  unfold dirtyCount
  rw [drift.filter_dirty,List.length_filter_lt_length_iff_exists]
  have bound : id < m.nodes.length := by
    cases found : m.cell? id with
    | none => simp [isDirty_cell?,found] at was
    | some c => exact cell?_lt found
  exact ⟨id,List.mem_filter.mpr ⟨List.mem_range.mpr bound,was⟩,by simp [now]⟩

end Drift

structure Evaluates (o : Model) (inputs : NodeId → Option Value) (m : Model) (root : NodeId)
    (ran : Except FormulaError Value × Model) : Prop where
  drift : m.Drift ran.2
  idle : ran.2.Idle
  grounded : o.Grounded inputs ran.2.settled
  value : ∀ v, ran.1 = .ok v → o.nodeValue (known ran.2.settled) root = .ok v
  error : ∀ e, ran.1 = .error e → o.Stops inputs [] (fun cell => o.nodeValue cell root) e

-- What can still happen: a pass finishes a dirty cell, or one more cell waits.
def passes (m : Model) (waiting : List (NodeId × Nat)) : Nat :=
  m.dirtyCount * (m.nodes.length + 2) + (m.nodes.length + 1 - waiting.length)

theorem Evaluates.after (drift : m.Drift m') (evaluates : o.Evaluates inputs m' id ran) : o.Evaluates inputs m id ran :=
  ⟨drift.trans evaluates.drift,evaluates.idle,evaluates.grounded,evaluates.value,evaluates.error⟩

section
variable {waiting : List (NodeId × Nat)} {ran : Except FormulaError Value × Model}
  (waits : o.Waits inputs m next (waiting.map Prod.fst)) (pass : o.Pass inputs m next ran)
include waits pass

theorem evaluates_error (failed : ran.1 = .error e) (ends : ∀ address depth, e ≠ .suspended address depth) :
    o.Evaluates inputs m ((next :: waiting.map Prod.fst).getLast (by simp)) (.error e,ran.2.abandon waiting) := by
  have steady := pass.follows.steady
  obtain ⟨drift,settled,offset,marks⟩ := abandon_spec waiting ran.2 fun p listed => waits.stale_after pass listed
  refine ⟨steady.drift.trans drift,⟨?_,offset,?_⟩,?_,?_,?_⟩
  · exact drift.current.trans (steady.current.trans waits.current)
  · intro id
    refine Bool.eq_false_iff.mpr fun marked => ?_
    obtain ⟨before,apart⟩ := marks id marked
    exact apart (waits.marks id (steady.isEvaluating.symm.trans before))
  · rw [settled]
    exact pass.follows.grounded
  · rintro v ⟨⟩
  · rintro _ ⟨⟩
    refine waits.chain.stops (waits.free pass failed) waits.cells ?_
    have fails := pass.fails e failed
    cases e with
    | suspended address depth => exact absurd rfl (ends address depth)
    | circularReference cell stack =>
      refine fails.imp_right ?_
      rintro ⟨z,evaluating,hinges⟩
      have marked := waits.marks z (steady.isEvaluating.symm.trans evaluating)
      refine ⟨z,marked,fun absent => ?_,hinges⟩
      have gone := (cell?_none_same (steady.outline.trans waits.outline)).mpr absent
      simp [isEvaluating,gone] at evaluating
    | _ => exact fails

end

structure Round (o : Model) (inputs : NodeId → Option Value) (m : Model) (next : NodeId) (waiting : List NodeId)
    (ran : Except FormulaError Value × Model) : Prop where
  waits : o.Waits inputs m next waiting
  pass : o.Pass inputs m next ran
  roomy : 0 < m.room
  runs : Run.node (Run.cell m.room) next m = ran

section
variable {P : NodeId → List NodeId → Model → Prop} {Q : Except FormulaError Value × Model → Prop}
  (begins : ∀ {m next waiting} (depth : Nat), P next waiting m → P next waiting {m with depthOffset := depth})
  (pushes : ∀ {m next waiting m' address depth y}, o.Round inputs m next waiting (.error (.suspended address depth),m') →
    o.Waits inputs (m'.setEvaluating next true) y (next :: waiting) → m'.resolve address = .ok y → P next waiting m →
    P y (next :: waiting) (m'.setEvaluating next true))
  (pops : ∀ {m next p waiting m' v}, o.Round inputs m next (p :: waiting) (.ok v,m') → P next (p :: waiting) m →
    P p waiting (m'.setEvaluating p false))
  (succeeds : ∀ {m next m' v}, o.Round inputs m next [] (.ok v,m') → P next [] m → Q (.ok v,m'.abandon []))
  (fails : ∀ {m next} {waiting : List (NodeId × Nat)} {m' e}, o.Round inputs m next (waiting.map Prod.fst) (.error e,m') →
    (∀ address depth, e ≠ .suspended address depth) → P next (waiting.map Prod.fst) m → Q (.error e,m'.abandon waiting))
include begins pushes pops succeeds fails

-- Induction on the steps; each pass leaves fewer that can follow. What holds before every
-- pass gives what holds in the end.
theorem resume_rounds (distinct : o.Distinct) (deep : 1 ≤ o.limits.depth) {waiting : List (NodeId × Nat)}
    (waits : o.Waits inputs m next (waiting.map Prod.fst)) (enough : m.passes waiting < steps)
    (holds : P next (waiting.map Prod.fst) m) : Q (resume steps next depth waiting m) := by
  induction steps generalizing next depth waiting m with
  | zero => exact absurd enough (Nat.not_lt_zero _)
  | succ steps ih =>
    have waits : o.Waits inputs {m with depthOffset := depth} next (waiting.map Prod.fst) :=
      ⟨waits.outline,waits.current,waits.grounded,waits.idle,waits.marks,waits.marked,waits.cells,waits.stale,
        waits.apart,waits.chain⟩
    have enough : ({m with depthOffset := depth} : Model).passes waiting < steps + 1 := enough
    have holds : P next (waiting.map Prod.fst) {m with depthOffset := depth} := begins depth holds
    unfold resume
    generalize ({m with depthOffset := depth} : Model) = m at waits enough holds
    dsimp only
    obtain ⟨k,room⟩ : ∃ k, m.room = k + 1 := by
      have limits := limits_same waits.outline
      refine ⟨m.room - 1,?_⟩
      simp only [Model.room,waits.current,limits,List.length_nil]
      omega
    have pass := pass waits.outline waits.grounded waits.idle k
    rw [← room] at pass
    generalize runs : Run.node (Run.cell m.room) next m = ran at pass
    have round : o.Round inputs m next (waiting.map Prod.fst) ran := ⟨waits,pass,by omega,runs⟩
    have steady := pass.follows.steady
    obtain ⟨r,m'⟩ := ran
    have fewer : m'.dirtyCount ≤ m.dirtyCount := steady.drift.dirtyCount_le
    have size : m'.nodes.length = m.nodes.length := length_same steady.outline
    cases r with
    | ok v =>
      cases waiting with
      | nil => exact succeeds round holds
      | cons entry rest =>
        obtain ⟨p,below⟩ := entry
        have finished : m'.dirtyCount < m.dirtyCount :=
          steady.drift.dirtyCount_lt (waits.stale (by simp)) (pass.done v rfl (waits.stale (by simp)))
        have set := drift_setEvaluating m' p false
        refine ih (Waits.pop pass waits) ?_ (pops round holds)
        have fewest := set.dirtyCount_le
        have length : (m'.setEvaluating p false).nodes.length = m'.nodes.length := length_same set.outline
        simp only [passes,List.length_cons,length,size] at enough fewest ⊢
        have product : ((m'.setEvaluating p false).dirtyCount + 1) * (m.nodes.length + 2) ≤
            m.dirtyCount * (m.nodes.length + 2) := Nat.mul_le_mul_right _ (by omega)
        rw [Nat.add_mul] at product
        omega
    | error e =>
      cases e with
      | suspended address deeper =>
        obtain ⟨y,resolved,pushed⟩ := waits.push pass distinct rfl
        have set := drift_setEvaluating m' next true
        simp only [resolved]
        refine ih pushed ?_ (pushes round pushed resolved holds)
        have room := pushed.length_le
        have fewest := set.dirtyCount_le
        have length : (m'.setEvaluating next true).nodes.length = m'.nodes.length := length_same set.outline
        simp only [passes,List.length_cons,List.length_map,length,size] at enough fewest room ⊢
        have product : (m'.setEvaluating next true).dirtyCount * (m.nodes.length + 2) ≤
            m.dirtyCount * (m.nodes.length + 2) := Nat.mul_le_mul_right _ (by omega)
        omega
      | _ => exact fails round (by simp) holds

end

theorem resume_evaluates (distinct : o.Distinct) (deep : 1 ≤ o.limits.depth) {waiting : List (NodeId × Nat)}
    (waits : o.Waits inputs m next (waiting.map Prod.fst)) (enough : m.passes waiting < steps) :
    o.Evaluates inputs m ((next :: waiting.map Prod.fst).getLast (by simp)) (resume steps next depth waiting m) := by
  let root := (next :: waiting.map Prod.fst).getLast (by simp)
  refine resume_rounds (P := fun next waiting m' => m.Drift m' ∧ (next :: waiting).getLast (by simp) = root)
    ?_ ?_ ?_ ?_ ?_ distinct deep waits enough ⟨⟨rfl,rfl,fun id c found => ⟨c,found,.inl ⟨rfl,rfl⟩⟩⟩,rfl⟩
  · rintro m' next waiting depth ⟨drift,last⟩
    exact ⟨⟨drift.outline,drift.current,drift.cells⟩,last⟩
  · rintro m₁ next waiting m₂ address depth y round - - ⟨drift,last⟩
    have steady := round.pass.follows.steady
    exact ⟨(drift.trans steady.drift).trans (drift_setEvaluating m₂ next true),by simpa using last⟩
  · rintro m₁ next p waiting m₂ v round ⟨drift,last⟩
    have steady := round.pass.follows.steady
    exact ⟨(drift.trans steady.drift).trans (drift_setEvaluating m₂ p false),by simpa using last⟩
  · rintro m₁ next m₂ v round ⟨drift,last⟩
    have steady := round.pass.follows.steady
    have marks (id : NodeId) : m₂.isEvaluating id = false := by
      refine Bool.eq_false_iff.mpr fun marked => ?_
      cases round.waits.marks id (steady.isEvaluating.symm.trans marked)
    have ended : m₁.Drift (m₂.abandon []) := ⟨steady.outline,steady.current,steady.drift.cells⟩
    refine ⟨drift.trans ended,⟨steady.current.trans round.waits.current,rfl,marks⟩,
      round.pass.follows.grounded,?_,?_⟩
    · rintro w ⟨⟩
      change o.nodeValue (known m₂.settled) root = .ok v
      rw [← last]
      exact round.pass.follows.foretold
    · rintro e ⟨⟩
  · rintro m₁ next waiting m₂ e round ends ⟨drift,last⟩
    have evaluates := evaluates_error round.waits round.pass rfl ends
    rw [last] at evaluates
    exact .after drift evaluates

theorem waits_start (same : m.outline = o.outline) (grounded : o.Grounded inputs m.settled) (idle : m.Idle) (id : NodeId) :
    o.Waits inputs m id (([] : List (NodeId × Nat)).map Prod.fst) := by
  refine ⟨same,idle.current,grounded,idle.marks id,?_,by simp,by simp,by simp,by simp,trivial⟩
  intro y marked
  simp [idle.marks y] at marked

theorem passes_start (m : Model) : m.passes [] < m.resumeSteps := by
  have few : m.dirtyCount ≤ m.nodes.length := by
    simpa [dirtyCount] using List.length_filter_le m.isDirty (List.range m.nodes.length)
  have product : m.dirtyCount * (m.nodes.length + 2) ≤ m.nodes.length * (m.nodes.length + 2) :=
    Nat.mul_le_mul_right _ few
  have total : m.resumeSteps = m.nodes.length * (m.nodes.length + 2) + 2 * (m.nodes.length + 2) :=
    Nat.add_mul _ _ _
  simp only [passes,List.length_nil]
  omega

theorem evaluate_evaluates (distinct : o.Distinct) (deep : 1 ≤ o.limits.depth) (same : m.outline = o.outline)
    (grounded : o.Grounded inputs m.settled) (idle : m.Idle) (resolved : m.resolve address = .ok id) :
    o.Evaluates inputs m id (m.evaluate address) := by
  simpa [evaluate,resolved] using resume_evaluates distinct deep (waits_start same grounded idle id) m.passes_start

end Recalc.Model
