import Recalc.Proofs.Model.Session.Retention
import Recalc.Proofs.Model.Session.Transparency

namespace Recalc

namespace Model
variable {o m m' : Model} {id : NodeId} {ops : List Op} {trusted : Bool}

theorem settled_reset (settled : (m.perform (.reset address)).settled id = some v) :
    m.resolve address ≠ .ok id ∧ m.settled id = some v := by
  rcases m.reset_spec address with ⟨e,ran⟩ | ⟨start,resolved,ran⟩
  · have absent : m.resolve address ≠ .ok id := fun resolved => by simp [reset,resolved] at ran
    simp only [perform,ran] at settled
    exact ⟨absent,settled⟩
  · simp only [perform,ran,settled_invalidate] at settled
    unfold without at settled
    split at settled
    · cases settled
    · rename_i apart
      refine ⟨?_,settled⟩
      rw [resolved]
      rintro ⟨⟩
      exact apart start_reached

section
variable (sturdy : o.Sturdy trusted) (found : o.cell? id = some c) (constant : c.formula = none)
include sturdy found constant

theorem derive_constant (cell : NodeId → Except FormulaError Value) : o.derive cell id = .ok (c.format.apply c.value) := by
  obtain ⟨literal,-⟩ := sturdy.literal id c found constant
  have value : o.resultOf cell c.expr = .ok c.value := by rw [literal]; rfl
  simp only [derive,found,value,Cell.conclude]

theorem constant_spared (same : m.outline = o.outline) (idle : m.Idle) (spares : o.Spares id op) (settled : m.settled id = some v) :
    (m.perform op).settled id = some v := by
  have spares := spares_same same spares
  exact (settled_perform sturdy.formed same idle spares settled).2 (constant_kept sturdy same found constant spares)

theorem constant_perform (same : m.outline = o.outline) (idle : m.Idle) (only : ∀ address value, op ≠ .assign address value)
    (settled : (m.perform op).settled id = some v) :
    o.Spares id op ∧ m.settled id = some v ∨ v = c.format.apply c.value := by
  cases op with
  | assign address value => exact absurd rfl (only address value)
  | evaluate address =>
    obtain ⟨-,-,grounded⟩ := evaluate_grounded sturdy.formed same idle (.self o m.settled) address
    cases before : m.settled id with
    | none =>
      have derived := grounded.derive before settled
      rw [derive_constant sturdy found constant] at derived
      exact .inr (Except.ok.inj derived).symm
    | some w =>
      have kept : (m.perform (.evaluate address)).settled id = some w := grounded.given id w before
      exact .inl ⟨trivial,kept.symm.trans settled⟩
  | reset address =>
    obtain ⟨spares,settled⟩ := settled_reset settled
    exact .inl ⟨by rwa [Spares,← resolve_same same],settled⟩

theorem settled_literal (untrusted : trusted = false) : o.settled id = some c.value := by
  obtain ⟨-,clean⟩ := sturdy.literal id c found constant
  have idle : c.evaluating = false := by simpa [isEvaluating,found] using sturdy.idle.marks id
  exact settled_eq_some.mpr ⟨c,found,by simpa [untrusted] using clean,idle,rfl⟩

-- Until it is reset a constant holds its literal, afterwards what it is computed to.
theorem constant_run (untrusted : trusted = false) (only : ∀ address value, Op.assign address value ∉ ops) :
    ((∀ op ∈ ops, o.Spares id op) → (o.run ops).settled id = some c.value) ∧
      ∀ v, (o.run ops).settled id = some v → (∀ op ∈ ops, o.Spares id op) ∨ v = c.format.apply c.value := by
  induction ops using List.reverseRecOn with
  | nil =>
    exact ⟨fun _ => settled_literal sturdy found constant untrusted,fun _ _ => .inl (by simp)⟩
  | append_singleton ops op ih =>
    obtain ⟨same,idle⟩ := run_idle sturdy.formed rfl sturdy.idle ops
    have before (address : String) (value : Value) : .assign address value ∉ ops := fun listed =>
      only address value (List.mem_append_left _ listed)
    have last (address : String) (value : Value) : op ≠ .assign address value := fun here =>
      only address value (by simp [here])
    rw [run_snoc]
    simp only [List.mem_append,List.mem_singleton,or_imp,forall_and,forall_eq]
    refine ⟨fun spared => ?_,fun v settled => ?_⟩
    · obtain ⟨spared,spares⟩ := spared
      exact constant_spared sturdy found constant same idle spares ((ih before).1 spared)
    · rcases constant_perform sturdy found constant same idle last settled with ⟨spares,settled⟩ | computed
      · exact ((ih before).2 v settled).imp_left fun spared => ⟨spared,spares⟩
      · exact .inr computed

end

theorem Alike.trans (one : m.Alike m') (two : m'.Alike m'') : m.Alike m'' := fun address => (one address).trans (two address)

theorem evaluate_alike (formed : o.WellFormed) (same : m.outline = o.outline) (idle : m.Idle) (address : String) :
    (m.evaluate address).2.Alike m := by
  obtain ⟨steady,still,grounded⟩ := evaluate_grounded formed same idle (.self o m.settled) address
  have sound := Session.sound_start same idle
  have sound' := Session.sound_start (steady.outline.trans same) still
  refine (Session.alike_iff formed sound' sound).mpr ⟨?_,?_⟩
  · intro y d v found settled
    rw [Session.inputs_start] at settled
    obtain ⟨n,below⟩ := grounded.scratch
    refine (Session.evaluate_cell formed sound found).mpr ⟨n,?_⟩
    rw [Session.inputs_start]
    exact (below y).ok (known_ok.mpr settled)
  · intro y d v found settled
    rw [Session.inputs_start] at settled
    refine (Session.evaluate_cell formed sound' found).mpr ⟨1,scratch_given ?_ 0⟩
    rw [Session.inputs_start]
    exact steady.settled settled

theorem Restores.fewer {given fewer : NodeId → Option Value} (restores : m.Restores given)
    (less : ∀ id v, fewer id = some v → given id = some v) : m.Restores fewer := fun id c v found known =>
  restores id c v found (less id v known)

theorem scratch_constant {inputs : NodeId → Option Value} (sturdy : o.Sturdy trusted) (found : o.cell? id = some c)
    (constant : c.formula = none) (computed : ∀ v, inputs id = some v → v = c.format.apply c.value) (n : Nat) :
    o.scratch inputs (n + 1) id = .ok (c.format.apply c.value) := by
  cases given : inputs id with
  | some v => rw [scratch_given given,computed v given]
  | none => rw [scratch_unknown o given,derive_constant sturdy found constant]

-- No constant that is reset holds a number that its format rounds.
def Exempt (o : Model) (ops : List Op) : Prop := ∀ id c, o.cell? id = some c → c.formula = none →
  (∀ op ∈ ops, o.Spares id op) ∨ c.format.apply c.value = c.value

section
variable (sturdy : o.Sturdy false) (only : ∀ address value, Op.assign address value ∉ ops)
include sturdy only

theorem exempt_restores (exempt : o.Exempt ops) : (o.run ops).Restores o.settled := by
  obtain ⟨same,idle⟩ := run_idle sturdy.formed rfl sturdy.idle ops
  intro id d v found given
  obtain ⟨c,there,clean,-,rfl⟩ := settled_eq_some.mp given
  have constant : c.formula = none := by
    cases formula : c.formula with
    | none => rfl
    | some text => simpa [clean] using sturdy.stale id c there (by simp [formula])
  obtain ⟨kept,computed⟩ := constant_run sturdy there constant rfl only
  refine (Session.evaluate_cell sturdy.formed (Session.sound_start same idle) found).mpr ⟨1,?_⟩
  rw [Session.inputs_start]
  by_cases spared : ∀ op ∈ ops, o.Spares id op
  · exact scratch_given (kept spared) 0
  · have fixed := (exempt id c there constant).resolve_left spared
    rw [scratch_constant sturdy there constant fun v settled => (computed v settled).resolve_left spared,fixed]

theorem restores_exempt (restores : (o.run ops).Restores o.settled) : o.Exempt ops := by
  obtain ⟨same,idle⟩ := run_idle sturdy.formed rfl sturdy.idle ops
  intro id c found constant
  obtain ⟨-,computed⟩ := constant_run sturdy found constant rfl only
  refine or_iff_not_imp_left.mpr fun spared => ?_
  have given := settled_literal sturdy found constant rfl
  obtain ⟨d,there,-⟩ := cell_same same found
  obtain ⟨n,value⟩ := (Session.evaluate_cell sturdy.formed (Session.sound_start same idle) there).mp (restores id d _ there given)
  rw [Session.inputs_start] at value
  have deeper := (o.scratch_below _ (Nat.le_succ n) id).ok value
  rw [scratch_constant sturdy found constant fun v settled => (computed v settled).resolve_left spared] at deeper
  exact Except.ok.inj deeper

-- One operation; the run is by induction. What is read clean has been computed from what the
-- constants hold, and so it is in a model in which nothing was reset.
theorem run_alike (exempt : o.Exempt ops) : (o.run ops).Alike o := by
  induction ops using List.reverseRecOn with
  | nil => exact fun _ => rfl
  | append_singleton ops op ih =>
    have before (address : String) (value : Value) : .assign address value ∉ ops := fun listed =>
      only address value (List.mem_append_left _ listed)
    have alike := ih before fun id c found constant =>
      (exempt id c found constant).imp_left fun spared op listed => spared op (List.mem_append_left _ listed)
    obtain ⟨same,idle⟩ := run_idle sturdy.formed rfl sturdy.idle ops
    obtain ⟨same',idle'⟩ := run_idle sturdy.formed rfl sturdy.idle (ops ++ [op])
    have start := Session.sound_start (m := o) rfl sturdy.idle
    have sound := Session.sound_start same idle
    have sound' := Session.sound_start same' idle'
    cases op with
    | assign address value => exact absurd (by simp) (only address value)
    | evaluate address =>
      rw [run_snoc]
      exact (evaluate_alike sturdy.formed same idle address).trans alike
    | reset address =>
      have restores := exempt_restores sturdy only exempt
      have restored := ((Session.alike_iff sturdy.formed sound start).mp alike).1
      rw [← Session.inputs_start o] at restores
      refine (Session.alike_iff sturdy.formed sound' start).mpr ⟨?_,restores⟩
      rw [Session.inputs_start] at restored ⊢
      rw [run_snoc]
      exact restored.fewer fun id v settled => (settled_reset settled).2

end

theorem exempt_whole (whole : ∀ id c, o.cell? id = some c → c.format.places = none) : o.Exempt ops := by
  intro id c found _
  right
  unfold NumberFormat.apply
  rw [whole id c found]
  cases c.value <;> rfl

end Model

-- Resets alone show just if one of them makes a constant be computed again that its number format
-- rounds. It holds the literal until then, and the rounded number afterwards.
theorem resets_unseen {options : BuildOptions} {seeds : List (String × String)} {book : Workbook} {o : Model}
    (made : (build options seeds book).1 = .ok o) (untrusted : options.trustCached = false)
    (only : ∀ address value, Op.assign address value ∉ ops) :
    (o.run ops).Alike o ↔ ∀ id c, o.cell? id = some c → c.formula = none →
      (∀ op ∈ ops, o.Spares id op) ∨ c.format.apply c.value = c.value := by
  have sturdy := build_sturdy made
  rw [untrusted] at sturdy
  refine ⟨fun alike => ?_,fun exempt => Model.run_alike sturdy only exempt⟩
  obtain ⟨same,idle⟩ := Model.run_idle sturdy.formed rfl sturdy.idle ops
  have start := Session.sound_start (m := o) rfl sturdy.idle
  have restores := ((Session.alike_iff sturdy.formed (Session.sound_start same idle) start).mp alike).2
  rw [Session.inputs_start] at restores
  exact Model.restores_exempt sturdy only restores

theorem resets_unseen_layered : ∃ o, (build .standard [("S","A1:A3")] layered).1 = .ok o ∧
    (o.run [.reset "S!A1",.evaluate "S!A3",.reset "S!A2"]).Alike o := by
  obtain ⟨o,made,whole⟩ : ∃ o, (build .standard [("S","A1:A3")] layered).1 = .ok o ∧
      (o.nodes.all fun n => n.cell?.all fun c => c.format.places.isNone) = true :=
    ⟨_,Workbook.made (by decide +kernel),by decide +kernel⟩
  refine ⟨o,made,(resets_unseen made rfl (by simp)).mpr (Model.exempt_whole fun id c found => ?_)⟩
  have listed := List.all_eq_true.mp whole _ (List.mem_of_getElem? (Model.cell?_eq_some.mp found))
  simpa [Node.cell?] using listed

def unrounded : Workbook := ⟨[⟨"S",[(⟨1,1⟩,⟨none,.number 1.96,some (.custom "0.0")⟩)]⟩],0⟩

def showsNumber (r : Except FormulaError Value) (n : Float) : Bool :=
  match r with
  | .ok (.number shown) => shown = n
  | _ => false

theorem shows_number {r : Except FormulaError Value} {n : Float} (shown : showsNumber r n = true) : r = .ok (.number n) := by
  unfold showsNumber at shown
  split at shown
  · rw [of_decide_eq_true shown]
  · cases shown

theorem resets_seen : ∃ o, (build .standard [("S","A1")] unrounded).1 = .ok o ∧
    (o.evaluate "S!A1").1 = .ok (.number 1.96) ∧ ((o.run [.reset "S!A1"]).evaluate "S!A1").1 = .ok (.number 2.0) :=
  ⟨_,Workbook.made (by decide +kernel),shows_number (by decide +kernel),shows_number (by decide +kernel)⟩

end Recalc
