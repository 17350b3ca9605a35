import Recalc.Proofs.Model.State.Invalidate

namespace Recalc

inductive Op where
  | assign (address : String) (value : Value)
  | reset (address : String)
  | evaluate (address : String)

namespace Model

def perform (m : Model) : Op → Model
  | .assign address value => (m.assign address value).2
  | .reset address => (m.reset address).2
  | .evaluate address => (m.evaluate address).2

def run (m : Model) (ops : List Op) : Model := ops.foldl perform m

-- Whether an assignment stores its value in the cell. Where it changes nothing it can be
-- counted as storing the value that stands there.
def stores (m : Model) (counting : Bool) : Op → NodeId → Bool
  | .assign address value, id => match m.resolve address with
    | .ok target => id == target && (m.cell? id).any fun c => counting || c.dirty || !c.value.same value
    | .error _ => false
  | _, _ => false

end Model

-- A model together with the cells that hold a value given to them: at first all that are
-- clean, then those assigned to, each until it is dirty.
structure Session where
  model : Model
  held : NodeId → Bool

namespace Session

def start (m : Model) : Session := ⟨m,fun id => (m.settled id).isSome⟩

def perform (counting : Bool) (s : Session) (op : Op) : Session :=
  ⟨s.model.perform op,
    fun id => (s.model.stores counting op id || s.held id) && !(s.model.perform op).isDirty id⟩

def run (counting : Bool) (s : Session) (ops : List Op) : Session := ops.foldl (perform counting) s

def inputs (s : Session) (id : NodeId) : Option Value := if s.held id then s.model.settled id else none

theorem model_run (counting : Bool) (s : Session) (ops : List Op) :
    (s.run counting ops).model = s.model.run ops := by
  induction ops generalizing s with
  | nil => rfl
  | cons op ops ih => exact ih (s.perform counting op)

end Session

namespace Model
variable {o m m' : Model} {inputs : NodeId → Option Value} {id : NodeId}

-- What building provides: every cell has an address of its own, and one cell at least can
-- be evaluated at a time.
structure WellFormed (o : Model) : Prop where
  distinct : o.Distinct
  deep : 1 ≤ o.limits.depth

theorem WellFormed.same (formed : o.WellFormed) (same : m.outline = o.outline) : m.WellFormed :=
  ⟨distinct_same same formed.distinct,limits_same same ▸ formed.deep⟩

theorem perform_assigns (m : Model) (address : String) (value : Value) : ∃ result, m.Assigns address value result ∧
    m.perform (.assign address value) = result.2 := ⟨_,m.assign_assigns address value,rfl⟩

section
variable (formed : o.WellFormed) (same : m.outline = o.outline) (idle : m.Idle)
include formed same idle

theorem evaluate_grounded (grounded : o.Grounded inputs m.settled) (address : String) :
    m.Steady (m.evaluate address).2 ∧ (m.evaluate address).2.Idle ∧
      o.Grounded inputs (m.evaluate address).2.settled := by
  cases resolved : m.resolve address with
  | error e =>
    have ran : m.evaluate address = (.error e,m) := by simp [evaluate,resolved]
    rw [ran]
    exact ⟨.refl m,idle,grounded⟩
  | ok id =>
    have evaluates := evaluate_evaluates formed.distinct formed.deep same grounded idle resolved
    exact ⟨evaluates.drift.steady idle evaluates.idle,evaluates.idle,evaluates.grounded⟩

theorem evaluate_steady (address : String) :
    m.Steady (m.evaluate address).2 ∧ (m.evaluate address).2.Idle := by
  obtain ⟨steady,after,-⟩ := evaluate_grounded formed same idle (Grounded.self o m.settled) address
  exact ⟨steady,after⟩

theorem perform_idle (op : Op) : (m.perform op).outline = m.outline ∧ (m.perform op).Idle := by
  cases op with
  | assign address value =>
    obtain ⟨result,assigns,next⟩ := m.perform_assigns address value
    rw [next]
    cases assigns with
    | fails => exact ⟨rfl,idle⟩
    | skips => exact ⟨rfl,idle⟩
    | stores => exact ⟨outline_stored,idle_stored idle⟩
  | reset address =>
    rcases m.reset_spec address with ⟨e,ran⟩ | ⟨id,-,ran⟩
    · have next : m.perform (.reset address) = m := by simp [perform,ran]
      rw [next]
      exact ⟨rfl,idle⟩
    · have next : m.perform (.reset address) = m.invalidate id (m.spreads id) := by simp [perform,ran]
      rw [next]
      exact ⟨outline_invalidate,idle_invalidate idle⟩
  | evaluate address =>
    obtain ⟨steady,after⟩ := evaluate_steady formed same idle address
    exact ⟨steady.outline,after⟩

theorem run_idle (ops : List Op) : (m.run ops).outline = m.outline ∧ (m.run ops).Idle := by
  induction ops generalizing m with
  | nil => exact ⟨rfl,idle⟩
  | cons op ops ih =>
    obtain ⟨outline,after⟩ := perform_idle formed same idle op
    obtain ⟨rest,last⟩ := ih (outline.trans same) after
    exact ⟨rest.trans outline,last⟩

end

section
variable {counting : Bool}

theorem stores_fails (absent : ∀ id, m.resolve address = .ok id → m.cell? id = none) :
    m.stores counting (.assign address value) = fun _ => false := by
  funext id
  cases resolved : m.resolve address with
  | error e => simp [stores,resolved]
  | ok target =>
    by_cases here : id = target
    · simp [stores,resolved,absent id (here ▸ resolved)]
    · simp [stores,resolved,beq_false_of_ne here]

theorem stores_skips (resolved : m.resolve address = .ok id) (found : m.cell? id = some c) (clean : c.dirty = false)
    (same : c.value.same value = true) : m.stores counting (.assign address value) = fun y => y == id && counting := by
  funext y
  by_cases here : y = id
  · simp [stores,resolved,here,found,clean,same]
  · simp [stores,resolved,beq_false_of_ne here]

theorem stores_stores (resolved : m.resolve address = .ok id) (found : m.cell? id = some c)
    (other : ¬ (c.dirty = false ∧ c.value.same value = true)) :
    m.stores counting (.assign address value) = fun y => y == id := by
  funext y
  by_cases here : y = id
  · cases dirty : c.dirty <;> cases same : c.value.same value <;> simp_all [stores]
  · simp [stores,resolved,beq_false_of_ne here]

end
end Model

namespace Session
variable {o : Model} {s : Session} {id : NodeId} {counting : Bool}

structure Sound (o : Model) (s : Session) : Prop where
  outline : s.model.outline = o.outline
  idle : s.model.Idle
  present : ∀ id, s.held id = true → s.model.settled id ≠ none
  grounded : o.Grounded s.inputs s.model.settled

theorem sound_start (same : m.outline = o.outline) (idle : m.Idle) : Sound o (start m) := by
  refine ⟨same,idle,?_,?_⟩
  · intro id held absent
    simp only [start] at held absent
    simp [absent] at held
  · have inputs : (start m).inputs = m.settled := by
      funext id
      unfold Session.inputs start
      cases found : m.settled id <;> simp [found]
    rw [inputs]
    exact Model.Grounded.self o m.settled

theorem settled_dirty {m : Model} {id : NodeId} (dirty : m.isDirty id = true) : m.settled id = none := by
  rw [Model.isDirty_cell?] at dirty
  cases found : m.cell? id with
  | none => simp [found] at dirty
  | some c => exact Model.settled_eq_none found (.inl (by simpa [found] using dirty))

theorem inputs_perform (s : Session) (counting : Bool) (op : Op) : (s.perform counting op).inputs =
    fun id => if s.model.stores counting op id || s.held id then (s.model.perform op).settled id else none := by
  funext id
  unfold Session.inputs perform
  cases dirty : (s.model.perform op).isDirty id with
  | true => simp [settled_dirty dirty]
  | false => simp [dirty]

def Leaves (o m : Model) (given : NodeId → Bool) : Prop :=
  (∀ id, given id = true → m.isDirty id = false → m.settled id ≠ none) ∧
    o.Grounded (fun id => if given id then m.settled id else none) m.settled

theorem leaves_steady (sound : Sound o s) (steady : s.model.Steady m) (grounded : o.Grounded s.inputs m.settled) :
    Leaves o m s.held := by
  have kept : ∀ id, s.held id = true → m.settled id = s.model.settled id := by
    intro id held
    obtain ⟨v,found⟩ := Option.ne_none_iff_exists'.mp (sound.present id held)
    rw [found,steady.settled found]
  refine ⟨fun id held _ => (kept id held).symm ▸ sound.present id held,?_⟩
  have same : (fun id => if s.held id then m.settled id else none) = s.inputs := by
    funext id
    unfold Session.inputs
    split
    · exact kept id ‹_›
    · rfl
  rw [same]
  exact grounded

theorem leaves_hold (sound : Sound o s) (settled : s.model.settled id = some v) :
    Leaves o s.model fun y => y == id || s.held y := by
  refine ⟨?_,?_⟩
  · intro y given _
    rcases Bool.or_eq_true_iff.mp given with here | held
    · simp [eq_of_beq here,settled]
    · exact sound.present y held
  · have same : (fun y => if (y == id || s.held y) = true then s.model.settled y else none) =
        fun y => if y = id then some v else s.inputs y := by
      funext y
      unfold Session.inputs
      by_cases here : y = id <;> simp [here,settled]
    rw [same]
    exact sound.grounded.hold settled

section
variable (covered : o.Covered) (sound : Sound o s)
include covered sound

theorem leaves_invalidate {start : NodeId} {propagate : Bool}
    (moves : s.model.isDirty start = false → propagate = true) :
    Leaves o (s.model.invalidate start propagate) s.held := by
  have settled : (s.model.invalidate start propagate).settled =
      Model.without s.model.settled (s.model.reached start propagate) := Model.settled_invalidate
  refine ⟨?_,?_⟩
  · intro y held clean
    obtain ⟨v,found⟩ := Option.ne_none_iff_exists'.mp (sound.present y held)
    obtain ⟨c,there,-⟩ := Model.settled_eq_some.mp found
    rw [settled]
    unfold Model.without
    split
    · rename_i listed
      simp [Model.isDirty_cell?,listed,there,Model.clear] at clean
    · simp [found]
  · have same : (fun id => if s.held id then (s.model.invalidate start propagate).settled id else none) =
        Model.without s.inputs (s.model.reached start propagate) := by
      funext y
      rw [settled]
      unfold Model.without Session.inputs
      split <;> split <;> rfl
    rw [same,settled]
    exact sound.grounded.invalidate covered sound.outline moves

theorem leaves_stored (found : s.model.cell? id = some c) (v : Value) :
    Leaves o (s.model.stored id v) fun y => y == id || s.held y := by
  obtain ⟨present,grounded⟩ : Leaves o (s.model.invalidate id true) s.held := leaves_invalidate covered sound fun _ => rfl
  have settled := Model.settled_stored (v := v) sound.idle found
  have cleared : (s.model.invalidate id true).settled = Model.without s.model.settled (s.model.reached id true) :=
    Model.settled_invalidate
  have fresh : (s.model.invalidate id true).settled id = none := by simp [cleared,Model.without]
  have given := grounded.give fresh v
  have others : (s.model.stored id v).settled = fun y => if y = id then some v else (s.model.invalidate id true).settled y := by
    rw [settled,cleared]
  refine ⟨?_,?_⟩
  · intro y held clean
    rw [others]
    by_cases here : y = id
    · simp [here]
    · simp only [here,if_false]
      refine present y (by simpa [here] using held) ?_
      simpa [Model.isDirty_cell?,here] using clean
  · have same : (fun y => if (y == id || s.held y) = true then (s.model.stored id v).settled y else none) =
        fun y => if y = id then some v else
          if s.held y = true then (s.model.invalidate id true).settled y else none := by
      funext y
      by_cases here : y = id <;> simp [others,here]
    rw [same,others]
    exact given

end

theorem leaves_perform (formed : o.WellFormed) (covered : o.Covered) (sound : Sound o s) (counting : Bool) (op : Op) :
    Leaves o (s.model.perform op) fun id => s.model.stores counting op id || s.held id := by
  cases op with
  | evaluate address =>
    obtain ⟨steady,-,grounded⟩ :=
      Model.evaluate_grounded formed sound.outline sound.idle sound.grounded address
    simpa [Model.stores,Model.perform] using leaves_steady sound steady grounded
  | reset address =>
    rcases s.model.reset_spec address with ⟨e,ran⟩ | ⟨id,-,ran⟩
    · simpa [Model.stores,Model.perform,ran] using leaves_steady sound (.refl _) sound.grounded
    · have moves : s.model.isDirty id = false → s.model.spreads id = true := by simp [Model.spreads]
      simpa [Model.stores,Model.perform,ran] using leaves_invalidate covered sound moves
  | assign address value =>
    obtain ⟨result,assigns,next⟩ := s.model.perform_assigns address value
    rw [next]
    cases assigns with
    | fails e absent => simpa [Model.stores_fails absent] using leaves_steady sound (.refl _) sound.grounded
    | skips id c resolved found clean same =>
      have stores : s.model.stores counting (.assign address value) = fun y => y == id && counting :=
        Model.stores_skips resolved found clean same
      cases counting with
      | false => simpa [stores] using leaves_steady sound (.refl _) sound.grounded
      | true =>
        have idle : c.evaluating = false := by simpa [Model.isEvaluating,found] using sound.idle.marks id
        simpa [stores] using leaves_hold sound (Model.settled_eq_some.mpr ⟨c,found,clean,idle,rfl⟩)
    | stores id c resolved found other =>
      simpa [Model.stores_stores resolved found other] using leaves_stored covered sound found value

theorem sound_perform (formed : o.WellFormed) (covered : o.Covered) (sound : Sound o s) (counting : Bool) (op : Op) :
    Sound o (s.perform counting op) := by
  obtain ⟨outline,idle⟩ := Model.perform_idle formed sound.outline sound.idle op
  have leaves := leaves_perform formed covered sound counting op
  refine ⟨outline.trans sound.outline,idle,?_,?_⟩
  · intro id held
    have held : ((s.model.stores counting op id || s.held id) && !(s.model.perform op).isDirty id) = true := held
    rw [Bool.and_eq_true,Bool.not_eq_true'] at held
    exact leaves.1 id held.1 held.2
  · rw [inputs_perform]
    exact leaves.2

theorem sound_run (formed : o.WellFormed) (covered : o.Covered) (sound : Sound o s) (counting : Bool) (ops : List Op) :
    Sound o (s.run counting ops) := by
  induction ops generalizing s with
  | nil => exact sound
  | cons op ops ih => exact ih (sound_perform formed covered sound counting op)

end Session
end Recalc
