import Recalc.Proofs.Model.Evaluate.CellRun
import Recalc.Proofs.Query.Composing

namespace Recalc

-- What a formula asks for, cell after cell, once its addresses are resolved. Where an address
-- names nothing the plan fails of itself.
inductive Plan (α : Type) where
  | done (r : Except FormulaError α)
  | ask (id : NodeId) (next : Value → Plan α)

namespace Plan
variable {α β : Type}

def bind : Plan α → (α → Plan β) → Plan β
  | done (.ok a), f => f a
  | done (.error e), _ => done (.error e)
  | ask id next, f => ask id fun v => (next v).bind f

instance : Monad Plan where
  pure a := done (.ok a)
  bind := bind

theorem bind_done (p : Plan α) : (p.bind fun a => done (.ok a)) = p := by
  induction p with
  | done r => cases r <;> rfl
  | ask id next ih => simp only [bind,ih]

theorem bind_bind (p : Plan α) (f : α → Plan β) (g : β → Plan γ) : (p.bind f).bind g = p.bind fun a => (f a).bind g := by
  induction p with
  | done r => cases r <;> rfl
  | ask id next ih => simp only [bind,ih]

instance : LawfulMonad Plan := LawfulMonad.mk' Plan bind_done (fun _ _ => rfl) bind_bind

def run (cell : NodeId → Except FormulaError Value) : Plan α → Except FormulaError α
  | done r => r
  | ask id next => do (next (← cell id)).run cell

def perform (cell : NodeId → Run Value) : Plan α → Run α
  | done r => Run.ofExcept fun _ => r
  | ask id next => do (next (← cell id)).perform cell

def visited (cell : NodeId → Except FormulaError Value) : Plan α → List NodeId
  | done _ => []
  | ask id next => id :: match cell id with
    | .ok v => (next v).visited cell
    | .error _ => []

def awaits (values : NodeId → Option Value) : Plan α → Option NodeId
  | done _ => none
  | ask id next => match values id with
    | some v => (next v).awaits values
    | none => some id

theorem run_bind (cell : NodeId → Except FormulaError Value) (p : Plan α) (f : α → Plan β) :
    (p >>= f).run cell = p.run cell >>= fun a => (f a).run cell := by
  change (p.bind f).run cell = _
  induction p with
  | done r => cases r <;> rfl
  | ask id next ih =>
    simp only [bind,run,ih]
    cases cell id <;> rfl

theorem run_mapM (cell : NodeId → Except FormulaError Value) (f : α → Plan β) (as : List α) :
    (as.mapM f).run cell = as.mapM fun a => (f a).run cell := by
  induction as with
  | nil => rfl
  | cons a as ih =>
    simp only [List.mapM_cons,run_bind,ih]
    rfl

theorem perform_ask (cell : NodeId → Run Value) (id : NodeId) (next : Value → Plan α) (m : Model) :
    (Plan.ask id next).perform cell m = match cell id m with
      | (.ok v,m') => (next v).perform cell m'
      | (.error e,m') => (.error e,m') := by
  rw [perform,Run.bind_at]
  rcases cell id m with ⟨r | v,m'⟩ <;> rfl

theorem perform_bind (cell : NodeId → Run Value) (p : Plan α) (f : α → Plan β) :
    (p >>= f).perform cell = p.perform cell >>= fun a => (f a).perform cell := by
  change (p.bind f).perform cell = _
  induction p with
  | done r => cases r <;> rfl
  | ask id next ih => simp only [bind,perform,ih,bind_assoc]

section
variable {c c' : NodeId → Except FormulaError Value} {values values' : NodeId → Option Value}

theorem visited_below (below : Below c c') (p : Plan α) (listed : z ∈ p.visited c) : z ∈ p.visited c' := by
  induction p with
  | done r => cases listed
  | ask id next ih =>
    rw [visited,List.mem_cons] at listed ⊢
    refine listed.imp_right fun listed => ?_
    cases found : c id with
    | error e => simp [found] at listed
    | ok v =>
      rw [(below id).ok found]
      rw [found] at listed
      exact ih v listed

theorem awaits_unknown (p : Plan α) (waits : p.awaits values = some g) : values g = none := by
  induction p with
  | done r => cases waits
  | ask id next ih =>
    rw [awaits] at waits
    split at waits
    · exact ih _ waits
    · cases waits
      assumption

theorem awaits_kept (more : ∀ id v, values id = some v → values' id = some v) (p : Plan α)
    (waits : p.awaits values = some g) (unknown : values' g = none) : p.awaits values' = some g := by
  induction p with
  | done r => cases waits
  | ask id next ih =>
    rw [awaits] at waits ⊢
    cases found : values id with
    | none =>
      simp only [found] at waits
      cases waits
      simp [unknown]
    | some v =>
      simp only [found] at waits
      simp only [more id v found]
      exact ih v waits

theorem awaits_none (more : ∀ id v, values id = some v → values' id = some v) (p : Plan α)
    (decided : p.awaits values = none) : p.awaits values' = none ∧ p.run (known values') = p.run (known values) := by
  induction p with
  | done r => exact ⟨rfl,rfl⟩
  | ask id next ih =>
    rw [awaits] at decided ⊢
    cases found : values id with
    | none => simp [found] at decided
    | some v =>
      simp only [found] at decided
      have there := more id v found
      simp only [there,run,known_ok.mpr found,known_ok.mpr there]
      exact ih v decided

theorem awaits_of_run (p : Plan α) (found : p.run (known values) = .ok a) : p.awaits values = none := by
  induction p with
  | done r => rfl
  | ask id next ih =>
    rw [awaits]
    cases read : values id with
    | none => simp [run,known,read,circle,Bind.bind,Except.bind] at found
    | some v =>
      rw [run,known_ok.mpr read] at found
      exact ih v found

def Agree (values : NodeId → Option Value) (c : NodeId → Except FormulaError Value) : Prop :=
  ∀ id v w, values id = some v → c id = .ok w → v = w

-- The plan comes to nothing: it waits for one of these cells or fails.
structure Blocked (values : NodeId → Option Value) (cells : NodeId → Prop) (p : Plan α) : Prop where
  waits : ∀ g, p.awaits values = some g → cells g
  fails : p.awaits values = none → ∀ a, p.run (known values) ≠ .ok a

theorem Blocked.mono {cells cells' : NodeId → Prop} {p : Plan α} (blocked : p.Blocked values cells)
    (more : ∀ g, cells g → cells' g) : p.Blocked values cells' :=
  ⟨fun g waits => more g (blocked.waits g waits),blocked.fails⟩

theorem blocked_error (values : NodeId → Option Value) (cells : NodeId → Prop) (e : FormulaError) :
    (Plan.done (.error e) : Plan α).Blocked values cells :=
  ⟨by rintro g ⟨⟩,by rintro - a ⟨⟩⟩

theorem Blocked.asked {id : NodeId} {cells : NodeId → Prop} {next : Value → Plan α} (blocked : (next v).Blocked values cells)
    (read : values id = some v) : (Plan.ask id next).Blocked values cells := by
  have rest : (Plan.ask id next).awaits values = (next v).awaits values := by simp [awaits,read]
  refine ⟨fun g waits => blocked.waits g (rest ▸ waits),fun decided a => ?_⟩
  rw [run,known_ok.mpr read]
  exact blocked.fails (rest ▸ decided) a

theorem Blocked.kept {cells : NodeId → Prop} {p : Plan α} (blocked : p.Blocked values cells)
    (more : ∀ id v, values id = some v → values' id = some v) (still : ∀ g, cells g → values' g = none) :
    p.Blocked values' cells := by
  cases before : p.awaits values with
  | none =>
    obtain ⟨decided,same⟩ := p.awaits_none more before
    refine ⟨fun g waits => by simp [decided] at waits,fun _ a => ?_⟩
    rw [same]
    exact blocked.fails before a
  | some g =>
    have here := blocked.waits g before
    have after := p.awaits_kept more before (still g here)
    refine ⟨fun k waits => ?_,fun decided => by simp [after] at decided⟩
    rw [after] at waits
    exact Option.some.inj waits ▸ here

theorem Blocked.no_value {cells : NodeId → Prop} {p : Plan α} (blocked : p.Blocked values cells) (agree : Agree values c)
    (stuck : ∀ g, cells g → values g = none → ∀ v, c g ≠ .ok v) (a : α) : p.run c ≠ .ok a := by
  induction p with
  | done r => exact blocked.fails rfl a
  | ask id next ih =>
    intro found
    cases answer : c id with
    | error e => simp [run,answer,Bind.bind,Except.bind] at found
    | ok w =>
      rw [run,answer] at found
      cases read : values id with
      | none => exact stuck id (blocked.waits id (by simp [awaits,read])) read w answer
      | some v =>
        have same := agree id v w read answer
        subst same
        have rest : (next v).awaits values = (ask id next).awaits values := by simp [awaits,read]
        refine ih v ⟨fun g waits => blocked.waits g (rest ▸ waits),fun decided b result => ?_⟩ found
        refine blocked.fails (rest ▸ decided) b ?_
        rw [run,known_ok.mpr read]
        exact result

theorem visited_awaits (agree : Agree values c) (p : Plan α) (stuck : ∀ g, p.awaits values = some g → ∀ v, c g ≠ .ok v)
    (listed : z ∈ p.visited c) : values z ≠ none ∨ p.awaits values = some z := by
  induction p with
  | done r => cases listed
  | ask id next ih =>
    rw [visited,List.mem_cons] at listed
    cases read : values id with
    | none =>
      right
      have here : (ask id next).awaits values = some id := by simp [awaits,read]
      rcases listed with rfl | listed
      · exact here
      · cases answer : c id with
        | error e => simp [answer] at listed
        | ok w => exact absurd answer (stuck id here w)
    | some v =>
      have rest : (ask id next).awaits values = (next v).awaits values := by simp [awaits,read]
      rcases listed with rfl | listed
      · exact .inl (by simp [read])
      · cases answer : c id with
        | error e => simp [answer] at listed
        | ok w =>
          rw [answer] at listed
          have same := agree id v w read answer
          subst same
          rw [rest]
          exact ih v (rest ▸ stuck) listed

end

def Untagged : Plan α → Prop
  | done r => ∀ e, r = .error e → e.isTagged = false
  | ask _ next => ∀ v, (next v).Untagged

namespace Untagged

theorem pure (a : α) : (Pure.pure a : Plan α).Untagged := by
  rintro e ⟨⟩

theorem bind {p : Plan α} {f : α → Plan β} (first : p.Untagged) (rest : ∀ a, (f a).Untagged) : (p >>= f).Untagged := by
  change (p.bind f).Untagged
  induction p with
  | done r => cases r with
    | ok a => exact rest a
    | error e =>
      rintro _ ⟨⟩
      exact first e rfl
  | ask id next ih => exact fun v => ih v (first v)

theorem composes : Composes fun α (p : Plan α) => p.Untagged := ⟨pure,bind⟩

theorem mapM {f : α → Plan β} (each : ∀ a, (f a).Untagged) (as : List α) : (as.mapM f).Untagged :=
  composes.mapM fun a _ => each a

end Untagged
end Plan

namespace Model
variable {o m m' : Model} {inputs : NodeId → Option Value} {id : NodeId}

def nodePlan (m : Model) (id : NodeId) : Plan Value :=
  match m.nodes[id]? with
  | some (.range r) => do
    return .array (← r.cells.mapM fun row => row.mapM fun address => do
      .ask (← Plan.done (m.resolve address)) fun v => .done (.ok v))
  | _ => .ask id fun v => .done (.ok v)

def planSource (m : Model) (plain : Bool) : Query.Source Plan where
  cell bare text := do
    let v ← m.nodePlan (← Plan.done (m.resolve text))
    return if bare ∧ plain ∧ v.isEmpty then .number 0.0 else v
  range text := .done (m.rectOf text)

def formulaPlan (m : Model) (id : NodeId) : Plan Value :=
  match m.cell? id with
  | some c => c.expr.query.answer (m.planSource c.expr.isReference)
  | none => .done (.error (.unknownCell (m.addressOf id)))

theorem run_nodePlan (m : Model) (cell : NodeId → Except FormulaError Value) (id : NodeId) :
    (m.nodePlan id).run cell = m.nodeValue cell id := by
  have single (y : NodeId) : (Plan.ask y fun v => .done (.ok v)).run cell = cell y := by
    simp only [Plan.run]
    cases cell y <;> rfl
  unfold nodePlan nodeValue
  cases m.nodes[id]? with
  | none => exact single id
  | some node => cases node with
    | cell c => exact single id
    | range r =>
      simp only [Plan.run_bind,Plan.run_mapM,single]
      rfl

theorem run_answer (m : Model) (cell : NodeId → Except FormulaError Value) (plain : Bool) (q : Query α) :
    (q.answer (m.planSource plain)).run cell = q.answer (m.sourceOver cell plain) := by
  induction q with
  | done a => rfl
  | cell bare address next ih =>
    simp only [Query.answer,planSource,sourceOver,Plan.run_bind,run_nodePlan,bind_assoc] at ih ⊢
    simp only [ih]
    rfl
  | range address next ih =>
    simp only [Query.answer,Plan.run_bind,ih]
    rfl

theorem derive_plan (found : m.cell? id = some c) (cell : NodeId → Except FormulaError Value) :
    m.derive cell id = c.conclude ((m.formulaPlan id).run cell) := by
  simp only [derive,formulaPlan,found,resultOf,run_answer]

theorem derive_ok {cell : NodeId → Except FormulaError Value} (value : m.derive cell id = .ok v) :
    ∃ c w, m.cell? id = some c ∧ (m.formulaPlan id).run cell = .ok w ∧ v = c.format.apply w := by
  cases found : m.cell? id with
  | none => simp [derive,found] at value
  | some c =>
    rw [derive_plan found] at value
    obtain ⟨w,result,same⟩ := Cell.conclude_ok value
    exact ⟨c,w,rfl,result,same⟩

theorem untagged_nodePlan (m : Model) (id : NodeId) : (m.nodePlan id).Untagged := by
  have single (y : NodeId) : (Plan.ask y fun v => .done (.ok v)).Untagged := fun v => .pure v
  have read (address : String) : (do .ask (← Plan.done (m.resolve address)) fun v => .done (.ok v) : Plan Value).Untagged :=
    Plan.Untagged.bind (fun _ failed => resolve_untagged failed) single
  unfold nodePlan
  split
  · exact (Plan.Untagged.mapM (fun row => .mapM read row) _).bind fun rows => Plan.Untagged.pure _
  · exact single id

theorem untagged_formulaPlan (m : Model) (id : NodeId) : (m.formulaPlan id).Untagged := by
  have answers (plain : Bool) (q : Query Value) : (q.answer (m.planSource plain)).Untagged := by
    induction q with
    | done a => exact Plan.Untagged.pure a
    | cell bare address next ih =>
      refine Plan.Untagged.bind (Plan.Untagged.bind (fun _ failed => resolve_untagged failed) fun y => ?_) ih
      exact (m.untagged_nodePlan y).bind fun v => Plan.Untagged.pure _
    | range address next ih => exact Plan.Untagged.bind (fun _ failed => rectOf_untagged failed) ih
  unfold formulaPlan
  split
  · exact answers _ _
  · rintro _ ⟨⟩
    rfl

def Performs (o : Model) (cell : NodeId → Run Value) (x : Run α) (p : Plan α) : Prop :=
  ∀ m, m.outline = o.outline → x m = p.perform cell m

def Keeps (o : Model) (cell : NodeId → Run Value) : Prop :=
  ∀ id m, m.outline = o.outline → (cell id m).2.outline = o.outline

section
variable {cell : NodeId → Run Value} (keeps : o.Keeps cell)
include keeps

theorem perform_keeps (p : Plan α) (same : m.outline = o.outline) : (p.perform cell m).2.outline = o.outline := by
  induction p generalizing m with
  | done r => exact same
  | ask id next ih =>
    have kept := keeps id m same
    rw [Plan.perform_ask]
    generalize cell id m = ran at kept ⊢
    obtain ⟨r,m'⟩ := ran
    cases r with
    | error e => exact kept
    | ok v => exact ih v kept

theorem Performs.bind {x : Run α} {p : Plan α} {f : α → Run β} {g : α → Plan β} (first : o.Performs cell x p)
    (rest : ∀ a, o.Performs cell (f a) (g a)) : o.Performs cell (x >>= f) (p >>= g) := by
  intro m same
  have kept := perform_keeps keeps p same
  rw [Plan.perform_bind,Run.bind_at,Run.bind_at,first m same]
  generalize p.perform cell m = ran at kept ⊢
  obtain ⟨r,m'⟩ := ran
  cases r with
  | error e => rfl
  | ok a => exact rest a m' kept

omit keeps in
theorem Performs.pure (a : α) : o.Performs cell (Pure.pure a) (Pure.pure a) := fun _ _ => rfl

omit keeps in
theorem Performs.ofExcept {f : Model → Except FormulaError α} (told : ∀ m, m.outline = o.outline → f m = f o) :
    o.Performs cell (Run.ofExcept f) (Plan.done (f o)) := fun m same => by simp [Run.ofExcept,Plan.perform,told m same]

theorem Performs.mapM {f : α → Run β} {g : α → Plan β} (each : ∀ a, o.Performs cell (f a) (g a)) (as : List α) :
    o.Performs cell (as.mapM f) (as.mapM g) := by
  induction as with
  | nil => exact pure []
  | cons a as ih =>
    simp only [List.mapM_cons]
    exact (each a).bind keeps fun b => ih.bind keeps fun bs => pure (b :: bs)

omit keeps in
theorem performs_cell (id : NodeId) : o.Performs cell (cell id) (.ask id fun v => .done (.ok v)) := by
  intro m _
  rw [Plan.perform_ask]
  rcases cell id m with ⟨r | v,m'⟩ <;> rfl

theorem performs_node (id : NodeId) : o.Performs cell (Run.node cell id) (o.nodePlan id) := by
  have read (address : String) : o.Performs cell (do cell (← Run.ofExcept fun m => m.resolve address))
      (do .ask (← Plan.done (o.resolve address)) fun v => .done (.ok v)) :=
    (Performs.ofExcept fun _ same => resolve_same same address).bind keeps performs_cell
  have rows (r : RangeNode) := (Performs.mapM keeps (fun row => Performs.mapM keeps read row) r.cells).bind keeps
    fun rows => .pure (Value.array rows)
  intro m same
  rw [Run.node_at]
  unfold nodePlan
  have mapped := node_same same id
  cases here : m.nodes[id]? with
  | none =>
    have there : o.nodes[id]? = none := by simpa [here] using mapped.symm
    simp only [there]
    exact performs_cell id m same
  | some node => cases node with
    | cell c =>
      obtain ⟨c',there,-⟩ := cell_same same.symm (cell?_eq_some.mpr here)
      simp only [cell?_eq_some.mp there]
      exact performs_cell id m same
    | range r =>
      simp only [range_same same.symm here]
      exact rows r m same

theorem performs_answer (plain : Bool) (q : Query α) :
    o.Performs cell (q.answer (Run.source cell plain)) (q.answer (o.planSource plain)) := by
  induction q with
  | done a => exact .pure a
  | cell bare address next ih =>
    refine Performs.bind keeps ?_ ih
    have read : (Run.source cell plain).cell bare address = (do
        let id ← Run.ofExcept fun m => m.resolve address
        let v ← Run.node cell id
        return if bare ∧ plain ∧ v.isEmpty then .number 0.0 else v) := by
      simp only [Run.source,Run.address,bind_assoc]
    rw [read]
    exact (Performs.ofExcept fun _ same => resolve_same same address).bind keeps fun id =>
      (performs_node keeps id).bind keeps fun v => .pure _
  | range address next ih =>
    exact (Performs.ofExcept fun _ same => rectOf_same same address).bind keeps ih

end

theorem steady_cell (room : Nat) (id : NodeId) (m : Model) : m.Steady (Run.cell room id m).2 :=
  ((tracks_cell room id).follows m rfl (Grounded.self m m.settled)).steady

theorem keeps_cell (o : Model) (room : Nat) : o.Keeps (Run.cell room) :=
  fun id m same => (steady_cell room id m).outline.trans same

end Model
end Recalc
