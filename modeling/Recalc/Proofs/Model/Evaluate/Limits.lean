import Recalc.Proofs.Build.Growth
import Recalc.Proofs.Model.Evaluate.Demand
import Recalc.Proofs.Model.Evaluate.Nesting
import Recalc.Proofs.Model.Evaluate.Outcome

namespace Recalc

namespace Model

def limited (m : Model) (limits : Limits) : Model := {m with limits := limits}

theorem limited_narrow (m : Model) (limits : Limits) (address : String) :
    (m.limited limits).narrow address = (m.narrow address).limited limits := by
  unfold narrow limited
  by_cases listed : address ∈ m.narrowed <;> simp [listed]

theorem limited_scratch (m : Model) (limits : Limits) (inputs : NodeId → Option Value) :
    (m.limited limits).scratch inputs = m.scratch inputs := by
  have derive : (m.limited limits).derive = m.derive := rfl
  funext n
  induction n with
  | zero => rfl
  | succ n ih =>
    funext id
    simp only [scratch,ih,derive]

theorem limited_reaches (m : Model) (limits : Limits) (inputs : NodeId → Option Value) :
    (m.limited limits).Reaches inputs = m.Reaches inputs := by
  have plans : (m.limited limits).nodePlan = m.nodePlan ∧ (m.limited limits).formulaPlan = m.formulaPlan := ⟨rfl,rfl⟩
  have reads : (m.limited limits).Reads inputs = m.Reads inputs := by
    funext y z
    simp only [Reads,limited_scratch,plans.2]
  funext root z
  simp only [Reaches,reads,limited_scratch,plans.1]

end Model

namespace Build
variable {α β : Type} {limits : Limits}

def limited (b : Builder) (limits : Limits) : Builder := {b with model := b.model.limited limits}

def Blind (limits : Limits) (x : Build α) : Prop := ∀ b, x (limited b limits) = ((x b).1,limited (x b).2 limits)

namespace Blind

theorem pure (a : α) : Blind limits (Pure.pure a : Build α) := fun _ => rfl

theorem bind {x : Build α} {f : α → Build β} (first : Blind limits x) (rest : ∀ a, Blind limits (f a)) :
    Blind limits (x >>= f) := by
  intro b
  change ExceptT.bindCont f (x (limited b limits)).1 (x (limited b limits)).2 =
    ((ExceptT.bindCont f (x b).1 (x b).2).1,limited (ExceptT.bindCont f (x b).1 (x b).2).2 limits)
  rw [first b]
  rcases x b with ⟨e | a,b'⟩
  · rfl
  · exact rest a b'

theorem get {f : Builder → Build β} (same : ∀ b, f (limited b limits) = f b) (rest : ∀ b, Blind limits (f b)) :
    Blind limits (MonadState.get >>= f) := by
  intro b
  change f (limited b limits) (limited b limits) = ((f b b).1,limited (f b b).2 limits)
  rw [same]
  exact rest b b

theorem modify {g : Builder → Builder} (same : ∀ b, g (limited b limits) = limited (g b) limits) :
    Blind limits (modify g : Build PUnit) := by
  intro b
  change (Except.ok (),g (limited b limits)) = (Except.ok (),limited (g b) limits)
  rw [same]

theorem ofReference (r : Except ReferenceError α) : Blind limits (Build.ofReference r) := fun _ => rfl

theorem ofFormula (r : Except FormulaError α) : Blind limits (Build.ofFormula r) := fun _ => rfl

theorem composes : Composes fun α (x : Build α) => Blind limits x := ⟨pure,bind⟩

theorem forM {f : α → Build Unit} (each : ∀ a, Blind limits (f a)) (as : List α) : Blind limits (as.forM f) :=
  composes.forM fun a _ => each a

theorem mapM {f : α → Build β} (each : ∀ a, Blind limits (f a)) (as : List α) : Blind limits (as.mapM f) :=
  composes.mapM fun a _ => each a

theorem foldlM {f : β → α → Build β} (each : ∀ b a, Blind limits (f b a)) (as : List α) (start : β) :
    Blind limits (as.foldlM f start) := composes.foldlM (fun b a _ => each b a) start

theorem discard {x : Build α} (blind : Blind limits x) : Blind limits (Functor.discard x) := blind.bind fun _ => pure ()

end Blind

theorem blind_select (name : String) : Blind limits (select name) :=
  .get (fun _ => rfl) fun _ => (Blind.ofReference _).bind fun _ => .modify fun _ => rfl

theorem blind_readRect (r : Rect) : Blind limits (readRect r) :=
  .get (fun _ => rfl) fun _ => (Blind.ofReference _).bind fun _ => (Blind.ofReference _).bind fun _ => .pure _

theorem blind_addCell (options : BuildOptions) (cell : CellRef) (formula : Option String) (content : Content)
    (format : Option NumberFormat) : Blind limits (addCell options cell formula content format) := by
  refine .get (fun _ => rfl) fun b => ?_
  cases formula with
  | none => exact (Blind.modify fun _ => rfl).bind fun _ => .pure _
  | some formula => exact (Blind.modify fun _ => rfl).bind fun _ => .pure _

theorem blind_wire (options : BuildOptions) (r : Rect) (target : NodeId) (block : Block) (place : Nat × Nat) :
    Blind limits (wire options r target block place) := by
  refine .get (fun _ => rfl) fun b => ?_
  dsimp only
  split
  · exact (Blind.pure _).bind fun _ => .modify fun _ => rfl
  · exact (blind_addCell _ _ _ _ _).bind fun _ => .modify fun _ => rfl

theorem blind_addConstituents (options : BuildOptions) (r : Rect) (target : NodeId) :
    Blind limits (addConstituents options r target) := by
  refine .get (fun _ => rfl) fun b => ?_
  dsimp only
  split
  · exact (Blind.pure _).bind fun block => .forM (blind_wire options r target block) _
  · exact (blind_readRect r).bind fun block => .forM (blind_wire options r target block) _

theorem blind_seed (options : BuildOptions) (sheet range : String) : Blind limits (seed options sheet range) := by
  refine (blind_select _).bind fun _ => .get (fun _ => rfl) fun _ => (Blind.ofReference _).bind fun _ =>
    (Blind.ofReference _).bind fun rect => (blind_readRect _).bind fun block => .forM (fun place => ?_) _
  refine .get (fun _ => rfl) fun b => ?_
  split
  · exact .pure _
  · exact (blind_addCell _ _ _ _ _).discard

theorem blind_wireRange (options : BuildOptions) (id : NodeId) (region : Region) (seen : List String) :
    Blind limits (wireRange options id region seen) := by
  unfold wireRange
  split
  · exact .pure _
  · refine .get (fun _ => rfl) fun b => ?_
    split
    · exact (Blind.modify fun _ => rfl).bind fun _ => .pure _
    · refine .get (fun _ => rfl) fun b => (Blind.modify fun _ => rfl).bind fun _ => ?_
      exact (Blind.forM (fun r => blind_addConstituents options r _) _).bind fun _ => .pure _

theorem blind_addReference (options : BuildOptions) (id : NodeId) (sheet : String) (seen : List String)
    (reference : Tree.Reference) : Blind limits (addReference options id sheet seen reference) := by
  refine (blind_select _).bind fun _ => (Blind.ofReference _).bind fun canonical => ?_
  split
  · refine (Blind.ofReference _).bind fun rect => ?_
    dsimp only
    split
    · refine (Blind.modify fun b => ?_).bind fun _ => blind_wireRange options id _ seen
      simp only [limited,Model.limited_narrow]
    · exact blind_wireRange options id _ seen
  · split
    · exact .pure _
    · exact (Blind.ofReference _).bind fun rect => (blind_addConstituents _ _ _).bind fun _ => .pure _

theorem blind_clampReferences (sheet : String) (items : List Item) : Blind limits (clampReferences sheet items) := by
  refine .mapM (fun item => ?_) items
  split
  · exact (blind_select _).bind fun _ => .get (fun _ => rfl) fun _ => (Blind.ofReference _).bind fun _ => .pure _
  · exact .pure _

theorem blind_compileCell (options : BuildOptions) (id : NodeId) (address sheet formula : String) :
    Blind limits (compileCell options id address sheet formula) := by
  refine (Blind.ofFormula _).bind fun _ => (blind_clampReferences _ _).bind fun _ => (blind_select _).bind fun _ =>
    (Blind.ofFormula _).bind fun tree => (Blind.ofReference _).bind fun _ => .get (fun _ => rfl) fun _ =>
      (Blind.ofFormula _).bind fun e => ?_
  exact (Blind.modify fun _ => rfl).bind fun _ =>
    (Blind.discard (.foldlM (fun seen reference => blind_addReference options id sheet seen reference) _ _)).bind fun _ =>
      blind_select _

theorem blind_locate {x : Build Unit} (blind : Blind limits x) (address : String) (b : Builder) :
    locate address x (limited b limits) = ((locate address x b).1,limited (locate address x b).2 limits) := by
  unfold locate
  rw [blind b]
  rcases x b with ⟨e | u,b'⟩ <;> rfl

theorem blind_seedAll (options : BuildOptions) (seeds : List (String × String)) (b : Builder) :
    seedAll options seeds (limited b limits) = ((seedAll options seeds b).1,limited (seedAll options seeds b).2 limits) := by
  induction seeds generalizing b with
  | nil => rfl
  | cons first seeds ih =>
    obtain ⟨sheet,range⟩ := first
    simp only [seedAll,blind_locate (blind_seed options sheet range)]
    rcases locate (sheet ++ "!" ++ range) (seed options sheet range) b with ⟨e | u,b'⟩
    · rfl
    · exact ih b'

theorem blind_compileAll (options : BuildOptions) (steps : Nat) (b : Builder) : compileAll options steps (limited b limits) =
    ((compileAll options steps b).1,limited (compileAll options steps b).2 limits) := by
  induction steps generalizing b with
  | zero => rfl
  | succ steps ih =>
    have todo : (limited b limits).todo = b.todo := rfl
    unfold compileAll
    rw [todo]
    cases b.todo with
    | nil => rfl
    | cons id todo =>
      have popped : ({limited b limits with todo := todo} : Builder) = limited {b with todo := todo} limits := rfl
      have nodes : (limited b limits).model.nodes = b.model.nodes := rfl
      simp only [popped,nodes]
      cases (b.model.nodes[id]?).bind Node.cell? with
      | none => exact ih {b with todo := todo}
      | some c =>
        obtain ⟨address,sheet,formula,_,_,_,_,_⟩ := c
        cases formula with
        | none => exact ih {b with todo := todo}
        | some formula =>
          simp only [blind_locate (blind_compileCell options id address sheet formula)]
          rcases locate address (compileCell options id address sheet formula) {b with todo := todo} with ⟨e | u,b'⟩
          · rfl
          · exact ih b'

end Build

def BuildOptions.limited (options : BuildOptions) (limits : Limits) : BuildOptions := {options with limits := limits}

namespace Build
variable (options : BuildOptions) (limits : Limits)

theorem limited_seedAll (seeds : List (String × String)) (b : Builder) :
    seedAll (options.limited limits) seeds b = seedAll options seeds b := by
  induction seeds generalizing b with
  | nil => rfl
  | cons first seeds ih =>
    obtain ⟨sheet,range⟩ := first
    have same : seed (options.limited limits) sheet range = seed options sheet range := rfl
    simp only [seedAll,same,ih]

theorem limited_compileAll (steps : Nat) (b : Builder) :
    compileAll (options.limited limits) steps b = compileAll options steps b := by
  induction steps generalizing b with
  | zero => rfl
  | succ steps ih =>
    have same : compileCell (options.limited limits) = compileCell options := rfl
    unfold compileAll
    simp only [same,ih]

theorem limited_construct (others : Limits) (seeds : List (String × String)) (b : Builder) :
    construct (options.limited others) seeds (limited b limits) =
      ((construct options seeds b).1,limited (construct options seeds b).2 limits) := by
  simp only [construct,limited_seedAll,limited_compileAll,blind_seedAll]
  rcases seedAll options seeds b with ⟨e | u,b'⟩
  · rfl
  · exact blind_compileAll options (compileSteps b'.book) b'

end Build

theorem Model.limited_settle (m : Model) (limits : Limits) : (m.limited limits).settle = m.settle.limited limits := by
  have each (ids : List NodeId) (m : Model) : ids.foldl (fun m id => m.changeCell id stale) (m.limited limits) =
      (ids.foldl (fun m id => m.changeCell id stale) m).limited limits := by
    induction ids generalizing m with
    | nil => rfl
    | cons id ids ih => exact ih (m.changeCell id stale)
  exact each _ m

theorem build_limited (options : BuildOptions) (limits : Limits) (seeds : List (String × String)) (book : Workbook) :
    (build (options.limited limits) seeds book).1 =
      (build options seeds book).1.map fun m => m.limited {limits with depth := max limits.depth 1} := by
  let sheet := (seeds.head?.map Prod.fst).getD book.activeName
  let start : Builder := ⟨book,.empty options.limits sheet,[]⟩
  have constructs := Build.limited_construct options {limits with depth := max limits.depth 1} limits seeds start
  have opened (options : BuildOptions) : (build options seeds book).1 =
      (Build.construct options seeds ⟨book,.empty options.limits sheet,[]⟩).1.map fun _ =>
        if options.trustCached then (Build.construct options seeds ⟨book,.empty options.limits sheet,[]⟩).2.model.settle
        else (Build.construct options seeds ⟨book,.empty options.limits sheet,[]⟩).2.model := rfl
  have begun : (⟨book,.empty (options.limited limits).limits sheet,[]⟩ : Builder) =
      Build.limited start {limits with depth := max limits.depth 1} := rfl
  rw [opened,opened,begun,constructs]
  rcases Build.construct options seeds start with ⟨e | u,b⟩
  · rfl
  · have trust : (options.limited limits).trustCached = options.trustCached := rfl
    cases trusted : options.trustCached with
    | false => simp [trust,trusted,Except.map,Build.limited]
    | true => simp [trust,trusted,Except.map,Build.limited,Model.limited_settle]

namespace Model
variable {m m' : Model} {id : NodeId}

theorem isDirty_idle (idle : m.Idle) (id : NodeId) : m.isDirty id = ((m.cell? id).isSome && (m.settled id).isNone) := by
  have unmarked := idle.marks id
  rw [isDirty_cell?]
  unfold settled isEvaluating at *
  cases found : m.cell? id with
  | none => rfl
  | some c =>
    rw [found] at unmarked
    have still : c.evaluating = false := unmarked
    cases dirty : c.dirty <;> simp [dirty,still]

-- States that may differ in limits and in what dirty cells hold.
structure Abreast (m m' : Model) : Prop where
  outline : (m'.limited m.limits).outline = m.outline
  settled : m'.settled = m.settled
  idle : m.Idle
  idle' : m'.Idle

namespace Abreast

theorem symm (abreast : m.Abreast m') : m'.Abreast m := by
  have back : (m.limited m'.limits).outline = (m.outline).limited m'.limits := rfl
  refine ⟨?_,abreast.settled.symm,abreast.idle',abreast.idle⟩
  rw [back,← abreast.outline]
  rfl

variable (abreast : m.Abreast m')
include abreast

theorem resolve (address : String) : m'.resolve address = m.resolve address := resolve_same abreast.outline address

theorem cell (found : m.cell? id = some c) : ∃ c', m'.cell? id = some c' :=
  let ⟨c',there,_⟩ := cell_same abreast.outline found
  ⟨c',there⟩

theorem isDirty (id : NodeId) : m'.isDirty id = m.isDirty id := by
  have cells : (m'.cell? id).isSome = (m.cell? id).isSome := isSome_same abreast.outline id
  rw [isDirty_idle abreast.idle,isDirty_idle abreast.idle',cells,abreast.settled]

theorem reached {start : NodeId} {propagate : Bool} : m'.reached start propagate = m.reached start propagate := by
  have graph : (m'.limited m.limits).graph = m.graph := graph_same abreast.outline
  have graph : m'.graph = m.graph := graph
  have spreads (id : NodeId) : m'.spreads id = m.spreads id := by simp only [spreads,abreast.isDirty]
  simp only [Model.reached,spreads,graph]

theorem assign (address : String) (value : Value) : (m.assign address value).2.Abreast (m'.assign address value).2 := by
  have one := m.assign_assigns address value
  have two := m'.assign_assigns address value
  have clean {m : Model} {id : NodeId} {c : Cell} (idle : m.Idle) (found : m.cell? id = some c) :
      c.dirty = false ∧ c.value.same value = true ↔ ∃ v, m.settled id = some v ∧ v.same value = true := by
    have still : c.evaluating = false := by simpa [isEvaluating,found] using idle.marks id
    constructor
    · rintro ⟨clean,same⟩
      exact ⟨c.value,settled_eq_some.mpr ⟨c,found,clean,still,rfl⟩,same⟩
    · rintro ⟨v,settled,same⟩
      obtain ⟨d,there,clean,-,rfl⟩ := settled_eq_some.mp settled
      cases found.symm.trans there
      exact ⟨clean,same⟩
  generalize m.assign address value = result at one
  generalize m'.assign address value = result' at two
  cases one with
  | fails e absent =>
    have absent' (id : NodeId) (resolved : m'.resolve address = .ok id) : m'.cell? id = none := by
      have none := absent id ((abreast.resolve address).symm.trans resolved)
      cases found : m'.cell? id with
      | none => rfl
      | some c =>
        obtain ⟨d,there⟩ := abreast.symm.cell found
        simp [none] at there
    cases two with
    | fails => exact abreast
    | skips id c resolved found => simp [absent' id resolved] at found
    | stores id c resolved found => simp [absent' id resolved] at found
  | skips id c resolved found unchanged same =>
    obtain ⟨c',there⟩ := abreast.cell found
    have resolved' := (abreast.resolve address).trans resolved
    have skipped := (clean abreast.idle' there).mpr (abreast.settled ▸ (clean abreast.idle found).mp ⟨unchanged,same⟩)
    cases two with
    | fails e absent => simp [absent id resolved'] at there
    | skips => exact abreast
    | stores id' d again found' other =>
      cases resolved'.symm.trans again
      cases there.symm.trans found'
      exact absurd skipped other
  | stores id c resolved found other =>
    obtain ⟨c',there⟩ := abreast.cell found
    have resolved' := (abreast.resolve address).trans resolved
    cases two with
    | fails e absent => simp [absent id resolved'] at there
    | skips id' d again found' unchanged same =>
      cases resolved'.symm.trans again
      have skipped := (clean abreast.idle found).mpr (abreast.settled ▸ (clean abreast.idle' found').mp ⟨unchanged,same⟩)
      exact absurd skipped other
    | stores id' d again found' other' =>
      cases resolved'.symm.trans again
      refine ⟨?_,?_,idle_stored abreast.idle,idle_stored abreast.idle'⟩
      · have stored : ((m'.stored id value).limited m.limits).outline = (m'.limited m.limits).outline :=
          congrArg (fun o : Model => o.limited m.limits) (outline_stored (m := m'))
        have limits : (m.stored id value).limits = m.limits := limits_same outline_stored
        rw [limits,stored,abreast.outline,outline_stored]
      · rw [settled_stored abreast.idle found,settled_stored abreast.idle' found',abreast.settled,abreast.reached]

theorem reset (address : String) : (m.reset address).2.Abreast (m'.reset address).2 := by
  unfold Model.reset
  rw [abreast.resolve]
  cases m.resolve address with
  | error e => exact abreast
  | ok id =>
    have spreads : m'.spreads id = m.spreads id := by simp only [spreads,abreast.isDirty]
    refine ⟨?_,?_,idle_invalidate abreast.idle,idle_invalidate abreast.idle'⟩
    · have changed : ((m'.invalidate id (m'.spreads id)).limited m.limits).outline = (m'.limited m.limits).outline :=
        congrArg (fun o : Model => o.limited m.limits) (outline_invalidate (m := m'))
      have limits : (m.invalidate id (m.spreads id)).limits = m.limits := limits_same outline_invalidate
      dsimp only
      rw [limits,changed,abreast.outline,outline_invalidate]
    · dsimp only
      rw [settled_invalidate,settled_invalidate,spreads,abreast.settled,abreast.reached]

section
variable (formed : m.WellFormed) (formed' : m'.WellFormed)
include formed formed'

theorem evaluate (address : String) : (m.evaluate address).2.Abreast (m'.evaluate address).2 ∧
    (m'.evaluate address).1.mapError FormulaError.kind = (m.evaluate address).1.mapError FormulaError.kind := by
  cases resolved : m.resolve address with
  | error e =>
    have resolved' := (abreast.resolve address).trans resolved
    simp only [Model.evaluate,resolved,resolved']
    exact ⟨abreast,trivial⟩
  | ok id =>
    have resolved' := (abreast.resolve address).trans resolved
    have reaches (inputs : NodeId → Option Value) : m'.Reaches inputs = m.Reaches inputs := by
      rw [← m'.limited_reaches m.limits,reaches_same abreast.outline]
    have scratch (inputs : NodeId → Option Value) : m'.scratch inputs = m.scratch inputs := by
      rw [← m'.limited_scratch m.limits,scratch_same abreast.outline]
    have values (cell : NodeId → Except FormulaError Value) : (m'.limited m.limits).nodeValue cell = m.nodeValue cell :=
      nodeValue_same abreast.outline cell
    have values (cell : NodeId → Except FormulaError Value) : m'.nodeValue cell = m.nodeValue cell := values cell
    have one := evaluate_evaluates formed.distinct formed.deep rfl (Grounded.self m m.settled) abreast.idle resolved
    have two := evaluate_evaluates formed'.distinct formed'.deep rfl (Grounded.self m' m'.settled) abreast.idle' resolved'
    refine ⟨⟨?_,?_,one.idle,two.idle⟩,?_⟩
    · have changed : ((m'.evaluate address).2.limited m.limits).outline = (m'.limited m.limits).outline :=
        congrArg (fun o : Model => o.limited m.limits) two.drift.outline
      rw [limits_same one.drift.outline,changed,abreast.outline,one.drift.outline]
    · funext y
      refine Option.ext fun v => ?_
      rw [evaluate_settles formed.distinct formed.deep rfl (Grounded.self m m.settled) abreast.idle resolved,
        evaluate_settles formed'.distinct formed'.deep rfl (Grounded.self m' m'.settled) abreast.idle' resolved',
        reaches,scratch,abreast.settled]
    · have comes := two.comes
      simp only [scratch,values,abreast.settled] at comes
      exact comes.eq one.comes

theorem perform (op : Op) : (m.perform op).Abreast (m'.perform op) := by
  cases op with
  | assign address value => exact abreast.assign address value
  | reset address => exact abreast.reset address
  | evaluate address => exact (abreast.evaluate formed formed' address).1

end

theorem run (formed : m.WellFormed) (formed' : m'.WellFormed) (ops : List Op) : (m.run ops).Abreast (m'.run ops) := by
  induction ops generalizing m m' with
  | nil => exact abreast
  | cons op ops ih =>
    have idle := (perform_idle formed rfl abreast.idle op).1
    have idle' := (perform_idle formed' rfl abreast.idle' op).1
    exact ih (abreast.perform formed formed' op) (formed.same idle) (formed'.same idle')

end Abreast

theorem never_suspended (formed : m.WellFormed) (idle : m.Idle) (address : String) :
    (m.evaluate address).1 ≠ .error (.suspended cell depth) := by
  intro stopped
  cases resolved : m.resolve address with
  | error e =>
    have failed : e = .suspended cell depth := by simpa [Model.evaluate,resolved] using stopped
    have untagged := resolve_untagged resolved
    simp [failed,FormulaError.isTagged] at untagged
  | ok id =>
    exact (evaluate_evaluates formed.distinct formed.deep rfl (Grounded.self m m.settled) idle resolved).error _ stopped

end Model

theorem build_limits {options : BuildOptions} (made : (build options seeds book).1 = .ok o) :
    o.limits = {options.limits with depth := max options.limits.depth 1} := by
  have again := build_limited options options.limits seeds book
  have same : options.limited options.limits = options := rfl
  rw [same,made] at again
  exact congrArg Model.limits (Except.ok.inj again)

-- How deep cells may be nested and how long the call stack may grow changes no result: the
-- model is built all the same, evaluation never stops for want of room, gives the same values
-- and the same kinds of errors, and never nests more cells than it may.
theorem limits_unseen {options : BuildOptions} {seeds : List (String × String)} {book : Workbook} {o : Model}
    (made : (build options seeds book).1 = .ok o) (limits : Limits) :
    ∃ o', (build (options.limited limits) seeds book).1 = .ok o' ∧ ∀ ops address,
      ((o'.run ops).evaluate address).1.mapError FormulaError.kind =
        ((o.run ops).evaluate address).1.mapError FormulaError.kind ∧
      (∀ cell depth, ((o.run ops).evaluate address).1 ≠ .error (.suspended cell depth) ∧
        ((o'.run ops).evaluate address).1 ≠ .error (.suspended cell depth)) ∧
      (∀ s ∈ (o.run ops).evaluateMoments address, s.current.length ≤ max options.limits.depth 1) ∧
      ∀ s ∈ (o'.run ops).evaluateMoments address, s.current.length ≤ max limits.depth 1 := by
  let o' := o.limited {limits with depth := max limits.depth 1}
  have made' : (build (options.limited limits) seeds book).1 = .ok o' := by rw [build_limited,made]; rfl
  have sturdy := build_sturdy made
  have sturdy' := build_sturdy made'
  have alike : o.Abreast o' := ⟨rfl,rfl,sturdy.idle,sturdy'.idle⟩
  refine ⟨o',made',fun ops address => ?_⟩
  have outline := (Model.run_idle sturdy.formed rfl sturdy.idle ops).1
  have outline' := (Model.run_idle sturdy'.formed rfl sturdy'.idle ops).1
  have formed := sturdy.formed.same outline
  have formed' := sturdy'.formed.same outline'
  have abreast := alike.run sturdy.formed sturdy'.formed ops
  have fits : (o.run ops).limits.depth = max options.limits.depth 1 := by rw [Model.limits_same outline,build_limits made]
  have fits' : (o'.run ops).limits.depth = max limits.depth 1 := Model.limits_same outline' ▸ rfl
  exact ⟨(abreast.evaluate formed formed' address).2,
    fun _ _ => ⟨Model.never_suspended formed abreast.idle address,Model.never_suspended formed' abreast.idle' address⟩,
    fun s listed => Model.evaluateMoments_bounded abreast.idle.current fits.le listed,
    fun s listed => Model.evaluateMoments_bounded abreast.idle'.current fits'.le listed⟩

theorem limits_unseen_layered : ∃ o o', (build .standard [("S","A1:A3")] layered).1 = .ok o ∧
    (build (BuildOptions.standard.limited ⟨0,0⟩) [("S","A1:A3")] layered).1 = .ok o' ∧
    ((o'.run [.assign "S!A1" (.text "q")]).evaluate "S!A3").1 = .ok (.text "qyz") ∧
    ∀ s ∈ (o'.run [.assign "S!A1" (.text "q")]).evaluateMoments "S!A3", s.current.length ≤ 1 := by
  obtain ⟨o,made,shown⟩ : ∃ o, (build .standard [("S","A1:A3")] layered).1 = .ok o ∧
      ((o.run [.assign "S!A1" (.text "q")]).evaluate "S!A3").1 = .ok (.text "qyz") :=
    ⟨_,Workbook.made (by decide +kernel),shows_text (by decide +kernel)⟩
  obtain ⟨o',made',unseen⟩ := limits_unseen made ⟨0,0⟩
  obtain ⟨same,-,-,bounded⟩ := unseen [.assign "S!A1" (.text "q")] "S!A3"
  rw [shown] at same
  exact ⟨o,o',made,made',mapError_ok same,bounded⟩

end Recalc
