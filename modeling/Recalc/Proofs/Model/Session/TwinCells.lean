import Recalc.Proofs.Model.Evaluate.Demand
import Recalc.Proofs.Model.Session.Transparency

namespace Recalc
open Relation

inductive Plan.Twins {α : Type} (R : NodeId → NodeId → Prop) : Plan α → Plan α → Prop where
  | done (r : Except FormulaError α) : Plan.Twins R (.done r) (.done r)
  | ask {id id' : NodeId} {next next' : Value → Plan α} (pair : R id id') (rest : ∀ v, Plan.Twins R (next v) (next' v)) :
      Plan.Twins R (.ask id next) (.ask id' next')

namespace Plan.Twins
variable {α β : Type} {R : NodeId → NodeId → Prop} {c c' : NodeId → Except FormulaError Value} {p p' : Plan α} {z : NodeId}

theorem swap (twins : p.Twins R p') : p'.Twins (fun id' id => R id id') p := by
  induction twins with
  | done r => exact .done r
  | ask pair rest ih => exact .ask pair ih

theorem bind {f f' : α → Plan β} (first : p.Twins R p') (rest : ∀ a, (f a).Twins R (f' a)) : (p >>= f).Twins R (p' >>= f') := by
  change (p.bind f).Twins R (p'.bind f')
  induction first with
  | done r =>
    cases r with
    | ok a => exact rest a
    | error e => exact .done _
  | ask pair next ih => exact .ask pair ih

section
variable (twins : p.Twins R p') (same : ∀ id id', R id id' → c id = c' id')
include twins same

theorem run : p.run c = p'.run c' := by
  induction twins with
  | done r => rfl
  | ask pair rest ih =>
    simp only [Plan.run,same _ _ pair,ih]

theorem visited (listed : z ∈ p.visited c) : ∃ z' ∈ p'.visited c', R z z' := by
  induction twins with
  | done r => cases listed
  | @ask id id' next next' pair rest ih =>
    simp only [Plan.visited,List.mem_cons,exists_eq_or_imp,← same _ _ pair] at listed ⊢
    rcases listed with rfl | listed
    · exact .inl pair
    · right
      cases answer : c id with
      | error e => simp [answer] at listed
      | ok v =>
        simp only [answer] at listed ⊢
        exact ih v listed

end
end Plan.Twins

namespace Model
variable {o o' : Model} {inputs inputs' : NodeId → Option Value} {id id' f f' z : NodeId}

def Twin (o o' : Model) (id id' : NodeId) : Prop := ∃ c, o.cell? id = some c ∧ o'.cell? id' = some c

theorem Twin.swap (twin : o.Twin o' id id') : o'.Twin o id' id := by
  obtain ⟨c,found,found'⟩ := twin
  exact ⟨c,found',found⟩

theorem Twin.eq (distinct : o.Distinct) (one : o.Twin o' id f') (two : o.Twin o' f f') : id = f := by
  obtain ⟨c,found,there⟩ := one
  obtain ⟨d,found',there'⟩ := two
  cases there.symm.trans there'
  exact distinct.eq (cell?_eq_some.mp found) (cell?_eq_some.mp found') rfl

-- Cells that the two have in common read such cells only, and the same ones.
def Twinned (o o' : Model) : Prop := ∀ id id', o.Twin o' id id' → (o.formulaPlan id).Twins (o.Twin o') (o'.formulaPlan id')

theorem Twinned.swap (twinned : o.Twinned o') : o'.Twinned o := by
  intro id' id twin
  have plans := (twinned id id' twin.swap).swap
  have same : (fun id' id => o.Twin o' id id') = o'.Twin o := by
    funext id' id
    exact propext ⟨.swap,.swap⟩
  rwa [same] at plans

section
variable (twinned : o.Twinned o') (given : ∀ id id', o.Twin o' id id' → inputs id = inputs' id')
include twinned given

theorem scratch_twin (n : Nat) (twin : o.Twin o' id id') : o.scratch inputs n id = o'.scratch inputs' n id' := by
  induction n generalizing id id' with
  | zero => rfl
  | succ n ih =>
    simp only [scratch,given id id' twin]
    cases inputs' id' with
    | some v => rfl
    | none =>
      have plans := (twinned id id' twin).run fun y y' pair => ih pair
      obtain ⟨c,found,found'⟩ := twin
      simp only [derive_plan found,derive_plan found',plans]

theorem reads_twin (twin : o.Twin o' id id') (reads : o.Reads inputs id z) : ∃ z', o.Twin o' z z' ∧ o'.Reads inputs' id' z' := by
  obtain ⟨free,n,listed⟩ := reads
  obtain ⟨z',listed',pair⟩ := (twinned id id' twin).visited (fun y y' pair => scratch_twin twinned given n pair) listed
  exact ⟨z',pair,given id id' twin ▸ free,n,listed'⟩

theorem reaches_twin (twin : o.Twin o' id id') (reaches : o.Reaches inputs id z) :
    ∃ z', o.Twin o' z z' ∧ o'.Reaches inputs' id' z' := by
  have cell {o : Model} {id : NodeId} {c : Cell} (found : o.cell? id = some c) : o.cell? id ≠ none := by simp [found]
  obtain ⟨c,found,found'⟩ := twin
  obtain ⟨y,⟨n,first⟩,path⟩ := reaches
  rw [visited_nodePlan (cell found)] at first
  cases List.mem_singleton.mp first
  induction path with
  | refl => exact ⟨id',⟨c,found,found'⟩,id',⟨0,by simp [visited_nodePlan (cell found')]⟩,.refl⟩
  | tail _ step ih =>
    obtain ⟨y',pair,y0,start,path⟩ := ih
    obtain ⟨z',last,reads⟩ := reads_twin twinned given pair step
    exact ⟨z',last,y0,start,path.tail reads⟩

end

structure Among (o' o : Model) : Prop where
  cells : ∀ id c, o'.cell? id = some c → ∃ y, o.cell? y = some c
  sheet : o'.defaultSheet = o.defaultSheet

theorem Among.modest (among : o'.Among o) (modest : o.Modest) : o'.Modest := by
  intro id c found
  obtain ⟨y,there⟩ := among.cells id c found
  exact modest y c there

theorem planSource_cell {plain bare : Bool} {c : Cell} (resolved : o.resolve address = .ok id) (found : o.cell? id = some c) :
    (o.planSource plain).cell bare address = .ask id fun v => .done (.ok (if bare ∧ plain ∧ v.isEmpty then .number 0.0 else v)) := by
  have node : o.nodePlan id = .ask id fun v => .done (.ok v) := by simp [nodePlan,cell?_eq_some.mp found]
  simp only [planSource,resolved]
  change (o.nodePlan id).bind _ = _
  rw [node]
  rfl

theorem twins_answer {g g' : Grants} {plain : Bool} {q : Query α} (asks : q.Asks g) (asks' : q.Asks g') (rects : g.rects = o.rectOf)
    (rects' : g'.rects = o'.rectOf) (cells : ∀ a, g'.cells a → ∃ id id', o.resolve a = .ok id ∧ o'.resolve a = .ok id' ∧ o.Twin o' id id') :
    (q.answer (o.planSource plain)).Twins (o.Twin o') (q.answer (o'.planSource plain)) := by
  unfold Query.Asks at asks asks'
  induction q with
  | done a => exact .done _
  | cell bare address next ih =>
    obtain ⟨id,id',resolved,resolved',c,found,found'⟩ := cells address asks'.1
    simp only [Query.answer,planSource_cell resolved found,planSource_cell resolved' found']
    exact .bind (.ask ⟨c,found,found'⟩ fun v => .done _) fun v => ih v (asks.2 v) (asks'.2 v)
  | range address next ih =>
    obtain ⟨r,here,rest⟩ := asks
    obtain ⟨r',there,rest'⟩ := asks'
    rw [rects] at here
    rw [rects'] at there
    have same := (rectOf_ok.mp here).1.symm.trans (rectOf_ok.mp there).1
    cases same
    have read : (o.planSource plain).range address = .done (.ok r) := congrArg Plan.done here
    have read' : (o'.planSource plain).range address = .done (.ok r) := congrArg Plan.done there
    simp only [Query.answer,read,read']
    exact ih r rest rest'

theorem Among.twinned (among : o'.Among o) (built : o.Built) (built' : o'.Built) (modest : o.Modest) : o.Twinned o' := by
  rintro id id' ⟨c,found,found'⟩
  unfold formulaPlan
  simp only [found,found']
  refine twins_answer (built.asks found) (built'.asks found') rfl rfl fun address granted => ?_
  have covers : o'.Covers id' address := by
    rcases granted with covers | ⟨sum,listed,-⟩
    · exact covers
    · simp [modest id c found] at listed
  obtain ⟨y',there,cell,-⟩ := covers
  obtain ⟨d,found'⟩ := Option.isSome_iff_exists.mp cell
  obtain ⟨y,found⟩ := among.cells y' d found'
  obtain ⟨n,known,named⟩ := find?_some there
  cases known.symm.trans (cell?_eq_some.mp found')
  have named : d.address = address := named
  exact ⟨y,y',named ▸ built.formed.distinct.resolve found,named ▸ built'.formed.distinct.resolve found',d,found,found'⟩

end Model
def Op.address : Op → String
  | .assign address _ => address
  | .reset address => address
  | .evaluate address => address

namespace Session
variable {o o' : Model} {s s' : Session} {id id' y : NodeId} {address : String} {d : Cell} {trusted : Bool}

theorem constants_perform (sound : Sound o s) (constants : o.Constants s.inputs) (op : Op) (counting : Bool)
    (enters : ∀ address value, op = .assign address value → ∀ id c, o.resolve address = .ok id → o.cell? id = some c → c.formula = none) :
    o.Constants (s.perform counting op).inputs := by
  intro y c given found
  rw [inputs_perform] at given
  by_cases held : s.held y = true
  · refine constants y c ?_ found
    simpa [inputs,held] using sound.present y held
  · cases stores : s.model.stores counting op y with
    | false => simp [stores,held] at given
    | true =>
      cases op with
      | assign address value =>
        cases resolved : s.model.resolve address with
        | error e => simp [Model.stores,resolved] at stores
        | ok id =>
          have here : y = id := by simp [Model.stores,resolved] at stores; exact stores.1
          rw [Model.resolve_same sound.outline] at resolved
          exact enters address value rfl y c (here ▸ resolved) found
      | reset address => simp [Model.stores] at stores
      | evaluate address => simp [Model.stores] at stores

section
variable (sturdy : o.Sturdy trusted) (sound : Sound o s) (constants : o.Constants s.inputs) (resolved : o.resolve address = .ok id)
  (found : o.cell? y = some d) (constant : d.formula = none)
include sturdy sound found constant

theorem settled_constant (start : NodeId) (propagate : Bool) :
    (s.model.invalidate start propagate).settled y = if y = start then none else s.model.settled y := by
  rw [Model.settled_invalidate]
  unfold Model.without
  by_cases here : y = start
  · simp [here]
  · have apart : y ∉ s.model.reached start propagate := fun listed =>
      here (sturdy.reached_constant sound.outline found constant listed)
    simp [here,apart]

include constants resolved

theorem reset_constant :
    (s.perform false (.reset address)).inputs y = (if y = id then none else s.inputs y) ∧
      (s.perform false (.reset address)).model.settled y = if y = id then none else s.model.settled y := by
  have ran : s.model.perform (.reset address) = s.model.invalidate id (s.model.spreads id) := by
    simp [Model.perform,Model.reset,Model.resolve_same sound.outline,resolved]
  constructor
  · rw [inputs_perform,ran]
    simpa [Model.stores] using inputs_invalidate sturdy sound constants id y (s.model.spreads id)
  · change (s.model.perform (.reset address)).settled y = _
    rw [ran]
    exact settled_constant sturdy sound found constant id _

theorem assign_constant (value : Value) (cell : (o.cell? id).isSome = true) :
    let moves := (s.model.settled id).all fun w => !w.same value
    (s.perform false (.assign address value)).inputs y = (if y = id ∧ moves = true then some value else s.inputs y) ∧
      (s.perform false (.assign address value)).model.settled y =
        if y = id ∧ moves = true then some value else s.model.settled y := by
  intro moves
  have here : s.model.resolve address = .ok id := (Model.resolve_same sound.outline address).trans resolved
  have assigns := s.model.assign_assigns address value
  generalize ran : s.model.assign address value = result at assigns
  have next : s.model.perform (.assign address value) = result.2 := by rw [← ran]; rfl
  have after : (s.perform false (.assign address value)).model = result.2 := next
  rw [inputs_perform,next,after]
  cases assigns with
  | fails e absent =>
    rw [← Model.isSome_same sound.outline,absent id here] at cell
    cases cell
  | skips target c resolved found clean same =>
    cases here.symm.trans resolved
    have idle : c.evaluating = false := by simpa [Model.isEvaluating,found] using sound.idle.marks id
    have settled : s.model.settled id = some c.value := Model.settled_eq_some.mpr ⟨c,found,clean,idle,rfl⟩
    have still : moves = false := by simp [moves,settled,same]
    rw [Model.stores_skips resolved found clean same]
    simp [still,inputs]
  | stores target c resolved found' other =>
    cases here.symm.trans resolved
    have moved : moves = true := by
      cases settled : s.model.settled id with
      | none => simp [moves,settled]
      | some w =>
        obtain ⟨c',there,clean,-,rfl⟩ := Model.settled_eq_some.mp settled
        cases there.symm.trans found'
        simpa [moves,settled,clean] using other
    have settled := Model.settled_stored (v := value) sound.idle found'
    have kept := settled_constant sturdy sound found constant id true
    have given := inputs_invalidate sturdy sound constants id y true
    rw [Model.settled_invalidate] at kept given
    rw [Model.stores_stores resolved found' other,settled]
    by_cases same : y = id
    · simp [same,moved]
    · simp only [same,if_false,false_and] at kept given ⊢
      exact ⟨by simpa [same] using given,kept⟩

end
end Session

structure Model.Matched (o o' : Model) : Prop where
  sturdy : o.Sturdy false
  sturdy' : o'.Sturdy false
  covered : o.Covered
  covered' : o'.Covered
  twinned : o.Twinned o'

theorem Model.Matched.same_start {o o' : Model} {id id' y y' : NodeId} (matched : o.Matched o') (one : o.Twin o' y y')
    (two : o.Twin o' id id') : y = id ↔ y' = id' := by
  constructor
  · rintro rfl
    exact one.swap.eq matched.sturdy'.formed.distinct two.swap
  · rintro rfl
    exact one.eq matched.sturdy.formed.distinct two

namespace Session
variable {o o' : Model} {s s' : Session} {id id' y y' : NodeId} {address : String} {d : Cell} {op : Op}

-- Sessions that agree on the constants they have in common. Of a formula one may know a value
-- that the other has to compute.
structure Paired (o o' : Model) (s s' : Session) : Prop where
  sound : Sound o s
  sound' : Sound o' s'
  constants : o.Constants s.inputs
  constants' : o'.Constants s'.inputs
  shown : ∀ y y' d, o.cell? y = some d → o'.cell? y' = some d → d.formula = none →
    s.inputs y = s'.inputs y' ∧ s.model.settled y = s'.model.settled y'

namespace Paired
variable (matched : o.Matched o') (paired : Paired o o' s s')
include paired

theorem given (twin : o.Twin o' y y') : s.inputs y = s'.inputs y' := by
  obtain ⟨d,found,found'⟩ := twin
  cases formula : d.formula with
  | none => exact (paired.shown y y' d found found' formula).1
  | some text =>
    have none {o : Model} {inputs : NodeId → Option Value} {y : NodeId} (constants : o.Constants inputs)
        (found : o.cell? y = some d) : inputs y = none := by
      by_contra given
      simp [constants y d given found] at formula
    rw [none paired.constants found,none paired.constants' found']

include matched

theorem alike (twin : o.Twin o' id id') (resolved : o.resolve address = .ok id) (resolved' : o'.resolve address = .ok id') :
    (s.model.evaluate address).1.mapError FormulaError.kind = (s'.model.evaluate address).1.mapError FormulaError.kind := by
  have one := comes matched.sturdy.formed paired.sound ((Model.resolve_same paired.sound.outline address).trans resolved)
  have two := comes matched.sturdy'.formed paired.sound' ((Model.resolve_same paired.sound'.outline address).trans resolved')
  have same (n : Nat) := Model.scratch_twin matched.twinned (fun y y' => paired.given) n twin
  obtain ⟨c,found,found'⟩ := twin
  simp only [Model.nodeValue_cell found] at one
  simp only [Model.nodeValue_cell found',← same] at two
  exact one.eq two

theorem evaluated (twin : o.Twin o' id id') (resolved : o.resolve address = .ok id) (resolved' : o'.resolve address = .ok id')
    (found : o.cell? y = some d) (found' : o'.cell? y' = some d) (constant : d.formula = none) :
    (s.model.evaluate address).2.settled y = (s'.model.evaluate address).2.settled y' := by
  have sound := paired.sound
  have sound' := paired.sound'
  have pair : o.Twin o' y y' := ⟨d,found,found'⟩
  have reaches : o.Reaches s.inputs id y ↔ o'.Reaches s'.inputs id' y' := by
    constructor
    · intro reaches
      obtain ⟨z',other,reaches⟩ := Model.reaches_twin matched.twinned (fun y y' => paired.given) twin reaches
      exact pair.swap.eq matched.sturdy'.formed.distinct other.swap ▸ reaches
    · intro reaches
      obtain ⟨z,other,reaches⟩ := Model.reaches_twin matched.twinned.swap (fun y' y twin => (paired.given twin.swap).symm) twin.swap reaches
      exact pair.eq matched.sturdy.formed.distinct other.swap ▸ reaches
  apply Option.ext
  intro v
  rw [Model.evaluate_settles matched.sturdy.formed.distinct matched.sturdy.formed.deep sound.outline sound.grounded sound.idle
      ((Model.resolve_same sound.outline address).trans resolved),
    Model.evaluate_settles matched.sturdy'.formed.distinct matched.sturdy'.formed.deep sound'.outline sound'.grounded sound'.idle
      ((Model.resolve_same sound'.outline address).trans resolved'),
    (paired.shown y y' d found found' constant).2,reaches]
  simp only [fun n => Model.scratch_twin matched.twinned (fun y y' => paired.given) n pair]

theorem perform (twin : o.Twin o' id id') (resolved : o.resolve op.address = .ok id) (resolved' : o'.resolve op.address = .ok id')
    (enters : ∀ address value, op = .assign address value → ∀ c, o.cell? id = some c → c.formula = none) :
    Paired o o' (s.perform false op) (s'.perform false op) := by
  have cell : (o.cell? id).isSome = true ∧ (o'.cell? id').isSome = true := by
    obtain ⟨c,found,found'⟩ := twin
    simp [found,found']
  refine ⟨sound_perform matched.sturdy.formed matched.covered paired.sound false op,
    sound_perform matched.sturdy'.formed matched.covered' paired.sound' false op,
    constants_perform paired.sound paired.constants op false ?_,constants_perform paired.sound' paired.constants' op false ?_,
    fun y y' d found found' constant => ?_⟩
  · rintro address value rfl target c there found
    cases resolved.symm.trans there
    exact enters address value rfl c found
  · rintro address value rfl target c there found
    cases resolved'.symm.trans there
    obtain ⟨c',one,two⟩ := twin
    cases two.symm.trans found
    exact enters address value rfl c one
  · have start := matched.same_start ⟨d,found,found'⟩ twin
    obtain ⟨inputs,settled⟩ := paired.shown y y' d found found' constant
    cases op with
    | reset address =>
      have resolved : o.resolve address = .ok id := resolved
      have resolved' : o'.resolve address = .ok id' := resolved'
      obtain ⟨one,two⟩ := reset_constant matched.sturdy paired.sound paired.constants resolved found constant
      obtain ⟨one',two'⟩ := reset_constant matched.sturdy' paired.sound' paired.constants' resolved' found' constant
      simp only [one,two,one',two',start,inputs,settled,and_self]
    | assign address value =>
      have resolved : o.resolve address = .ok id := resolved
      have resolved' : o'.resolve address = .ok id' := resolved'
      obtain ⟨one,two⟩ := assign_constant matched.sturdy paired.sound paired.constants resolved found constant value cell.1
      obtain ⟨one',two'⟩ := assign_constant matched.sturdy' paired.sound' paired.constants' resolved' found' constant value cell.2
      obtain ⟨c,there,there'⟩ := twin
      have target := (paired.shown id id' c there there' (enters address value rfl c there)).2
      simp only [one,two,one',two',start,inputs,settled,target,and_self]
    | evaluate address =>
      rw [inputs_evaluate matched.sturdy paired.sound,inputs_evaluate matched.sturdy' paired.sound']
      exact ⟨inputs,paired.evaluated matched twin resolved resolved' found found' constant⟩

theorem run {ops : List Op} (fits : ∀ op ∈ ops, ∃ id id', o.Twin o' id id' ∧ o.resolve op.address = .ok id ∧
      o'.resolve op.address = .ok id' ∧ ∀ address value, op = .assign address value → ∀ c, o.cell? id = some c → c.formula = none) :
    Paired o o' (s.run false ops) (s'.run false ops) := by
  induction ops generalizing s s' with
  | nil => exact paired
  | cons op ops ih =>
    obtain ⟨id,id',twin,resolved,resolved',enters⟩ := fits op List.mem_cons_self
    exact ih (paired.perform matched twin resolved resolved' enters) fun x listed => fits x (List.mem_cons_of_mem op listed)

end Paired

theorem constants_start (sturdy : o.Sturdy false) : o.Constants (start o).inputs := by
  intro id c given found
  obtain ⟨v,given⟩ := Option.ne_none_iff_exists'.mp given
  obtain ⟨d,there,clean,-⟩ := Model.settled_eq_some.mp (inputs_settled given)
  have there : o.cell? id = some d := there
  cases there.symm.trans found
  cases formula : c.formula with
  | none => rfl
  | some text =>
    have dirty := sturdy.stale id c found (by simp [formula])
    simp [clean] at dirty

theorem paired_start (matched : o.Matched o') : Paired o o' (start o) (start o') := by
  refine ⟨sound_start rfl matched.sturdy.idle,sound_start rfl matched.sturdy'.idle,constants_start matched.sturdy,
    constants_start matched.sturdy',fun y y' d found found' _ => ?_⟩
  have same : o.settled y = o'.settled y' := by simp [Model.settled,found,found']
  rw [inputs_start,inputs_start]
  exact ⟨same,same⟩

end Session
end Recalc
