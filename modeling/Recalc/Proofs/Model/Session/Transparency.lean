import Recalc.Proofs.Build.Coverage
import Recalc.Proofs.Build.Growth
import Recalc.Proofs.Model.Evaluate.Outcome

namespace Recalc

-- The second list leaves out some of the evaluations of the first.
inductive Thins : List Op → List Op → Prop where
  | nil : Thins [] []
  | keep (op : Op) (rest : Thins ops fewer) : Thins (op :: ops) (op :: fewer)
  | drop (address : String) (rest : Thins ops fewer) : Thins (.evaluate address :: ops) fewer

namespace Model

def Alike (m m' : Model) : Prop := ∀ address,
  (m.evaluate address).1.mapError FormulaError.kind = (m'.evaluate address).1.mapError FormulaError.kind

def Restores (m : Model) (given : NodeId → Option Value) : Prop := ∀ id c v, m.cell? id = some c → given id = some v →
  (m.evaluate c.address).1 = .ok v

end Model

namespace Session
variable {o : Model} {s s' : Session} {id : NodeId} {counting : Bool}

theorem inputs_settled (given : s.inputs id = some v) : s.model.settled id = some v := by
  unfold inputs at given
  split at given
  · exact given
  · cases given

theorem inputs_start (m : Model) : (start m).inputs = m.settled := by
  funext id
  unfold inputs start
  cases found : m.settled id <;> simp [found]

theorem input_cell (sound : Sound o s) (given : s.inputs id = some v) : o.cell? id ≠ none := by
  obtain ⟨c,found,-⟩ := Model.settled_eq_some.mp (inputs_settled given)
  intro absent
  simp [(Model.cell?_none_same sound.outline).mpr absent] at found

section
variable (formed : o.WellFormed) (sound : Sound o s)
include formed sound

theorem comes (resolved : s.model.resolve address = .ok id) :
    Comes (fun n => o.nodeValue (o.scratch s.inputs n) id) ((s.model.evaluate address).1.mapError FormulaError.kind) :=
  (Model.evaluate_evaluates formed.distinct formed.deep sound.outline sound.grounded sound.idle resolved).comes

theorem evaluate_cell (found : s.model.cell? id = some c) :
    (s.model.evaluate c.address).1 = .ok v ↔ ∃ n, o.scratch s.inputs n id = .ok v := by
  have comes := comes formed sound ((Model.distinct_same sound.outline formed.distinct).resolve found)
  obtain ⟨d,there,-⟩ := Model.cell_same sound.outline.symm found
  simp only [Model.nodeValue_cell there] at comes
  constructor
  · intro succeeded
    rw [succeeded] at comes
    obtain ⟨n,value⟩ := comes
    exact ⟨n,value n (Nat.le_refl n)⟩
  · rintro ⟨n,value⟩
    have grows (n k : Nat) (deep : n ≤ k) := o.scratch_below s.inputs deep id
    exact mapError_ok (comes.eq (.of_grows grows (by simp [circle]) value))

theorem restores_inputs : s.model.Restores s.inputs := fun _ _ _ found given =>
  (evaluate_cell formed sound found).mpr ⟨1,Model.scratch_given given 0⟩

end

section
variable (formed : o.WellFormed) (sound : Sound o s) (sound' : Sound o s')
include formed sound sound'

theorem alike_restores (alike : s.model.Alike s'.model) : s'.model.Restores s.inputs := by
  intro id c v found given
  obtain ⟨d,there,same⟩ := Model.cell_same (sound.outline.trans sound'.outline.symm) found
  have address : d.address = c.address := by simpa [Cell.outline] using congrArg Cell.address same
  have shown := alike c.address
  rw [← address,restores_inputs formed sound id d v there given] at shown
  rw [← address]
  exact mapError_ok shown.symm

theorem computed (restored : s.model.Restores s'.inputs) (given : s.inputs id = some v ∨ s'.inputs id = some v) :
    ∃ n, o.scratch s.inputs n id = .ok v := by
  rcases given with here | there
  · exact ⟨1,Model.scratch_given here 0⟩
  · obtain ⟨c,cell⟩ := Option.ne_none_iff_exists'.mp (input_cell sound' there)
    obtain ⟨d,found,-⟩ := Model.cell_same sound.outline cell
    exact (evaluate_cell formed sound found).mp (restored id d v found there)

theorem joint_given (restores : s'.model.Restores s.inputs) (given : s'.inputs id = some v) :
    (s.inputs id).or (s'.inputs id) = some v := by
  cases here : s.inputs id with
  | none => simp [given]
  | some w =>
    obtain ⟨n,value⟩ := computed formed sound' sound restores (.inr here)
    have stays := (o.scratch_below s'.inputs (Nat.le_succ n) id).ok value
    rw [Model.scratch_given given n] at stays
    cases stays
    rfl

-- Evaluation from what is given in the first comes to what is computed from all that is given
-- in one of them, and so does evaluation from what is given in the second.
theorem restores_passes (restores : s'.model.Restores s.inputs) (restored : s.model.Restores s'.inputs) (n : Nat) :
    ∃ k, Below (o.scratch s.inputs n) (o.scratch s'.inputs k) := by
  let joint (id : NodeId) : Option Value := (s.inputs id).or (s'.inputs id)
  have split (id : NodeId) (v : Value) (given : joint id = some v) : s.inputs id = some v ∨ s'.inputs id = some v :=
    (Option.or_eq_some_iff.mp given).imp_right And.right
  have cells (id : NodeId) (v : Value) (given : joint id = some v) : o.cell? id ≠ none := by
    rcases split id v given with here | there
    · exact input_cell sound here
    · exact input_cell sound' there
  obtain ⟨depth,all⟩ := Model.restored_depth cells fun id v given =>
    computed formed sound sound' restored (split id v given)
  obtain ⟨depth',all'⟩ := Model.restored_depth cells fun id v given =>
    computed formed sound' sound restores (split id v given).symm
  have more (id : NodeId) (v : Value) (given : s.inputs id = some v) : joint id = some v := by simp [joint,given]
  have more' (id : NodeId) (v : Value) (given : s'.inputs id = some v) : joint id = some v :=
    joint_given formed sound sound' restores given
  exact ⟨depth' + n,(Model.scratch_below_more more all n).trans (Model.scratch_more_below more' all' n)⟩

theorem alike_iff : s.model.Alike s'.model ↔ s'.model.Restores s.inputs ∧ s.model.Restores s'.inputs := by
  refine ⟨fun alike => ⟨alike_restores formed sound sound' alike,
    alike_restores formed sound' sound fun address => (alike address).symm⟩,?_⟩
  rintro ⟨restores,restored⟩ address
  have outlines := sound'.outline.trans sound.outline.symm
  cases resolved : s.model.resolve address with
  | error e =>
    have there : s'.model.resolve address = .error e := by rw [Model.resolve_same outlines,resolved]
    simp [Model.evaluate,resolved,there]
  | ok id =>
    have there : s'.model.resolve address = .ok id := by rw [Model.resolve_same outlines,resolved]
    refine Comes.same (o.nodeValue_grows s'.inputs id) (fun n => ?_) (o.nodeValue_grows s.inputs id) (fun n => ?_)
      (comes formed sound resolved) (comes formed sound' there)
    · obtain ⟨k,below⟩ := restores_passes formed sound sound' restores restored n
      exact ⟨k,o.nodeValue_sharpens below id⟩
    · obtain ⟨k,below⟩ := restores_passes formed sound' sound restored restores n
      exact ⟨k,o.nodeValue_sharpens below id⟩

end

end Session

namespace Model
variable {o : Model}

-- The operation assigns to no formula, and no value that another one compares equal to.
def Enters (o : Model) : Op → Prop
  | .assign address value => (∀ id c, o.resolve address = .ok id → o.cell? id = some c → c.formula = none) ∧
      ∀ w, w.same value = true → w = value
  | _ => True

def gives (o : Model) : Op → (NodeId → Option Value) → NodeId → Option Value
  | .assign address value, inputs, y => match o.resolve address with
    | .ok id => if y = id ∧ (o.cell? id).isSome then some value else inputs y
    | .error _ => inputs y
  | .reset address, inputs, y => match o.resolve address with
    | .ok id => if y = id then none else inputs y
    | .error _ => inputs y
  | .evaluate _, inputs, y => inputs y

def Constants (o : Model) (inputs : NodeId → Option Value) : Prop :=
  ∀ id c, inputs id ≠ none → o.cell? id = some c → c.formula = none

theorem Constants.gives {inputs : NodeId → Option Value} (constants : o.Constants inputs) (enters : o.Enters op) :
    o.Constants (o.gives op inputs) := by
  intro y c given found
  cases op with
  | evaluate address => exact constants y c given found
  | reset address =>
    refine constants y c (fun none => given ?_) found
    cases resolved : o.resolve address <;> simp [Model.gives,resolved,none]
  | assign address value =>
    cases resolved : o.resolve address with
    | error e => exact constants y c (by simpa [Model.gives,resolved] using given) found
    | ok id =>
      by_cases here : y = id
      · exact enters.1 y c (here ▸ resolved) found
      · exact constants y c (by simpa [Model.gives,resolved,here] using given) found

end Model

namespace Session
variable {o : Model} {s : Session} {id : NodeId} {ops fewer : List Op} {trusted : Bool}

section
variable (sturdy : o.Sturdy trusted) (sound : Sound o s) (constants : o.Constants s.inputs)
include sturdy sound

theorem inputs_evaluate (address : String) (counting : Bool) :
    (s.perform counting (.evaluate address)).inputs = s.inputs := by
  obtain ⟨steady,-⟩ := Model.evaluate_steady sturdy.formed sound.outline sound.idle address
  rw [inputs_perform]
  funext id
  simp only [Model.stores,Bool.false_or]
  unfold inputs
  cases held : s.held id with
  | false => rfl
  | true =>
    obtain ⟨v,found⟩ := Option.ne_none_iff_exists'.mp (sound.present id held)
    simp only [if_true,found]
    exact steady.settled found

include constants

theorem inputs_invalidate (start y : NodeId) (propagate : Bool) :
    (if s.held y = true then (s.model.invalidate start propagate).settled y else none) =
      if y = start then none else s.inputs y := by
  rw [Model.settled_invalidate]
  unfold Model.without inputs
  by_cases here : y = start
  · simp [here]
  · by_cases held : s.held y = true
    · have given : s.inputs y ≠ none := by simpa [inputs,held] using sound.present y held
      obtain ⟨v,given'⟩ := Option.ne_none_iff_exists'.mp given
      obtain ⟨d,found⟩ := Option.ne_none_iff_exists'.mp (input_cell sound given')
      have apart : y ∉ s.model.reached start propagate := fun listed =>
        here (sturdy.reached_constant sound.outline found (constants y d given found) listed)
      simp [held,here,apart]
    · simp [held]

theorem inputs_gives (enters : o.Enters op) : (s.perform true op).inputs = o.gives op s.inputs := by
  cases op with
  | evaluate address => exact inputs_evaluate sturdy sound address true
  | reset address =>
    rw [inputs_perform]
    funext y
    have same := Model.resolve_same sound.outline address
    simp only [Model.stores,Bool.false_or,Model.gives,Model.perform,Model.reset,same]
    cases o.resolve address with
    | error e => rfl
    | ok id => exact inputs_invalidate sturdy sound constants id y _
  | assign address value =>
    rw [inputs_perform]
    funext y
    have same := Model.resolve_same sound.outline address
    obtain ⟨result,assigns,next⟩ := s.model.perform_assigns address value
    rw [next]
    cases assigns with
    | fails e absent =>
      rw [Model.stores_fails absent]
      simp only [same] at absent
      cases resolved : o.resolve address with
      | error e => simp [Model.gives,resolved,inputs]
      | ok id =>
        have none : o.cell? id = none := (Model.cell?_none_same sound.outline).mp (absent id resolved)
        simp [Model.gives,resolved,none,inputs]
    | skips id c resolved found clean alike =>
      have idle : c.evaluating = false := by simpa [Model.isEvaluating,found] using sound.idle.marks id
      have settled : s.model.settled id = some c.value := Model.settled_eq_some.mpr ⟨c,found,clean,idle,rfl⟩
      rw [Model.stores_skips resolved found clean alike]
      have cell : (o.cell? id).isSome = true := by rw [← Model.isSome_same sound.outline,found]; rfl
      rw [same] at resolved
      by_cases here : y = id
      · simp [Model.gives,resolved,here,cell,settled,enters.2 c.value alike]
      · simp [Model.gives,resolved,here,inputs]
    | stores id c resolved found other =>
      have settled := Model.settled_stored (v := value) sound.idle found
      have cell : (o.cell? id).isSome = true := by rw [← Model.isSome_same sound.outline,found]; rfl
      have kept := inputs_invalidate sturdy sound constants id y true
      rw [Model.settled_invalidate] at kept
      rw [Model.stores_stores resolved found other,settled]
      rw [same] at resolved
      by_cases here : y = id
      · simp [Model.gives,resolved,here,cell]
      · simpa [Model.gives,resolved,here] using kept

end

theorem inputs_run (sturdy : o.Sturdy trusted) (covered : o.Covered) (sound : Sound o s) (constants : o.Constants s.inputs)
    (enters : ∀ op ∈ ops, o.Enters op) :
    (s.run true ops).inputs = ops.foldl (fun inputs op => o.gives op inputs) s.inputs := by
  induction ops generalizing s with
  | nil => rfl
  | cons op ops ih =>
    have gives := inputs_gives sturdy sound constants (enters op (by simp))
    have further := sound_perform sturdy.formed covered sound true op
    have still : o.Constants (s.perform true op).inputs := by
      rw [gives]
      exact constants.gives (enters op (by simp))
    rw [List.foldl_cons,← gives]
    exact ih further still fun x listed => enters x (by simp [listed])

end Session

theorem Thins.gives (thins : Thins ops fewer) (o : Model) (inputs : NodeId → Option Value) :
    ops.foldl (fun inputs op => o.gives op inputs) inputs = fewer.foldl (fun inputs op => o.gives op inputs) inputs := by
  induction thins generalizing inputs with
  | nil => rfl
  | keep op rest ih => exact ih _
  | drop address rest ih => exact ih _

theorem Thins.mem (thins : Thins ops fewer) (listed : op ∈ fewer) : op ∈ ops := by
  induction thins with
  | nil => exact listed
  | keep op rest ih =>
    rcases List.mem_cons.mp listed with rfl | listed
    · simp
    · simp [ih listed]
  | drop address rest ih => simp [ih listed]

-- Whatever evaluations are left out, the two runs show the same just if what stands clean in
-- either one is what its cell evaluates to in the other. Where no dependency is missed the values
-- that were given are enough, and where in addition none is given to a formula nothing is.
theorem reads_transparent {options : BuildOptions} {seeds : List (String × String)} {book : Workbook} {o : Model}
    (made : (build options seeds book).1 = .ok o) (thins : Thins ops fewer) :
    ((o.run ops).Alike (o.run fewer) ↔
      (o.run fewer).Restores (o.run ops).settled ∧ (o.run ops).Restores (o.run fewer).settled) ∧
    (book.Plain → o.Modest →
      ((o.run ops).Alike (o.run fewer) ↔
        (o.run fewer).Restores ((Session.start o).run true ops).inputs ∧
          (o.run ops).Restores ((Session.start o).run true fewer).inputs) ∧
      (options.trustCached = false → (∀ op ∈ ops, o.Enters op) → (o.run ops).Alike (o.run fewer))) := by
  have sturdy := build_sturdy made
  refine ⟨?_,fun plain modest => ?_⟩
  · obtain ⟨outline,idle⟩ := Model.run_idle sturdy.formed rfl sturdy.idle ops
    obtain ⟨outline',idle'⟩ := Model.run_idle sturdy.formed rfl sturdy.idle fewer
    have iff := Session.alike_iff sturdy.formed (Session.sound_start outline idle) (Session.sound_start outline' idle')
    rwa [Session.inputs_start,Session.inputs_start] at iff
  · have built := build_built plain made
    have covered := built.covered modest
    have start := Session.sound_start (m := o) rfl built.idle
    have sound := Session.sound_run built.formed covered start true ops
    have sound' := Session.sound_run built.formed covered start true fewer
    have iff := Session.alike_iff built.formed sound sound'
    have restores := Session.restores_inputs built.formed sound
    have restores' := Session.restores_inputs built.formed sound'
    rw [Session.model_run,Session.model_run] at iff
    rw [Session.model_run] at restores restores'
    refine ⟨iff,fun untrusted enters => iff.mpr ?_⟩
    have constants : o.Constants (Session.start o).inputs := by
      intro id c given found
      obtain ⟨v,given⟩ := Option.ne_none_iff_exists'.mp given
      obtain ⟨d,there,clean,-⟩ := Model.settled_eq_some.mp (Session.inputs_settled given)
      have there : o.cell? id = some d := there
      rw [there] at found
      cases found
      cases formula : c.formula with
      | none => rfl
      | some text =>
        have dirty := sturdy.stale id c there (by simp [formula])
        simp [clean,untrusted] at dirty
    have same : ((Session.start o).run true ops).inputs = ((Session.start o).run true fewer).inputs := by
      rw [Session.inputs_run sturdy covered start constants enters,thins.gives,
        ← Session.inputs_run sturdy covered start constants fun op listed => enters op (thins.mem listed)]
    exact ⟨same ▸ restores',same ▸ restores⟩

theorem reads_transparent_layered : ∃ o, (build .standard [("S","A1:A3")] layered).1 = .ok o ∧
    (o.run [.evaluate "S!A2",.assign "S!A1" (.text "q"),.evaluate "S!A3"]).Alike (o.run [.assign "S!A1" (.text "q")]) := by
  obtain ⟨o,made,modest,constant⟩ : ∃ o, (build .standard [("S","A1:A3")] layered).1 = .ok o ∧
      (o.nodes.all fun n => n.cell?.all fun c => c.expr.summed.isEmpty) = true ∧
      ((o.resolve "S!A1").toOption.all fun id => (o.cell? id).all fun c => c.formula.isNone) = true :=
    ⟨_,Workbook.made (by decide +kernel),by decide +kernel,by decide +kernel⟩
  have thins : Thins [.evaluate "S!A2",.assign "S!A1" (.text "q"),.evaluate "S!A3"] [.assign "S!A1" (.text "q")] :=
    .drop _ (.keep _ (.drop _ .nil))
  refine ⟨o,made,((reads_transparent made thins).2 (by decide) (.of_nodes modest)).2 rfl ?_⟩
  have enters : o.Enters (.assign "S!A1" (.text "q")) := by
    refine ⟨fun id c resolved found => ?_,fun w same => ?_⟩
    · simpa [resolved,found,Except.toOption] using constant
    · cases w <;> simp_all [Value.same]
  intro op listed
  simp only [List.mem_cons,List.not_mem_nil,or_false] at listed
  rcases listed with rfl | rfl | rfl
  · trivial
  · exact enters
  · trivial

-- A value given to a formula is lost to a change further down just if what lies between has been
-- evaluated.
theorem reads_seen : ∃ o, (build .standard [("S","A1:A3")] layered).1 = .ok o ∧
    ((o.run [.assign "S!A3" (.text "w"),.evaluate "S!A2",.assign "S!A1" (.text "q")]).evaluate "S!A3").1 = .ok (.text "qyz") ∧
    ((o.run [.assign "S!A3" (.text "w"),.assign "S!A1" (.text "q")]).evaluate "S!A3").1 = .ok (.text "w") :=
  ⟨_,Workbook.made (by decide +kernel),shows_text (by decide +kernel),shows_text (by decide +kernel)⟩

end Recalc
