import Recalc.Proofs.Model.Evaluate.Nesting
import Recalc.Proofs.Model.Evaluate.Progress
import Recalc.Proofs.Model.Session.Retention

namespace Recalc

-- What can be asked of a model from outside. The last three are what formulas use, and do not
-- resume: past the room for nested cells they stop.
inductive Request where
  | perform (op : Op)
  | read (address : String)
  | readCell (address : String)
  | readRange (address : String)

namespace Model

def readCell (m : Model) (address : String) : Except FormulaError Value × Model :=
  (Run.source (Run.cell m.room) false).cell true address m

def readRange (m : Model) (address : String) : Except FormulaError Rect × Model :=
  (Run.source (Run.cell m.room) false).range address m

def serve (m : Model) : Request → Model
  | .perform op => m.perform op
  | .read address => (m.read address).2
  | .readCell address => (m.readCell address).2
  | .readRange address => (m.readRange address).2

def serveAll (m : Model) (requests : List Request) : Model := requests.foldl serve m

def readMoments (m : Model) (address : String) : List Model :=
  match m.resolve address with
  | .ok id => ((m.nodePlan id).calls (Run.cell m.room) m).flatMap fun (y,m') => moments m.room y m'
  | .error _ => []

def requestMoments (m : Model) : Request → List Model
  | .perform (.evaluate address) => m.evaluateMoments address
  | .read address => m :: (m.read address).2 :: m.readMoments address
  | .readCell address => m :: (m.readCell address).2 :: m.readMoments address
  | request => [m,m.serve request]

structure AtRest (m : Model) : Prop where
  idle : m.Idle
  untraced : m.callStack = []

-- The call stack tells the latest of the cells under evaluation.
def Nested (m : Model) : Prop := m.callStack <+: m.current

structure Trims (m m' : Model) : Prop where
  callStack : m'.callStack = m.callStack ∨ m'.callStack = []
  offset : m'.depthOffset = m.depthOffset ∨ m'.depthOffset = 0

variable {m m' s : Model} {id : NodeId} {room : Nat}

theorem Trims.of_eq {m m' : Model} (same : m' = m) : m.Trims m' := ⟨.inl (by rw [same]),.inl (by rw [same])⟩

theorem Trims.trans (one : m.Trims m') (two : m'.Trims m'') : m.Trims m'' := by
  constructor
  · rcases two.callStack with same | empty
    · rw [same]
      exact one.callStack
    · exact .inr empty
  · rcases two.offset with same | none
    · rw [same]
      exact one.offset
    · exact .inr none

theorem Nested.trims (nested : m.Nested) (trims : m.Trims m') (current : m'.current = m.current) : m'.Nested := by
  unfold Nested at nested ⊢
  rw [current]
  rcases trims.callStack with same | empty
  · rwa [same]
  · rw [empty]
    exact List.nil_prefix

theorem begin_traces (m : Model) (id : NodeId) :
    (m.begin id).callStack = id :: m.callStack ∧ (m.begin id).depthOffset = m.depthOffset ∨
      (m.begin id).callStack = [id] ∧ (m.begin id).depthOffset = 0 := by
  unfold begin enter
  dsimp only
  split
  · exact .inr ⟨rfl,rfl⟩
  · exact .inl ⟨rfl,rfl⟩

theorem nested_begin (nested : m.Nested) (id : NodeId) : (m.begin id).Nested := by
  unfold Nested at nested ⊢
  rw [begin_current]
  rcases m.begin_traces id with ⟨stack,-⟩ | ⟨stack,-⟩
  · rw [stack,List.prefix_cons_inj]
    exact nested
  · rw [stack,List.prefix_cons_inj]
    exact List.nil_prefix

theorem store_traces (m : Model) (id : NodeId) (format : NumberFormat) (r : Except FormulaError Value) :
    (m.store id format r).2.callStack = m.callStack ∧ (m.store id format r).2.depthOffset = m.depthOffset := by
  cases r <;> exact ⟨rfl,rfl⟩

theorem cell_standing (standing : ¬ ∃ c, m.cell? id = some c ∧ c.dirty = true ∧ c.evaluating = false) (room : Nat) :
    (Run.cell room id m).2 = m := by
  cases found : m.cell? id with
  | none => rw [cell_absent found]
  | some c =>
    cases evaluating : c.evaluating with
    | true => rw [cell_busy found evaluating]
    | false =>
      have clean : c.dirty = false := Bool.eq_false_iff.mpr fun dirty => standing ⟨c,found,dirty,evaluating⟩
      rw [cell_clean found clean evaluating]

theorem perform_trims (cells : ∀ id (m : Model), m.Trims (Run.cell room id m).2) (p : Plan α) (m : Model) :
    m.Trims (p.perform (Run.cell room) m).2 := by
  induction p generalizing m with
  | done r => exact .of_eq rfl
  | ask id next ih =>
    have first := cells id m
    rw [Plan.perform_ask]
    generalize Run.cell room id m = ran at first ⊢
    obtain ⟨r,m'⟩ := ran
    cases r with
    | error e => exact first
    | ok v => exact first.trans (ih v m')

theorem cell_full (id : NodeId) (m : Model) : (Run.cell 0 id m).2 = m := by
  unfold Run.cell
  split
  · rfl
  · split <;> rfl

-- A cell takes its own trace off again, unless all traces were discarded below it. Induction on
-- the room, which is less for the cells that a formula reads.
theorem cell_trims (room : Nat) (id : NodeId) (m : Model) : m.Trims (Run.cell room id m).2 := by
  induction room generalizing id m with
  | zero => exact .of_eq (cell_full id m)
  | succ room ih =>
    by_cases waiting : ∃ c, m.cell? id = some c ∧ c.dirty = true ∧ c.evaluating = false
    · obtain ⟨c,found,dirty,idle⟩ := waiting
      have trims := perform_trims ih (m.formulaPlan id) (m.begin id)
      rw [cell_formula room found dirty idle]
      generalize (m.formulaPlan id).perform (Run.cell room) (m.begin id) = ran at trims
      obtain ⟨r,ran⟩ := ran
      have trims : (m.begin id).Trims ran := trims
      obtain ⟨stack,offset⟩ := ran.leave.store_traces id c.format (ran.tag id r)
      have left : ran.leave.callStack = ran.callStack.drop 1 ∧ ran.leave.depthOffset = ran.depthOffset := ⟨rfl,rfl⟩
      constructor
      · rw [stack,left.1]
        rcases trims.callStack with same | empty
        · rcases m.begin_traces id with ⟨pushed,-⟩ | ⟨alone,-⟩
          · exact .inl (by simp [same,pushed])
          · exact .inr (by simp [same,alone])
        · exact .inr (by simp [empty])
      · rw [offset,left.2]
        rcases trims.offset with same | none
        · rcases m.begin_traces id with ⟨-,kept⟩ | ⟨-,none⟩
          · exact .inl (same.trans kept)
          · exact .inr (same.trans none)
        · exact .inr none
    · exact .of_eq (cell_standing waiting (room + 1))

theorem node_trims (room : Nat) (id : NodeId) (m : Model) : m.Trims (Run.node (Run.cell room) id m).2 := by
  rw [performs_node (keeps_cell m room) id m rfl]
  exact perform_trims (cell_trims room) _ m

theorem calls_nested (p : Plan α) (nested : m.Nested) (listed : (id,s) ∈ p.calls (Run.cell room) m) : s.Nested := by
  induction p generalizing m with
  | done r => cases listed
  | ask y next ih =>
    rw [Plan.calls,List.mem_cons] at listed
    rcases listed with here | listed
    · cases here
      exact nested
    · have after := nested.trims (cell_trims room y m) (steady_cell room y m).current
      generalize Run.cell room y m = ran at listed after
      obtain ⟨r,m'⟩ := ran
      cases r with
      | error e => cases listed
      | ok v => exact ih v after listed

theorem moments_nested (room : Nat) (id : NodeId) (m : Model) (nested : m.Nested) (listed : s ∈ m.moments room id) :
    s.Nested := by
  induction room generalizing id m with
  | zero => exact List.mem_singleton.mp listed ▸ nested
  | succ room ih =>
    rw [moments,List.mem_cons,List.mem_cons] at listed
    rcases listed with rfl | rfl | listed
    · exact nested
    · exact nested.trims (cell_trims (room + 1) id m) (steady_cell (room + 1) id m).current
    · split at listed
      · rcases List.mem_cons.mp listed with rfl | listed
        · exact nested_begin nested id
        · obtain ⟨⟨y,m'⟩,called,listed⟩ := List.mem_flatMap.mp listed
          exact ih y m' (calls_nested _ (nested_begin nested id) called) listed
      · cases listed

@[simp] theorem callStack_abandon (waiting : List (NodeId × Nat)) (m : Model) : (m.abandon waiting).callStack = m.callStack := by
  induction waiting generalizing m with
  | nil => rfl
  | cons entry rest ih => exact ih (m.setEvaluating entry.1 false)

theorem nested_empty (empty : m.current = []) (nested : m.Nested) : m.callStack = [] := by
  unfold Nested at nested
  rwa [empty,List.prefix_nil] at nested

theorem evaluateMoments_nested (rests : m.AtRest) (listed : s ∈ m.evaluateMoments address) : s.Nested := by
  have bare {m : Model} (empty : m.callStack = []) : m.Nested := by
    unfold Nested
    rw [empty]
    exact List.nil_prefix
  unfold evaluateMoments at listed
  split at listed
  · refine resumeMoments_all (P := fun m => m.current = [] ∧ m.callStack = []) (Q := Nested) (fun _ _ holds => holds) ?_
      (fun _ _ _ holds => holds) (fun _ holds => bare holds.2) ?_ ?_ _ _ _ _ m ⟨rests.idle.current,rests.untraced⟩ listed
    · rintro m next ⟨current,stack⟩
      have empty := (steady_node m.room next m).current.trans current
      refine ⟨empty,nested_empty empty ?_⟩
      exact (bare stack).trims (node_trims m.room next m) (empty.trans current.symm)
    · rintro m waiting ⟨-,stack⟩
      exact bare ((callStack_abandon waiting m).trans stack)
    · rintro m next y m' s ⟨-,stack⟩ called listed
      exact moments_nested _ y m' (calls_nested _ (bare stack) called) listed
  · rw [List.mem_singleton.mp listed]
    exact bare rests.untraced

theorem read_at (m : Model) (address : String) : m.read address = match m.resolve address with
    | .ok id => Run.node (Run.cell m.room) id m
    | .error e => (.error e,m) := by
  unfold read Run.address
  rw [Run.bind_at]
  simp only [Run.ofExcept]
  cases m.resolve address <;> rfl

theorem readCell_left (m : Model) (address : String) : (m.readCell address).2 = (m.read address).2 := by
  unfold readCell read Run.source
  dsimp only
  rw [Run.bind_at]
  rcases Run.address (Run.cell m.room) address m with ⟨r | v,m'⟩ <;> rfl

theorem requestMoments_nested (rests : m.AtRest) (after : (m.serve request).AtRest) (listed : s ∈ m.requestMoments request) :
    s.Nested := by
  have bare {m : Model} (rests : m.AtRest) : m.Nested := by
    unfold Nested
    rw [rests.untraced]
    exact List.nil_prefix
  have reading {address : String} (listed : s ∈ m.readMoments address) : s.Nested := by
    unfold readMoments at listed
    split at listed
    · obtain ⟨⟨y,m'⟩,called,listed⟩ := List.mem_flatMap.mp listed
      exact moments_nested _ y m' (calls_nested _ (bare rests) called) listed
    · cases listed
  have ends (listed : s ∈ [m,m.serve request]) : s.Nested := by
    rcases List.mem_pair.mp listed with rfl | rfl
    · exact bare rests
    · exact bare after
  have read {address : String} (listed : s ∈ m :: m.serve request :: m.readMoments address) : s.Nested := by
    rcases List.mem_cons.mp listed with rfl | listed
    · exact bare rests
    · rcases List.mem_cons.mp listed with rfl | listed
      · exact bare after
      · exact reading listed
  cases request with
  | perform op => cases op with
    | evaluate address => exact evaluateMoments_nested rests listed
    | assign address value => exact ends listed
    | reset address => exact ends listed
  | read address => exact read listed
  | readCell address => exact read listed
  | readRange address => exact ends listed

theorem AtRest.after (rests : m.AtRest) (steady : m.Steady m') (trims : m.Trims m') : m'.AtRest := by
  refine ⟨⟨steady.current.trans rests.idle.current,?_,fun id => steady.isEvaluating.trans (rests.idle.marks id)⟩,?_⟩
  · exact trims.offset.elim (fun same => same.trans rests.idle.offset) id
  · exact trims.callStack.elim (fun same => same.trans rests.untraced) id

-- Only some dirty cells change, and they take the value that evaluation from scratch gives them.
structure Settles (m m' : Model) : Prop where
  rest : m' = {m with nodes := m'.nodes}
  nodes : ∀ id, m'.nodes[id]? = m.nodes[id]? ∨ ∃ c v n, m.nodes[id]? = some (.cell c) ∧ c.dirty = true ∧
    m.scratch m.settled n id = .ok v ∧ m'.nodes[id]? = some (.cell {c with value := v,dirty := false})

theorem Steady.settles (steady : m.Steady m') (rests : m.AtRest) (after : m'.AtRest)
    (grounded : m.Grounded m.settled m'.settled) : m.Settles m' := by
  refine ⟨?_,fun id => ?_⟩
  · have sheet : m'.defaultSheet = m.defaultSheet := by simpa [Model.outline] using congrArg Model.defaultSheet steady.outline
    have narrowed : m'.narrowed = m.narrowed := by simpa [Model.outline] using congrArg Model.narrowed steady.outline
    have graph := graph_same steady.outline
    have limits := limits_same steady.outline
    have traces : m'.callStack = m.callStack := after.untraced.trans rests.untraced.symm
    have offset : m'.depthOffset = m.depthOffset := after.idle.offset.trans rests.idle.offset.symm
    have current := steady.current
    cases m
    cases m'
    simp_all
  · cases there : m.nodes[id]? with
    | none => exact .inl (by simpa [there] using node_same steady.outline id)
    | some node => cases node with
      | range r => exact .inl (range_same steady.outline there)
      | cell c =>
        rcases steady.cells id c (cell?_eq_some.mpr there) with kept | ⟨dirty,idle,v,changed⟩
        · exact .inl (cell?_eq_some.mp kept)
        · obtain ⟨n,below⟩ := grounded.scratch
          have settled : m'.settled id = some v := settled_eq_some.mpr ⟨_,changed,rfl,idle,rfl⟩
          exact .inr ⟨c,v,n,rfl,dirty,(below id).ok (known_ok.mpr settled),cell?_eq_some.mp changed⟩

section
variable (formed : m.WellFormed) (rests : m.AtRest)
include formed rests

theorem evaluate_rests (address : String) : (m.evaluate address).2.AtRest := by
  obtain ⟨-,idle⟩ := evaluate_steady formed rfl rests.idle address
  exact ⟨idle,nested_empty idle.current (evaluateMoments_nested rests (mem_evaluateMoments m address))⟩

theorem settles_evaluate (address : String) : m.Settles (m.evaluate address).2 := by
  obtain ⟨steady,-,grounded⟩ := evaluate_grounded formed rfl rests.idle (.self m m.settled) address
  exact steady.settles rests (evaluate_rests formed rests address) grounded

omit formed in
theorem settles_read (address : String) : (m.read address).2.AtRest ∧ m.Settles (m.read address).2 := by
  rw [read_at]
  cases m.resolve address with
  | error e => exact ⟨rests,(Steady.refl m).settles rests rests (.self m m.settled)⟩
  | ok id =>
    have follows := (tracks_node (tracks_cell m.room) id).follows m rfl (Grounded.self m m.settled)
    have after := rests.after follows.steady (node_trims m.room id m)
    exact ⟨after,follows.steady.settles rests after follows.grounded⟩

theorem serve_rests (request : Request) : (m.serve request).outline = m.outline ∧ (m.serve request).AtRest := by
  have reads (address : String) : (m.read address).2.outline = m.outline ∧ (m.read address).2.AtRest := by
    obtain ⟨after,settles⟩ := settles_read rests address
    refine ⟨?_,after⟩
    rw [read_at]
    cases m.resolve address with
    | error e => rfl
    | ok id => exact (steady_node m.room id m).outline
  cases request with
  | read address => exact reads address
  | readCell address =>
    have left : m.serve (.readCell address) = (m.read address).2 := m.readCell_left address
    rw [left]
    exact reads address
  | readRange address => exact ⟨rfl,rests⟩
  | perform op =>
    obtain ⟨outline,idle⟩ := perform_idle formed rfl rests.idle op
    refine ⟨outline,⟨idle,?_⟩⟩
    have cleared (id : NodeId) (propagate : Bool) : (m.invalidate id propagate).callStack = [] :=
      (callStack_changeAll clear _ m).trans rests.untraced
    cases op with
    | evaluate address => exact (evaluate_rests formed rests address).untraced
    | reset address =>
      rcases m.reset_spec address with ⟨e,ran⟩ | ⟨id,-,ran⟩
      · simpa [serve,perform,ran] using rests.untraced
      · simpa [serve,perform,ran] using cleared id _
    | assign address value =>
      have assigns := m.assign_assigns address value
      generalize ran : m.assign address value = result at assigns
      have next : m.serve (.perform (.assign address value)) = result.2 := by rw [← ran]; rfl
      rw [next]
      cases assigns with
      | fails => exact rests.untraced
      | skips => exact rests.untraced
      | stores id => exact cleared id true

theorem serveAll_rests (requests : List Request) :
    (m.serveAll requests).outline = m.outline ∧ (m.serveAll requests).AtRest := by
  induction requests generalizing m with
  | nil => exact ⟨rfl,rests⟩
  | cons request requests ih =>
    obtain ⟨outline,after⟩ := serve_rests formed rests request
    obtain ⟨further,last⟩ := ih (formed.same outline) after
    exact ⟨further.trans outline,last⟩

end

-- The cells that an evaluation of the root fails by: the root waits for the first of them, each
-- of them for the next.
inductive Stuck (m : Model) (values : NodeId → Option Value) (root : NodeId) : NodeId → Prop where
  | first (waits : (m.nodePlan root).awaits values = some f) : Stuck m values root f
  | next (stuck : Stuck m values root f) (waits : (m.formulaPlan f).awaits values = some g) : Stuck m values root g

theorem Stuck.unsettled {values : NodeId → Option Value} (stuck : m.Stuck values root f) : values f = none := by
  cases stuck with
  | first waits => exact Plan.awaits_unknown _ waits
  | next _ waits => exact Plan.awaits_unknown _ waits

theorem Settles.unsettled (settles : m.Settles m') (after : m'.AtRest) (found : m.cell? id = some c)
    (unsettled : m'.settled id = none) : m'.cell? id = some c ∧ c.dirty = true := by
  have cell := cell?_eq_some.mp found
  rcases settles.nodes id with kept | ⟨d,v,n,there,dirty,-,changed⟩
  · have same : m'.cell? id = some c := cell?_eq_some.mpr (kept.trans cell)
    refine ⟨same,?_⟩
    have idle : c.evaluating = false := by simpa [isEvaluating,same] using after.idle.marks id
    cases dirty : c.dirty with
    | true => rfl
    | false => simp [settled,same,dirty,idle] at unsettled
  · have changed := cell?_eq_some.mpr changed
    have idle : d.evaluating = false := by simpa [isEvaluating,changed] using after.idle.marks id
    simp [settled,changed,idle] at unsettled

theorem unsettled_failed (formed : m.WellFormed) (rests : m.AtRest) (resolved : m.resolve address = .ok id)
    (found : m.cell? id = some c) (failed : (m.evaluate address).1 = .error e) : (m.evaluate address).2.settled id = none := by
  have evaluates := evaluate_evaluates formed.distinct formed.deep rfl (.self m m.settled) rests.idle resolved
  have comes := evaluates.comes
  rw [failed] at comes
  simp only [nodeValue_cell found] at comes
  cases value : (m.evaluate address).2.settled id with
  | none => rfl
  | some v =>
    obtain ⟨n,below⟩ := evaluates.grounded.scratch
    have given : m.scratch m.settled n id = .ok v := (below id).ok (known_ok.mpr value)
    have ends := comes.eq (.of_grows (fun n k deep => m.scratch_below m.settled deep id) (by simp [circle]) given)
    cases ends

end Model

-- After every request, whatever came of it, nothing is under evaluation and no trace is left;
-- meanwhile the call stack tells the latest cells. An evaluation gives some dirty cells their
-- value and changes nothing else; the cells it fails by stay as they were.
theorem requests_rest {options : BuildOptions} {seeds : List (String × String)} {book : Workbook} {o m : Model}
    (made : (build options seeds book).1 = .ok o) (requests : List Request) (served : o.serveAll requests = m) :
    m.AtRest ∧ (∀ request, ∀ s ∈ m.requestMoments request, s.Nested) ∧
      ∀ address, m.Settles (m.evaluate address).2 ∧ m.Settles (m.read address).2 ∧
        ∀ e id, (m.evaluate address).1 = .error e → m.resolve address = .ok id → ∀ y c, m.cell? y = some c →
          y = id ∨ m.Stuck (m.evaluate address).2.settled id y → (m.evaluate address).2.cell? y = some c ∧ c.dirty = true := by
  have sturdy := build_sturdy made
  obtain ⟨outline,rests⟩ := Model.serveAll_rests sturdy.formed ⟨sturdy.idle,sturdy.untraced⟩ requests
  rw [served] at outline rests
  have formed := sturdy.formed.same outline
  refine ⟨rests,fun request s listed => ?_,fun address => ⟨Model.settles_evaluate formed rests address,
    (Model.settles_read rests address).2,fun e id failed resolved y c found way => ?_⟩⟩
  · exact Model.requestMoments_nested rests (Model.serve_rests formed rests request).2 listed
  · have after := Model.evaluate_rests formed rests address
    refine (Model.settles_evaluate formed rests address).unsettled after found ?_
    rcases way with rfl | stuck
    · exact Model.unsettled_failed formed rests resolved found failed
    · exact stuck.unsettled

-- With room for one cell and one trace, a read that stops for want of room comes before an
-- evaluation that fails.
theorem requests_rest_ringed : ∃ o, (build ({BuildOptions.standard with limits := ⟨1,1⟩}) [("S","A1:A3")] ringed).1 = .ok o ∧
    failsAs (.suspended "S!A2" 1) (o.read "S!A1").1 = true ∧
    ((o.serveAll [.read "S!A1"]).evaluate "S!A1").1.toOption = none ∧
    (o.serveAll [.read "S!A1",.perform (.evaluate "S!A1")]).AtRest ∧
    ∃ c, (o.serveAll [.read "S!A1"]).cell? 0 = some c ∧ c.dirty = true ∧
      ((o.serveAll [.read "S!A1"]).evaluate "S!A1").2.cell? 0 = some c := by
  obtain ⟨o,made,stops,fails,resolved,there⟩ : ∃ o,
      (build ({BuildOptions.standard with limits := ⟨1,1⟩}) [("S","A1:A3")] ringed).1 = .ok o ∧
      failsAs (.suspended "S!A2" 1) (o.read "S!A1").1 = true ∧
      ((o.serveAll [.read "S!A1"]).evaluate "S!A1").1.toOption.isNone = true ∧
      (o.serveAll [.read "S!A1"]).find? "S!A1" = some 0 ∧ ((o.serveAll [.read "S!A1"]).cell? 0).isSome = true :=
    ⟨_,Workbook.made (by decide +kernel),by decide +kernel,by decide +kernel,by decide +kernel,by decide +kernel⟩
  obtain ⟨c,found⟩ := Option.isSome_iff_exists.mp there
  obtain ⟨-,-,changes⟩ := requests_rest made [.read "S!A1"] rfl
  obtain ⟨rests,-⟩ := requests_rest made [.read "S!A1",.perform (.evaluate "S!A1")] rfl
  have fails := Option.isNone_iff_eq_none.mp fails
  refine ⟨o,made,stops,fails,rests,c,found,?_⟩
  cases outcome : ((o.serveAll [.read "S!A1"]).evaluate "S!A1").1 with
  | ok v => simp [outcome,Except.toOption] at fails
  | error e =>
    have resolved : (o.serveAll [.read "S!A1"]).resolve "S!A1" = .ok 0 := by simp only [Model.resolve,resolved]
    exact ((changes "S!A1").2.2 e 0 outcome resolved 0 c found (.inl rfl)).symm

end Recalc
