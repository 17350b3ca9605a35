import Recalc.Proofs.Model.Evaluate.RunResults

namespace Recalc

theorem liftReference_untagged {r : Except ReferenceError α} (failed : liftReference r = .error e) :
    e.isTagged = false := by
  cases r with
  | ok a => simp [liftReference,Except.mapError] at failed
  | error cause =>
    simp only [liftReference,Except.mapError,Except.error.injEq] at failed
    subst failed
    rfl

theorem Run.node_at (cell : NodeId → Run Value) (id : NodeId) (m : Model) :
    Run.node cell id m = ((match m.nodes[id]? with
      | some (.range r) => (do
        return .array (← r.cells.mapM fun row => row.mapM fun address => do
          cell (← Run.ofExcept fun m => m.resolve address)) : Run Value)
      | _ => cell id) : Run Value) m := rfl

namespace Model
variable {o m m' : Model} {inputs : NodeId → Option Value} {id : NodeId}

theorem resolve_untagged (failed : m.resolve address = .error e) : e.isTagged = false := by
  unfold resolve at failed
  split at failed
  · cases failed
  · cases got : liftReference (canonicalize (Text.without '$' address) m.defaultSheet) with
    | error cause =>
      rw [got] at failed
      cases failed
      exact liftReference_untagged got
    | ok key =>
      rw [got] at failed
      simp only [bind,Except.bind] at failed
      split at failed
      · cases failed
      · cases failed
        rfl

theorem rectOf_untagged (failed : m.rectOf address = .error e) : e.isTagged = false := by
  unfold rectOf at failed
  split at failed
  · exact liftReference_untagged failed
  · split at failed
    · exact liftReference_untagged failed
    · cases failed
      rfl

theorem tracks_resolve (o : Model) (address : String) :
    o.Tracks inputs (Run.ofExcept fun m => m.resolve address) fun _ => o.resolve address :=
  .ofExcept (fun _ same => resolve_same same address) fun _ => resolve_untagged

section
variable {cell : NodeId → Run Value} (cells : ∀ id, o.Tracks inputs (cell id) fun c => c id)
include cells

theorem tracks_node (id : NodeId) : o.Tracks inputs (Run.node cell id) fun c => o.nodeValue c id := by
  have rows (r : RangeNode) := (Tracks.mapM (fun row => Tracks.mapM (fun address =>
    (o.tracks_resolve address).bind cells) row) r.cells).bind fun rows => Tracks.pure (Value.array rows)
  refine ⟨fun c c' below => o.nodeValue_sharpens below id,fun m same grounded => ?_⟩
  have mapped := node_same same id
  rw [Run.node_at]
  cases here : m.nodes[id]? with
  | none =>
    have there : o.nodes[id]? = none := by simpa [here] using mapped.symm
    simp only [nodeValue,there]
    exact (cells id).follows m same grounded
  | some node => cases node with
    | cell c =>
      obtain ⟨c',there,-⟩ := cell_same same.symm (cell?_eq_some.mpr here)
      simp only [nodeValue,cell?_eq_some.mp there]
      exact (cells id).follows m same grounded
    | range r =>
      simp only [nodeValue,range_same same.symm here]
      exact (rows r).follows m same grounded

theorem tracks_answer (plain : Bool) (q : Query α) :
    o.Tracks inputs (q.answer (Run.source cell plain)) fun c => q.answer (o.sourceOver c plain) := by
  induction q with
  | done a => exact .pure a
  | cell bare address next ih =>
    refine Tracks.bind ?_ ih
    have read : (Run.source cell plain).cell bare address = (do
        let id ← Run.ofExcept fun m => m.resolve address
        let v ← Run.node cell id
        return if bare ∧ plain ∧ v.isEmpty then .number 0.0 else v) := by
      simp only [Run.source,Run.address,bind_assoc]
    rw [read]
    exact (o.tracks_resolve address).bind fun id => (tracks_node cells id).bind fun v => .pure _
  | range address next ih =>
    exact (Tracks.ofExcept (fun _ same => rectOf_same same address) fun _ => rectOf_untagged).bind ih

end

def begin (m : Model) (id : NodeId) : Model :=
  (m.changeCell id fun c => {c with evaluating := true,dirty := false}).enter id

theorem begin_outline (m : Model) (id : NodeId) : (m.begin id).outline = m.outline := by
  have changed := m.changeCell_outline (f := fun c => {c with evaluating := true,dirty := false}) id fun _ => rfl
  rw [← changed]
  unfold begin enter
  dsimp only
  split <;> rfl

theorem begin_cell? (m : Model) (id y : NodeId) : (m.begin id).cell? y =
    if id = y then (m.cell? y).map fun c => {c with evaluating := true,dirty := false} else m.cell? y := by
  rw [← cell?_changeCell]
  unfold begin enter
  dsimp only
  split <;> rfl

theorem begin_current (m : Model) (id : NodeId) : (m.begin id).current = id :: m.current := by
  unfold begin enter
  dsimp only
  split <;> rfl

theorem begin_settled (found : m.cell? id = some c) (dirty : c.dirty = true) : (m.begin id).settled = m.settled := by
  funext y
  unfold settled
  rw [begin_cell?]
  by_cases same : id = y
  · subst same
    simp [found,dirty]
  · simp [same]

structure Ends (m ran m' : Model) (id : NodeId) (value : Option Value) : Prop where
  steady : m.Steady m'
  settled : ∀ y, m'.settled y = if y = id then value else ran.settled y
  others : ∀ y, y ≠ id → m'.cell? y = ran.cell? y

section
variable {c : Cell} (found : m.cell? id = some c) (dirty : c.dirty = true) (idle : c.evaluating = false)
  (steady : (m.begin id).Steady ran)
include found steady

theorem ran_cell? : ran.cell? id = some {c with evaluating := true,dirty := false} :=
  steady.clean (by simp [begin_cell?,found]) rfl

include dirty idle

theorem ends (finish : Cell → Cell) (value : Option Value) (kept : ∀ c, (finish c).outline = c.outline)
    (finished : finish {c with evaluating := true,dirty := false} = c ∧ value = none ∨
      ∃ v, finish {c with evaluating := true,dirty := false} = {c with value := v,dirty := false} ∧ value = some v) :
    m.Ends ran (ran.leave.changeCell id finish) id value := by
  have there := ran_cell? found steady
  have cells (y : NodeId) : (ran.leave.changeCell id finish).cell? y =
      if id = y then (ran.cell? y).map finish else ran.cell? y := cell?_changeCell ran.leave id y finish
  refine ⟨⟨?_,?_,?_⟩,?_,?_⟩
  · have left : ran.leave.outline = ran.outline := rfl
    rw [changeCell_outline _ _ kept,left,steady.outline,begin_outline]
  · have current : (ran.leave.changeCell id finish).current = ran.current.drop 1 := rfl
    rw [current,steady.current,begin_current]
    rfl
  · intro y d before
    rw [cells]
    by_cases same : id = y
    · subst same
      rw [found] at before
      cases before
      rcases finished with ⟨back,-⟩ | ⟨v,done,-⟩
      · exact .inl (by simp [there,back])
      · exact .inr ⟨dirty,idle,v,by simp [there,done]⟩
    · simp only [same,if_false]
      exact steady.cells y d (by simp [begin_cell?,same,before])
  · intro y
    unfold Model.settled
    rw [cells]
    by_cases same : y = id
    · subst same
      rcases finished with ⟨back,rfl⟩ | ⟨v,done,rfl⟩
      · simp [there,back,dirty]
      · simp [there,done,idle]
    · simp [same,Ne.symm same]
  · intro y other
    rw [cells]
    simp [Ne.symm other]

end

theorem addressOf_cell (found : m.cell? id = some c) : m.addressOf id = c.address := by
  simp [addressOf,cell?_eq_some.mp found,Node.address]

theorem derive_found (same : m.outline = o.outline) (found : m.cell? id = some c)
    (cell : NodeId → Except FormulaError Value) : o.derive cell id = c.conclude (o.resultOf cell c.expr) := by
  rw [← derive_same same]
  simp [derive,found,resultOf_same same]

theorem Grounded.free (grounded : o.Grounded inputs values) (unknown : values id = none) : inputs id = none := by
  cases given : inputs id with
  | none => rfl
  | some v => simp [grounded.given id v given] at unknown

theorem circle_of_self (free : inputs id = none) (hinges : o.Hinges inputs (fun c => o.derive c id) id) (n : Nat) :
    o.derive (o.scratch inputs n) id = circle := by
  induction n with
  | zero => exact hinges.pending 0 rfl
  | succ n ih => exact hinges.pending (n + 1) (by rw [scratch_unknown o free,ih])

-- The run of a cell that is dirty: it is settled after it, or as it was. If it has to wait,
-- it waits for another cell.
structure Computes (o : Model) (inputs : NodeId → Option Value) (m : Model) (id : NodeId)
    (ran : Except FormulaError Value × Model) : Prop where
  follows : o.Follows inputs m (fun cell => o.derive cell id) ran
  settled : ∀ v, ran.1 = .ok v → ran.2.settled id = some v
  kept : ∀ e, ran.1 = .error e → ran.2.cell? id = m.cell? id
  another : ∀ address depth, ran.1 = .error (.suspended address depth) →
    ∃ y d, y ≠ id ∧ ran.2.cell? y = some d ∧ d.address = address

section
variable {c : Cell} (found : m.cell? id = some c) (dirty : c.dirty = true) (idle : c.evaluating = false)
  (derive : ∀ cell, o.derive cell id = c.conclude (o.resultOf cell c.expr))
include found dirty idle derive

theorem computes_value (followed : o.Follows inputs (m.begin id) (fun cell => o.resultOf cell c.expr) (.ok v,ran)) :
    o.Computes inputs m id (ran.leave.store id c.format (ran.tag id (.ok v))) := by
  have steady : (m.begin id).Steady ran := followed.steady
  have result : o.resultOf (known ran.settled) c.expr = .ok v := followed.foretold
  have value : o.derive (known ran.settled) id = .ok (c.format.apply v) := by rw [derive,result]; rfl
  have ends := ends found dirty idle steady (fun d => {d with evaluating := false,value := c.format.apply v})
    (some (c.format.apply v)) (fun _ => rfl) (.inr ⟨c.format.apply v,by simp [idle],rfl⟩)
  have running : ran.settled id = none := settled_eq_none (ran_cell? found steady) (.inr rfl)
  have grounded := followed.grounded.extend running value
  rw [← funext ends.settled] at grounded
  refine ⟨⟨ends.steady,grounded,(o.derive_sharpens (known_below ?_) id).ok value⟩,?_,?_,?_⟩
  · intro y w before
    refine (ends.settled y).trans ?_
    by_cases same : y = id
    · subst same
      simp [running] at before
    · simpa [same] using before
  · rintro w ⟨⟩
    exact (ends.settled id).trans (if_pos rfl)
  · rintro e ⟨⟩
  · rintro address depth ⟨⟩

theorem computes_failure (followed : o.Follows inputs (m.begin id) (fun cell => o.resultOf cell c.expr) (.error e,ran)) :
    o.Computes inputs m id (ran.leave.store id c.format (ran.tag id (.error e))) := by
  have steady : (m.begin id).Steady ran := followed.steady
  have fails : o.Fails ran inputs (fun cell => o.resultOf cell c.expr) e := followed.foretold
  have there := ran_cell? found steady
  have restored : {c with evaluating := false,dirty := true} = c := by cases c; simp_all
  have ends := ends found dirty idle steady (fun d => {d with evaluating := false,dirty := true}) none
    (fun _ => rfl) (.inl ⟨restored,rfl⟩)
  have running : ran.settled id = none := settled_eq_none there (.inr rfl)
  have settled : ran.settled = (ran.leave.changeCell id fun d => {d with evaluating := false,dirty := true}).settled := by
    funext y
    rw [ends.settled]
    split
    · rename_i same
      rw [same,running]
    · rfl
  have grounded := followed.grounded
  rw [settled] at grounded
  have hinges (y : NodeId) (inner : o.Hinges inputs (fun cell => o.resultOf cell c.expr) y) :
      o.Hinges inputs (fun cell => o.derive cell id) y :=
    inner.through fun cell e failed tagged => by rw [derive,failed,c.conclude_tagged tagged]
  have other {y : NodeId} {d : Cell} (open_ : ran.cell? y = some d) (waiting : d.dirty = true) : y ≠ id := by
    rintro rfl
    rw [there] at open_
    cases open_
    cases waiting
  have kept : (ran.leave.changeCell id fun d => {d with evaluating := false,dirty := true}).cell? id = m.cell? id := by
    have changed := cell?_changeCell ran.leave id id fun d => {d with evaluating := false,dirty := true}
    have left : ran.leave.cell? id = ran.cell? id := rfl
    rw [changed,left,there,found]
    simp [restored]
  refine ⟨⟨ends.steady,grounded,?_⟩,?_,fun _ _ => kept,?_⟩
  · cases e with
    | suspended address depth =>
      obtain ⟨y,d,open_,named,waiting,still,inner⟩ := fails
      exact ⟨y,d,(ends.others y (other open_ waiting)).trans open_,named,waiting,still,hinges y inner⟩
    | circularReference cell stack =>
      rcases fails with never | ⟨z,evaluating,inner⟩
      · exact .inl fun n => (derive _).trans (congrArg c.conclude (never n))
      · by_cases same : z = id
        · subst same
          exact .inl (circle_of_self (grounded.free (settled ▸ running)) (hinges z inner))
        · refine .inr ⟨z,?_,hinges z inner⟩
          unfold isEvaluating at evaluating ⊢
          rwa [← ends.others z same] at evaluating
    | evaluation cell stack source =>
      obtain ⟨n,failed⟩ := fails
      exact ⟨n,(derive _).trans (congrArg c.conclude failed)⟩
    | _ =>
      obtain ⟨n,failed⟩ := fails
      refine ⟨n,(derive _).trans ((congrArg c.conclude failed).trans ?_)⟩
      have named : ran.addressOf id = c.address := by rw [addressOf_cell there]
      simp [Cell.conclude,FormulaError.kind,FormulaError.isTagged,named]
  · rintro v ⟨⟩
  · intro address depth suspended
    cases e with
    | suspended cell deep =>
      obtain ⟨y,d,open_,named,waiting,-⟩ := fails
      have apart := other open_ waiting
      simp [tag,store,FormulaError.isTagged] at suspended
      exact ⟨y,d,apart,(ends.others y apart).trans open_,named.trans suspended.1⟩
    | _ => simp [tag,store,FormulaError.isTagged] at suspended

end

section
variable {c : Cell}

theorem cell_absent (missing : m.cell? id = none) (room : Nat) : Run.cell room id m = (.error (.unknownCell (m.addressOf id)),m) := by
  have there : (m.nodes[id]?).bind Node.cell? = none := missing
  cases room <;> simp [Run.cell,there]

variable (found : m.cell? id = some c)
include found

theorem cell_busy (evaluating : c.evaluating = true) (room : Nat) :
    Run.cell room id m = (.error (.circularReference c.address m.callStackText),m) := by
  have there : (m.nodes[id]?).bind Node.cell? = some c := found
  cases room <;> simp [Run.cell,there,standing,evaluating]

theorem cell_clean (clean : c.dirty = false) (idle : c.evaluating = false) (room : Nat) : Run.cell room id m = (.ok c.value,m) := by
  have there : (m.nodes[id]?).bind Node.cell? = some c := found
  cases room <;> simp [Run.cell,there,standing,idle,clean]

theorem cell_suspended (dirty : c.dirty = true) (idle : c.evaluating = false) :
    Run.cell 0 id m = (.error (.suspended c.address (m.depthOffset + m.callStack.length)),m) := by
  have there : (m.nodes[id]?).bind Node.cell? = some c := found
  simp [Run.cell,there,standing,dirty,idle]

theorem cell_answers (dirty : c.dirty = true) (idle : c.evaluating = false) (room : Nat) : Run.cell (room + 1) id m =
    let ran := c.expr.query.answer (Run.source (Run.cell room) c.expr.isReference) (m.begin id)
    ran.2.leave.store id c.format (ran.2.tag id ran.1) := by
  have there : (m.nodes[id]?).bind Node.cell? = some c := found
  simp [Run.cell,there,standing,dirty,idle,begin]
  rfl

end

theorem computes {c : Cell} {room : Nat} (cells : ∀ id, o.Tracks inputs (Run.cell room id) fun c => c id)
    (same : m.outline = o.outline) (grounded : o.Grounded inputs m.settled)
    (found : m.cell? id = some c) (dirty : c.dirty = true) (idle : c.evaluating = false) :
    o.Computes inputs m id (Run.cell (room + 1) id m) := by
  have followed := (tracks_answer cells c.expr.isReference c.expr.query).follows (m.begin id)
    ((m.begin_outline id).trans same) (by rw [begin_settled found dirty]; exact grounded)
  rw [cell_answers found dirty idle]
  generalize c.expr.query.answer (Run.source (Run.cell room) c.expr.isReference) (m.begin id) = ran at followed
  obtain ⟨r,ran⟩ := ran
  cases r with
  | ok v => exact computes_value found dirty idle (derive_found same found) followed
  | error e => exact computes_failure found dirty idle (derive_found same found) followed

theorem fails_of_derive (free : inputs id = none) (fails : o.Fails m' inputs (fun cell => o.derive cell id) e) :
    o.Fails m' inputs (fun cell => cell id) e := by
  have next (n : Nat) := o.scratch_unknown free n
  have pending (y : NodeId) (hinges : o.Hinges inputs (fun cell => o.derive cell id) y) :
      o.Hinges inputs (fun cell => cell id) y := by
    constructor
    · intro n none
      exact (o.scratch_succ inputs n id).eq_circle ((next n).trans (hinges.pending n none))
    · intro n e tagged ends failed
      obtain ⟨k,there⟩ := hinges.fails n e tagged ends failed
      exact ⟨k + 1,(next k).trans there⟩
  cases e with
  | suspended address depth =>
    obtain ⟨y,d,open_,named,waiting,still,inner⟩ := fails
    exact ⟨y,d,open_,named,waiting,still,pending y inner⟩
  | circularReference cell stack =>
    rcases fails with never | ⟨z,evaluating,inner⟩
    · exact .inl fun n => (o.scratch_succ inputs n id).eq_circle ((next n).trans (never n))
    · exact .inr ⟨z,evaluating,pending z inner⟩
  | _ =>
    obtain ⟨n,failed⟩ := fails
    exact ⟨n + 1,(next n).trans failed⟩

theorem hinges_self (o : Model) (inputs : NodeId → Option Value) (id : NodeId) :
    o.Hinges inputs (fun cell => cell id) id := ⟨fun _ none => none,fun n _ _ _ failed => ⟨n,failed⟩⟩

theorem follows_standing (same : m.outline = o.outline) (grounded : o.Grounded inputs m.settled)
    (standing : ¬ ∃ c, m.cell? id = some c ∧ c.dirty = true ∧ c.evaluating = false) (room : Nat) :
    o.Follows inputs m (fun cell => cell id) (Run.cell room id m) := by
  cases found : m.cell? id with
  | none =>
    have unknown : m.settled id = none := by simp [settled,found]
    have free := grounded.free unknown
    rw [cell_absent found]
    refine ⟨.refl m,grounded,1,(o.scratch_unknown free 0).trans ?_⟩
    rw [← derive_same same]
    simp [derive,found,FormulaError.kind]
  | some c =>
    by_cases evaluating : c.evaluating = true
    · rw [cell_busy found evaluating]
      exact ⟨.refl m,grounded,.inr ⟨id,by simp [isEvaluating,found,evaluating],hinges_self o inputs id⟩⟩
    · have idle : c.evaluating = false := Bool.eq_false_iff.mpr evaluating
      have clean : c.dirty = false := Bool.eq_false_iff.mpr fun dirty => standing ⟨c,found,dirty,idle⟩
      rw [cell_clean found clean idle]
      exact ⟨.refl m,grounded,known_ok.mpr (settled_eq_some.mpr ⟨c,found,clean,idle,rfl⟩)⟩

-- By induction on the room: the formula of a cell reads cells with less room than its own.
theorem tracks_cell (room : Nat) (id : NodeId) : o.Tracks inputs (Run.cell room id) fun cell => cell id := by
  induction room generalizing id with
  | zero =>
    refine ⟨fun _ _ below => below id,fun m same grounded => ?_⟩
    by_cases waiting : ∃ c, m.cell? id = some c ∧ c.dirty = true ∧ c.evaluating = false
    · obtain ⟨c,found,dirty,idle⟩ := waiting
      rw [cell_suspended found dirty idle]
      exact ⟨.refl m,grounded,id,c,found,rfl,dirty,idle,hinges_self o inputs id⟩
    · exact follows_standing same grounded waiting _
  | succ room ih =>
    refine ⟨fun _ _ below => below id,fun m same grounded => ?_⟩
    by_cases waiting : ∃ c, m.cell? id = some c ∧ c.dirty = true ∧ c.evaluating = false
    · obtain ⟨c,found,dirty,idle⟩ := waiting
      have computed := computes ih same grounded found dirty idle
      have free := grounded.free (settled_eq_none found (.inl dirty))
      generalize Run.cell (room + 1) id m = ran at computed ⊢
      refine ⟨computed.follows.steady,computed.follows.grounded,?_⟩
      obtain ⟨r,ran⟩ := ran
      cases r with
      | ok v => exact known_ok.mpr (computed.settled v rfl)
      | error e => exact fails_of_derive free computed.follows.foretold
    · exact follows_standing same grounded waiting _

end Model
end Recalc
