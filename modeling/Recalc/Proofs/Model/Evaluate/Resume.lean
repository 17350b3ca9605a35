import Recalc.Proofs.Model.Evaluate.CellRun

namespace Recalc.Model
variable {o m m' : Model} {inputs : NodeId → Option Value} {id next y : NodeId}

theorem isDirty_cell? (m : Model) (id : NodeId) : m.isDirty id = (m.cell? id).any Cell.dirty := by
  unfold isDirty cell?
  cases m.nodes[id]? with
  | none => rfl
  | some node => cases node <;> rfl

def unfolded (o : Model) (id : NodeId) (cell : NodeId → Except FormulaError Value) : Except FormulaError Value :=
  match o.cell? id with
  | some _ => o.derive cell id
  | none => o.nodeValue cell id

structure Pass (o : Model) (inputs : NodeId → Option Value) (m : Model) (id : NodeId)
    (ran : Except FormulaError Value × Model) : Prop where
  follows : o.Follows inputs m (fun cell => o.nodeValue cell id) ran
  fails : ∀ e, ran.1 = .error e → o.Fails ran.2 inputs (o.unfolded id) e
  stale : ∀ e, ran.1 = .error e → m.cell? id = none ∨ m.isDirty id = true
  kept : ∀ e, ran.1 = .error e → ran.2.cell? id = m.cell? id
  done : ∀ v, ran.1 = .ok v → m.isDirty id = true → ran.2.isDirty id = false
  another : ∀ address depth, ran.1 = .error (.suspended address depth) →
    ∃ y d, y ≠ id ∧ ran.2.cell? y = some d ∧ d.address = address

theorem unfolded_cell (found : o.cell? id ≠ none) : o.unfolded id = fun cell => o.derive cell id := by
  funext cell
  obtain ⟨c,there⟩ := Option.ne_none_iff_exists'.mp found
  simp [unfolded,there]

theorem unfolded_range (absent : o.cell? id = none) : o.unfolded id = fun cell => o.nodeValue cell id := by
  funext cell
  simp [unfolded,absent]

theorem nodeValue_cell (found : m.cell? id = some c) (cell : NodeId → Except FormulaError Value) :
    m.nodeValue cell id = cell id := by
  simp [nodeValue,cell?_eq_some.mp found]

theorem node_cell (found : m.cell? id = some c) (cell : NodeId → Run Value) : Run.node cell id m = cell id m := by
  rw [Run.node_at,cell?_eq_some.mp found]

theorem pass (same : m.outline = o.outline) (grounded : o.Grounded inputs m.settled)
    (idle : m.isEvaluating id = false) (room : Nat) : o.Pass inputs m id (Run.node (Run.cell (room + 1)) id m) := by
  have follows : o.Follows inputs m (fun values => o.nodeValue values id) (Run.node (Run.cell (room + 1)) id m) :=
    (tracks_node (tracks_cell (room + 1)) id).follows m same grounded
  cases found : m.cell? id with
  | none =>
    have absent : o.cell? id = none := (cell?_none_same same).mp found
    generalize Run.node (Run.cell (room + 1)) id m = ran at follows ⊢
    obtain ⟨r,ran⟩ := ran
    have gone : ran.cell? id = none := (cell?_none_same follows.steady.outline).mpr found
    refine ⟨follows,?_,fun _ _ => .inl found,fun _ _ => gone.trans found.symm,?_,?_⟩
    · rintro e ⟨⟩
      rw [unfolded_range absent]
      exact follows.foretold
    · intro v _ dirty
      simp [isDirty_cell?,found] at dirty
    · rintro address depth ⟨⟩
      obtain ⟨y,d,there,named,-⟩ := follows.foretold
      refine ⟨y,d,?_,there,named⟩
      rintro rfl
      simp [gone] at there
  | some c =>
    obtain ⟨c',there,-⟩ := cell_same same.symm found
    have still : c.evaluating = false := by simpa [isEvaluating,found] using idle
    rw [node_cell found] at follows ⊢
    by_cases dirty : c.dirty = true
    · have computed := computes (tracks_cell room) same grounded found dirty still
      generalize Run.cell (room + 1) id m = ran at follows computed ⊢
      obtain ⟨r,ran⟩ := ran
      refine ⟨follows,?_,fun _ _ => .inr (by simp [isDirty_cell?,found,dirty]),computed.kept,?_,computed.another⟩
      · rintro e ⟨⟩
        rw [unfolded_cell (by simp [there])]
        exact computed.follows.foretold
      · intro v succeeded _
        obtain ⟨d,now,clean,-⟩ := settled_eq_some.mp (computed.settled v succeeded)
        simp [isDirty_cell?,now,clean]
    · have clean : c.dirty = false := by simpa using dirty
      have cell : (m.nodes[id]?).bind Node.cell? = some c := found
      have run : Run.cell (room + 1) id m = (.ok c.value,m) := by simp [Run.cell,cell,standing,still,clean]
      rw [run] at follows ⊢
      refine ⟨follows,?_,?_,?_,?_,?_⟩
      · rintro e ⟨⟩
      · rintro e ⟨⟩
      · rintro e ⟨⟩
      · intro v _ stale
        simp [isDirty_cell?,found,clean] at stale
      · rintro address depth ⟨⟩

-- What an error tells while `waiting` are under evaluation. With none of them it tells what
-- evaluation from scratch comes to.
def Stops {α : Type} (o : Model) (inputs : NodeId → Option Value) (waiting : List NodeId) (result : Reading α) :
    FormulaError → Prop
  | .suspended _ _ => False
  | .circularReference _ _ => (∀ n, result (o.scratch inputs n) = circle) ∨
      ∃ z ∈ waiting, o.cell? z ≠ none ∧ o.Hinges inputs result z
  | e => ∃ n, result (o.scratch inputs n) = .error e.kind

def Chain (o : Model) (inputs : NodeId → Option Value) : NodeId → List NodeId → Prop
  | _, [] => True
  | next, p :: rest => inputs p = none ∧ o.Hinges inputs (o.unfolded p) next ∧ o.Chain inputs p rest

theorem scratch_tagged (found : o.cell? id ≠ none) (failed : o.scratch inputs n id = .error e) : e.isTagged = true := by
  cases n with
  | zero =>
    cases failed
    rfl
  | succ n =>
    obtain ⟨c,there⟩ := Option.ne_none_iff_exists'.mp found
    simp only [scratch,derive,there] at failed
    split at failed
    · cases failed
    · cases result : o.resultOf (o.scratch inputs n) c.expr with
      | ok v => simp [result,Cell.conclude] at failed
      | error cause =>
        simp only [result,Cell.conclude,Except.error.injEq] at failed
        subst failed
        split
        · assumption
        · rfl

theorem Hinges.of {result : Reading α} (hinges : o.Hinges inputs result y)
    (further : o.Hinges inputs (fun cell => cell y) z) : o.Hinges inputs result z := by
  constructor
  · exact fun n none => hinges.pending n (further.pending n none)
  · intro n e tagged ends failed
    obtain ⟨k,there⟩ := further.fails n e tagged ends failed
    exact hinges.fails k e tagged ends there

theorem Stops.pass (found : o.cell? next ≠ none) (free : inputs next = none) (waiting : inputs p = none)
    (hinges : o.Hinges inputs (o.unfolded p) next) (stops : o.Stops inputs (p :: rest) (o.unfolded next) e) :
    o.Stops inputs rest (o.unfolded p) e := by
  rw [unfolded_cell found] at stops
  have step (n : Nat) := o.scratch_unknown free n
  have settle (n : Nat) (none : o.derive (o.scratch inputs n) next = circle) : o.scratch inputs n next = circle :=
    (o.scratch_succ inputs n next).eq_circle ((step n).trans none)
  cases e with
  | suspended address depth => exact stops
  | circularReference cell stack =>
    rcases stops with never | ⟨z,listed,cell,inner⟩
    · exact .inl fun n => hinges.pending n (settle n (never n))
    · have reads : o.Hinges inputs (fun cell => cell next) z := by
        constructor
        · exact fun n none => settle n (inner.pending n none)
        · intro n e tagged ends failed
          obtain ⟨k,there⟩ := inner.fails n e tagged ends failed
          exact ⟨k + 1,(step k).trans there⟩
      have outer := hinges.of reads
      rcases List.mem_cons.mp listed with rfl | listed
      · rw [unfolded_cell cell] at outer ⊢
        exact .inl (circle_of_self waiting outer)
      · exact .inr ⟨z,listed,cell,outer⟩
  | _ =>
    obtain ⟨n,failed⟩ := stops
    have there := (step n).trans failed
    exact hinges.fails (n + 1) _ (scratch_tagged found there) (by simp [circle,FormulaError.kind]) there

theorem Stops.root (free : inputs id = none) (stops : o.Stops inputs [] (o.unfolded id) e) :
    o.Stops inputs [] (fun cell => o.nodeValue cell id) e := by
  by_cases absent : o.cell? id = none
  · rwa [unfolded_range absent] at stops
  · obtain ⟨c,there⟩ := Option.ne_none_iff_exists'.mp absent
    rw [unfolded_cell absent] at stops
    simp only [nodeValue_cell there]
    have step (n : Nat) := o.scratch_unknown free n
    cases e with
    | suspended address depth => exact stops
    | circularReference cell stack =>
      rcases stops with never | ⟨z,listed,-⟩
      · exact .inl fun n => (o.scratch_succ inputs n id).eq_circle ((step n).trans (never n))
      · cases listed
    | _ =>
      obtain ⟨n,failed⟩ := stops
      exact ⟨n + 1,(step n).trans failed⟩

-- Induction on what waits.
theorem Chain.stops (chain : o.Chain inputs next waiting) (free : inputs next = none)
    (cells : ∀ p ∈ (next :: waiting).dropLast, o.cell? p ≠ none)
    (stops : o.Stops inputs waiting (o.unfolded next) e) :
    o.Stops inputs [] (fun cell => o.nodeValue cell ((next :: waiting).getLast (by simp))) e := by
  induction waiting generalizing next with
  | nil => exact stops.root free
  | cons p rest ih =>
    obtain ⟨waits,hinges,chain⟩ := chain
    have found : o.cell? next ≠ none := cells next (by simp)
    simp only [List.getLast_cons_cons]
    refine ih chain waits ?_ (stops.pass found free waits hinges)
    exact fun q listed => cells q (by simp [listed])

end Recalc.Model
