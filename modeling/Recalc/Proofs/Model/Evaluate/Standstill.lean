import Recalc.Proofs.Model.Evaluate.Calls
import Recalc.Proofs.Model.Evaluate.Evaluation

namespace Recalc.Model
variable {o m m' : Model} {inputs values values' : NodeId → Option Value} {id next p f : NodeId}

def Exit (m : Model) (e : FormulaError) (id : NodeId) : Prop :=
  m.isEvaluating id = true ∨ ∃ c address depth, e = .suspended address depth ∧ m.cell? id = some c ∧ c.address = address

-- Cells that come to nothing: each fails, or waits for another of them or for an exit.
structure Shut (o : Model) (values : NodeId → Option Value) (exits cells : NodeId → Prop) : Prop where
  unknown : ∀ f, cells f → values f = none
  blocked : ∀ f, cells f → (o.formulaPlan f).Blocked values fun g => cells g ∨ exits g

def Halts (o : Model) (values : NodeId → Option Value) (exits : NodeId → Prop) (p : Plan α) : Prop :=
  ∃ cells, o.Shut values exits cells ∧ p.Blocked values fun g => cells g ∨ exits g

theorem shut_nothing (o : Model) (values : NodeId → Option Value) (exits : NodeId → Prop) :
    o.Shut values exits fun _ => False := ⟨fun _ no => no.elim,fun _ no => no.elim⟩

theorem Shut.mono {exits exits' cells : NodeId → Prop} (shut : o.Shut values exits cells)
    (more : ∀ g, exits g → exits' g) : o.Shut values exits' cells :=
  ⟨shut.unknown,fun f listed => (shut.blocked f listed).mono fun g => Or.imp_right (more g)⟩

theorem Halts.mono {exits exits' : NodeId → Prop} {p : Plan α} (halts : o.Halts values exits p)
    (more : ∀ g, exits g → exits' g) : o.Halts values exits' p := by
  obtain ⟨cells,shut,blocked⟩ := halts
  exact ⟨cells,shut.mono more,blocked.mono fun g => Or.imp_right (more g)⟩

theorem Shut.insert {exits cells : NodeId → Prop} (shut : o.Shut values (fun g => g = id ∨ exits g) cells)
    (unknown : values id = none) (blocked : (o.formulaPlan id).Blocked values fun g => cells g ∨ g = id ∨ exits g) :
    o.Shut values exits fun g => g = id ∨ cells g := by
  have moved (g : NodeId) (waited : cells g ∨ g = id ∨ exits g) : (g = id ∨ cells g) ∨ exits g := by
    rcases waited with listed | here | exit
    · exact .inl (.inr listed)
    · exact .inl (.inl here)
    · exact .inr exit
  constructor
  · rintro f (rfl | listed)
    · exact unknown
    · exact shut.unknown f listed
  · rintro f (rfl | listed)
    · exact blocked.mono moved
    · exact (shut.blocked f listed).mono moved

theorem perform_halts {room : Nat} (cells : ∀ id m e m', m.outline = o.outline → Run.cell room id m = (.error e,m') →
      ∃ cells, o.Shut m'.settled (m'.Exit e) cells ∧ (cells id ∨ m'.Exit e id))
    (p : Plan α) (same : m.outline = o.outline) (ran : p.perform (Run.cell room) m = (.error e,m')) :
    o.Halts m'.settled (m'.Exit e) p := by
  induction p generalizing m with
  | done r =>
    cases ran
    exact ⟨_,shut_nothing _ _ _,Plan.blocked_error _ _ e⟩
  | ask id next ih =>
    rw [Plan.perform_ask] at ran
    have calls := called room id m
    have stopped := cells id m
    have steady := steady_cell room id m
    generalize Run.cell room id m = first at ran calls stopped steady
    obtain ⟨r,mid⟩ := first
    cases r with
    | error cause =>
      cases ran
      obtain ⟨listed,shut,here⟩ := stopped _ _ same rfl
      refine ⟨listed,shut,fun g waits => ?_,fun decided => ?_⟩
      · rw [Plan.awaits,called_error calls] at waits
        exact Option.some.inj waits ▸ here
      · rw [Plan.awaits,called_error calls] at decided
        cases decided
    | ok v =>
      have after := perform_steady room (next v) mid
      have ran : (next v).perform (Run.cell room) mid = (.error e,m') := ran
      rw [ran] at after
      have known := after.settled (called_ok calls)
      obtain ⟨listed,shut,blocked⟩ := ih v (steady.outline.trans same) ran
      exact ⟨listed,shut,blocked.asked known⟩

theorem formula_halts {room : Nat} {c : Cell} {ran : Model} (cells : ∀ id m e m', m.outline = o.outline →
      Run.cell room id m = (.error e,m') → ∃ cells, o.Shut m'.settled (m'.Exit e) cells ∧ (cells id ∨ m'.Exit e id))
    (same : m.outline = o.outline) (found : m.cell? id = some c)
    (runs : (m.formulaPlan id).perform (Run.cell room) (m.begin id) = (.error e,ran)) (ends : m.Ends ran m' id none) :
    o.Halts m'.settled (fun g => g = id ∨
      m'.Exit (if e.isTagged then e else .evaluation (ran.addressOf id) ran.callStackText e) g) (o.formulaPlan id) := by
  have steady : (m.begin id).Steady ran := by
    have steady := perform_steady room (m.formulaPlan id) (m.begin id)
    rwa [runs] at steady
  rw [(plans_same same).2] at runs
  have halts := perform_halts cells (o.formulaPlan id) ((m.begin_outline id).trans same) runs
  have running : ran.settled id = none := settled_eq_none (ran_cell? found steady) (.inr rfl)
  have settled : m'.settled = ran.settled := by
    funext y
    rw [ends.settled]
    split
    · rename_i here
      rw [here,running]
    · rfl
  rw [settled]
  refine halts.mono fun g exit => ?_
  by_cases here : g = id
  · exact .inl here
  · refine .inr ?_
    unfold Exit Model.isEvaluating at exit ⊢
    rw [ends.others g here]
    refine exit.imp_right ?_
    rintro ⟨d,address,depth,rfl,open_,named⟩
    exact ⟨d,address,depth,by simp [FormulaError.isTagged],open_,named⟩

-- By induction on the room, which is less for the cells that a formula reads.
theorem cell_halts (room : Nat) (id : NodeId) (m : Model) (e : FormulaError) (m' : Model) (same : m.outline = o.outline)
    (ran : Run.cell room id m = (.error e,m')) : ∃ cells, o.Shut m'.settled (m'.Exit e) cells ∧ (cells id ∨ m'.Exit e id) := by
  induction room using Nat.strongRecOn generalizing id m e m' with
  | ind room ih =>
    have calls := called room id m
    rw [ran] at calls
    have unknown := called_error calls
    cases calls with
    | absent _ missing =>
      refine ⟨_,(shut_nothing o _ _).insert unknown ?_,.inl (.inl rfl)⟩
      rw [← (plans_same same).2,formulaPlan,missing]
      exact Plan.blocked_error _ _ _
    | busy _ c found evaluating => exact ⟨_,shut_nothing _ _ _,.inr (.inl (by simp [isEvaluating,found,evaluating]))⟩
    | full c found dirty => exact ⟨_,shut_nothing _ _ _,.inr (.inr ⟨c,_,_,rfl,found,rfl⟩)⟩
    | fails room c cause ran' _ found dirty runs ends =>
      obtain ⟨cells,shut,blocked⟩ := formula_halts (ih room (Nat.lt_succ_self room)) same found runs ends
      exact ⟨_,shut.insert unknown blocked,.inl (.inl rfl)⟩

theorem Round.halts {waiting : List NodeId} (round : o.Round inputs m next waiting (.error e,m')) :
    o.Halts m'.settled (m'.Exit e) (o.nodePlan next) := by
  have runs := round.runs
  rw [performs_node (keeps_cell o m.room) next m round.waits.outline] at runs
  exact perform_halts (cell_halts m.room) (o.nodePlan next) round.waits.outline runs

-- Cells that come to nothing keep doing so while the exits have no value: a value would be
-- derived from values of lower rank.
theorem Shut.unsettled {exits cells : NodeId → Prop} (shut : o.Shut values exits cells)
    (more : ∀ id v, values id = some v → values' id = some v) (grounded : o.Grounded inputs values')
    (free : ∀ f, cells f → inputs f = none) (still : ∀ g, exits g → values' g = none) (listed : cells f) : values' f = none := by
  obtain ⟨rank,bound,-,derived⟩ := grounded.derived
  induction level : rank f using Nat.strongRecOn generalizing f with
  | ind n ih =>
    cases found : values' f with
    | none => rfl
    | some v =>
      obtain ⟨c,w,-,result,-⟩ := derive_ok (derived f v (free f listed) found)
      refine absurd result ((shut.blocked f listed).no_value ?_ ?_ w)
      · intro y u u' read lowered
        rw [known_ok,lower] at lowered
        split at lowered
        · rw [more y u read] at lowered
          exact Option.some.inj lowered
        · cases lowered
      · intro g waited _ u lowered
        rw [known_ok,lower] at lowered
        split at lowered
        · rename_i less
          rcases waited with inner | exit
          · simp [ih (rank g) (level ▸ less) inner rfl] at lowered
          · simp [still g exit] at lowered
        · cases lowered

theorem Halts.kept {exits : NodeId → Prop} {p : Plan α} (halts : o.Halts values exits p)
    (more : ∀ id v, values id = some v → values' id = some v) (before : o.Grounded inputs values)
    (grounded : o.Grounded inputs values') (still : ∀ g, exits g → values' g = none) : o.Halts values' exits p := by
  obtain ⟨cells,shut,blocked⟩ := halts
  have unsettled (f : NodeId) (listed : cells f) : values' f = none :=
    shut.unsettled more grounded (fun f listed => before.free (shut.unknown f listed)) still listed
  have none (g : NodeId) (waited : cells g ∨ exits g) : values' g = none := waited.elim (unsettled g) (still g)
  exact ⟨cells,⟨unsettled,fun f listed => (shut.blocked f listed).kept more none⟩,blocked.kept more none⟩

def Held (o : Model) (values : NodeId → Option Value) : NodeId → List NodeId → Prop
  | _, [] => True
  | next, p :: rest => o.Halts values (fun g => o.cell? g ≠ none ∧ (g = next ∨ g ∈ rest)) (o.nodePlan p) ∧ o.Held values p rest

theorem Held.kept {waiting : List NodeId} (held : o.Held values next waiting)
    (more : ∀ id v, values id = some v → values' id = some v) (before : o.Grounded inputs values)
    (grounded : o.Grounded inputs values') (still : ∀ p ∈ next :: waiting, values' p = none) : o.Held values' next waiting := by
  induction waiting generalizing next with
  | nil => trivial
  | cons p rest ih =>
    refine ⟨held.1.kept more before grounded ?_,ih held.2 fun q listed => still q (by simp [listed])⟩
    rintro g ⟨-,here | listed⟩
    · exact still g (by simp [here])
    · exact still g (by simp [listed])

theorem Shut.union {exits exits' exits'' cells cells' : NodeId → Prop} (one : o.Shut values exits cells)
    (two : o.Shut values exits' cells') (first : ∀ g, exits g → cells' g ∨ exits'' g)
    (second : ∀ g, exits' g → cells g ∨ exits'' g) : o.Shut values exits'' fun g => cells g ∨ cells' g := by
  have left (g : NodeId) (waited : cells g ∨ exits g) : (cells g ∨ cells' g) ∨ exits'' g := by
    rcases waited with listed | exit
    · exact .inl (.inl listed)
    · exact (first g exit).imp_left .inr
  have right (g : NodeId) (waited : cells' g ∨ exits' g) : (cells g ∨ cells' g) ∨ exits'' g := by
    rcases waited with listed | exit
    · exact .inl (.inr listed)
    · exact (second g exit).imp_left .inl
  constructor
  · rintro f (listed | listed)
    · exact one.unknown f listed
    · exact two.unknown f listed
  · rintro f (listed | listed)
    · exact (one.blocked f listed).mono left
    · exact (two.blocked f listed).mono right

theorem awaits_nodePlan (found : o.cell? id ≠ none) (unknown : values id = none) : (o.nodePlan id).awaits values = some id := by
  obtain ⟨c,there⟩ := Option.ne_none_iff_exists'.mp found
  simp [nodePlan,cell?_eq_some.mp there,Plan.awaits,unknown]

-- Induction on what waits: in the end no exit is left.
theorem Held.halts {waiting : List NodeId} (held : o.Held values next waiting)
    (halts : o.Halts values (fun g => o.cell? g ≠ none ∧ g ∈ waiting) (o.nodePlan next))
    (unknown : ∀ p ∈ next :: waiting, values p = none) (cells : ∀ p ∈ (next :: waiting).dropLast, o.cell? p ≠ none)
    (apart : (next :: waiting).Nodup) :
    o.Halts values (fun _ => False) (o.nodePlan ((next :: waiting).getLast (by simp))) := by
  induction waiting generalizing next with
  | nil => exact halts.mono fun g exit => by simp at exit
  | cons p rest ih =>
    obtain ⟨inner,shut,blocked⟩ := halts
    obtain ⟨⟨outer,shut',blocked'⟩,held⟩ := held
    obtain ⟨other,apart⟩ := List.nodup_cons.mp apart
    have here : inner next := by
      refine (blocked.waits next (awaits_nodePlan (cells next (by simp)) (unknown next (by simp)))).resolve_right ?_
      exact fun exit => other exit.2
    have there (found : o.cell? p ≠ none) : outer p := by
      refine (blocked'.waits p (awaits_nodePlan found (unknown p (by simp)))).resolve_right ?_
      rintro ⟨-,rfl | listed⟩
      · exact other (by simp)
      · exact (List.nodup_cons.mp apart).1 listed
    simp only [List.getLast_cons_cons]
    refine ih held ⟨fun g => inner g ∨ outer g,?_,?_⟩ (fun q listed => unknown q (by simp [listed]))
      (fun q listed => cells q (by simp [listed])) apart
    · refine shut.union shut' (fun g exit => ?_) fun g exit => ?_
      · rcases List.mem_cons.mp exit.2 with rfl | listed
        · exact .inl (there exit.1)
        · exact .inr ⟨exit.1,listed⟩
      · rcases exit with ⟨found,rfl | listed⟩
        · exact .inl here
        · exact .inr ⟨found,listed⟩
    · refine blocked'.mono fun g waited => ?_
      rcases waited with listed | ⟨found,rfl | listed⟩
      · exact .inl (.inr listed)
      · exact .inl (.inl here)
      · exact .inr ⟨found,listed⟩

theorem Grounded.agree (grounded : o.Grounded inputs values) (n : Nat) : Plan.Agree values (o.scratch inputs n) := by
  obtain ⟨k,below⟩ := grounded.scratch
  intro id v w read found
  have one := (below.trans (o.scratch_below inputs (Nat.le_max_right n k)) id).ok (known_ok.mpr read)
  have two := (o.scratch_below inputs (Nat.le_max_left n k) id).ok found
  exact Except.ok.inj (one.symm.trans two)

theorem Shut.no_value {cells : NodeId → Prop} (shut : o.Shut values (fun _ => False) cells) (grounded : o.Grounded inputs values)
    (n : Nat) (listed : cells f) (v : Value) : o.scratch inputs n f ≠ .ok v := by
  induction n generalizing f v with
  | zero => simp [scratch,circle]
  | succ n ih =>
    intro found
    rw [scratch_unknown o (grounded.free (shut.unknown f listed))] at found
    obtain ⟨c,w,-,result,-⟩ := derive_ok found
    exact (shut.blocked f listed).no_value (grounded.agree n) (fun g waited _ => ih (waited.resolve_right not_false)) w result

end Recalc.Model
