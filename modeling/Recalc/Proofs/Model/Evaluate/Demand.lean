import Recalc.Proofs.Model.Evaluate.Standstill

namespace Recalc.Model
open Relation
variable {o m m' : Model} {inputs values : NodeId → Option Value} {id next p y z : NodeId}

theorem visited_nodePlan (found : o.cell? id ≠ none) (cell : NodeId → Except FormulaError Value) :
    (o.nodePlan id).visited cell = [id] := by
  obtain ⟨c,there⟩ := Option.ne_none_iff_exists'.mp found
  simp only [nodePlan,cell?_eq_some.mp there,Plan.visited]
  cases cell id <;> rfl

def Reads (o : Model) (inputs : NodeId → Option Value) (y z : NodeId) : Prop :=
  inputs y = none ∧ ∃ n, z ∈ (o.formulaPlan y).visited (o.scratch inputs n)

def Reaches (o : Model) (inputs : NodeId → Option Value) (root z : NodeId) : Prop :=
  ∃ y, (∃ n, y ∈ (o.nodePlan root).visited (o.scratch inputs n)) ∧ ReflTransGen (o.Reads inputs) y z

theorem reaches_same (same : m'.outline = m.outline) (inputs : NodeId → Option Value) :
    m'.Reaches inputs = m.Reaches inputs := by
  have reads : m'.Reads inputs = m.Reads inputs := by
    funext y z
    simp only [Reads,scratch_same same,(plans_same same).2]
  funext root z
  simp only [Reaches,reads,scratch_same same,(plans_same same).1]

structure Within {α : Type} (R : NodeId → Prop) (m : Model) (ran : Except FormulaError α × Model) : Prop where
  settled : ∀ y v, ran.2.settled y = some v → m.settled y = some v ∨ R y
  named : ∀ address depth, ran.1 = .error (.suspended address depth) →
    ∃ y c, R y ∧ ran.2.cell? y = some c ∧ c.address = address

theorem Within.refl {R : NodeId → Prop} {r : Except FormulaError α} (plain : ∀ address depth, r ≠ .error (.suspended address depth)) :
    Within R m (r,m) := ⟨fun _ _ => .inl,fun address depth suspended => absurd suspended (plain address depth)⟩

section
variable {R : NodeId → Prop} {room : Nat} (closed : ∀ y z, R y → o.Reads inputs y z → R z)

theorem perform_within (cells : ∀ id m, m.outline = o.outline → o.Grounded inputs m.settled → R id →
      Within R m (Run.cell room id m)) (p : Plan α) (untagged : p.Untagged) (same : m.outline = o.outline)
    (grounded : o.Grounded inputs m.settled) (inside : ∀ n, ∀ z ∈ p.visited (o.scratch inputs n), R z) :
    Within R m (p.perform (Run.cell room) m) := by
  induction p generalizing m with
  | done r =>
    refine .refl ?_
    rintro address depth rfl
    cases untagged _ rfl
  | ask id next ih =>
    have here : R id := inside 0 id (by simp [Plan.visited])
    have within := cells id m same grounded here
    have follows := (tracks_cell room id).follows m same grounded
    have value := called room id m
    rw [Plan.perform_ask]
    generalize Run.cell room id m = ran at within follows value
    obtain ⟨r,m'⟩ := ran
    cases r with
    | error e =>
      refine ⟨within.settled,?_⟩
      rintro address depth ⟨⟩
      exact within.named address depth rfl
    | ok w =>
      obtain ⟨k,below⟩ := follows.grounded.scratch
      have found := (below id).ok (known_ok.mpr (called_ok value))
      have rest : Within R m' ((next w).perform (Run.cell room) m') := by
        refine ih w (untagged w) (follows.steady.outline.trans same) follows.grounded fun n z listed => ?_
        refine inside (max n k) z ?_
        rw [Plan.visited,(o.scratch_below inputs (Nat.le_max_right n k) id).ok found]
        exact List.mem_cons_of_mem _ ((next w).visited_below (o.scratch_below inputs (Nat.le_max_left n k)) listed)
      exact ⟨fun y v settled => (rest.settled y v settled).elim (within.settled y v) .inr,rest.named⟩

include closed in
theorem cell_within (room : Nat) (id : NodeId) (m : Model) (same : m.outline = o.outline) (grounded : o.Grounded inputs m.settled)
    (inside : R id) : Within R m (Run.cell room id m) := by
  induction room using Nat.strongRecOn generalizing id m with
  | ind room ih =>
    have formula {k : Nat} {c : Cell} {r : Except FormulaError Value} {ran m' : Model} {value : Option Value} (less : k < room)
        (found : m.cell? id = some c) (dirty : c.dirty = true)
        (runs : (m.formulaPlan id).perform (Run.cell k) (m.begin id) = (r,ran)) (ends : m.Ends ran m' id value) :
        (∀ y v, m'.settled y = some v → m.settled y = some v ∨ R y) ∧ Within R m (r,ran) := by
      have begun := begin_settled found dirty
      have free := grounded.free (settled_eq_none found (.inl dirty))
      have within : Within R (m.begin id) (r,ran) := by
        rw [(plans_same same).2] at runs
        rw [← runs]
        exact perform_within (ih k less) (o.formulaPlan id) (o.untagged_formulaPlan id) ((m.begin_outline id).trans same)
          (begun ▸ grounded) fun n z listed => closed id z inside ⟨free,n,listed⟩
      have settled (y : NodeId) (v : Value) (settled : ran.settled y = some v) : m.settled y = some v ∨ R y := by
        rw [← begun]
        exact within.settled y v settled
      refine ⟨fun y v after => ?_,settled,within.named⟩
      rw [ends.settled] at after
      split at after
      · rename_i here
        exact .inr (here ▸ inside)
      · exact settled y v after
    have calls := called room id m
    generalize Run.cell room id m = ran at calls
    cases calls with
    | absent => exact .refl (by simp)
    | busy => exact .refl (by simp)
    | stands => exact .refl (by simp)
    | full c found dirty =>
      refine ⟨fun _ _ => .inl,?_⟩
      rintro address depth ⟨⟩
      exact ⟨id,c,inside,found,rfl⟩
    | gives k c w ran m' found dirty runs ends => exact ⟨(formula (Nat.lt_succ_self k) found dirty runs ends).1,by simp⟩
    | fails k c e ran m' found dirty runs ends =>
      obtain ⟨settled,within⟩ := formula (Nat.lt_succ_self k) found dirty runs ends
      refine ⟨settled,fun address depth suspended => ?_⟩
      have passed : e = .suspended address depth := by
        cases tagged : e.isTagged <;> simp_all
      obtain ⟨y,d,listed,there,named⟩ := within.named address depth (by rw [passed])
      have steady := perform_steady k (m.formulaPlan id) (m.begin id)
      rw [runs] at steady
      have same : m'.outline = ran.outline := by
        rw [ends.steady.outline,steady.outline,begin_outline]
      obtain ⟨d',here,alike⟩ := cell_same same there
      have address : d'.address = d.address := by simpa [Cell.outline] using congrArg Cell.address alike
      exact ⟨y,d',listed,here,address.trans named⟩

end

-- What is known before every pass of an evaluation of `root`: nothing was settled but what it
-- reaches, and what waits does so for a reason.
structure Underway (o : Model) (inputs : NodeId → Option Value) (R : NodeId → Prop) (start : Model) (root next : NodeId)
    (waiting : List NodeId) (m : Model) : Prop where
  settled : ∀ y v, m.settled y = some v → start.settled y = some v ∨ R y
  inside : ∀ p ∈ next :: waiting, ∀ n, ∀ z ∈ (o.nodePlan p).visited (o.scratch inputs n), R z
  held : o.Held m.settled next waiting
  last : (next :: waiting).getLast (by simp) = root

-- An evaluation is at rest when all that it can settle is settled: the rest comes to nothing.
structure Rests (o : Model) (R : NodeId → Prop) (start : Model) (root : NodeId) (ran : Except FormulaError Value × Model) :
    Prop where
  settled : ∀ y v, ran.2.settled y = some v → start.settled y = some v ∨ R y
  halts : ∀ e, ran.1 = .error e → o.Halts ran.2.settled (fun _ => False) (o.nodePlan root)

section
variable {R : NodeId → Prop} {start : Model} {root : NodeId} {waiting : List NodeId}
  (closed : ∀ y z, R y → o.Reads inputs y z → R z)

include closed in
theorem Round.within (round : o.Round inputs m next waiting ran)
    (inside : ∀ n, ∀ z ∈ (o.nodePlan next).visited (o.scratch inputs n), R z) : Within R m ran := by
  have same := round.waits.outline
  rw [← round.runs,performs_node (keeps_cell o m.room) next m same]
  exact perform_within (cell_within closed m.room) (o.nodePlan next) (o.untagged_nodePlan next) same round.waits.grounded inside

theorem Round.unsettled (round : o.Round inputs m next waiting ran) (listed : p ∈ waiting) : ran.2.settled p = none := by
  rcases round.waits.marked_after round.pass listed with absent | ⟨dirty,-⟩
  · simp [settled,absent]
  · cases found : ran.2.cell? p with
    | none => simp [settled,found]
    | some c => exact settled_eq_none found (.inl (by simpa [isDirty_cell?,found] using dirty))

theorem Round.still (round : o.Round inputs m next waiting (.error e,m')) : m'.settled next = none := by
  have kept := round.pass.kept e rfl
  rcases round.pass.stale e rfl with absent | dirty
  · simp [settled,kept,absent]
  · cases found : m.cell? next with
    | none => simp [settled,kept,found]
    | some c => exact settled_eq_none (kept.trans found) (.inl (by simpa [isDirty_cell?,found] using dirty))

theorem Round.held (round : o.Round inputs m next waiting ran) (held : o.Held m.settled p rest)
    (still : ∀ q ∈ p :: rest, ran.2.settled q = none) : o.Held ran.2.settled p rest :=
  held.kept (fun _ _ found => round.pass.follows.steady.settled found) round.waits.grounded round.pass.follows.grounded still

theorem Round.exit (round : o.Round inputs m next waiting (.error e,m')) (exit : m'.Exit e g) : o.cell? g ≠ none ∧
    (g ∈ waiting ∨ ∃ c address depth, e = .suspended address depth ∧ m'.cell? g = some c ∧ c.address = address) := by
  have steady := round.pass.follows.steady
  have cell {c : Cell} (found : m'.cell? g = some c) : o.cell? g ≠ none := by
    simp [← cell?_none_same (steady.outline.trans round.waits.outline),found]
  rcases exit with evaluating | ⟨c,address,depth,suspended,found,named⟩
  · have listed := round.waits.marks g (steady.isEvaluating.symm.trans evaluating)
    cases found : m'.cell? g with
    | none => simp [isEvaluating,found] at evaluating
    | some c => exact ⟨cell found,.inl listed⟩
  · exact ⟨cell found,.inr ⟨c,address,depth,suspended,found,named⟩⟩

include closed in
theorem Underway.settles (underway : o.Underway inputs R start root next waiting m) (round : o.Round inputs m next waiting ran) :
    ∀ y v, ran.2.settled y = some v → start.settled y = some v ∨ R y := by
  intro y v after
  have within := round.within closed (underway.inside next (by simp))
  exact (within.settled y v after).elim (underway.settled y v) .inr

include closed in
theorem Underway.push (underway : o.Underway inputs R start root next waiting m) (distinct : o.Distinct)
    (round : o.Round inputs m next waiting (.error (.suspended address depth),m')) (resolved : m'.resolve address = .ok y) :
    o.Underway inputs R start root y (next :: waiting) (m'.setEvaluating next true) := by
  have same := round.pass.follows.steady.outline.trans round.waits.outline
  have named {c : Cell} {g : NodeId} (found : m'.cell? g = some c) (named : c.address = address) : g = y := by
    have there := (distinct_same same distinct).resolve found
    rw [named,resolved] at there
    exact (Except.ok.inj there).symm
  have stale : m'.cell? next = none ∨ m'.isDirty next = true := by
    rw [isDirty_cell?,round.pass.kept _ rfl,← isDirty_cell?]
    exact round.pass.stale _ rfl
  have settled := settled_setEvaluating stale true
  refine ⟨?_,fun p listed n z asked => ?_,?_,by simpa using underway.last⟩
  · rw [settled]
    exact underway.settles closed round
  · rcases List.mem_cons.mp listed with rfl | listed
    · obtain ⟨g,c,inside,found,alike⟩ := (round.within closed (underway.inside next (by simp))).named address depth rfl
      have here := named found alike
      subst here
      have cell : o.cell? g ≠ none := by simp [← cell?_none_same same,found]
      rw [visited_nodePlan cell] at asked
      exact List.mem_singleton.mp asked ▸ inside
    · exact underway.inside p listed n z asked
  · rw [settled]
    refine ⟨round.halts.mono fun g exit => ?_,round.held underway.held fun q listed => ?_⟩
    · obtain ⟨cell,listed | ⟨c,_,_,⟨⟩,found,alike⟩⟩ := round.exit exit
      · exact ⟨cell,.inr listed⟩
      · exact ⟨cell,.inl (named found alike)⟩
    · exact (List.mem_cons.mp listed).elim (fun here => here ▸ round.still) round.unsettled

include closed in
theorem Underway.pop (underway : o.Underway inputs R start root next (p :: waiting) m)
    (round : o.Round inputs m next (p :: waiting) (.ok v,m')) :
    o.Underway inputs R start root p waiting (m'.setEvaluating p false) := by
  have settled := settled_setEvaluating (round.waits.stale_after round.pass List.mem_cons_self) false
  refine ⟨?_,fun q listed => underway.inside q (by simp_all),?_,by simpa using underway.last⟩
  · rw [settled]
    exact underway.settles closed round
  · rw [settled]
    exact round.held underway.held.2 fun q listed => round.unsettled listed

include closed in
theorem Underway.fail {waiting : List (NodeId × Nat)} (underway : o.Underway inputs R start root next (waiting.map Prod.fst) m)
    (round : o.Round inputs m next (waiting.map Prod.fst) (.error e,m')) (ends : ∀ address depth, e ≠ .suspended address depth) :
    o.Rests R start root (.error e,m'.abandon waiting) := by
  obtain ⟨-,settled,-,-⟩ := abandon_spec waiting m' fun p listed => round.waits.stale_after round.pass listed
  refine ⟨?_,?_⟩
  · rw [settled]
    exact underway.settles closed round
  · rintro _ ⟨⟩
    rw [settled]
    have unknown (q : NodeId) (listed : q ∈ next :: waiting.map Prod.fst) : m'.settled q = none :=
      (List.mem_cons.mp listed).elim (fun here => here ▸ round.still) round.unsettled
    have halts : o.Halts m'.settled (fun g => o.cell? g ≠ none ∧ g ∈ waiting.map Prod.fst) (o.nodePlan next) := by
      refine round.halts.mono fun g exit => ?_
      obtain ⟨cell,listed | ⟨c,address,depth,suspended,-⟩⟩ := round.exit exit
      · exact ⟨cell,listed⟩
      · exact absurd suspended (ends address depth)
    have rests := (round.held underway.held unknown).halts halts unknown round.waits.cells round.waits.apart
    rwa [underway.last] at rests

include closed in
theorem resume_rests (distinct : o.Distinct) (deep : 1 ≤ o.limits.depth) {waiting : List (NodeId × Nat)}
    (waits : o.Waits inputs m next (waiting.map Prod.fst)) (enough : m.passes waiting < steps)
    (underway : o.Underway inputs R start root next (waiting.map Prod.fst) m) :
    o.Rests R start root (resume steps next depth waiting m) := by
  refine resume_rounds (P := o.Underway inputs R start root) ?_ ?_ ?_ ?_ ?_ distinct deep waits enough underway
  · intro m next waiting depth underway
    exact ⟨underway.settled,underway.inside,underway.held,underway.last⟩
  · intro m next waiting m' address depth y round pushed resolved underway
    exact underway.push closed distinct round resolved
  · intro m next p waiting m' v round underway
    exact underway.pop closed round
  · intro m next m' v round underway
    exact ⟨fun y w after => underway.settles closed round y w after,by simp⟩
  · intro m next waiting m' e round ends underway
    exact underway.fail closed round ends

end

-- What is reached is settled or comes to nothing, by induction on the way to it.
theorem Shut.reached {cells : NodeId → Prop} (shut : o.Shut values (fun _ => False) cells) (grounded : o.Grounded inputs values)
    (waits : ∀ g, (o.nodePlan root).awaits values = some g → cells g) (reaches : o.Reaches inputs root z)
    (value : o.scratch inputs n z = .ok v) : values z = some v := by
  have further {p : Plan Value} (waits : ∀ g, p.awaits values = some g → cells g) {k : Nat} {y : NodeId}
      (listed : y ∈ p.visited (o.scratch inputs k)) : values y ≠ none ∨ cells y :=
    (p.visited_awaits (grounded.agree k) (fun g waited => shut.no_value grounded k (waits g waited)) listed).imp_right (waits y)
  obtain ⟨y,⟨k,first⟩,path⟩ := reaches
  have every : values z ≠ none ∨ cells z := by
    clear value
    induction path with
    | refl => exact further waits first
    | tail _ step ih =>
      obtain ⟨free,k,listed⟩ := step
      rcases ih with settled | inside
      · obtain ⟨u,found⟩ := Option.ne_none_iff_exists'.mp settled
        obtain ⟨c,w,-,result,-⟩ := derive_ok (grounded.derive free found)
        exact further (fun g waited => by simp [Plan.awaits_of_run _ result] at waited) listed
      · exact further (fun g waited => ((shut.blocked _ inside).waits g waited).resolve_right not_false) listed
  rcases every with settled | inside
  · obtain ⟨w,found⟩ := Option.ne_none_iff_exists'.mp settled
    rw [found,grounded.agree n z w v found value]
  · exact absurd value (shut.no_value grounded n inside v)

section
variable (distinct : o.Distinct) (deep : 1 ≤ o.limits.depth) (same : m.outline = o.outline)
  (grounded : o.Grounded inputs m.settled) (idle : m.Idle) (resolved : m.resolve address = .ok id)
include distinct deep same grounded idle resolved

theorem rests_evaluate : o.Rests (o.Reaches inputs id) m id (m.evaluate address) := by
  simp only [evaluate,resolved]
  refine resume_rests (fun y z reached reads => ?_) distinct deep (waits_start same grounded idle id) m.passes_start
    ⟨fun _ _ => .inl,?_,trivial,rfl⟩
  · obtain ⟨x,first,path⟩ := reached
    exact ⟨x,first,path.tail reads⟩
  · intro p listed n z asked
    cases List.mem_singleton.mp listed
    exact ⟨z,⟨n,asked⟩,.refl⟩

theorem evaluate_settles : (m.evaluate address).2.settled y = some v ↔
    m.settled y = some v ∨ o.Reaches inputs id y ∧ ∃ n, o.scratch inputs n y = .ok v := by
  have evaluates := evaluate_evaluates distinct deep same grounded idle resolved
  have rests := rests_evaluate distinct deep same grounded idle resolved
  have steady := evaluates.drift.steady idle evaluates.idle
  generalize m.evaluate address = ran at evaluates rests steady ⊢
  obtain ⟨r,m'⟩ := ran
  constructor
  · intro settled
    refine (rests.settled y v settled).imp_right fun reached => ⟨reached,?_⟩
    obtain ⟨n,below⟩ := evaluates.grounded.scratch
    exact ⟨n,(below y).ok (known_ok.mpr settled)⟩
  · rintro (before | ⟨reached,n,value⟩)
    · exact steady.settled before
    · cases r with
      | error e =>
        obtain ⟨cells,shut,blocked⟩ := rests.halts e rfl
        exact shut.reached evaluates.grounded (fun g waited => (blocked.waits g waited).resolve_right not_false) reached value
      | ok w =>
        have decided : (o.nodePlan id).awaits m'.settled = none := by
          refine Plan.awaits_of_run (a := w) _ ?_
          rw [run_nodePlan]
          exact evaluates.value w rfl
        exact (shut_nothing o _ _).reached evaluates.grounded (fun g waited => by simp [decided] at waited) reached value

end

end Recalc.Model
