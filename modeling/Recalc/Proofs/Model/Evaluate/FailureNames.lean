import Recalc.Proofs.Build.Coverage
import Recalc.Proofs.Model.Evaluate.Aftermath
import Recalc.Proofs.Model.Evaluate.Demand

namespace Recalc
open Relation

-- The plan comes to the error by itself: every cell that it asks for before has a value, and then an address
-- names nothing, or what it names is no cell.
inductive Plan.Raises {α : Type} (m : Model) (values : NodeId → Option Value) (e : FormulaError) : Plan α → Prop where
  | named : Raises m values e (.done (.error e))
  | valueless {id : NodeId} {next : Value → Plan α} (unread : values id = none) (absent : m.cell? id = none)
      (unknown : e = .unknownCell (m.addressOf id)) : Raises m values e (.ask id next)
  | after {id : NodeId} {v : Value} {next : Value → Plan α} (read : values id = some v) (raises : Raises m values e (next v)) :
      Raises m values e (.ask id next)

namespace Plan
variable {α : Type} {m : Model} {values : NodeId → Option Value} {c : NodeId → Except FormulaError Value} {p : Plan α}

theorem Raises.untagged (raises : p.Raises m values e) (untagged : p.Untagged) : e.isTagged = false := by
  induction raises with
  | named => exact untagged e rfl
  | valueless _ _ unknown => exact unknown ▸ rfl
  | after _ _ ih => exact ih (untagged _)

theorem Raises.awaits (raises : p.Raises m values e) (waits : p.awaits values = some g) : m.cell? g = none := by
  induction raises with
  | named => cases waits
  | valueless unread absent _ =>
    simp only [Plan.awaits,unread] at waits
    cases waits
    exact absent
  | after read _ ih =>
    simp only [Plan.awaits,read] at waits
    exact ih waits

theorem run_raises (agree : ∀ y v, values y = some v → c y = circle ∨ c y = .ok v)
    (absent : ∀ y, m.cell? y = none → c y = circle ∨ c y = .error (.unknownCell (m.addressOf y)))
    (stuck : ∀ g, p.awaits values = some g → ∀ v, c g ≠ .ok v) (failed : p.run c = .error e)
    (ends : (.error e : Except FormulaError α) ≠ circle) :
    p.Raises m values e ∨ ∃ g, p.awaits values = some g ∧ m.cell? g ≠ none ∧ c g = .error e := by
  induction p with
  | done r =>
    cases failed
    exact .inl .named
  | ask id next ih =>
    rw [run] at failed
    cases read : values id with
    | none =>
      have waits : (ask id next).awaits values = some id := by simp [Plan.awaits,read]
      cases answer : c id with
      | ok v => exact absurd answer (stuck id waits v)
      | error cause =>
        rw [answer] at failed
        cases failed
        cases found : m.cell? id with
        | some d => exact .inr ⟨id,waits,by simp [found],answer⟩
        | none =>
          rcases absent id found with never | unknown
          · rw [answer] at never
            cases never
            exact absurd rfl ends
          · rw [answer] at unknown
            cases unknown
            exact .inl (.valueless read found rfl)
    | some v =>
      have rest : (ask id next).awaits values = (next v).awaits values := by simp [Plan.awaits,read]
      rcases agree id v read with never | answer
      · rw [never] at failed
        cases failed
        exact absurd rfl ends
      · rw [answer] at failed
        rw [rest] at stuck ⊢
        exact (ih v stuck failed).imp_left (.after read)

end Plan

namespace Model
variable {o m : Model} {inputs values : NodeId → Option Value} {f g id : NodeId}

-- The formula of `f` goes no further than `g`, which has no value.
def Awaits (m : Model) (values : NodeId → Option Value) (f g : NodeId) : Prop := (m.formulaPlan f).awaits values = some g

theorem scratch_absent (absent : o.cell? id = none) (free : inputs id = none) (n : Nat) :
    o.scratch inputs n id = circle ∨ o.scratch inputs n id = .error (.unknownCell (o.addressOf id)) := by
  cases n with
  | zero => exact .inl rfl
  | succ n =>
    right
    rw [scratch_unknown o free]
    simp [derive,absent]

theorem Grounded.agrees (grounded : o.Grounded inputs values) (n : Nat) (known : values y = some v) :
    o.scratch inputs n y = circle ∨ o.scratch inputs n y = .ok v := by
  cases found : o.scratch inputs n y with
  | ok w => exact .inr (by rw [grounded.agree n y v w known found])
  | error e =>
    left
    obtain ⟨k,below⟩ := grounded.scratch
    have value := (below y).ok (known_ok.mpr known)
    rcases Nat.le_total n k with deep | deep
    · rcases o.scratch_below inputs deep y with never | same
      · rw [← found,never]
      · rw [value,found] at same
        cases same
    · have same := (o.scratch_below inputs deep y).ok value
      rw [found] at same
      cases same

-- Among cells that come to nothing: what one of them fails with was raised by the last that it waits for, and
-- is told with the name of that one, by induction on the depth.
theorem Shut.raises {cells : NodeId → Prop} (shut : o.Shut values (fun _ => False) cells) (grounded : o.Grounded inputs values)
    (free : ∀ y, o.cell? y = none → inputs y = none) (listed : cells f) (found : o.cell? f ≠ none)
    (failed : o.scratch inputs n f = .error e) (ends : (.error e : Except FormulaError Value) ≠ circle) :
    ∃ g d source, ReflTransGen (o.Awaits values) f g ∧ o.cell? g = some d ∧ (o.formulaPlan g).Raises o values source ∧
      source.isTagged = false ∧ e = .evaluation d.address "" source := by
  induction n generalizing f e with
  | zero =>
    cases failed
    exact absurd rfl ends
  | succ n ih =>
    obtain ⟨c,there⟩ := Option.ne_none_iff_exists'.mp found
    rw [scratch_unknown o (grounded.free (shut.unknown f listed)),derive_plan there] at failed
    cases outcome : (o.formulaPlan f).run (o.scratch inputs n) with
    | ok v => simp [outcome,Cell.conclude] at failed
    | error cause =>
      rw [outcome] at failed
      have waits (g : NodeId) (waits : (o.formulaPlan f).awaits values = some g) : cells g :=
        ((shut.blocked f listed).waits g waits).resolve_right not_false
      have open_ : (.error cause : Except FormulaError Value) ≠ circle := by
        rintro ⟨⟩
        rw [Cell.conclude_tagged c rfl] at failed
        cases failed
        exact ends rfl
      rcases (o.formulaPlan f).run_raises (fun y v => grounded.agrees n)
        (fun y absent => scratch_absent absent (free y absent) n)
        (fun g waited => shut.no_value grounded n (waits g waited)) outcome open_ with raises | ⟨g,waited,cell,answer⟩
      · have plain := raises.untagged (o.untagged_formulaPlan f)
        refine ⟨f,c,cause,.refl,there,raises,plain,?_⟩
        simpa [Cell.conclude,plain] using failed.symm
      · obtain ⟨h,d,source,path,last,raises,plain,rfl⟩ := ih (waits g waited) cell answer open_
        rw [Cell.conclude_tagged c rfl] at failed
        cases failed
        exact ⟨h,d,source,.head waited path,last,raises,plain,rfl⟩

def Endless (m : Model) (values : NodeId → Option Value) (f : NodeId) : Prop :=
  ∃ z, ReflTransGen (m.Awaits values) f z ∧ TransGen (m.Awaits values) z z

theorem awaits_unique : Relator.RightUnique (m.Awaits values) := fun _ _ _ one two => Option.some.inj (one.symm.trans two)

theorem Endless.next (endless : m.Endless values f) : ∃ g, m.Awaits values f g ∧ m.Endless values g := by
  obtain ⟨z,path,circle⟩ := endless
  rcases path.cases_head with rfl | ⟨g,waits,rest⟩
  · obtain ⟨g,waits,back⟩ := TransGen.head'_iff.mp circle
    exact ⟨g,waits,f,back,circle⟩
  · exact ⟨g,waits,z,rest,circle⟩

theorem Endless.along (endless : m.Endless values f) (path : ReflTransGen (m.Awaits values) f g) : m.Endless values g := by
  induction path with
  | refl => exact endless
  | tail _ waits ih =>
    obtain ⟨h,other,further⟩ := ih.next
    rwa [awaits_unique waits other]

theorem Endless.silent (endless : m.Endless values f) (raises : (m.formulaPlan f).Raises m values e) : False := by
  obtain ⟨g,waits,further⟩ := endless.next
  have absent := raises.awaits waits
  obtain ⟨h,waits,-⟩ := further.next
  simp [Awaits,formulaPlan,absent,Plan.awaits] at waits

theorem stuck_iff (found : m.cell? id = some c) :
    m.Stuck values id f ↔ values id = none ∧ ReflTransGen (m.Awaits values) id f := by
  have first (unknown : values id = none) : (m.nodePlan id).awaits values = some id :=
    awaits_nodePlan (by simp [found]) unknown
  constructor
  · intro stuck
    induction stuck with
    | first waits =>
      cases unknown : values id with
      | none =>
        rw [first unknown] at waits
        cases waits
        exact ⟨rfl,.refl⟩
      | some v => simp [nodePlan,cell?_eq_some.mp found,Plan.awaits,unknown] at waits
    | next _ waits ih => exact ⟨ih.1,ih.2.tail waits⟩
  · rintro ⟨unknown,path⟩
    induction path with
    | refl => exact .first (first unknown)
    | tail _ waits ih => exact .next ih waits

theorem evaluate_raises (formed : m.WellFormed) (idle : m.Idle) (resolved : m.resolve address = .ok id)
    (found : m.cell? id = some c) (failed : (m.evaluate address).1 = .error e) :
    let values := (m.evaluate address).2.settled
    values id = none ∧ ((∃ cell stack, e = .circularReference cell stack) ∨ ∃ cell stack source,
      e = .evaluation cell stack source ∧ source.isTagged = false ∧ ∃ f d, m.Stuck values id f ∧ m.cell? f = some d ∧
        d.address = cell ∧ (m.formulaPlan f).Raises m values source) := by
  intro values
  have evaluates := evaluate_evaluates formed.distinct formed.deep rfl (.self m m.settled) idle resolved
  have rests := rests_evaluate formed.distinct formed.deep rfl (.self m m.settled) idle resolved
  obtain ⟨cells,shut,blocked⟩ := rests.halts e failed
  have stops := evaluates.error e failed
  have cell := nodeValue_cell found
  have unknown : values id = none := by
    cases value : values id with
    | none => rfl
    | some v =>
      have decided : (m.nodePlan id).awaits values = none := by simp [nodePlan,cell?_eq_some.mp found,Plan.awaits,value]
      refine absurd ?_ (blocked.fails decided v)
      rw [run_nodePlan,cell]
      exact known_ok.mpr value
  refine ⟨unknown,?_⟩
  have listed : cells id := (blocked.waits id (awaits_nodePlan (by simp [found]) unknown)).resolve_right not_false
  have free (y : NodeId) (absent : m.cell? y = none) : m.settled y = none := by simp [settled,absent]
  simp only [cell] at stops
  cases e with
  | suspended => exact stops.elim
  | circularReference cell stack => exact .inl ⟨cell,stack,rfl⟩
  | evaluation cell stack source =>
    obtain ⟨n,failed⟩ := stops
    obtain ⟨f,d,source,path,last,raises,plain,same⟩ := shut.raises evaluates.grounded free listed (by simp [found]) failed (by
      simp [circle,FormulaError.kind])
    cases same
    exact .inr ⟨_,stack,_,rfl,plain,f,d,(stuck_iff found).mpr ⟨unknown,path⟩,last,rfl,raises⟩
  | _ =>
    obtain ⟨n,failed⟩ := stops
    cases scratch_tagged (by simp [found]) failed

end Model

-- Whatever was asked of a model before: an error that tells of a cell is raised by the formula of that cell, the last
-- of those that the evaluation fails by, and tells of no other within. Where these go in a circle, just that is told.
theorem failures_named {options : BuildOptions} {seeds : List (String × String)} {book : Workbook} {o m : Model} {id : NodeId}
    (made : (build options seeds book).1 = .ok o) (requests : List Request) (served : o.serveAll requests = m)
    (resolved : m.resolve address = .ok id) (found : m.cell? id = some c) :
    let values := (m.evaluate address).2.settled
    (∀ cell stack source, (m.evaluate address).1 = .error (.evaluation cell stack source) → source.isTagged = false ∧
      ∃ f d, m.Stuck values id f ∧ m.cell? f = some d ∧ d.address = cell ∧ (m.formulaPlan f).Raises m values source) ∧
    (∀ f, m.Stuck values id f → TransGen (m.Awaits values) f f →
      ∃ cell stack, (m.evaluate address).1 = .error (.circularReference cell stack)) ∧
    ∀ e, (m.evaluate address).1 = .error e → (∃ cell stack, e = .circularReference cell stack) ∨
      ∃ cell stack source, e = .evaluation cell stack source := by
  intro values
  have sturdy := build_sturdy made
  obtain ⟨outline,rests⟩ := Model.serveAll_rests sturdy.formed ⟨sturdy.idle,sturdy.untraced⟩ requests
  rw [served] at outline rests
  have formed := sturdy.formed.same outline
  have told {e : FormulaError} (failed : (m.evaluate address).1 = .error e) :=
    (Model.evaluate_raises formed rests.idle resolved found failed).2
  refine ⟨fun cell stack source failed => ?_,fun f stuck circle => ?_,fun e failed => ?_⟩
  · rcases told failed with ⟨_,_,⟨⟩⟩ | ⟨_,_,_,⟨⟩,plain,last⟩
    exact ⟨plain,last⟩
  · obtain ⟨unknown,path⟩ := (Model.stuck_iff found).mp stuck
    cases outcome : (m.evaluate address).1 with
    | ok v =>
      have evaluates := Model.evaluate_evaluates formed.distinct formed.deep rfl (.self m m.settled) rests.idle resolved
      have value := evaluates.value v outcome
      rw [Model.nodeValue_cell found,known_ok] at value
      cases unknown.symm.trans value
    | error e =>
      rcases told outcome with ⟨cell,stack,rfl⟩ | ⟨_,_,_,rfl,-,g,d,last,-,-,raises⟩
      · exact ⟨cell,stack,rfl⟩
      · have endless : m.Endless values id := ⟨f,path,circle⟩
        exact ((endless.along ((Model.stuck_iff found).mp last).2).silent raises).elim
  · exact (told failed).imp_right fun ⟨cell,stack,source,same,_⟩ => ⟨cell,stack,source,same⟩

def tiered : Workbook := ⟨[⟨"S",[(⟨1,1⟩,⟨none,.text "x",none⟩),(⟨1,2⟩,⟨none,.text "x",none⟩),
  (⟨3,1⟩,⟨some "=SUMIF(A1:A2,\"x\",B1:B1)",.empty,none⟩),(⟨4,1⟩,⟨some "=CONCATENATE(C1:C1,\"y\")",.empty,none⟩),
  (⟨5,1⟩,⟨some "=CONCATENATE(D1,\"z\")",.empty,none⟩)]⟩],0⟩

theorem failures_named_tiered : ∃ o, (build ({BuildOptions.standard with limits := ⟨1,1⟩}) [("S","E1")] tiered).1 = .ok o ∧
    let values := (o.evaluate "S!E1").2.settled
    ∃ stack f d, (o.evaluate "S!E1").1 = .error (.evaluation "S!C1" stack (.unknownCell "S!B2")) ∧ o.Stuck values 0 f ∧
      o.cell? f = some d ∧ d.address = "S!C1" ∧ (o.formulaPlan f).Raises o values (.unknownCell "S!B2") := by
  obtain ⟨o,made,there,cell,fails⟩ : ∃ o, (build ({BuildOptions.standard with limits := ⟨1,1⟩}) [("S","E1")] tiered).1 = .ok o ∧
      o.find? "S!E1" = some 0 ∧ (o.cell? 0).isSome = true ∧
      failsAs (.evaluation "S!C1" "" (.unknownCell "S!B2")) (o.evaluate "S!E1").1 = true :=
    ⟨_,Workbook.made (by decide +kernel),by decide +kernel,by decide +kernel,by decide +kernel⟩
  obtain ⟨c,found⟩ := Option.isSome_iff_exists.mp cell
  have resolved : o.resolve "S!E1" = .ok 0 := by simp only [Model.resolve,there]
  have named := (failures_named made [] rfl resolved found).1
  have fails := failsAs_iff.mp fails
  change ∀ cell stack source, (o.evaluate "S!E1").1 = _ → _ at named
  cases outcome : (o.evaluate "S!E1").1 with
  | ok v => simp [outcome,Except.mapError] at fails
  | error e =>
    simp only [outcome,Except.mapError,Except.error.injEq] at fails
    cases e with
    | evaluation cell stack source =>
      cases fails
      obtain ⟨-,f,d,last,known,address,raises⟩ := named _ _ _ outcome
      exact ⟨o,made,stack,f,d,outcome,last,known,address,raises⟩
    | _ => cases fails

end Recalc
