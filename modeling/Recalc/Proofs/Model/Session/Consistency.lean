import Recalc.Proofs.Build.Coverage

namespace Recalc

namespace Query
variable {α : Type} {source other : Source (Except FormulaError)}

def visited (source : Source (Except FormulaError)) : Query α → List String
  | done _ => []
  | cell bare address next => address :: match source.cell bare address with
    | .ok v => (next v).visited source
    | .error _ => []
  | range address next => match source.range address with
    | .ok r => (next r).visited source
    | .error _ => []

theorem visited_ok {q : Query α} (sharper : ∀ bare address, Sharpens (source.cell bare address) (other.cell bare address))
    (ranges : source.range = other.range) (result : q.answer source = .ok a) (listed : address ∈ q.visited other) :
    ∃ bare v, source.cell bare address = .ok v := by
  induction q with
  | done b => cases listed
  | cell bare read next ih =>
    simp only [answer] at result
    cases first : source.cell bare read with
    | error e =>
      rw [first] at result
      cases result
    | ok v =>
      rw [first] at result
      rw [visited,(sharper bare read).ok first,List.mem_cons] at listed
      rcases listed with rfl | further
      · exact ⟨bare,v,first⟩
      · exact ih v result further
  | range read next ih =>
    cases there : other.range read with
    | error e => simp [visited,there] at listed
    | ok r =>
      rw [visited,there] at listed
      simp only [answer,ranges,there] at result
      exact ih r result listed

theorem visited_granted {q : Query α} {g : Grants} (asks : q.Asks g) (rects : source.range = g.rects)
    (listed : address ∈ q.visited source) : g.cells address := by
  unfold Asks at asks
  induction q with
  | done b => cases listed
  | cell bare read next ih =>
    rw [visited,List.mem_cons] at listed
    rcases listed with rfl | further
    · exact asks.1
    · cases first : source.cell bare read with
      | error e => simp [first] at further
      | ok v =>
        rw [first] at further
        exact ih v (asks.2 v) further
  | range read next ih =>
    obtain ⟨r,found,rest⟩ := asks
    rw [visited,rects,found] at listed
    exact ih r rest listed

end Query

namespace Model
variable {o m : Model} {id : NodeId}

def present (m : Model) (id : NodeId) : Except FormulaError Value :=
  match m.cell? id with
  | some c => .ok c.value
  | none => .error (.unknownCell (m.addressOf id))

theorem settled_present (m : Model) : Below (known m.settled) m.present := by
  intro id
  cases found : m.settled id with
  | none => exact .inl (by simp [known,found])
  | some v =>
    obtain ⟨c,there,-,-,value⟩ := settled_eq_some.mp found
    exact .inr (by simp [known,found,present,there,value])

theorem sourceOver_sharpens (m : Model) {c c' : NodeId → Except FormulaError Value} (below : Below c c') (plain bare : Bool)
    (address : String) : Sharpens ((m.sourceOver c plain).cell bare address) ((m.sourceOver c' plain).cell bare address) :=
  (Sharpens.refl _).bind fun id => (m.nodeValue_sharpens below id).bind fun _ => .refl _

def cellsAt (m : Model) (address : String) : List NodeId :=
  match m.resolve address with
  | .error _ => []
  | .ok id => match m.nodes[id]? with
    | some (.range r) => r.cells.flatten.filterMap fun a => (m.resolve a).toOption
    | _ => [id]

theorem cellsAt_cell (resolved : m.resolve address = .ok id) (cell : (m.cell? id).isSome = true) :
    m.cellsAt address = [id] := by
  obtain ⟨c,found⟩ := Option.isSome_iff_exists.mp cell
  simp [cellsAt,resolved,cell?_eq_some.mp found]

theorem read_clean {plain bare : Bool} (resolved : m.resolve address = .ok id) (cell : (m.cell? id).isSome = true)
    (read : (m.sourceOver (known m.settled) plain).cell bare address = .ok v) :
    ∃ d, m.cell? id = some d ∧ d.dirty = false := by
  simp only [sourceOver,resolved,bind,Except.bind,nodeValue_isSome cell] at read
  cases found : m.settled id with
  | none => simp [known,found,circle] at read
  | some w =>
    obtain ⟨d,there,clean,-⟩ := settled_eq_some.mp found
    exact ⟨d,there,clean⟩

end Model

namespace Session
variable {o : Model} {s : Session} {id : NodeId}

-- Incremental evaluation agrees with evaluation from scratch. A clean cell holds a value given
-- to it, or what its formula makes of the values that stand in the cells it reads, all of them
-- clean. An evaluation that succeeds gives what is computed from the given values alone.
structure Agrees (s : Session) : Prop where
  clean : ∀ id c, s.model.cell? id = some c → c.dirty = false → s.held id = false →
    (∃ w, s.model.resultOf s.model.present c.expr = .ok w ∧ c.value = c.format.apply w) ∧
      ∀ address ∈ c.expr.query.visited (s.model.sourceOver s.model.present c.expr.isReference),
        ∀ y ∈ s.model.cellsAt address, ∃ d, s.model.cell? y = some d ∧ d.dirty = false
  scratch : ∀ address v, (s.model.evaluate address).1 = .ok v → ∃ id depth, s.model.resolve address = .ok id ∧
    ∀ k, depth ≤ k → s.model.nodeValue (s.model.scratch s.inputs k) id = .ok v

theorem Sound.derived (sound : Sound o s) (found : s.model.cell? id = some c) (clean : c.dirty = false)
    (free : s.held id = false) :
    ∃ w, s.model.resultOf (known s.model.settled) c.expr = .ok w ∧ c.value = c.format.apply w := by
  have idle : c.evaluating = false := by simpa [Model.isEvaluating,found] using sound.idle.marks id
  have settled : s.model.settled id = some c.value := Model.settled_eq_some.mpr ⟨c,found,clean,idle,rfl⟩
  have derived := sound.grounded.derive (by simp [inputs,free]) settled
  rw [← Model.derive_same sound.outline,Model.derive,found] at derived
  exact Cell.conclude_ok derived

theorem Sound.agrees (built : o.Built) (modest : o.Modest) (sound : Sound o s) : s.Agrees := by
  refine ⟨fun id c found clean free => ?_,fun address v succeeded => ?_⟩
  · obtain ⟨w,result,value⟩ := sound.derived found clean free
    refine ⟨⟨w,(s.model.resultOf_sharpens s.model.settled_present c.expr).ok result,value⟩,fun address visits y listed => ?_⟩
    have asks := Expr.query_asks c.expr (built.wired_same sound.outline found)
    have unsummed : c.expr.summed = [] := by
      obtain ⟨c',there,alike⟩ := Model.cell_same sound.outline.symm found
      have expr : c'.expr = c.expr := by simpa [Cell.outline] using congrArg Cell.expr alike
      rw [← expr]
      exact modest id c' there
    obtain ⟨n,resolved,cell,-⟩ : ∃ n, s.model.resolve address = .ok n ∧ (s.model.cell? n).isSome = true ∧
        s.model.Feeds n id := by
      rcases Query.visited_granted asks rfl visits with covers | ⟨sum,listed,-⟩
      · exact covers.resolve
      · simp [unsummed] at listed
    obtain ⟨bare,u,read⟩ := Query.visited_ok
      (s.model.sourceOver_sharpens s.model.settled_present c.expr.isReference) rfl result visits
    rw [Model.cellsAt_cell resolved cell,List.mem_singleton] at listed
    rw [listed]
    exact Model.read_clean resolved cell read
  · cases resolved : s.model.resolve address with
    | error e => simp [Model.evaluate,resolved] at succeeded
    | ok id =>
      have evaluates := Model.evaluate_evaluates built.formed.distinct built.formed.deep sound.outline sound.grounded
        sound.idle resolved
      obtain ⟨depth,below⟩ := evaluates.grounded.scratch
      refine ⟨id,depth,rfl,fun k deep => ?_⟩
      rw [Model.nodeValue_same sound.outline,Model.scratch_same sound.outline]
      exact (o.nodeValue_sharpens (below.trans (o.scratch_below s.inputs deep)) id).ok (evaluates.value v succeeded)

end Session

-- Over every run, where sheets are told by their names and no sum is taken over a range of its own.
theorem agrees_run {options : BuildOptions} {seeds : List (String × String)} {book : Workbook} {o : Model} (plain : book.Plain)
    (made : (build options seeds book).1 = .ok o) (modest : o.Modest) (counting : Bool) (ops : List Op) :
    ((Session.start o).run counting ops).Agrees := by
  have built := build_built plain made
  have covered := built.covered modest
  exact (Session.sound_run built.formed covered (Session.sound_start rfl built.idle) counting ops).agrees built modest

def copying : Workbook := ⟨[⟨"S",[(⟨1,1⟩,⟨none,.text "p",none⟩),(⟨2,1⟩,⟨some "=CONCATENATE(A1:A1)",.empty,none⟩)]⟩],0⟩

theorem agrees_copying : ((Session.start (copying.model .standard [("S","B1")])).run false
    [.evaluate "S!B1",.assign "S!A1" (.text "q"),.evaluate "S!B1"]).Agrees :=
  agrees_run (by decide) (Workbook.made (by decide +kernel)) (.of_nodes (by decide +kernel)) false _

namespace Session
variable {s : Session} {id : NodeId}

def strays (s : Session) (id : NodeId) : Bool := (s.model.cell? id).any fun c => !c.dirty && !s.held id &&
  ((s.model.resultOf s.model.present c.expr).toOption.all (fun w => c.value.toText != (c.format.apply w).toText) ||
    (c.expr.query.visited (s.model.sourceOver s.model.present c.expr.isReference)).any fun address =>
      (s.model.cellsAt address).any s.model.isDirty)

theorem strays_disagrees (strays : s.strays id = true) : ¬ s.Agrees := by
  intro agrees
  unfold Session.strays at strays
  cases found : s.model.cell? id with
  | none => simp [found] at strays
  | some c =>
    simp only [found,Option.any_some,Bool.and_eq_true,Bool.not_eq_true',Bool.or_eq_true] at strays
    obtain ⟨⟨clean,free⟩,other | reads⟩ := strays
    · obtain ⟨⟨w,result,value⟩,-⟩ := agrees.clean id c found clean free
      simp [result,value,Except.toOption] at other
    · obtain ⟨-,all⟩ := agrees.clean id c found clean free
      obtain ⟨address,listed,some⟩ := List.any_eq_true.mp reads
      obtain ⟨y,there,dirty⟩ := List.any_eq_true.mp some
      obtain ⟨d,cell,clean⟩ := all address listed y there
      simp [Model.isDirty_cell?,cell,clean] at dirty

end Session

def colon : Workbook := ⟨[⟨":B",[(⟨1,1⟩,⟨none,.text "k",none⟩),(⟨2,1⟩,⟨none,.text "u",none⟩),(⟨3,1⟩,⟨none,.text "v",none⟩),
  (⟨5,1⟩,⟨some "=VLOOKUP(\"k\",A1:C1,3)",.empty,none⟩),(⟨5,2⟩,⟨some "=SUM(A1:C1)",.empty,none⟩)]⟩,
  ⟨"':B",[(⟨26,9⟩,⟨none,.text "e",none⟩)]⟩],0⟩

def splicedRun : Session := (Session.start (spliced.model .standard [("S","B1"),("S!A1;B","B1")])).run false
  [.evaluate "S!B1",.assign "S!A1;B!A1" (.text "q")]

def colonRun : Session := (Session.start (colon.model .standard [("':B","E1:E2")])).run false
  [.evaluate "':B!E1",.reset ":B!B1"]

-- In the first run what is read changes and the formula's value stays. In the second what is
-- read becomes dirty and the formula stays clean.
theorem agrees_needs_plain :
    (∃ o, (build .standard [("S","B1"),("S!A1;B","B1")] spliced).1 = .ok o ∧ o.Modest ∧
      ¬ ((Session.start o).run false [.evaluate "S!B1",.assign "S!A1;B!A1" (.text "q")]).Agrees) ∧
    ∃ o, (build .standard [("':B","E1:E2")] colon).1 = .ok o ∧ o.Modest ∧
      ¬ ((Session.start o).run false [.evaluate "':B!E1",.reset ":B!B1"]).Agrees := by
  refine ⟨⟨_,Workbook.made (by decide +kernel),.of_nodes (by decide +kernel),?_⟩,
    ⟨_,Workbook.made (by decide +kernel),.of_nodes (by decide +kernel),?_⟩⟩
  · have strays : splicedRun.strays 0 = true := by decide +kernel
    exact Session.strays_disagrees strays
  · have strays : colonRun.strays 0 = true := by decide +kernel
    exact Session.strays_disagrees strays

end Recalc
