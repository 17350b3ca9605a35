import Recalc.Proofs.Build.Built

namespace Recalc

namespace Query
variable {α : Type} {g : Grants}

theorem answer_congr {source other : Source (Except FormulaError)} {q : Query α} (asks : q.Asks g)
    (cells : ∀ bare address, g.cells address → source.cell bare address = other.cell bare address)
    (ranges : source.range = g.rects) (same : other.range = g.rects) : q.answer source = q.answer other := by
  unfold Asks at asks
  induction q with
  | done a => rfl
  | cell bare address next ih =>
    obtain ⟨granted,further⟩ := asks
    simp only [answer,cells bare address granted]
    cases other.cell bare address with
    | error e => rfl
    | ok v => exact ih v (further v)
  | range address next ih =>
    obtain ⟨r,found,further⟩ := asks
    simp only [answer,ranges,same,found]
    exact ih r further

def reads (source : Source Run) : Query α → Model → List String
  | done _, _ => []
  | cell bare address next, m => address :: match source.cell bare address m with
    | (.ok v,m') => (next v).reads source m'
    | (.error _,_) => []
  | range address next, m => match source.range address m with
    | (.ok r,m') => (next r).reads source m'
    | (.error _,_) => []

end Query

namespace Model
variable {o m m' : Model} {f : NodeId}

theorem Covers.resolve (covers : m.Covers f address) :
    ∃ y, m.resolve address = .ok y ∧ (m.cell? y).isSome = true ∧ m.Feeds y f := by
  obtain ⟨y,found,cell,feeds⟩ := covers
  exact ⟨y,by simp [Model.resolve,found],cell,feeds⟩

theorem nodeValue_isSome (found : (m.cell? y).isSome = true) (cell : NodeId → Except FormulaError Value) :
    m.nodeValue cell y = cell y := by
  obtain ⟨c,there⟩ := Option.isSome_iff_exists.mp found
  exact nodeValue_cell there cell

-- Without sums over a range of their own, formulas depend on nothing but what feeds them.
def Modest (m : Model) : Prop := ∀ id c, m.cell? id = some c → c.expr.summed = []

theorem Modest.of_nodes (none : (m.nodes.all fun n => n.cell?.all fun c => c.expr.summed.isEmpty) = true) : m.Modest := by
  intro id c found
  have listed := List.all_eq_true.mp none _ (List.mem_of_getElem? (cell?_eq_some.mp found))
  simpa [Node.cell?] using listed

theorem Built.asks (built : m.Built) (found : m.cell? f = some c) : c.expr.query.Asks (m.grants f c.expr.summed) :=
  Expr.query_asks c.expr (built.wired f c found)

theorem Built.covered (built : m.Built) (modest : m.Modest) : m.Covered := by
  intro f cell cell' same
  unfold derive
  cases found : m.cell? f with
  | none => rfl
  | some c =>
    have asks := built.asks found
    have same : m.resultOf cell c.expr = m.resultOf cell' c.expr := by
      refine Query.answer_congr asks (fun bare address granted => ?_) rfl rfl
      obtain ⟨y,resolved,there,feeds⟩ : ∃ y, m.resolve address = .ok y ∧ (m.cell? y).isSome = true ∧ m.Feeds y f := by
        rcases granted with covers | ⟨sum,listed,-⟩
        · exact covers.resolve
        · simp [modest f c found] at listed
      simp only [sourceOver,resolved,bind,Except.bind,nodeValue_isSome there,same y feeds]
    simp only [same]

theorem outline_read {room : Nat} {plain bare : Bool} {address : String}
    (read : (Run.source (Run.cell room) plain).cell bare address m = (r,m')) : m'.outline = m.outline := by
  have tracks : m.Tracks m.settled ((Query.cell bare address .done).answer (Run.source (Run.cell room) plain)) _ :=
    tracks_answer (tracks_cell room) plain _
  have follows := tracks.follows m rfl (.self m m.settled)
  have single : (Query.cell bare address Query.done).answer (Run.source (Run.cell room) plain) m = (r,m') := by
    rw [← read]
    simp only [Query.answer,bind_pure]
  rw [single] at follows
  exact follows.steady.outline

theorem reads_granted {α : Type} {q : Query α} {g : Grants} {room : Nat} {plain : Bool} (asks : q.Asks g)
    (rects : g.rects = o.rectOf) (alike : m.outline = o.outline) (read : a ∈ q.reads (Run.source (Run.cell room) plain) m) :
    g.cells a := by
  unfold Query.Asks at asks
  induction q generalizing m with
  | done b => cases read
  | cell bare address next ih =>
    rw [Query.reads,List.mem_cons] at read
    rcases read with rfl | further
    · exact asks.1
    · cases first : (Run.source (Run.cell room) plain).cell bare address m with
      | mk r m' =>
        rw [first] at further
        cases r with
        | error e => cases further
        | ok v => exact ih v (asks.2 v) ((outline_read first).trans alike) further
  | range address next ih =>
    obtain ⟨r,found,rest⟩ := asks
    have ran : (Run.source (Run.cell room) plain).range address m = (.ok r,m) := by
      change (m.rectOf address,m) = _
      rw [rectOf_same alike,← rects,found]
    rw [Query.reads,ran] at read
    exact ih r rest alike read

-- The model is `m` or any state that the evaluation of an operation on it passes through.
theorem reads_covered {options : BuildOptions} {seeds : List (String × String)} {book : Workbook} (plain : book.Plain)
    (made : (build options seeds book).1 = .ok o) (ops : List Op) (alike : m.outline = (o.run ops).outline)
    (found : m.cell? f = some c) (room : Nat) :
    let reads := c.expr.query.reads (Run.source (Run.cell room) c.expr.isReference) m
    (∀ a ∈ reads, m.Covers f a ∨ m.Overreaches c.expr.summed a) ∧
      ((∀ a ∈ reads, m.Covers f a) ↔ ∀ a ∈ reads, m.Overreaches c.expr.summed a → m.Covers f a) := by
  have built := build_built plain made
  obtain ⟨outline,-⟩ := run_idle built.formed rfl built.idle ops
  have same : m.outline = o.outline := alike.trans outline
  have asks := Expr.query_asks c.expr (built.wired_same same found)
  have either : ∀ a ∈ c.expr.query.reads (Run.source (Run.cell room) c.expr.isReference) m,
      m.Covers f a ∨ m.Overreaches c.expr.summed a := fun a read => reads_granted asks rfl rfl read
  refine ⟨either,fun all a read _ => all a read,fun beyond a read => ?_⟩
  rcases either a read with covers | further
  · exact covers
  · exact beyond a read further

end Model

def summing : Workbook := ⟨[⟨"S",[(⟨1,1⟩,⟨none,.text "x",none⟩),(⟨1,2⟩,⟨none,.text "x",none⟩),(⟨2,1⟩,⟨none,.text "y",none⟩),
  (⟨2,2⟩,⟨none,.text "z",none⟩),(⟨3,1⟩,⟨some "=SUMIF(A1:A2,\"x\",B1:B1)",.empty,none⟩)]⟩],0⟩

theorem reads_covered_summing : ∃ o c, (build .standard [("S","C1")] summing).1 = .ok o ∧ o.cell? 0 = some c ∧
    let reads := c.expr.query.reads (Run.source (Run.cell 64) c.expr.isReference) o
    (∀ a ∈ reads, o.Covers 0 a ∨ o.Overreaches c.expr.summed a) ∧
      ((∀ a ∈ reads, o.Covers 0 a) ↔ ∀ a ∈ reads, o.Overreaches c.expr.summed a → o.Covers 0 a) := by
  obtain ⟨o,made,cell⟩ : ∃ o, (build .standard [("S","C1")] summing).1 = .ok o ∧ (o.cell? 0).isSome = true :=
    ⟨_,Workbook.made (by decide +kernel),by decide +kernel⟩
  obtain ⟨c,found⟩ := Option.isSome_iff_exists.mp cell
  exact ⟨o,c,made,found,Model.reads_covered (by decide) made [] rfl found 64⟩

def spliced : Workbook := ⟨[⟨"S",[(⟨2,1⟩,⟨some "=CONCATENATE('A1;B'!A1:A1)",.empty,none⟩)]⟩,⟨"A1;B",[]⟩,⟨"A1;B!A1;B",[]⟩,
  ⟨"S!A1;B",[(⟨1,1⟩,⟨none,.text "p",none⟩),(⟨2,1⟩,⟨some "=CONCATENATE(A1:A1)",.empty,none⟩)]⟩],0⟩

theorem not_covers {m : Model} {y f : NodeId} (found : m.find? address = some y) (apart : (m.graph.edges.all fun e =>
    !(e.precedent == y && (e.dependent == f || m.graph.edges.contains ⟨e.dependent,f⟩))) = true) : ¬ m.Covers f address := by
  rintro ⟨z,there,-,feeds⟩
  rw [found] at there
  cases there
  rcases feeds with edge | ⟨n,r,-,first,second⟩
  · simpa using List.all_eq_true.mp apart _ edge
  · have none := List.all_eq_true.mp apart _ first
    simp [second] at none

def failsAs (kind : FormulaError) : Except FormulaError Value → Bool
  | .error e => e.kind == kind
  | .ok _ => false

theorem failsAs_iff {outcome : Except FormulaError Value} :
    failsAs kind outcome = true ↔ outcome.mapError FormulaError.kind = .error kind := by
  cases outcome <;> simp [failsAs,Except.mapError]

-- The cell below the shorter range is read without a node, and evaluation fails. Between sheets
-- that cannot be told apart a cell is read without an edge.
theorem reads_uncovered :
    (∃ o c, (build .standard [("S","C1")] summing).1 = .ok o ∧ o.cell? 0 = some c ∧
      (∃ a ∈ c.expr.query.reads (Run.source (Run.cell 64) c.expr.isReference) o, ¬ o.Covers 0 a) ∧
      (o.evaluate "S!C1").1.mapError FormulaError.kind = .error (.evaluation "S!C1" "" (.unknownCell "S!B2"))) ∧
    ∃ o c, (build .standard [("S","B1"),("S!A1;B","B1")] spliced).1 = .ok o ∧ o.cell? 0 = some c ∧
      ∃ a ∈ c.expr.query.reads (Run.source (Run.cell 64) c.expr.isReference) o, ¬ o.Covers 0 a := by
  constructor
  · obtain ⟨o,made,reads,absent,fails⟩ : ∃ o, (build .standard [("S","C1")] summing).1 = .ok o ∧
        ((o.cell? 0).any fun c => "S!B2" ∈ c.expr.query.reads (Run.source (Run.cell 64) c.expr.isReference) o) = true ∧
        o.find? "S!B2" = none ∧ failsAs (.evaluation "S!C1" "" (.unknownCell "S!B2")) (o.evaluate "S!C1").1 = true :=
      ⟨_,Workbook.made (by decide +kernel),by decide +kernel,by decide +kernel,by decide +kernel⟩
    cases found : o.cell? 0 with
    | none => simp [found] at reads
    | some c =>
      refine ⟨o,c,made,found,⟨"S!B2",by simpa [found] using reads,?_⟩,failsAs_iff.mp fails⟩
      rintro ⟨y,there,-⟩
      rw [absent] at there
      cases there
  · obtain ⟨o,made,reads,there,apart⟩ : ∃ o, (build .standard [("S","B1"),("S!A1;B","B1")] spliced).1 = .ok o ∧
        ((o.cell? 0).any fun c =>
          "S!A1;B!A1" ∈ c.expr.query.reads (Run.source (Run.cell 64) c.expr.isReference) o) = true ∧
        o.find? "S!A1;B!A1" = some 3 ∧ (o.graph.edges.all fun e =>
          !(e.precedent == 3 && (e.dependent == 0 || o.graph.edges.contains ⟨e.dependent,0⟩))) = true :=
      ⟨_,Workbook.made (by decide +kernel),by decide +kernel,by decide +kernel,by decide +kernel⟩
    cases found : o.cell? 0 with
    | none => simp [found] at reads
    | some c => exact ⟨o,c,made,found,"S!A1;B!A1",by simpa [found] using reads,not_covers there apart⟩

end Recalc
