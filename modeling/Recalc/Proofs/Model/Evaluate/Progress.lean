import Recalc.Proofs.Build.Coverage
import Recalc.Proofs.Build.Exactness
import Recalc.Proofs.Model.Evaluate.Outcome
import Recalc.Proofs.Model.Graph.Cycles

open Relation Recalc.Graph

namespace Recalc
variable {α β : Type} {stuck : Prop}

-- A result that is a value or, where that can be, no end of a circle.
def Settles (stuck : Prop) (r : Except FormulaError α) : Prop := (∃ a, r = .ok a) ∨ stuck ∧ r = circle

namespace Settles

theorem ok (a : α) : Settles stuck (.ok a : Except FormulaError α) := .inl ⟨a,rfl⟩

theorem bind {r : Except FormulaError α} {f : α → Except FormulaError β} (first : Settles stuck r) (rest : ∀ a, Settles stuck (f a)) :
    Settles stuck (r >>= f) := by
  rcases first with ⟨a,rfl⟩ | ⟨may,rfl⟩
  · exact rest a
  · exact .inr ⟨may,rfl⟩

theorem composes : Composes fun α (r : Except FormulaError α) => Settles stuck r := ⟨ok,bind⟩

theorem mapM {f : α → Except FormulaError β} (as : List α) (each : ∀ a ∈ as, Settles stuck (f a)) : Settles stuck (as.mapM f) :=
  composes.mapM each

theorem conclude (c : Cell) {r : Except FormulaError Value} (result : Settles stuck r) : Settles stuck (c.conclude r) := by
  rcases result with ⟨v,rfl⟩ | ⟨may,rfl⟩
  · exact ok _
  · exact .inr ⟨may,c.conclude_circle⟩

theorem answer {source : Query.Source (Except FormulaError)} {g : Grants} {q : Query α} (asks : q.Asks g)
    (cells : ∀ bare address, g.cells address → Settles stuck (source.cell bare address)) (ranges : source.range = g.rects) :
    Settles stuck (q.answer source) := by
  unfold Query.Asks at asks
  induction q with
  | done a => exact ok a
  | cell bare address next ih =>
    obtain ⟨granted,further⟩ := asks
    exact (cells bare address granted).bind fun v => ih v (further v)
  | range address next ih =>
    obtain ⟨r,found,further⟩ := asks
    simp only [Query.answer,ranges,found]
    exact ih r further

end Settles

namespace Model
variable {o m : Model} {inputs : NodeId → Option Value} {id f : NodeId}

def Filled (m : Model) : Prop := ∀ (id : NodeId) r, m.nodes[id]? = some (.range r) → ∀ address ∈ r.cells.flatten,
  ∃ y, m.resolve address = .ok y ∧ (m.cell? y).isSome = true ∧ (⟨y,id⟩ : Edge) ∈ m.graph.edges

section
variable {cell : NodeId → Except FormulaError Value} (built : o.Built) (modest : o.Modest)
include built modest

theorem settles_derive (found : (o.cell? f).isSome = true)
    (cells : ∀ y, (o.cell? y).isSome = true → o.Feeds y f → Settles stuck (cell y)) : Settles stuck (o.derive cell f) := by
  obtain ⟨c,found⟩ := Option.isSome_iff_exists.mp found
  unfold derive
  simp only [found]
  refine Settles.conclude c (Settles.answer (built.asks found) (fun bare address granted => ?_) rfl)
  obtain ⟨y,resolved,there,feeds⟩ : ∃ y, o.resolve address = .ok y ∧ (o.cell? y).isSome = true ∧ o.Feeds y f := by
    rcases granted with covers | ⟨sum,listed,-⟩
    · exact covers.resolve
    · simp [modest f c found] at listed
  simp only [sourceOver,resolved,bind,Except.bind,nodeValue_isSome there]
  exact (cells y there feeds).bind fun v => .ok _

theorem settles_scratch (inputs : NodeId → Option Value) (n : Nat) (found : (o.cell? f).isSome = true) :
    Settles True (o.scratch inputs n f) := by
  induction n generalizing f with
  | zero => exact .inr ⟨trivial,rfl⟩
  | succ n ih =>
    simp only [scratch]
    cases inputs f with
    | some v => exact .ok v
    | none => exact settles_derive built modest found fun y there _ => ih there

omit built modest in
theorem Feeds.leads (feeds : o.Feeds y f) : TransGen (Leads o.graph.precedents) f y := by
  rcases feeds with edge | ⟨n,r,-,first,second⟩
  · exact .single ((mem_precedents _).mpr edge)
  · exact .head ((mem_precedents _).mpr second) (.single ((mem_precedents _).mpr first))

-- By induction on the ways from the cell, of which none goes on forever.
theorem comes_scratch (inputs : NodeId → Option Value) (ends : Graph.Ends o.graph.precedents f) (found : (o.cell? f).isSome = true) :
    ∀ᶠ n in Filter.atTop, ∃ v, o.scratch inputs n f = .ok v := by
  have closed : Acc (TransGen fun b a => Leads o.graph.precedents a b) f := ends.transGen
  clear ends
  induction closed with
  | intro f _ ih =>
    have each (y : NodeId) : ∀ᶠ n in Filter.atTop, (o.cell? y).isSome = true → o.Feeds y f → ∃ v, o.scratch inputs n y = .ok v := by
      by_cases reads : (o.cell? y).isSome = true ∧ o.Feeds y f
      · exact (ih y reads.2.leads.swap reads.1).mono fun n value _ _ => value
      · exact .of_forall fun n there feeds => absurd ⟨there,feeds⟩ reads
    have all := (Filter.eventually_all_finset (Finset.range o.nodes.length)).mpr fun y _ => each y
    obtain ⟨n,values⟩ := all.exists
    refine Filter.eventually_atTop.mpr ⟨n + 1,fun k deep => ?_⟩
    have value : Settles False (o.scratch inputs (n + 1) f) := by
      simp only [scratch]
      cases inputs f with
      | some v => exact .ok v
      | none =>
        refine settles_derive built modest found fun y there feeds => .inl (values y ?_ there feeds)
        obtain ⟨c,there⟩ := Option.isSome_iff_exists.mp there
        exact Finset.mem_range.mpr (cell?_lt there)
    obtain ⟨v,value⟩ := value.resolve_right fun never => never.1
    exact ⟨v,(o.scratch_below inputs deep f).ok value⟩

end

theorem settles_nodeValue {cell : NodeId → Except FormulaError Value} (filled : o.Filled) (there : o.nodes[id]? = some k)
    (cells : ∀ y, (o.cell? y).isSome = true → ReflTransGen (Leads o.graph.precedents) id y → Settles stuck (cell y)) :
    Settles stuck (o.nodeValue cell id) := by
  unfold nodeValue
  cases k with
  | cell c => simpa only [there] using cells id (by simp [cell?,there,Node.cell?]) .refl
  | range r =>
    simp only [there]
    refine Settles.bind (.mapM _ fun row listed => .mapM _ fun address member => ?_) fun rows => .ok _
    obtain ⟨y,resolved,found,edge⟩ := filled id r there address (List.mem_flatten.mpr ⟨row,listed,member⟩)
    simp only [resolved,bind,Except.bind]
    exact cells y found (.single ((mem_precedents _).mpr edge))

theorem Evaluates.settles {ran : Except FormulaError Value × Model} (built : o.Built) (modest : o.Modest) (filled : o.Filled)
    (evaluates : o.Evaluates inputs m id ran) (there : o.nodes[id]? = some k) :
    ((∃ v, ran.1 = .ok v) ∨ ∃ cell stack, ran.1 = .error (.circularReference cell stack)) ∧
      (Graph.Ends o.graph.precedents id → ∃ v, ran.1 = .ok v) := by
  obtain ⟨n,comes⟩ := evaluates.comes
  constructor
  · have settles : Settles True (ran.1.mapError FormulaError.kind) := by
      rw [← comes n (Nat.le_refl n)]
      exact settles_nodeValue filled there fun y found _ => settles_scratch built modest inputs n found
    rcases settles with ⟨v,value⟩ | ⟨-,circular⟩
    · exact .inl ⟨v,mapError_ok value⟩
    · right
      cases outcome : ran.1 with
      | ok v => simp [outcome,Except.mapError,circle] at circular
      | error e => cases e <;> simp_all [Except.mapError,circle,FormulaError.kind]
  · intro ends
    have each (y : NodeId) : ∀ᶠ n in Filter.atTop, (o.cell? y).isSome = true →
        ReflTransGen (Leads o.graph.precedents) id y → ∃ v, o.scratch inputs n y = .ok v := by
      by_cases reads : (o.cell? y).isSome = true ∧ ReflTransGen (Leads o.graph.precedents) id y
      · exact (comes_scratch built modest inputs (ends.along reads.2) reads.1).mono fun n value _ _ => value
      · exact .of_forall fun n found way => absurd ⟨found,way⟩ reads
    have all := (Filter.eventually_all_finset (Finset.range o.nodes.length)).mpr fun y _ => each y
    obtain ⟨k,deep,values⟩ := (all.and (Filter.eventually_ge_atTop n)).exists.imp fun k both => both.symm
    have value : Settles False (ran.1.mapError FormulaError.kind) := by
      rw [← comes k deep]
      refine settles_nodeValue filled there fun y found way => .inl (values y ?_ found way)
      obtain ⟨c,found⟩ := Option.isSome_iff_exists.mp found
      exact Finset.mem_range.mpr (cell?_lt found)
    obtain ⟨v,value⟩ := value.resolve_right fun never => never.1
    exact ⟨v,mapError_ok value⟩

end Model

theorem Exact.filled {options : BuildOptions} {book : Workbook} {seeds : List (String × String)} {o : Model} (named : book.Named)
    (exact : Exact options book seeds o) : o.Filled := by
  intro id r there address listed
  obtain ⟨f,region,needed,refers,rfl⟩ := exact.constituents id r there
  obtain ⟨cell,inside,rfl⟩ := (refers.lists named address).mp listed
  obtain ⟨y,c,found,spelled⟩ := (exact.cells cell.text).mpr ⟨cell,.referred needed refers inside,rfl⟩
  refine ⟨y,spelled ▸ exact.distinct.resolve found,by simp [found],?_⟩
  exact (exact.edges _).mpr ⟨cell.text,(Model.stands_cell found).mpr spelled,.inl ⟨_,there,listed⟩⟩

-- An evaluation fails with a circle only, and where it does so one is to be found.
theorem evaluate_unless_circular {options : BuildOptions} {seeds : List (String × String)} {book : Workbook} {o : Model}
    {address : String} {id : NodeId} (named : book.Named) (made : (build options seeds book).1 = .ok o) (modest : o.Modest) (ops : List Op)
    (resolved : (o.run ops).resolve address = .ok id) :
    ((∃ v, ((o.run ops).evaluate address).1 = .ok v) ∨
      (∃ cell stack, ((o.run ops).evaluate address).1 = .error (.circularReference cell stack)) ∧
        (o.run ops).hasCircularReference address = .ok true) ∧
    (¬ Circular (o.run ops).graph.precedents id → ∃ v, ((o.run ops).evaluate address).1 = .ok v) := by
  have built := build_built named.plain made
  have filled := ((build_exact options seeds book named).2 o made).1.filled named
  obtain ⟨same,idle⟩ := Model.run_idle built.formed rfl built.idle ops
  have evaluates := Model.evaluate_evaluates built.formed.distinct built.formed.deep same (.self o _) idle resolved
  obtain ⟨n,there⟩ := Model.resolve_some ((Model.resolve_same same address).symm.trans resolved)
  obtain ⟨either,settled⟩ := evaluates.settles built modest filled there
  obtain ⟨circular,ends⟩ := reachesCycle_spec o.graph id
  have reports : (o.run ops).hasCircularReference address = .ok (o.graph.reachesCycle id) := by
    simp [Model.hasCircularReference,resolved,Model.graph_same same,bind,Except.bind,pure,Except.pure]
  rw [reports,Model.graph_same same]
  cases found : o.graph.reachesCycle id with
  | true => exact ⟨either.imp_right fun fails => ⟨fails,rfl⟩,fun none => absurd (circular found) none⟩
  | false => exact ⟨.inl (settled (ends found)),fun _ => settled (ends found)⟩

def ringed : Workbook := ⟨[⟨"S",[(⟨1,1⟩,⟨some "=CONCATENATE(A2,\"x\")",.empty,none⟩),
  (⟨1,2⟩,⟨some "=CONCATENATE(A1,\"y\")",.empty,none⟩),(⟨1,3⟩,⟨some "=CONCATENATE(\"z\",\"z\")",.empty,none⟩)]⟩],0⟩

theorem evaluate_unless_circular_ringed : ∃ o, (build .standard [("S","A1:A3")] ringed).1 = .ok o ∧
    ((∃ cell stack, ((o.run [.evaluate "S!A2"]).evaluate "S!A1").1 = .error (.circularReference cell stack)) ∧
      (o.run [.evaluate "S!A2"]).hasCircularReference "S!A1" = .ok true) ∧ ∃ v, (o.evaluate "S!A3").1 = .ok v := by
  obtain ⟨o,made,modest,first,third,fails,passes⟩ : ∃ o, (build .standard [("S","A1:A3")] ringed).1 = .ok o ∧
      (o.nodes.all fun n => n.cell?.all fun c => c.expr.summed.isEmpty) = true ∧ (o.run [.evaluate "S!A2"]).find? "S!A1" = some 0 ∧
      o.find? "S!A3" = some 2 ∧ ((o.run [.evaluate "S!A2"]).evaluate "S!A1").1.toOption.isNone = true ∧
      o.graph.reachesCycle 2 = false :=
    ⟨_,Workbook.made (by decide +kernel),by decide +kernel,by decide +kernel,by decide +kernel,by decide +kernel,by decide +kernel⟩
  have named : ringed.Named := by decide
  have modest := Model.Modest.of_nodes modest
  have resolved : (o.run [.evaluate "S!A2"]).resolve "S!A1" = .ok 0 := by simp only [Model.resolve,first]
  have resolved' : (o.run []).resolve "S!A3" = .ok 2 := by simp only [Model.run,List.foldl_nil,Model.resolve,third]
  refine ⟨o,made,?_,(evaluate_unless_circular named made modest [] resolved').2 ?_⟩
  · rcases (evaluate_unless_circular named made modest [.evaluate "S!A2"] resolved).1 with ⟨v,value⟩ | circle
    · simp [value,Except.toOption] at fails
    · exact circle
  · exact ((reachesCycle_spec o.graph 2).2 passes).not_circular

end Recalc
