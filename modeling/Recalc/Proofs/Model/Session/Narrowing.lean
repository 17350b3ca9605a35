import Recalc.Proofs.Build.Exactness
import Recalc.Proofs.Model.Session.Transparency
import Recalc.Proofs.Model.Session.TwinCells

namespace Recalc
variable {options : BuildOptions} {book : Workbook} {seeds : List (String × String)} {o o' : Model} {s s' : Session} {id id' y : NodeId}
  {address : String} {c : Cell}

theorem Closure.wide (needed : Closure options book seeds cell) : Closure {options with narrowLookups := false} book seeds cell := by
  induction needed with
  | seeded listed clamped inside filled => exact .seeded listed clamped inside filled
  | @referred f target cell needed refers inside ih =>
    obtain ⟨formula,tree,holds,treed,reference,listed,leads⟩ := refers
    have refers (t : Target) (leads : reference.target {options with narrowLookups := false} book f.sheet = .ok t) :
        Refers {options with narrowLookups := false} book f t := ⟨formula,tree,holds,treed,reference,listed,leads⟩
    obtain ⟨active,selected,target⟩ := bind_ok.mp leads
    split at target
    · rename_i ranged
      obtain ⟨r,parsed,made⟩ := bind_ok.mp target
      cases made
      refine .referred ih (refers (.range (.ofRect r)) ?_) ?_
      · simp [Tree.Reference.target,Build.regionOf,selected,ranged,parsed,bind,Except.bind,pure,Except.pure]
      · simpa [Target.cells,Region.ofRect] using (Build.cut_regionOf options reference.table r).inside inside
    · rename_i single
      obtain ⟨d,parsed,made⟩ := bind_ok.mp target
      cases made
      refine .referred ih (refers (.cell d) ?_) inside
      simp [Tree.Reference.target,selected,single,parsed,bind,Except.bind,pure,Except.pure]

theorem Exact.among (narrowed : Exact options book seeds o') (exact : Exact {options with narrowLookups := false} book seeds o)
    (untrusted : options.trustCached = false) : o'.Among o := by
  refine ⟨fun id c found => ?_,narrowed.sheet.trans exact.sheet.symm⟩
  obtain ⟨cell,needed,spelled⟩ := (narrowed.cells c.address).mp ⟨id,c,found,rfl⟩
  obtain ⟨y,d,there,address⟩ := (exact.cells cell.text).mpr ⟨cell,needed.wide,rfl⟩
  obtain ⟨same,dirty,holds⟩ := narrowed.contents id c cell found spelled.symm
  obtain ⟨same',dirty',holds'⟩ := exact.contents y d cell there address
  have expr : c.expr = d.expr := by
    cases formula : (book.entry cell).formula? with
    | none =>
      simp only [formula] at holds holds'
      rw [holds,holds']
    | some text =>
      simp only [formula] at holds holds'
      exact Except.ok.inj (holds.symm.trans holds')
  refine ⟨y,?_⟩
  rw [there,same',same,expr,dirty untrusted,dirty' untrusted]
  rfl

theorem canonicalize_cell {cell : CellRef} (proper : (Rect.ofCell cell).Proper) (sheet : String) :
    canonicalize cell.text sheet = .ok cell.text := by
  have colon : ':' ∉ cell.text.toList := by
    rw [colon_cell]
    exact proper.plain.1
  have semicolon : ';' ∉ cell.text.toList := by
    rw [mem_cell (by decide) (by decide)]
    exact fun member => member.elim proper.plain.2 (by decide)
  simp [canonicalize,Text.splitEach_single semicolon,canonicalPart,isRange_false colon,proper.parse_cell sheet,bind,Except.bind,pure,Except.pure,
    Functor.map,Except.map]

theorem without_cell {cell : CellRef} (named : Named cell.sheet) : Text.without '$' cell.text = cell.text := by
  have absent : '$' ∉ cell.text.toList := by
    rw [mem_cell (by decide) (by decide)]
    exact fun member => member.elim (named '$' (by simp)) (by decide)
  exact Text.without_absent absent

theorem Exact.twin (named : book.Named) (exact : Exact {options with narrowLookups := false} book seeds o)
    (among : o'.Among o) (resolved : o.resolve address = .ok id) (found : (o.cell? id).isSome = true)
    (resolved' : o'.resolve address = .ok id') (found' : (o'.cell? id').isSome = true) : o.Twin o' id id' := by
  obtain ⟨c,found⟩ := Option.isSome_iff_exists.mp found
  obtain ⟨c',found'⟩ := Option.isSome_iff_exists.mp found'
  obtain ⟨y,there⟩ := among.cells id' c' found'
  have named_of {m : Model} {id : NodeId} {c : Cell} {key : String} (known : m.cell? id = some c) (there : m.find? key = some id) :
      key = c.address := by
    obtain ⟨n,same,spelled⟩ := Model.find?_some there
    cases same.symm.trans (Model.cell?_eq_some.mp known)
    exact spelled.symm
  have first := exact.distinct.find? (Model.cell?_eq_some.mp there)
  have alike (same : c'.address = c.address) : o.Twin o' id id' := by
    have again := exact.distinct.eq (Model.cell?_eq_some.mp found) (Model.cell?_eq_some.mp there) same.symm
    subst again
    exact ⟨c',there,found'⟩
  rcases Model.resolve_ok resolved with here | ⟨absent,key,spelled,here⟩
  · rcases Model.resolve_ok resolved' with here' | ⟨absent',key',spelled',here'⟩
    · exact alike ((named_of found' here').symm.trans (named_of found here))
    · -- an address that is kept is spelled as it is
      obtain ⟨cell,needed,text⟩ := (exact.cells c.address).mp ⟨id,c,found,rfl⟩
      have proper := needed.located.proper named
      obtain ⟨s,listed,on⟩ := needed.located.sheet
      rw [named_of found here,← text,without_cell (on ▸ named s listed),canonicalize_cell proper] at spelled'
      cases spelled'
      rw [named_of found here,← text,here'] at absent'
      cases absent'
  · rcases Model.resolve_ok resolved' with here' | ⟨-,key',spelled',here'⟩
    · rw [named_of found' here'] at absent
      exact absurd (absent.symm.trans first) (by simp)
    · rw [among.sheet,spelled] at spelled'
      cases spelled'
      exact alike ((named_of found' here').symm.trans (named_of found here))

def Model.Holds (m : Model) (address : String) : Prop := ∃ id, m.resolve address = .ok id ∧ (m.cell? id).isSome = true

-- The operation is on a cell of both models, and assigns to no formula.
def Op.Fits (o o' : Model) (op : Op) : Prop := o.Holds op.address ∧ o'.Holds op.address ∧
  ∀ address value, op = .assign address value → ∀ id c, o.resolve address = .ok id → o.cell? id = some c → c.formula = none

-- Whether lookups are narrowed or not, evaluations give the same.
theorem narrowing_unseen (named : book.Named) (untrusted : options.trustCached = false)
    (wide : (build {options with narrowLookups := false} seeds book).1 = .ok o)
    (narrow : (build {options with narrowLookups := true} seeds book).1 = .ok o') (modest : o.Modest) {ops : List Op}
    (fits : ∀ op ∈ ops, op.Fits o o') (there : o.Holds address) (there' : o'.Holds address) :
    ((o.run ops).evaluate address).1.mapError FormulaError.kind = ((o'.run ops).evaluate address).1.mapError FormulaError.kind := by
  have exact := ((build_exact _ seeds book named).2 o wide).1
  have among : o'.Among o := ((build_exact _ seeds book named).2 o' narrow).1.among exact untrusted
  have built := build_built named.plain wide
  have built' := build_built named.plain narrow
  have sturdy := build_sturdy wide
  have sturdy' := build_sturdy narrow
  simp only [untrusted] at sturdy sturdy'
  have matched : o.Matched o' :=
    ⟨sturdy,sturdy',built.covered modest,built'.covered (among.modest modest),among.twinned built built' modest⟩
  have twin {a : String} {id id' : NodeId} (resolved : o.resolve a = .ok id) (found : (o.cell? id).isSome = true)
      (resolved' : o'.resolve a = .ok id') (found' : (o'.cell? id').isSome = true) : o.Twin o' id id' :=
    exact.twin named among resolved found resolved' found'
  have paired : Session.Paired o o' ((Session.start o).run false ops) ((Session.start o').run false ops) := by
    refine (Session.paired_start matched).run matched fun op listed => ?_
    obtain ⟨⟨id,resolved,found⟩,⟨id',resolved',found'⟩,enters⟩ := fits op listed
    refine ⟨id,id',twin resolved found resolved' found',resolved,resolved',?_⟩
    rintro a value rfl c cell
    exact enters a value rfl id c resolved cell
  obtain ⟨id,resolved,found⟩ := there
  obtain ⟨id',resolved',found'⟩ := there'
  have alike := paired.alike matched (twin resolved found resolved' found') resolved resolved'
  rwa [Session.model_run,Session.model_run] at alike

theorem Model.holds_find? {m : Model} (known : ((m.find? address).any fun id => (m.cell? id).isSome) = true) : m.Holds address := by
  cases found : m.find? address with
  | none => simp [found] at known
  | some id => exact ⟨id,by simp [Model.resolve,found],by simpa [found] using known⟩

theorem narrowing_unseen_looking : ∃ o o', (build {BuildOptions.standard with narrowLookups := false} [("S","D1")] looking).1 = .ok o ∧
    (build {BuildOptions.standard with narrowLookups := true} [("S","D1")] looking).1 = .ok o' ∧
    let ops := [.evaluate "S!D1",.assign "S!A2" (.text "z"),.assign "S!A1" (.text "y")]
    ((o.run ops).evaluate "S!D1").1 = .ok (.text "one") ∧ ((o'.run ops).evaluate "S!D1").1 = .ok (.text "one") := by
  let ops : List Op := [.evaluate "S!D1",.assign "S!A2" (.text "z"),.assign "S!A1" (.text "y")]
  obtain ⟨o,wide,modest,cells,constants,shown⟩ : ∃ o,
      (build {BuildOptions.standard with narrowLookups := false} [("S","D1")] looking).1 = .ok o ∧
      (o.nodes.all fun n => n.cell?.all fun c => c.expr.summed.isEmpty) = true ∧
      (["S!D1","S!A1","S!A2"].all fun a => (o.find? a).any fun id => (o.cell? id).isSome) = true ∧
      (["S!A1","S!A2"].all fun a => (o.resolve a).toOption.all fun id => (o.cell? id).all fun c => c.formula.isNone) = true ∧
      ((o.run ops).evaluate "S!D1").1 = .ok (.text "one") :=
    ⟨_,Workbook.made (by decide +kernel),by decide +kernel,by decide +kernel,by decide +kernel,shows_text (by decide +kernel)⟩
  obtain ⟨o',narrow,cells'⟩ : ∃ o', (build {BuildOptions.standard with narrowLookups := true} [("S","D1")] looking).1 = .ok o' ∧
      (["S!D1","S!A1","S!A2"].all fun a => (o'.find? a).any fun id => (o'.cell? id).isSome) = true :=
    ⟨_,Workbook.made (by decide +kernel),by decide +kernel⟩
  have both (a : String) (listed : a ∈ ["S!D1","S!A1","S!A2"]) : o.Holds a ∧ o'.Holds a :=
    ⟨Model.holds_find? (List.all_eq_true.mp cells a listed),Model.holds_find? (List.all_eq_true.mp cells' a listed)⟩
  have fits : ∀ op ∈ ops, op.Fits o o' := by
    have assigns (a : String) (value : Value) (listed : a ∈ ["S!A1","S!A2"]) : (Op.assign a value).Fits o o' := by
      obtain ⟨here,there⟩ := both a (by simp_all)
      refine ⟨here,there,?_⟩
      rintro _ _ ⟨⟩ id c resolved found
      simpa [resolved,found,Except.toOption] using List.all_eq_true.mp constants a listed
    intro op listed
    simp only [ops,List.mem_cons,List.not_mem_nil,or_false] at listed
    rcases listed with rfl | rfl | rfl
    · exact ⟨(both "S!D1" (by simp)).1,(both "S!D1" (by simp)).2,by rintro _ _ ⟨⟩⟩
    · exact assigns _ _ (by simp)
    · exact assigns _ _ (by simp)
  have alike := narrowing_unseen (by decide) rfl wide narrow (.of_nodes modest) fits (both "S!D1" (by simp)).1 (both "S!D1" (by simp)).2
  rw [shown] at alike
  exact ⟨o,o',wide,narrow,shown,mapError_ok alike.symm⟩

end Recalc
