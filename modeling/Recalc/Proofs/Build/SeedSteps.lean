import Recalc.Proofs.Build.PartialModel

namespace Recalc

namespace Model
variable {m m' m'' : Model} {id : NodeId}

structure Adds (m m' : Model) : Prop where
  grows : m.Extends m'
  nodes : m.nodes <+: m'.nodes

namespace Adds

theorem refl (m : Model) : m.Adds m := ⟨.refl m,List.prefix_rfl⟩

theorem trans (one : m.Adds m') (two : m'.Adds m'') : m.Adds m'' := ⟨one.grows.trans two.grows,one.nodes.trans two.nodes⟩

theorem insert (m : Model) (n : Node) : m.Adds (m.insert n) := ⟨m.insert_extends n,List.prefix_append _ _⟩

theorem link (m : Model) (a b : NodeId) : m.Adds (m.link a b) := ⟨m.link_extends a b,List.prefix_rfl⟩

theorem narrow (m : Model) (address : String) : m.Adds (m.narrow address) :=
  ⟨m.narrow_extends address,[],by rw [List.append_nil,m.nodes_narrow address]⟩

theorem node (adds : m.Adds m') (there : m.nodes[id]? = some n) : m'.nodes[id]? = some n := by
  obtain ⟨rest,joined⟩ := adds.nodes
  rw [← joined,List.getElem?_append_left (List.getElem?_eq_some_iff.mp there).1,there]

theorem cell (adds : m.Adds m') (found : m.cell? id = some c) : m'.cell? id = some c :=
  cell?_eq_some.mpr (adds.node (cell?_eq_some.mp found))

end Adds
end Model

theorem Workbook.entry_same {w w' : Workbook} (sheets : w'.sheets = w.sheets) (cell : CellRef) : w'.entry cell = w.entry cell := by
  simp only [Workbook.entry,Workbook.find?,sheets]

def Fits (book : Workbook) (r : Rect) (block : Block) : Prop := ∀ row column, row < r.rows → column < r.columns →
  block.formula? row column = (book.entry (r.cellAt row column)).formula? ∧
    (block.value? row column).getD .empty = (book.entry (r.cellAt row column)).value ∧
    block.format? row column = (book.entry (r.cellAt row column)).format

theorem fits_ofEntries (book : Workbook) (r : Rect) : Fits book r (.ofEntries (r.grid.map (·.map book.entry))) := by
  intro row column inside within
  simp [Block.ofEntries,Block.formula?,Block.value?,Block.format?,Block.at?,Rect.grid,inside,within]

namespace Build
variable {α : Type} {options : BuildOptions} {book : Workbook} {seeds : List (String × String)} {opened popped : List NodeId}
  {b b' : Builder} {id target : NodeId} {cell : CellRef} {r : Rect} {u : Unit}

theorem ran_readSheet {block : Block} (named : r.sheet ≠ "") (bared : bare r.sheet = r.sheet)
    (ran : readRect r b = (.ok block,b')) : ∃ s ∈ b.book.sheets, s.name = r.sheet := by
  obtain ⟨read,-⟩ := ran_readRect named ran
  rwa [bared] at read

-- A rectangle is read on the sheet of its name without quotes around it.
theorem ran_read {block : Block} (bounded : r.Bounded) (some : r.sheet ≠ "") (ran : readRect r b = (.ok block,b')) :
    b' = b ∧ Fits b.book {r with sheet := bare r.sheet} block := by
  obtain ⟨first,mid,step,rest⟩ := ran_bind (ran_get ran)
  obtain ⟨read,rfl⟩ := ran_reference step
  obtain ⟨v,last,shape,done⟩ := ran_bind rest
  obtain ⟨-,rfl⟩ := ran_reference shape
  obtain ⟨rfl,rfl⟩ := ran_pure done
  refine ⟨rfl,?_⟩
  simp only [Workbook.read,Rect.splitSheet_text some,Option.getD_some] at read
  split at read
  · cases read
  · rename_i s found
    obtain ⟨rect,parsed,made⟩ := bind_ok.mp read
    obtain ⟨-,same,named⟩ := Rect.parse_ok parsed
    rw [Rect.splitSheet_text some,Option.getD_some] at same
    rw [Rect.parse_text bounded (same ▸ named)] at parsed
    cases parsed
    cases made
    have entries : (Rect.grid {r with sheet := bare r.sheet}).map (·.map fun cell => s.entry cell.position) =
        (Rect.grid {r with sheet := bare r.sheet}).map (·.map b.book.entry) := by
      refine List.map_congr_left fun row listed => List.map_congr_left fun cell member => ?_
      have inside : cell ∈ Rect.cells {r with sheet := bare r.sheet} := List.mem_flatten_of_mem listed member
      obtain ⟨i,j,-,-,rfl⟩ := Rect.mem_cells.mp inside
      have on : b.book.find? (Rect.cellAt {r with sheet := bare r.sheet} i j).sheet = Option.some s := found
      exact (Workbook.entry_known on).symm
    rw [entries]
    exact fits_ofEntries b.book _

theorem ran_block {block : Block} (proper : r.Proper) (ran : readRect r b = (.ok block,b')) : b' = b ∧ Fits b.book r block := by
  have read := ran_read proper.bounded proper.named ran
  rwa [proper.bared] at read

theorem ran_each (f : α → Build Unit) (as : List α) (done : α → Model → Prop)
    (traced : Traced options book seeds opened popped b)
    (each : ∀ a ∈ as, ∀ c d v, Traced options book seeds opened popped c → b.model.Adds c.model → f a c = (.ok v,d) →
      Traced options book seeds opened popped d ∧ c.model.Adds d.model ∧ done a d.model)
    (keeps : ∀ a m m', m.Extends m' → done a m → done a m') (ran : as.forM f b = (.ok u,b')) :
    Traced options book seeds opened popped b' ∧ b.model.Adds b'.model ∧ ∀ a ∈ as, done a b'.model := by
  induction as generalizing b with
  | nil =>
    obtain ⟨-,rfl⟩ := ran_pure ran
    exact ⟨traced,.refl _,by simp⟩
  | cons a as ih =>
    obtain ⟨v,mid,first,ran⟩ := ran_bind ran
    obtain ⟨between,adds,here⟩ := each a List.mem_cons_self b mid v traced (.refl _) first
    obtain ⟨after,further,there⟩ := ih between
      (fun x listed c d w so more => each x (List.mem_cons_of_mem _ listed) c d w so (adds.trans more)) ran
    refine ⟨after,adds.trans further,fun x listed => ?_⟩
    rcases List.mem_cons.mp listed with rfl | listed
    · exact keeps x _ _ further.grows here
    · exact there x listed

section
variable (traced : Traced options book seeds opened popped b)
include traced

theorem traced_addCell {formula : Option String} {content : Content} {format : Option NumberFormat}
    (needed : Closure options book seeds cell) (fresh : b.model.find? cell.text = none)
    (formulas : formula = (book.entry cell).formula?) (contents : content = (book.entry cell).value)
    (formats : format = (book.entry cell).format) (ran : addCell options cell formula content format b = (.ok id,b')) :
    Traced options book seeds opened popped b' ∧ b.model.Adds b'.model ∧ b'.model.find? cell.text = some id := by
  subst formulas contents formats
  let n : Node := .cell (options.cell book cell)
  obtain ⟨rfl,rfl⟩ : id = b.model.nodes.length ∧ b' = {b with
      model := b.model.insert n
      todo := if (n.cell?.bind Cell.formula).isSome then b.model.nodes.length :: b.todo else b.todo} := by
    have ran := ran_get ran
    have formula := cell_formula options book cell
    unfold BuildOptions.cell at formula
    cases known : (book.entry cell).formula? with
    | none =>
      simp only [known] at ran
      cases ran
      simp [n,Node.cell?,BuildOptions.cell,known,Cell.constant]
    | some formula =>
      simp only [known] at ran
      cases ran
      simp [n,Node.cell?,BuildOptions.cell,known,Cell.ofFormula]
  have address : n.address = cell.text := cell_address options book cell
  have after := traced.insert (fun _ listed => listed) (address ▸ fresh)
    (fun c made => ⟨cell,needed,(Node.cell.inj made).symm⟩) (by simp) rfl
  refine ⟨after,.insert b.model n,?_⟩
  rw [← address]
  exact after.distinct.find? (by simp [n])

theorem traced_wire {block : Block} {place : Nat × Nat} (needed : Closure options book seeds (r.cellAt place.1 place.2))
    (takes : b.model.Takes options book target (r.cellAt place.1 place.2).text)
    (fits : (b.model.find? (r.cellAt place.1 place.2).text).isSome = true ∨
      block.formula? place.1 place.2 = (book.entry (r.cellAt place.1 place.2)).formula? ∧
        (block.value? place.1 place.2).getD .empty = (book.entry (r.cellAt place.1 place.2)).value ∧
        block.format? place.1 place.2 = (book.entry (r.cellAt place.1 place.2)).format)
    (ran : wire options r target block place b = (.ok u,b')) : Traced options book seeds opened popped b' ∧
      b.model.Adds b'.model ∧ b'.model.Met target (r.cellAt place.1 place.2).text := by
  have links {mid : Builder} {y : NodeId} (between : Traced options book seeds opened popped mid) (adds : b.model.Adds mid.model)
      (found : mid.model.find? (r.cellAt place.1 place.2).text = some y)
      (linked : b' = {mid with model := mid.model.link y target}) : Traced options book seeds opened popped b' ∧
        b.model.Adds b'.model ∧ b'.model.Met target (r.cellAt place.1 place.2).text := by
    subst linked
    refine ⟨between.link (Model.find?_stands found) (adds.grows.takes takes),adds.trans (.link _ _ _),y,found,?_⟩
    exact (Graph.mem_add _).mpr (.inl rfl)
  cases wire_cases ran with
  | known found => exact links traced (.refl _) found rfl
  | made fresh added =>
    rcases fits with known | ⟨formulas,contents,formats⟩
    · simp [fresh] at known
    · obtain ⟨between,adds,here⟩ := traced_addCell traced needed fresh formulas contents formats added
      exact links between adds here rfl

theorem traced_addConstituents (proper : r.Proper) (needed : ∀ cell ∈ r.cells, Closure options book seeds cell)
    (takes : ∀ cell ∈ r.cells, b.model.Takes options book target cell.text)
    (ran : addConstituents options r target b = (.ok u,b')) : Traced options book seeds opened popped b' ∧
      b.model.Adds b'.model ∧ ∀ cell ∈ r.cells, b'.model.Met target cell.text := by
  have wires {block : Block} (fits : (∀ cell ∈ r.cells, (b.model.find? cell.text).isSome = true) ∨ Fits book r block)
      (ran : (offsets r).forM (wire options r target block) b = (.ok u,b')) : Traced options book seeds opened popped b' ∧
        b.model.Adds b'.model ∧ ∀ cell ∈ r.cells, b'.model.Met target cell.text := by
    have each (place : Nat × Nat) (listed : place ∈ offsets r) (c d : Builder) (v : Unit)
        (so : Traced options book seeds opened popped c) (more : b.model.Adds c.model)
        (step : wire options r target block place c = (.ok v,d)) : Traced options book seeds opened popped d ∧
          c.model.Adds d.model ∧ d.model.Met target (r.cellAt place.1 place.2).text := by
      obtain ⟨above,within⟩ := mem_offsets.mp listed
      have inside := Rect.mem_cells.mpr ⟨_,_,above,within,rfl⟩
      refine traced_wire so (needed _ inside) (more.grows.takes (takes _ inside)) ?_ step
      refine fits.imp (fun known => ?_) fun fits => fits _ _ above within
      obtain ⟨y,found⟩ := Option.isSome_iff_exists.mp (known _ inside)
      simp [more.grows.find? found]
    obtain ⟨after,adds,met⟩ := ran_each (wire options r target block) (offsets r)
      (fun place m => m.Met target (r.cellAt place.1 place.2).text) traced each (fun place m m' grows met => grows.met met) ran
    refine ⟨after,adds,fun cell inside => ?_⟩
    obtain ⟨row,column,above,within,rfl⟩ := Rect.mem_cells.mp inside
    exact met (row,column) (mem_offsets.mpr ⟨above,within⟩)
  have ran := ran_get ran
  split at ran
  · rename_i all
    have wired : (offsets r).forM (wire options r target (.ofEntries [])) b = (.ok u,b') := ran
    exact wires (.inl (List.all_eq_true.mp all)) wired
  · obtain ⟨block,mid,first,last⟩ := ran_bind ran
    obtain ⟨rfl,fits⟩ := ran_block proper first
    have wired : (offsets r).forM (wire options r target block) mid = (.ok u,b') := last
    refine wires (.inr fun row column above within => ?_) wired
    rw [← Workbook.entry_same traced.sheets]
    exact fits row column above within

theorem sheet_constituents (named : book.Named) (some : r.sheet ≠ "") (colon : ':' ∉ r.sheet.toList)
    (ran : addConstituents options r target b = (.ok u,b')) : ∃ s ∈ book.sheets, s.name = bare r.sheet := by
  have ran := ran_get ran
  split at ran
  · rename_i all
    have corner : r.cellAt 0 0 ∈ r.cells :=
      Rect.mem_cells.mpr ⟨0,0,by simp [Rect.rows],by simp [Rect.columns],rfl⟩
    obtain ⟨y,found⟩ := Option.isSome_iff_exists.mp (List.all_eq_true.mp all _ corner)
    obtain ⟨c,there,address⟩ := traced.isCell named found (by rwa [colon_cell])
    obtain ⟨s,listed,same⟩ := (traced.cell_of there address).1.located.sheet
    have same : s.name = r.sheet := same
    exact ⟨s,listed,by rw [← same,(named s listed).bare]⟩
  · obtain ⟨block,mid,first,-⟩ := ran_bind ran
    obtain ⟨read,-⟩ := ran_readRect some first
    rwa [traced.sheets] at read

end

def Sown (book : Workbook) (m : Model) (sheet range : String) : Prop := ∃ rect, book.seedRect sheet range = .ok rect ∧
  ∀ cell ∈ rect.cells, ¬ ((book.entry cell).formula?.isNone ∧ (book.entry cell).value.isEmpty) → (m.find? cell.text).isSome = true

theorem Sown.mono {m m' : Model} (grows : m.Extends m') (sown : Sown book m sheet range) : Sown book m' sheet range := by
  obtain ⟨rect,clamped,all⟩ := sown
  refine ⟨rect,clamped,fun cell inside filled => ?_⟩
  obtain ⟨y,found⟩ := Option.isSome_iff_exists.mp (all cell inside filled)
  simp [grows.find? found]

theorem traced_seed {sheet range : String} (named : book.Named) (traced : Traced options book seeds opened popped b)
    (listed : (sheet,range) ∈ seeds) (ran : seed options sheet range b = (.ok u,b')) :
    Traced options book seeds opened popped b' ∧ b.model.Adds b'.model ∧ Sown book b'.model sheet range := by
  obtain ⟨chosen,clamped,rect,block,mid,first,clamps,parsed,read,sows⟩ := seed_cases ran
  obtain ⟨selected,same⟩ := ran_selected first
  obtain ⟨on,sheets⟩ := Workbook.select_ok selected
  have start : Traced options book seeds opened popped chosen := traced.rest sheets (by rw [same]) (by rw [same])
  have model : chosen.model = b.model := by rw [same]
  have spelled : book.seedRect sheet range = .ok rect := by
    rw [Workbook.select_same traced.sheets] at selected
    simp [Workbook.seedRect,selected,clamps,parsed,bind,Except.bind]
  obtain ⟨bounded,taken,some⟩ := Rect.parse_ok parsed
  have bared : bare rect.sheet = rect.sheet := by
    obtain ⟨s,member,is⟩ := on
    rw [traced.sheets] at member
    rw [taken,splitSheet_bare,← is,(named s member).bare]
  have proper : rect.Proper := by
    obtain ⟨s,member,is⟩ := ran_readSheet some bared read
    rw [start.sheets] at member
    exact ⟨bounded,is ▸ (named s member).plain,some,bared⟩
  obtain ⟨rfl,fits⟩ := ran_block proper read
  let filled (place : Nat × Nat) : Prop := ¬ ((book.entry (rect.cellAt place.1 place.2)).formula?.isNone ∧
    (book.entry (rect.cellAt place.1 place.2)).value.isEmpty)
  have each (place : Nat × Nat) (inside : place ∈ offsets rect) (c d : Builder) (v : Unit)
      (so : Traced options book seeds opened popped c) (more : mid.model.Adds c.model)
      (step : sow options rect block place c = (.ok v,d)) : Traced options book seeds opened popped d ∧
        c.model.Adds d.model ∧ (filled place → (d.model.find? (rect.cellAt place.1 place.2).text).isSome = true) := by
    obtain ⟨row,column⟩ := place
    obtain ⟨above,within⟩ := mem_offsets.mp inside
    obtain ⟨formulas,contents,formats⟩ := fits row column above within
    rw [Workbook.entry_same start.sheets] at formulas contents formats
    cases sow_cases step with
    | passed nothing =>
      rw [formulas,contents] at nothing
      exact ⟨so,.refl _,nothing.resolve_left⟩
    | made holds fresh added =>
      rw [formulas,contents] at holds
      have needed : Closure options book seeds (rect.cellAt row column) :=
        .seeded listed spelled (Rect.mem_cells.mpr ⟨row,column,above,within,rfl⟩) holds
      obtain ⟨next,adds,found⟩ := traced_addCell so needed fresh formulas contents formats added
      exact ⟨next,adds,fun _ => by simp [found]⟩
  obtain ⟨after,adds,sown⟩ := ran_each (sow options rect block) (offsets rect)
    (fun place m => filled place → (m.find? (rect.cellAt place.1 place.2).text).isSome = true) start each (fun place m m' grows done filled => by
      obtain ⟨y,found⟩ := Option.isSome_iff_exists.mp (done filled)
      simp [grows.find? found]) sows
  refine ⟨after,model ▸ adds,rect,spelled,fun cell inside => ?_⟩
  obtain ⟨row,column,above,within,rfl⟩ := Rect.mem_cells.mp inside
  exact sown (row,column) (mem_offsets.mpr ⟨above,within⟩)

end Build
end Recalc
