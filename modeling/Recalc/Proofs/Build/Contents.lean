import Recalc.Proofs.Build.SeedSteps
import Recalc.Proofs.Build.SingleCells

namespace Recalc

section
variable {α : Type} {rows columns i : Nat}

theorem getElem?_rows (f : Nat → Nat → α) (inside : i < rows * columns) :
    ((List.range rows).flatMap fun row => (List.range columns).map (f row))[i]? = some (f (i / columns) (i % columns)) := by
  have wide : 0 < columns := Nat.pos_of_ne_zero (by rintro rfl; simp at inside)
  have length (rows : Nat) : ((List.range rows).flatMap fun row => (List.range columns).map (f row)).length = rows * columns := by
    simp [List.length_flatMap,List.map_const']
  induction rows with
  | zero => simp at inside
  | succ rows ih =>
    rw [List.range_succ,List.flatMap_append]
    by_cases before : i < rows * columns
    · rw [List.getElem?_append_left (by rwa [length]),ih before]
    · have row : i / columns = rows := Nat.div_eq_of_lt_le (by omega) inside
      have column : i % columns = i - rows * columns := by
        have divides := Nat.div_add_mod i columns
        rw [row,Nat.mul_comm] at divides
        omega
      have within : i - rows * columns < columns := column ▸ Nat.mod_lt i wide
      rw [List.getElem?_append_right (by rw [length]; omega),length,row,column]
      simp [within]

end

namespace Rect
variable {r : Rect} {c : CellRef} {i : Nat}

structure Numbered (r : Rect) (i : Nat) (c : CellRef) : Prop where
  listed : r.cells[i]? = some c
  place : (Build.offsets r)[i]? = some (i / r.columns,i % r.columns)
  offset : r.cell? (i / r.columns) (i % r.columns) = some c
  address : Block.at? (Region.ofRect r).rows (i / r.columns) (i % r.columns) = some c.text
  inside : r.contains c = true

theorem offset_lt (inside : i < r.rows * r.columns) : i / r.columns < r.rows ∧ i % r.columns < r.columns :=
  ⟨Nat.div_lt_of_lt_mul (by rwa [Nat.mul_comm]),Nat.mod_lt _ (by simp [columns])⟩

theorem contains_cellAt (bounded : r.Bounded) (above : row < r.rows) (within : column < r.columns) :
    r.contains (r.cellAt row column) = true := by
  obtain ⟨⟨-,ordered,-⟩,-,upright,-⟩ := bounded
  unfold rows at above
  unfold columns at within
  have reaches : r.firstColumn + column ≤ r.lastColumn ∧ r.firstRow + row ≤ r.lastRow := by omega
  simpa [contains,cellAt] using ⟨decide_eq_true reaches.1,decide_eq_true reaches.2⟩

theorem numbered (bounded : r.Bounded) (inside : i < r.rows * r.columns) :
    r.Numbered i (r.cellAt (i / r.columns) (i % r.columns)) := by
  obtain ⟨above,within⟩ := offset_lt inside
  refine ⟨?_,getElem?_rows Prod.mk inside,by simp [cell?,above,within],?_,contains_cellAt bounded above within⟩
  · rw [cells,grid,← List.flatMap_def]
    exact getElem?_rows r.cellAt inside
  · simp [Block.at?,Region.ofRect,grid,above,within]

-- What was read of a rectangle is, cell by cell, what the sheet holds there.
structure Holds (r : Rect) (s : Worksheet) (block : Block) : Prop where
  shape : ∀ address, block.checkShape address r.rows r.columns = .ok ()
  entry : ∀ i c, r.cells[i]? = some c →
    block.formula? (i / r.columns) (i % r.columns) = (s.entry c.position).formula? ∧
      block.value? (i / r.columns) (i % r.columns) = some (s.entry c.position).value ∧
      block.format? (i / r.columns) (i % r.columns) = (s.entry c.position).format

theorem holds_ofEntries (bounded : r.Bounded) (s : Worksheet) :
    r.Holds s (.ofEntries (r.grid.map (·.map fun cell => s.entry cell.position))) := by
  refine ⟨fun address => by simp [Block.checkShape,Block.hasShape,Block.ofEntries,grid],fun i c listed => ?_⟩
  have inside : i < r.rows * r.columns := r.length_cells ▸ (List.getElem?_eq_some_iff.mp listed).1
  obtain ⟨above,within⟩ := offset_lt inside
  have same := (numbered bounded inside).listed
  rw [listed,Option.some.injEq] at same
  subst same
  simp [Block.ofEntries,Block.formula?,Block.value?,Block.format?,Block.at?,grid,above,within]

theorem read_text {book : Workbook} {s : Worksheet} (bounded : r.Bounded) (named : r.sheet ≠ "") (bared : bare r.sheet = r.sheet)
    (known : book.find? r.sheet = some s) :
    book.read r.text = .ok (.ofEntries (r.grid.map (·.map fun cell => s.entry cell.position))) := by
  simp only [Workbook.read,splitSheet_text named,bared,Option.getD_some,known,parse_own bounded named bared]
  rfl

end Rect

namespace Build
variable {α β : Type} {options : BuildOptions} {among : CellRef → Prop} {b b' mid : Builder} {r : Rect}

-- The nodes that came behind the old ones are cells with what the workbook has under their
-- own name.
structure Brings (options : BuildOptions) (among : CellRef → Prop) (b b' : Builder) : Prop where
  sheets : b'.book.sheets = b.book.sheets
  nodes : ∃ added, b'.model.nodes = b.model.nodes ++ added ∧ ∀ n ∈ added, ∃ c, among c ∧ n = .cell (options.cell b.book c)

namespace Brings

theorem still (sheets : b'.book.sheets = b.book.sheets) (nodes : b'.model.nodes = b.model.nodes) : Brings options among b b' :=
  ⟨sheets,[],by simp [nodes],by simp⟩

theorem refl (b : Builder) : Brings options among b b := still rfl rfl

theorem trans (one : Brings options among b mid) (two : Brings options among mid b') : Brings options among b b' := by
  obtain ⟨first,joined,own⟩ := one.nodes
  obtain ⟨second,further,others⟩ := two.nodes
  refine ⟨two.sheets.trans one.sheets,first ++ second,by rw [further,joined,List.append_assoc],fun n listed => ?_⟩
  rcases List.mem_append.mp listed with old | new
  · exact own n old
  · obtain ⟨c,of,made⟩ := others n new
    exact ⟨c,of,by rw [made,options.cell_same one.sheets]⟩

theorem known (brings : Brings options among b b') (found : (b.model.find? address).isSome = true) :
    (b'.model.find? address).isSome = true := by
  obtain ⟨added,joined,-⟩ := brings.nodes
  unfold Model.find? at *
  rw [joined,List.findIdx?_isSome,List.any_append,← List.findIdx?_isSome,found,Bool.true_or]

end Brings

theorem brings_bind {x : Build α} {f : α → Build β} (first : Brings options among b (x b).2)
    (next : ∀ a mid, x b = (.ok a,mid) → Brings options among mid (f a mid).2) : Brings options among b ((x >>= f) b).2 := by
  have opens : (x >>= f) b = ExceptT.bindCont f (x b).1 (x b).2 := rfl
  rw [opens]
  generalize x b = done at first next ⊢
  obtain ⟨outcome,mid⟩ := done
  cases outcome with
  | error e => exact first
  | ok a => exact first.trans (next a mid rfl)

theorem brings_get {f : Builder → Build β} (brings : Brings options among b (f b b).2) : Brings options among b ((get >>= f) b).2 := brings

theorem brings_reference (result : Except ReferenceError α) (b : Builder) : Brings options among b (ofReference result b).2 := .refl b

theorem brings_forM (f : α → Build Unit) (as : List α)
    (each : ∀ a ∈ as, ∀ mid, Brings options among b mid → Brings options among mid (f a mid).2) :
    Brings options among b (as.forM f b).2 := by
  induction as generalizing b with
  | nil => exact .refl b
  | cons a as ih =>
    have here := each a List.mem_cons_self b (.refl b)
    refine brings_bind here fun u mid ran => ih fun x listed later brings => ?_
    rw [ran] at here
    exact each x (List.mem_cons_of_mem _ listed) later (here.trans brings)

theorem brings_select (name : String) (b : Builder) : Brings options among b (select name b).2 := by
  refine brings_get (brings_bind (brings_reference _ b) fun book mid ran => ?_)
  obtain ⟨selected,rfl⟩ := ran_reference ran
  exact .still (Workbook.select_ok selected).2 rfl

theorem brings_readRect (r : Rect) (b : Builder) : Brings options among b (readRect r b).2 :=
  brings_get (brings_bind (brings_reference _ b) fun _ mid _ => brings_bind (brings_reference _ mid) fun _ last _ => .refl last)

theorem brings_addCell {formula : Option String} {content : Content} {format : Option NumberFormat} (of : among cell)
    (formulas : formula = (b.book.entry cell).formula?) (contents : content = (b.book.entry cell).value)
    (formats : format = (b.book.entry cell).format) : Brings options among b (addCell options cell formula content format b).2 := by
  subst formulas contents formats
  refine brings_get ⟨?_,[.cell (options.cell b.book cell)],?_,by simpa using ⟨cell,of,rfl⟩⟩ <;>
    cases known : (b.book.entry cell).formula? <;> simp only [BuildOptions.cell,known] <;> rfl

theorem brings_wire {block : Block} {place : Nat × Nat} (of : among (r.cellAt place.1 place.2))
    (fits : (b.model.find? (r.cellAt place.1 place.2).text).isSome = true ∨
      block.formula? place.1 place.2 = (b.book.entry (r.cellAt place.1 place.2)).formula? ∧
        (block.value? place.1 place.2).getD .empty = (b.book.entry (r.cellAt place.1 place.2)).value ∧
        block.format? place.1 place.2 = (b.book.entry (r.cellAt place.1 place.2)).format) :
    Brings options among b (wire options r target block place b).2 := by
  have linked (id : NodeId) (mid : Builder) : Brings options among mid
      ((modify fun b => {b with model := b.model.link id target} : Build Unit) mid).2 := .still rfl rfl
  refine brings_get ?_
  cases found : b.model.find? (r.cellAt place.1 place.2).text with
  | some id => exact brings_bind (.refl b) fun id mid _ => linked id mid
  | none =>
    obtain ⟨formulas,contents,formats⟩ := fits.resolve_left (by simp [found])
    exact brings_bind (brings_addCell of formulas contents formats) fun id mid _ => linked id mid

theorem Brings.fits {block : Block} (brings : Brings options among b mid) (fits : Fits b.book r block) : Fits mid.book r block := by
  intro row column above within
  rw [Workbook.entry_same brings.sheets]
  exact fits row column above within

theorem brings_addConstituents (bounded : r.Bounded) (named : r.sheet ≠ "") (bared : bare r.sheet = r.sheet) (target : NodeId) (b : Builder) :
    Brings options (· ∈ r.cells) b (addConstituents options r target b).2 := by
  have wires {start : Builder} {block : Block}
      (fits : (∀ cell ∈ r.cells, (start.model.find? cell.text).isSome = true) ∨ Fits start.book r block) :
      Brings options (· ∈ r.cells) start ((offsets r).forM (wire options r target block) start).2 := by
    refine brings_forM _ _ fun place listed mid brings => ?_
    obtain ⟨above,within⟩ := mem_offsets.mp listed
    have inside := Rect.mem_cells.mpr ⟨_,_,above,within,rfl⟩
    exact brings_wire inside (fits.imp (fun known => brings.known (known _ inside)) fun fits => brings.fits fits _ _ above within)
  refine brings_get ?_
  by_cases all : (r.cells.all fun cell => (b.model.find? cell.text).isSome) = true
  · rw [if_pos all]
    refine brings_bind (.refl b) fun block mid ran => ?_
    obtain ⟨rfl,rfl⟩ := ran_pure ran
    exact wires (.inl (List.all_eq_true.mp all))
  · rw [if_neg all]
    refine brings_bind (brings_readRect r b) fun block mid ran => ?_
    obtain ⟨rfl,fits⟩ := ran_read bounded named ran
    rw [bared] at fits
    exact wires (.inr fits)

theorem brings_seed {sheet range : String} (bared : bare sheet = sheet) (b : Builder) :
    Brings options (fun c => ∃ r, b.book.seedRect sheet range = .ok r ∧ c ∈ r.cells) b (seed options sheet range b).2 := by
  refine brings_bind (brings_select sheet b) fun u chosen first => ?_
  obtain ⟨selected,same⟩ := ran_selected first
  have sheets := (Workbook.select_ok selected).2
  refine brings_get (brings_bind (brings_reference _ chosen) fun clamped mid second => ?_)
  obtain ⟨clamps,rfl⟩ := ran_reference second
  refine brings_bind (brings_reference _ chosen) fun rect mid third => ?_
  obtain ⟨parsed,rfl⟩ := ran_reference third
  refine brings_bind (brings_readRect rect chosen) fun block mid fourth => ?_
  obtain ⟨bounded,taken,named⟩ := Rect.parse_ok parsed
  obtain ⟨rfl,fits⟩ := ran_read bounded named fourth
  have bared : bare rect.sheet = rect.sheet := by rw [taken,splitSheet_bare,bared]
  rw [bared] at fits
  have spelled : b.book.seedRect sheet range = .ok rect := by
    simp [Workbook.seedRect,selected,clamps,parsed,bind,Except.bind]
  refine brings_forM (sow options rect block) _ fun place listed later brings => ?_
  obtain ⟨above,within⟩ := mem_offsets.mp listed
  obtain ⟨formulas,contents,formats⟩ := brings.fits fits _ _ above within
  refine brings_get ?_
  split
  · exact .refl later
  · refine brings_bind (brings_addCell ⟨rect,spelled,Rect.mem_cells.mpr ⟨_,_,above,within,rfl⟩⟩ formulas contents formats) ?_
    exact fun _ last _ => .refl last

end Build

-- A rectangle lists its cells in one order everywhere. Where its text leads back to its sheet, what is read of it is what
-- the sheet holds at its cells, and so is whatever building puts into the model on its account.
theorem contents_own (book : Workbook) :
    (∀ r : Rect, r.Bounded → r.cells.length = r.rows * r.columns ∧ ∀ i, i < r.rows * r.columns → ∃ c, r.Numbered i c) ∧
    (∀ (r : Rect) (s : Worksheet), r.Bounded → r.sheet ≠ "" → bare r.sheet = r.sheet → book.find? r.sheet = some s →
      ∃ block, book.read r.text = .ok block ∧ r.Holds s block) ∧
    (∀ (options : BuildOptions) (r : Rect) (target : NodeId) (b : Builder), b.book.sheets = book.sheets → r.Bounded → r.sheet ≠ "" →
      bare r.sheet = r.sheet → Build.Brings options (· ∈ r.cells) b (Build.addConstituents options r target b).2) ∧
    ∀ (options : BuildOptions) (sheet range : String) (b : Builder), b.book.sheets = book.sheets → bare sheet = sheet →
      Build.Brings options (fun c => ∃ r, b.book.seedRect sheet range = .ok r ∧ c ∈ r.cells) b (Build.seed options sheet range b).2 := by
  refine ⟨fun r bounded => ⟨r.length_cells,fun i inside => ⟨_,Rect.numbered bounded inside⟩⟩,fun r s bounded named bared known => ?_,
    fun options r target b _ bounded named bared => Build.brings_addConstituents bounded named bared target b,
    fun options sheet range b _ bared => Build.brings_seed bared b⟩
  exact ⟨_,Rect.read_text bounded named bared known,Rect.holds_ofEntries bounded s⟩

def markedSheet : Worksheet := ⟨"it's! so:",[(⟨3,4⟩,⟨some "=B2",.text "x",none⟩),(⟨2,3⟩,⟨some "no formula",.text "y",some .general⟩)]⟩

theorem contents_own_marked : ∃ block, (⟨[⟨"S",[]⟩,markedSheet],0⟩ : Workbook).read "it's! so:!B2:C4" = .ok block ∧
    Rect.Holds ⟨"it's! so:",2,2,3,4⟩ markedSheet block ∧ Rect.Numbered ⟨"it's! so:",2,2,3,4⟩ 5 ⟨"it's! so:",3,4⟩ ∧
    ∀ b : Builder, b.book.sheets = [⟨"S",[]⟩,markedSheet] →
      Build.Brings .standard (· ∈ (⟨"it's! so:",2,2,3,4⟩ : Rect).cells) b (Build.addConstituents .standard ⟨"it's! so:",2,2,3,4⟩ 0 b).2 ∧
      Build.Brings .standard (fun c => ∃ r, b.book.seedRect "it's! so:" "B2:C4" = .ok r ∧ c ∈ r.cells) b
        (Build.seed .standard "it's! so:" "B2:C4" b).2 := by
  obtain ⟨listed,reads,links,sows⟩ := contents_own ⟨[⟨"S",[]⟩,markedSheet],0⟩
  have bounded : (⟨"it's! so:",2,2,3,4⟩ : Rect).Bounded := ⟨by decide,by decide⟩
  have bared : bare "it's! so:" = "it's! so:" := by decide
  obtain ⟨block,read,holds⟩ := reads ⟨"it's! so:",2,2,3,4⟩ markedSheet bounded (by decide) bared rfl
  obtain ⟨c,last⟩ := (listed _ bounded).2 5 (by decide)
  have corner : c = ⟨"it's! so:",3,4⟩ := Option.some.inj (last.offset.symm.trans (by decide))
  exact ⟨block,read,holds,corner ▸ last,fun b sheets =>
    ⟨links .standard _ 0 b sheets bounded (by decide) bared,sows .standard _ "B2:C4" b sheets bared⟩⟩

def quotedTwins : Workbook := ⟨[⟨"q",[(⟨1,1⟩,⟨none,.text "x",none⟩)]⟩,⟨"'q'",[(⟨1,1⟩,⟨none,.text "y",none⟩)]⟩],0⟩

-- The cell of the quoted sheet is read and built with the contents of the other; a rectangle on a sheet without a name
-- cannot be read at all.
theorem contents_crossed :
    ((quotedTwins.find? "'q'").bind fun s => (s.entry ⟨1,1⟩).value.text?) = some "y" ∧
    ((quotedTwins.read (⟨"'q'",1,1,1,1⟩ : Rect).text).toOption.bind fun block => (block.value? 0 0).bind Content.text?) = some "x" ∧
    ((Build.seed .standard "'q'" "A1" ⟨quotedTwins,.empty ⟨10000,64⟩ "'q'",[]⟩).2.model.cell? 0).map
      (fun c => (c.address,c.value.toText)) = some ("'q'!A1","x") ∧
    ((⟨[⟨"",[(⟨1,1⟩,⟨none,.text "x",none⟩)]⟩],0⟩ : Workbook).read (⟨"",1,1,1,1⟩ : Rect).text).toOption.isNone = true := by
  refine ⟨?_,?_,?_,?_⟩
  all_goals decide +kernel

end Recalc
