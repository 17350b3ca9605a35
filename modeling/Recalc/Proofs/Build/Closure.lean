import Recalc.Proofs.Build.Built

namespace Recalc

-- Names that stand in a reference as they are.
def Named (name : String) : Prop := ∀ mark ∈ ['!',':',';','$','\''], mark ∉ name.toList

-- mark by mark, and not over all characters there are
instance (name : String) : Decidable (Named name) := List.decidableBAll _ _

theorem Named.plain (named : Named name) : Plain name := ⟨named ':' (by simp),named ';' (by simp)⟩

theorem Named.bare (named : Named name) : bare name = name := by
  have kept : ∀ c ∈ name.toList, decide (c = '\'') = false := by
    intro c member
    simpa using fun same : c = '\'' => named '\'' (by simp) (same ▸ member)
  have start : name.toList.dropWhile (· = '\'') = name.toList :=
    List.dropWhile_eq_self_iff.mpr fun some => by simpa using kept _ (List.getElem_mem some)
  rw [Recalc.bare,Text.trimBy_rdropWhile,start,List.rdropWhile_eq_self_iff.mpr,String.ofList_toList]
  exact fun some => by simpa using kept _ (List.getLast_mem some)

namespace Workbook

def Named (book : Workbook) : Prop := ∀ s ∈ book.sheets, Recalc.Named s.name

instance (book : Workbook) : Decidable book.Named := inferInstanceAs (Decidable (∀ s ∈ book.sheets, _))

theorem Named.plain {book : Workbook} (named : book.Named) : book.Plain := fun s listed => (named s listed).plain

def entry (book : Workbook) (cell : CellRef) : Entry :=
  ((book.find? cell.sheet).map fun s => s.entry cell.position).getD .blank

theorem entry_known {w : Workbook} {c : CellRef} (known : w.find? c.sheet = some s) : w.entry c = s.entry c.position := by
  unfold entry
  rw [known]
  rfl

theorem entry_listed {book : Workbook} {cell : CellRef} (holds : (book.entry cell).formula?.isSome = true) :
    ∃ s ∈ book.sheets, ∃ e ∈ s.entries, (⟨s.name,e.1.column,e.1.row⟩ : CellRef) = cell ∧ e.2 = book.entry cell := by
  cases found : book.find? cell.sheet with
  | none => simp [entry,found,Entry.blank,Entry.formula?] at holds
  | some s =>
    have on : s.name = cell.sheet := by simpa using List.find?_some found
    have known := entry_known found
    cases there : s.find? cell.position with
    | none => simp [known,Worksheet.entry,there,Entry.blank,Entry.formula?] at holds
    | some e =>
      obtain ⟨⟨p,e'⟩,first,same⟩ := Option.map_eq_some_iff.mp there
      have here : p = cell.position := by simpa using List.find?_some first
      refine ⟨s,List.mem_of_find?_eq_some found,_,List.mem_of_find?_eq_some first,?_,?_⟩
      · rw [here,on]
        rfl
      · rw [known,Worksheet.entry,there]
        exact same

def seedRect (book : Workbook) (sheet range : String) : Except ReferenceError Rect := do
  let active ← book.select sheet
  Rect.parse (← clampRange range active.extents) sheet

-- The tree of a formula on the sheet. A reference without a sheet is taken on it, whatever
-- stands before, and every reference is clamped to the sheet it is taken on.
def tree (book : Workbook) (sheet formula : String) : Except FormulaError Tree := do
  let items ← ReversePolish.ofTokens (← liftParse (tokenize (stripEquals formula)))
  let clamped ← liftReference (clampItems
    (fun item => Workbook.extents <$> book.select ((splitSheet item.token.text).1.getD sheet)) items)
  liftParse (Tree.ofItems clamped)

def compiled (book : Workbook) (cell : CellRef) (formula : String) : Except FormulaError Expr := do
  let tree ← book.tree cell.sheet formula
  let active ← liftReference (book.select cell.sheet)
  Expr.ofTree ⟨cell,some active⟩ tree

end Workbook

inductive Target where
  | cell (cell : CellRef)
  | range (region : Region)

def Target.cells : Target → List CellRef
  | .cell c => [c]
  | .range region => region.rects.flatMap Rect.cells

-- Of the table of a lookup only the slices it reads, where lookups are narrowed.
def Tree.Reference.target (options : BuildOptions) (book : Workbook) (sheet : String) (reference : Tree.Reference) :
    Except ReferenceError Target := do
  let on := (splitSheet reference.text).1.getD sheet
  let _ ← book.select on
  if isRange reference.text then
    return .range (Build.regionOf options reference.table (← Rect.parse reference.text on))
  else return .cell (← CellRef.parse reference.text on)

def BuildOptions.cell (options : BuildOptions) (book : Workbook) (cell : CellRef) : Cell :=
  let value := Value.ofContent (book.entry cell).value
  let format := (book.entry cell).format.getD .general
  match (book.entry cell).formula? with
  | none => .constant cell.text cell.sheet value format
  | some formula => .ofFormula cell.text cell.sheet formula value format (!options.trustCached || value.isEmpty)

def Refers (options : BuildOptions) (book : Workbook) (f : CellRef) (target : Target) : Prop :=
  ∃ formula tree, (book.entry f).formula? = some formula ∧ book.tree f.sheet formula = .ok tree ∧
    ∃ reference ∈ tree.references, reference.target options book f.sheet = .ok target

-- The cells that are needed: the seeded ones that hold anything, and what formulas refer to.
inductive Closure (options : BuildOptions) (book : Workbook) (seeds : List (String × String)) : CellRef → Prop where
  | seeded (listed : (sheet,range) ∈ seeds) (clamped : book.seedRect sheet range = .ok rect) (inside : cell ∈ rect.cells)
      (filled : ¬ ((book.entry cell).formula?.isNone ∧ (book.entry cell).value.isEmpty)) : Closure options book seeds cell
  | referred (needed : Closure options book seeds f) (refers : Refers options book f target) (inside : cell ∈ target.cells) :
      Closure options book seeds cell

theorem Rect.mem_cells {r : Rect} {cell : CellRef} :
    cell ∈ r.cells ↔ ∃ row column, row < r.rows ∧ column < r.columns ∧ r.cellAt row column = cell := by
  simp only [Rect.cells,Rect.grid,List.mem_flatten,List.mem_map,List.mem_range]
  constructor
  · rintro ⟨_,⟨row,inside,rfl⟩,listed⟩
    obtain ⟨column,within,rfl⟩ := List.mem_map.mp listed
    exact ⟨row,column,inside,List.mem_range.mp within,rfl⟩
  · rintro ⟨row,column,inside,within,rfl⟩
    exact ⟨_,⟨row,inside,rfl⟩,List.mem_map.mpr ⟨column,List.mem_range.mpr within,rfl⟩⟩

@[simp] theorem Rect.length_cells (r : Rect) : r.cells.length = r.rows * r.columns := by
  simp [Rect.cells,Rect.grid,List.length_flatten,Function.comp_def,List.map_const']

def Region.Lists (region : Region) : Prop := ∀ text, text ∈ region.rows.flatten ↔
  ∃ cell ∈ (Target.range region).cells, cell.text = text

theorem Region.lists_ofRect (r : Rect) : (Region.ofRect r).Lists := by
  intro text
  have rows : (Region.ofRect r).rows.flatten = r.cells.map CellRef.text := by
    simp [Region.ofRect,Rect.cells,List.map_flatten]
  rw [rows]
  simp [Region.ofRect,Target.cells]

theorem mem_zipWith_pair {as : List α} {bs : List β} {f : α → γ} {g : β → γ} (long : as.length = bs.length) :
    c ∈ (List.zipWith (fun a b => [f a,g b]) as bs).flatten ↔ (∃ a ∈ as, f a = c) ∨ ∃ b ∈ bs, g b = c := by
  induction as generalizing bs with
  | nil => simp_all [eq_comm]
  | cons a as ih =>
    cases bs with
    | nil => simp at long
    | cons b bs =>
      have shorter : as.length = bs.length := by simpa using long
      have rest := ih shorter
      simp only [List.zipWith_cons_cons,List.flatten_cons,List.mem_append,rest,List.mem_cons,List.not_mem_nil,or_false]
      grind

theorem Region.lists_besides {key result : Rect} (long : key.cells.length = result.cells.length) :
    (Region.besides key result).Lists := by
  intro text
  unfold Region.besides
  rw [mem_zipWith_pair long]
  simp only [Target.cells,List.mem_flatMap,List.mem_cons,List.not_mem_nil,or_false]
  grind

theorem Region.lists_stacked (key result : Rect) : (Region.stacked key result).Lists := by
  intro text
  simp only [Region.stacked,Target.cells,List.mem_flatMap,List.mem_flatten,List.mem_cons,List.not_mem_nil,or_false]
  grind

theorem parse_ofCell {c : CellRef} (proper : (Rect.ofCell c).Proper) (sheet : String) :
    Rect.parse c.text sheet = .ok (.ofCell c) := by
  have absent : ':' ∉ c.text.toList := by
    rw [colon_cell]
    exact proper.plain.1
  unfold Rect.parse
  rw [splitRange_none absent,proper.parse_cell sheet]
  rfl

namespace Build

inductive Cut (r : Rect) : Region → Prop where
  | whole : Cut r (.ofRect r)
  | column (first : r.columnSlice 1 = some key) : Cut r (.ofRect key)
  | columns (first : r.columnSlice 1 = some key) (second : r.columnSlice index = some result) : Cut r (.besides key result)
  | row (first : r.rowSlice 1 = some key) : Cut r (.ofRect key)
  | rows (first : r.rowSlice 1 = some key) (second : r.rowSlice index = some result) : Cut r (.stacked key result)

theorem cut_slices {use : Tree.TableUse} {r : Rect} {region : Region} (made : slices use r = some region) : Cut r region := by
  unfold slices at made
  split at made
  · obtain ⟨key,first,made⟩ := Option.bind_eq_some_iff.mp made
    obtain ⟨result,second,made⟩ := Option.bind_eq_some_iff.mp made
    split at made <;> cases made
    · exact .column first
    · exact .columns first second
  · obtain ⟨key,first,made⟩ := Option.bind_eq_some_iff.mp made
    obtain ⟨result,second,made⟩ := Option.bind_eq_some_iff.mp made
    split at made <;> cases made
    · exact .row first
    · exact .rows first second

theorem cut_regionOf (options : BuildOptions) (use : Option Tree.TableUse) (r : Rect) : Cut r (regionOf options use r) := by
  unfold regionOf
  split
  · cases use with
    | none => exact .whole
    | some use =>
      cases made : slices use r with
      | none => simpa [made] using Cut.whole
      | some region => simpa [made] using cut_slices made
  · exact .whole

theorem columnSlice_cells {r slice : Rect} {index : Nat} (cut : r.columnSlice index = some slice) :
    slice.cells.length = r.rows ∧ ∀ cell ∈ slice.cells, cell ∈ r.cells := by
  unfold Rect.columnSlice at cut
  split at cut
  · rename_i inside
    cases cut
    refine ⟨by simp [Rect.rows,Rect.columns],fun cell listed => ?_⟩
    obtain ⟨row,column,above,within,rfl⟩ := Rect.mem_cells.mp listed
    have only : column = 0 := by simpa [Rect.columns] using within
    exact Rect.mem_cells.mpr ⟨row,index - 1,above,by omega,by simp [Rect.cellAt,only]⟩
  · cases cut

theorem rowSlice_cells {r slice : Rect} {index : Nat} (cut : r.rowSlice index = some slice) :
    ∀ cell ∈ slice.cells, cell ∈ r.cells := by
  unfold Rect.rowSlice at cut
  split at cut
  · rename_i inside
    cases cut
    intro cell listed
    obtain ⟨row,column,above,within,rfl⟩ := Rect.mem_cells.mp listed
    have only : row = 0 := by simpa [Rect.rows] using above
    exact Rect.mem_cells.mpr ⟨index - 1,column,by omega,within,by simp [Rect.cellAt,only]⟩
  · cases cut

theorem Cut.lists {r : Rect} {region : Region} (cut : Cut r region) : region.Lists := by
  cases cut with
  | whole => exact Region.lists_ofRect r
  | column first => exact Region.lists_ofRect _
  | columns first second => exact Region.lists_besides ((columnSlice_cells first).1.trans (columnSlice_cells second).1.symm)
  | row first => exact Region.lists_ofRect _
  | rows first second => exact Region.lists_stacked _ _

theorem Cut.inside {r : Rect} {region : Region} (cut : Cut r region) {cell : CellRef}
    (inside : cell ∈ (Target.range region).cells) : cell ∈ r.cells := by
  simp only [Target.cells,List.mem_flatMap] at inside
  obtain ⟨slice,listed,inside⟩ := inside
  cases cut with
  | whole => exact List.mem_singleton.mp listed ▸ inside
  | column first => exact (columnSlice_cells first).2 cell (List.mem_singleton.mp listed ▸ inside)
  | columns first second =>
    rcases List.mem_pair.mp listed with rfl | rfl
    · exact (columnSlice_cells first).2 cell inside
    · exact (columnSlice_cells second).2 cell inside
  | row first => exact rowSlice_cells first cell (List.mem_singleton.mp listed ▸ inside)
  | rows first second =>
    rcases List.mem_pair.mp listed with rfl | rfl
    · exact rowSlice_cells first cell inside
    · exact rowSlice_cells second cell inside

end Build

structure Located (book : Workbook) (cell : CellRef) : Prop where
  sheet : ∃ s ∈ book.sheets, s.name = cell.sheet
  named : cell.sheet ≠ ""
  bounded : cell.Bounded

theorem Located.proper {book : Workbook} (named : book.Named) (located : Located book cell) : (Rect.ofCell cell).Proper := by
  obtain ⟨s,listed,on⟩ := located.sheet
  have known := named s listed
  rw [on] at known
  exact ⟨Rect.bounded_ofCell located.bounded,known.plain,located.named,known.bare⟩

theorem Rect.located {book : Workbook} {r : Rect} (bounded : r.Bounded) (some : r.sheet ≠ "")
    (sheet : ∃ s ∈ book.sheets, s.name = r.sheet) (inside : cell ∈ r.cells) : Located book cell := by
  obtain ⟨row,column,above,within,rfl⟩ := Rect.mem_cells.mp inside
  obtain ⟨columns,rows⟩ := bounded
  unfold Rect.rows Rect.columns at *
  exact ⟨sheet,some,⟨by simp only [Rect.cellAt]; omega,by simp only [Rect.cellAt]; omega⟩⟩

section
variable {options : BuildOptions} {book : Workbook} {sheet : String} {reference : Tree.Reference}

theorem splitSheet_again (text sheet : String) :
    (splitSheet text).1.getD ((splitSheet text).1.getD sheet) = (splitSheet text).1.getD sheet := by
  cases (splitSheet text).1 <;> rfl

theorem target_ok (leads : reference.target options book sheet = .ok target) :
    (∃ s ∈ book.sheets, s.name = (splitSheet reference.text).1.getD sheet) ∧
      ((∃ r, Rect.parse reference.text ((splitSheet reference.text).1.getD sheet) = .ok r ∧
        target = .range (Build.regionOf options reference.table r)) ∨
      ∃ c, CellRef.parse reference.text ((splitSheet reference.text).1.getD sheet) = .ok c ∧ target = .cell c) := by
  obtain ⟨active,selected,leads⟩ := bind_ok.mp leads
  refine ⟨(Workbook.select_ok selected).1,?_⟩
  split at leads
  · obtain ⟨r,parsed,made⟩ := bind_ok.mp leads
    cases made
    exact .inl ⟨r,parsed,rfl⟩
  · obtain ⟨c,parsed,made⟩ := bind_ok.mp leads
    cases made
    exact .inr ⟨c,parsed,rfl⟩

theorem target_located (leads : reference.target options book sheet = .ok target) (inside : cell ∈ target.cells) :
    Located book cell := by
  obtain ⟨on,⟨r,parsed,rfl⟩ | ⟨c,parsed,rfl⟩⟩ := target_ok leads
  · obtain ⟨bounded,same,some⟩ := Rect.parse_ok parsed
    rw [splitSheet_again] at same
    exact Rect.located bounded some (same ▸ on) ((Build.cut_regionOf options reference.table r).inside inside)
  · obtain ⟨bounded,same,some⟩ := CellRef.parse_ok parsed
    rw [splitSheet_again] at same
    cases List.mem_singleton.mp inside
    exact ⟨same ▸ on,some,bounded⟩

theorem Closure.located (needed : Closure options book seeds cell) : Located book cell := by
  cases needed with
  | @seeded sheet range rect cell listed clamped inside filled =>
    obtain ⟨active,-,clamped⟩ := bind_ok.mp clamped
    obtain ⟨text,-,parsed⟩ := bind_ok.mp clamped
    obtain ⟨bounded,-,some⟩ := Rect.parse_ok parsed
    refine Rect.located bounded some ?_ inside
    have same : cell.sheet = rect.sheet := by
      obtain ⟨row,column,-,-,rfl⟩ := Rect.mem_cells.mp inside
      rfl
    rw [← same]
    cases found : book.find? cell.sheet with
    | none => simp [Workbook.entry,found,Entry.blank,Entry.formula?,Content.isEmpty] at filled
    | some s => exact ⟨s,List.mem_of_find?_eq_some found,by simpa using List.find?_some found⟩
  | referred needed refers inside =>
    obtain ⟨formula,tree,-,-,reference,-,leads⟩ := refers
    exact target_located leads inside

variable (options) in
-- What a clamped reference is wired up to, beside its canonical spelling. A list of cells is
-- taken for a cell of a sheet that no workbook of this kind has.
theorem target_canonical (named : book.Named) (clamped : Clamped reference.text)
    (selected : book.select ((splitSheet reference.text).1.getD sheet) = .ok active)
    (made : canonicalize reference.text ((splitSheet reference.text).1.getD sheet) = .ok canonical) :
    (isRange canonical = true ∧ ∃ r : Rect, r.Proper ∧ canonical = r.text ∧
        reference.target options book sheet = .ok (.range (Build.regionOf options reference.table r))) ∨
      (isRange canonical = false ∧ ∃ c : CellRef, (Rect.ofCell c).Proper ∧ canonical = c.text ∧
        reference.target options book sheet = .ok (.cell c)) ∨
      ':' ∉ canonical.toList ∧ ∃ name rest, splitSheet canonical = (some name,rest) ∧ ';' ∈ name.toList := by
  have known : Recalc.Named ((splitSheet reference.text).1.getD sheet) := by
    obtain ⟨s,listed,same⟩ := (Workbook.select_ok selected).1
    exact same ▸ named s listed
  by_cases many : ';' ∈ reference.text.toList
  · exact .inr (.inr (canonicalize_many known.plain many (clamped.single sheet known.plain many) made))
  · rcases canonicalPart_ok (canonicalize_single many made) with ⟨ranged,r,read,rfl⟩ | ⟨single,c,read,rfl⟩
    · obtain ⟨bounded,same,some⟩ := Rect.parse_ok read
      rw [splitSheet_again] at same
      have proper : r.Proper := ⟨bounded,same ▸ known.plain,some,by rw [same]; exact known.bare⟩
      refine .inl ⟨isRange_rect proper.plain some,r,proper,rfl,?_⟩
      simp [Tree.Reference.target,selected,ranged,read,bind,Except.bind,pure,Except.pure]
    · obtain ⟨bounded,same,some⟩ := CellRef.parse_ok read
      rw [splitSheet_again] at same
      have plain : Plain c.sheet := same ▸ known.plain
      have bared : bare c.sheet = c.sheet := by rw [same]; exact known.bare
      have proper : (Rect.ofCell c).Proper := ⟨Rect.bounded_ofCell bounded,plain,some,bared⟩
      refine .inr (.inl ⟨isRange_false (by rw [colon_cell]; exact plain.1),c,proper,rfl,?_⟩)
      simp [Tree.Reference.target,selected,single,read,bind,Except.bind,pure,Except.pure]

end
end Recalc
