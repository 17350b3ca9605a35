import Recalc.Proofs.Build.Closure

namespace Recalc

-- A cell whose text tells its sheet, whatever the name is made of.
structure CellRef.Telling (c : CellRef) : Prop where
  bounded : c.Bounded
  named : c.sheet ≠ ""
  bared : bare c.sheet = c.sheet

namespace CellRef.Telling
variable {c : CellRef}

theorem parse (telling : c.Telling) (sheet : String) : CellRef.parse c.text sheet = .ok c :=
  CellRef.parse_own telling.bounded telling.named telling.bared sheet

theorem rect (telling : c.Telling) (sheet : String) : Rect.parse (Rect.ofCell c).text sheet = .ok (.ofCell c) :=
  Rect.parse_own (Rect.bounded_ofCell telling.bounded) telling.named telling.bared sheet

theorem alone (telling : c.Telling) : Rect.parse c.a1 c.sheet = .ok (.ofCell c) := by
  have whole : splitSheet c.a1 = (none,c.a1) := splitSheet_none (a1_free (by decide) (by decide))
  have parsed := Address.parse_a1 telling.bounded whole
  unfold Rect.parse
  rw [splitRange_none (a1_free (by decide) (by decide))]
  simp [CellRef.parse,parsed,bind,Except.bind,telling.named,pure,Except.pure]

end CellRef.Telling

theorem clampRange_single (single : splitRange (Text.without '$' text) = none) (e : Extents) :
    clampRange text e = .ok (Text.without '$' text) := by
  unfold clampRange
  simp only [single]

@[simp] theorem Rect.grid_ofCell (c : CellRef) : (Rect.ofCell c).grid = [[c]] := by
  simp [grid,rows,columns,ofCell,cellAt]

theorem Workbook.select_known {w : Workbook} (known : w.find? name = some s) : ∃ w', w.select name = .ok w' ∧ w'.sheets = w.sheets := by
  unfold select
  cases found : w.sheets.findIdx? fun s => s.name == name with
  | some index => exact ⟨_,rfl,rfl⟩
  | none =>
    have absent := List.findIdx?_eq_none_iff.mp found s (List.mem_of_find?_eq_some known)
    have same := List.find?_some known
    rw [absent] at same
    cases same

theorem Workbook.find?_same {v w : Workbook} (sheets : v.sheets = w.sheets) (name : String) : v.find? name = w.find? name := by
  unfold find?
  rw [sheets]

theorem BuildOptions.cell_same {v w : Workbook} (sheets : v.sheets = w.sheets) (options : BuildOptions) (c : CellRef) :
    options.cell v c = options.cell w c := by
  unfold BuildOptions.cell Workbook.entry
  rw [Workbook.find?_same sheets]

theorem Workbook.read_cell {w : Workbook} {c : CellRef} (telling : c.Telling) (known : w.find? c.sheet = some s) :
    w.read (Rect.ofCell c).text = .ok (.ofEntries [[s.entry c.position]]) := by
  have split := Rect.splitSheet_text (r := .ofCell c) telling.named
  unfold read
  rw [split]
  simp only [Option.getD_some,show (Rect.ofCell c).sheet = c.sheet from rfl,telling.bared,known,telling.rect,bind,Except.bind,
    Rect.grid_ofCell]
  rfl

theorem Model.find?_compiled (m : Model) (id : NodeId) (e : Expr) (address : String) :
    (m.compiled id e).find? address = m.find? address := by
  have told (o : Model) : o.find? address = (o.nodes.map Node.address).findIdx? (· == address) := by
    rw [List.findIdx?_map]
    rfl
  rw [told,told m,addresses_compiled]

theorem Block.formula?_one (e : Entry) : (Block.ofEntries [[e]]).formula? 0 0 = e.formula? := rfl

namespace Build
variable {α β : Type} {options : BuildOptions} {b mid : Builder} {w : Workbook} {c : CellRef} {s : Worksheet} {id : NodeId}

theorem run_bind {x : Build α} {f : α → Build β} {a : α} (first : x b = (.ok a,mid)) : (x >>= f) b = f a mid := by
  have opens : (x >>= f) b = ExceptT.bindCont f (x b).1 (x b).2 := rfl
  rw [opens,first]
  rfl

theorem run_reference {r : Except ReferenceError α} {a : α} (made : r = .ok a) (b : Builder) : ofReference r b = (.ok a,b) := by
  rw [made]
  rfl

theorem run_select (selected : b.book.select name = .ok w) : select name b = (.ok (),{b with book := w}) := by
  unfold select
  exact run_bind (run_reference selected b)

theorem run_get {f : Builder → Build β} (b : Builder) : (get >>= f) b = f b b := rfl

theorem run_modify {g : Builder → Builder} {f : Unit → Build β} (b : Builder) : (modify g >>= f) b = f () (g b) := rfl

theorem run_readRect (telling : c.Telling) (known : b.book.find? c.sheet = some s) :
    readRect (.ofCell c) b = (.ok (.ofEntries [[s.entry c.position]]),b) := by
  have read := Workbook.read_cell telling known
  have shaped : (Block.ofEntries [[s.entry c.position]]).checkShape (Rect.ofCell c).text (Rect.ofCell c).rows (Rect.ofCell c).columns =
      .ok () := by
    simp [Block.checkShape,Block.hasShape,Block.ofEntries,Rect.rows,Rect.columns,Rect.ofCell]
  unfold readRect
  rw [run_get,run_bind (run_reference read b),run_bind (run_reference shaped b)]
  rfl

theorem run_single {f : α → Build Unit} {x : α} (only : f x b = (.ok (),mid)) : [x].forM f b = (.ok (),mid) := run_bind only

@[simp] theorem offsets_ofCell (c : CellRef) : offsets (.ofCell c) = [(0,0)] := by
  simp [offsets,Rect.rows,Rect.columns,Rect.ofCell]

theorem run_addCell {e : Entry} (entry : b.book.entry c = e) : addCell options c e.formula? e.value e.format b =
    (.ok b.model.nodes.length,{b with
      model := b.model.insert (.cell (options.cell b.book c))
      todo := if e.formula?.isSome then b.model.nodes.length :: b.todo else b.todo}) := by
  unfold addCell BuildOptions.cell
  rw [run_get,entry]
  cases e.formula? with
  | none => rfl
  | some formula => rfl

theorem run_seed (telling : c.Telling) (known : b.book.find? c.sheet = some s) (holds : (s.entry c.position).formula? = some formula)
    (fresh : b.model.find? c.text = none) : ∃ b', seed options c.sheet c.a1 b = (.ok (),b') ∧ b'.book.sheets = b.book.sheets ∧
      b'.model = b.model.insert (.cell (options.cell b.book c)) ∧ b'.todo = b.model.nodes.length :: b.todo := by
  obtain ⟨w,selected,sheets⟩ := Workbook.select_known known
  have free (mark : Char) (letter : mark.isUpper = false) (digit : mark.isDigit = false) : mark ∉ c.a1.toList := a1_free letter digit
  have unmarked : Text.without '$' c.a1 = c.a1 := Text.without_absent (free '$' (by decide) (by decide))
  have clamped (e : Extents) : clampRange c.a1 e = .ok c.a1 := by
    have single := clampRange_single (by rw [unmarked]; exact splitRange_none (free ':' (by decide) (by decide))) e
    rwa [unmarked] at single
  have known' : w.find? c.sheet = some s := (Workbook.find?_same sheets _).trans known
  have made : options.cell w c = options.cell b.book c := options.cell_same sheets c
  have entry := Workbook.entry_known (c := c) known'
  have unfound : (b.model.find? c.text).isSome = false := by rw [fresh]; rfl
  refine ⟨{b with book := w,model := b.model.insert (.cell (options.cell b.book c)),todo := b.model.nodes.length :: b.todo},?_,
    sheets,rfl,rfl⟩
  unfold seed
  rw [run_bind (run_select selected),run_get,run_bind (run_reference (clamped _) _),run_bind (run_reference telling.alone _),
    run_bind (run_readRect telling known'),offsets_ofCell]
  have filled : ((Block.ofEntries [[s.entry c.position]]).formula? 0 0).isNone = false := by
    rw [Block.formula?_one,holds]
    rfl
  have added : addCell options c (s.entry c.position).formula? (s.entry c.position).value (s.entry c.position).format
      {b with book := w} = (.ok b.model.nodes.length,
        {b with book := w,model := b.model.insert (.cell (options.cell b.book c)),todo := b.model.nodes.length :: b.todo}) := by
    rw [run_addCell entry,made,holds]
    rfl
  refine run_single ?_
  dsimp only
  rw [run_get,if_neg (by simp [filled,Rect.cellAt,Rect.ofCell,unfound])]
  exact run_bind added

theorem run_addConstituents (telling : c.Telling) (known : b.book.find? c.sheet = some s) (plain : (s.entry c.position).formula? = none)
    (fresh : b.model.find? c.text = none) : addConstituents options (.ofCell c) id b =
      (.ok (),{b with model := (b.model.insert (.cell (options.cell b.book c))).link b.model.nodes.length id}) := by
  have cells : (Rect.ofCell c).cells = [c] := by simp [Rect.cells]
  have entry : b.book.entry c = s.entry c.position := Workbook.entry_known known
  have missing : ((Rect.ofCell c).cells.all fun cell => (b.model.find? cell.text).isSome) = false := by simp [cells,fresh]
  unfold addConstituents
  rw [run_get]
  simp only [missing]
  rw [if_neg (by simp),run_bind (run_readRect telling known),offsets_ofCell]
  have added : addCell options c (s.entry c.position).formula? (s.entry c.position).value (s.entry c.position).format b =
      (.ok b.model.nodes.length,{b with model := b.model.insert (.cell (options.cell b.book c))}) := by
    rw [run_addCell entry,plain]
    rfl
  refine run_single ?_
  rw [run_get]
  simp only [Rect.cellAt,Rect.ofCell,Nat.add_zero,fresh]
  exact run_bind added

end Build
end Recalc
