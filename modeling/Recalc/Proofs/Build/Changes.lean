import Recalc.Proofs.Build.Exactness

namespace Recalc
namespace Build
variable {α β : Type} {options : BuildOptions} {book : Workbook} {b b' : Builder} {id : NodeId} {r : Rect} {block : Block} {u : Unit}

-- What seeding and wiring up do to a builder, one change at a time and whatever the sheets are called. A new node
-- has an address of its own, and a formula stands where the workbook holds something.
inductive Change (book : Workbook) (b : Builder) : Builder → Prop where
  | select (sheets : w.sheets = b.book.sheets) : Change book b {b with book := w}
  | narrow (address : String) : Change book b {b with model := b.model.narrow address}
  | link (precedent dependent : NodeId) : Change book b {b with model := b.model.link precedent dependent}
  | range (node : RangeNode) (fresh : b.model.find? node.address = none) :
      Change book b {b with model := b.model.insert (.range node)}
  | constant (cell : CellRef) (fresh : b.model.find? cell.text = none) :
      Change book b {b with model := b.model.insert (.cell (.constant cell.text cell.sheet value format))}
  | formula (cell : CellRef) (fresh : b.model.find? cell.text = none) (held : cell.position ∈ positions book) :
      Change book b {b with
        model := b.model.insert (.cell (.ofFormula cell.text cell.sheet text value format dirty))
        todo := b.model.nodes.length :: b.todo}

abbrev Changes (book : Workbook) : Builder → Builder → Prop := Relation.ReflTransGen (Change book)

theorem Changes.sheets (changes : Changes book b b') : b'.book.sheets = b.book.sheets := by
  induction changes with
  | refl => rfl
  | tail _ change ih =>
    cases change with
    | select sheets => exact sheets.trans ih
    | _ => exact ih

def HeldIn (book : Workbook) (r : Rect) (block : Block) : Prop := ∀ row column, row < r.rows → column < r.columns →
  (block.formula? row column).isSome = true → (r.cellAt row column).position ∈ positions book

theorem held_empty (book : Workbook) (r : Rect) : HeldIn book r (.ofEntries []) := by
  intro row column _ _ formula
  simp [Block.ofEntries,Block.formula?,Block.at?] at formula

-- The quotes around the name of a sheet do not move the rectangle.
theorem held_read (sheets : b.book.sheets = book.sheets) (bounded : r.Bounded) (named : r.sheet ≠ "")
    (ran : readRect r b = (.ok block,b')) : b' = b ∧ HeldIn book r block := by
  obtain ⟨rfl,fits⟩ := ran_read bounded named ran
  refine ⟨rfl,fun row column above within formula => ?_⟩
  rw [(fits row column above within).1] at formula
  obtain ⟨s,listed,e,there,same,-⟩ := Workbook.entry_listed formula
  rw [sheets] at listed
  have here : e.1 = (r.cellAt row column).position := congrArg CellRef.position same
  exact List.mem_flatMap.mpr ⟨s,listed,here ▸ List.mem_map_of_mem there⟩

theorem Cut.bounded {region : Region} (cut : Cut r region) (bounded : r.Bounded) :
    ∀ slice ∈ region.rects, slice.Bounded ∧ slice.sheet = r.sheet := by
  intro slice listed
  cases cut with
  | whole =>
    cases List.mem_singleton.mp listed
    exact ⟨bounded,rfl⟩
  | column first => exact List.mem_singleton.mp listed ▸ columnSlice_bounded bounded first
  | columns first second =>
    rcases List.mem_pair.mp listed with rfl | rfl
    · exact columnSlice_bounded bounded first
    · exact columnSlice_bounded bounded second
  | row first => exact List.mem_singleton.mp listed ▸ rowSlice_bounded bounded first
  | rows first second =>
    rcases List.mem_pair.mp listed with rfl | rfl
    · exact rowSlice_bounded bounded first
    · exact rowSlice_bounded bounded second

theorem changed_select {name : String} (ran : select name b = (.ok u,b')) : Changes book b b' := by
  obtain ⟨selected,same⟩ := ran_selected ran
  rw [same]
  exact .single (.select (Workbook.select_ok selected).2)

theorem changed_addCell {cell : CellRef} {formula : Option String} {content : Content} {format : Option NumberFormat}
    (fresh : b.model.find? cell.text = none) (held : formula.isSome = true → cell.position ∈ positions book)
    (ran : addCell options cell formula content format b = (.ok id,b')) : Changes book b b' := by
  have ran := ran_get ran
  cases formula with
  | none =>
    cases ran
    exact .single (.constant cell fresh)
  | some text =>
    cases ran
    exact .single (.formula cell fresh (held rfl))

theorem changed_forM {f : α → Build Unit} {as : List α} (sheets : b.book.sheets = book.sheets)
    (each : ∀ a ∈ as, ∀ c d v, c.book.sheets = book.sheets → f a c = (.ok v,d) → Changes book c d)
    (ran : as.forM f b = (.ok u,b')) : Changes book b b' := by
  induction as generalizing b with
  | nil =>
    obtain ⟨-,rfl⟩ := ran_pure ran
    exact .refl
  | cons a as ih =>
    obtain ⟨v,mid,first,rest⟩ := ran_bind ran
    have changes := each a List.mem_cons_self b mid v sheets first
    exact changes.trans (ih (changes.sheets.trans sheets) (fun x listed => each x (List.mem_cons_of_mem _ listed)) rest)

theorem changed_wire {target : NodeId} {place : Nat × Nat}
    (held : (block.formula? place.1 place.2).isSome = true → (r.cellAt place.1 place.2).position ∈ positions book)
    (ran : wire options r target block place b = (.ok u,b')) : Changes book b b' := by
  cases wire_cases ran with
  | @known y found => exact .single (.link y target)
  | @made _ y fresh added => exact (changed_addCell fresh held added).tail (.link y target)

section
variable (sheets : b.book.sheets = book.sheets)
include sheets

theorem changed_addConstituents {target : NodeId} (bounded : r.Bounded) (named : r.sheet ≠ "")
    (ran : addConstituents options r target b = (.ok u,b')) : Changes book b b' := by
  have wires {block : Block} {mid : Builder} (sheets : mid.book.sheets = book.sheets) (held : HeldIn book r block)
      (ran : (offsets r).forM (wire options r target block) mid = (.ok u,b')) : Changes book mid b' :=
    changed_forM sheets (fun place listed c d v sheets step => by
      obtain ⟨above,within⟩ := mem_offsets.mp listed
      exact changed_wire (held place.1 place.2 above within) step) ran
  have ran := ran_get ran
  split at ran
  · exact wires sheets (held_empty book r) ran
  · obtain ⟨block,mid,first,last⟩ := ran_bind ran
    obtain ⟨rfl,held⟩ := held_read sheets bounded named first
    exact wires sheets held last

theorem changed_seed {sheet range : String} (ran : seed options sheet range b = (.ok u,b')) : Changes book b b' := by
  obtain ⟨chosen,clamped,rect,block,mid,first,-,parsed,read,sows⟩ := seed_cases ran
  have selects : Changes book b chosen := changed_select first
  obtain ⟨bounded,-,named⟩ := Rect.parse_ok parsed
  obtain ⟨rfl,held⟩ := held_read (selects.sheets.trans sheets) bounded named read
  refine selects.trans (changed_forM (selects.sheets.trans sheets) (fun place listed c d v sheets step => ?_) sows)
  obtain ⟨above,within⟩ := mem_offsets.mp listed
  cases sow_cases step with
  | passed => exact .refl
  | made _ fresh added => exact changed_addCell fresh (held place.1 place.2 above within) added

theorem changed_wireRange {region : Region} {seen seen' : List String}
    (rects : ∀ slice ∈ region.rects, slice.Bounded ∧ slice.sheet ≠ "")
    (ran : wireRange options id region seen b = (.ok seen',b')) : Changes book b b' := by
  cases wireRange_cases ran with
  | known listed => exact .refl
  | @linked known found => exact .single (.link known id)
  | made fresh filled =>
    have begins : Changes book b _ := .tail (.single (.range ⟨region.address,region.rows⟩ fresh)) (.link b.model.nodes.length id)
    refine begins.trans (changed_forM (begins.sheets.trans sheets) (fun slice listed c d w sheets step => ?_) filled)
    exact changed_addConstituents sheets (rects slice listed).1 (rects slice listed).2 step

theorem changed_addReference {sheet : String} {seen seen' : List String} {reference : Tree.Reference}
    (ran : addReference options id sheet seen reference b = (.ok seen',b')) : Changes book b b' := by
  obtain ⟨chosen,canonical,first,-,adds⟩ := addReference_cases ran
  have selects : Changes book b chosen := changed_select first
  have kept := selects.sheets.trans sheets
  refine selects.trans ?_
  cases adds with
  | @range rect mid _ _ _ parsed narrows wired =>
    obtain ⟨bounded,-,named⟩ := Rect.parse_ok parsed
    have rects (slice : Rect) (listed : slice ∈ (regionOf options reference.table rect).rects) : slice.Bounded ∧ slice.sheet ≠ "" := by
      obtain ⟨inside,same⟩ := (cut_regionOf options reference.table rect).bounded bounded slice listed
      exact ⟨inside,same ▸ named⟩
    have begins : Changes book chosen mid := by
      cases narrows with
      | whole => exact .refl
      | part => exact .single (.narrow rect.text)
    exact begins.trans (changed_wireRange (begins.sheets.trans kept) rects wired)
  | known => exact .refl
  | cells _ parsed filled =>
    obtain ⟨bounded,-,named⟩ := Rect.parse_ok parsed
    exact changed_addConstituents kept bounded named filled

theorem changed_references {sheet : String} {references : List Tree.Reference} {seen seen' : List String}
    (ran : references.foldlM (addReference options id sheet) seen b = (.ok seen',b')) : Changes book b b' := by
  induction references generalizing b seen with
  | nil =>
    obtain ⟨-,rfl⟩ := ran_pure ran
    exact .refl
  | cons reference references ih =>
    rw [List.foldlM_cons] at ran
    obtain ⟨next,mid,first,rest⟩ := ran_bind ran
    have changes := changed_addReference sheets first
    exact changes.trans (ih (changes.sheets.trans sheets) rest)

end

end Build
end Recalc
