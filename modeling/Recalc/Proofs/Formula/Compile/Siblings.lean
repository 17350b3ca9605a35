import Recalc.Proofs.Build.SingleCells
import Recalc.Proofs.Formula.Compile.Neighbours

namespace Recalc
open Guarded

-- The longest run around a place, between 1 and the limit, of places that satisfy the test.
structure Longest (test : Nat → Prop) (limit place first last : Nat) : Prop where
  first_le : first ≤ place
  le_last : place ≤ last
  above : 1 ≤ first
  below : last ≤ limit
  each : ∀ i, first ≤ i → i ≤ last → test i
  before : 1 < first → ¬ test (first - 1)
  after : last < limit → ¬ test (last + 1)

namespace Longest
variable {test : Nat → Prop} {limit place first last : Nat}

theorem unique (one : Longest test limit place first last) (two : Longest test limit place first' last') :
    first' = first ∧ last' = last := by
  obtain ⟨low,high,above,below,each,before,after⟩ := one
  obtain ⟨low',high',above',below',each',before',after'⟩ := two
  constructor
  · rcases Nat.lt_trichotomy first first' with less | same | more
    · exact absurd (each _ (by omega) (by omega)) (before' (by omega))
    · exact same.symm
    · exact absurd (each' _ (by omega) (by omega)) (before (by omega))
  · rcases Nat.lt_trichotomy last last' with less | same | more
    · exact absurd (each' _ (by omega) (by omega)) (after (by omega))
    · exact same.symm
    · exact absurd (each _ (by omega) (by omega)) (after' (by omega))

theorem moved (run : Longest test limit place first last) (low : first ≤ other) (high : other ≤ last) :
    Longest test limit other first last :=
  {run with first_le := low,le_last := high}

end Longest

structure CellRef.OnSheet (cell : CellRef) : Prop where
  column : 1 ≤ cell.column ∧ cell.column ≤ columnLimit
  row : 1 ≤ cell.row ∧ cell.row ≤ rowLimit

theorem CellRef.OnSheet.bounded {cell : CellRef} (on : cell.OnSheet) : cell.Bounded := by
  have limits : columnLimit < Column.limit ∧ rowLimit < Column.limit := by decide
  exact ⟨⟨on.column.1,Nat.lt_of_le_of_lt on.column.2 limits.1⟩,⟨on.row.1,Nat.lt_of_le_of_lt on.row.2 limits.2⟩⟩

namespace Workbook
variable {book : Workbook} {cell : CellRef} {formula : String}

theorem sheet_of_formula (holds : (book.entry cell).formula? = some formula) : ∃ s, book.find? cell.sheet = some s := by
  cases found : book.find? cell.sheet with
  | some s => exact ⟨s,rfl⟩
  | none => simp [entry,found,Entry.blank,Entry.formula?] at holds

theorem formulaAt_cell (telling : cell.Telling) (known : book.find? cell.sheet = some s) :
    book.formulaAt cell.text = .ok (book.entry cell).formula? := by
  have split := splitSheet_cell telling.named
  have single : splitRange cell.text = none := by
    have absent : ':' ∉ cell.a1.toList := a1_free (by decide) (by decide)
    simp [splitRange,split,Text.splitFirst_none absent]
  have rect : Rect.parse cell.text cell.sheet = .ok (.ofCell cell) := by
    unfold Rect.parse
    rw [single]
    simp [telling.parse,bind,Except.bind,pure,Except.pure]
  rw [telling.bared] at split
  unfold formulaAt read
  rw [split,entry_known known]
  simp only [Option.getD_some,known,rect,bind,Except.bind,pure,Except.pure,Rect.grid_ofCell]
  rfl

end Workbook

namespace Site

section
variable {test : Nat → Except FormulaError Bool} (held : Nat → Bool)

theorem runLength_counts {most distance : Nat} (answers : ∀ d, distance ≤ d → d < distance + most → test d = .ok (held d)) :
    ∃ k ≤ most, runLength test most distance = .ok k ∧ (∀ d, distance ≤ d → d < distance + k → held d = true) ∧
      (k < most → held (distance + k) = false) := by
  induction most generalizing distance with
  | zero => exact ⟨0,Nat.le_refl 0,rfl,fun d low high => by omega,fun less => by omega⟩
  | succ most ih =>
    have here := answers distance (Nat.le_refl _) (by omega)
    obtain ⟨k,small,counted,each,ends⟩ := @ih (distance + 1) fun d low high => answers d (by omega) (by omega)
    unfold runLength
    rw [here]
    cases holds : held distance with
    | false => exact ⟨0,Nat.zero_le _,rfl,fun d low high => by omega,fun _ => holds⟩
    | true =>
      refine ⟨k + 1,by omega,?_,fun d low high => ?_,fun less => ?_⟩
      · simp [bind,Except.bind,counted,pure,Except.pure]
      · rcases Nat.eq_or_lt_of_le low with rfl | above
        · exact holds
        · exact each d above (by omega)
      · rw [Nat.add_comm k 1,← Nat.add_assoc]
        exact ends (by omega)

theorem runLength_around {back forth : Nat → Except FormulaError Bool} {limit place : Nat} (here : held place = true)
    (low : 1 ≤ place) (high : place ≤ limit) (behind : ∀ d, d < place → back d = .ok (held (place - d)))
    (ahead : ∀ d, d ≤ limit - place → forth d = .ok (held (place + d))) :
    ∃ a b, runLength back (place - 1) 1 = .ok a ∧ runLength forth (limit - place) 1 = .ok b ∧
      Longest (held · = true) limit place (place - a) (place + b) := by
  obtain ⟨a,most,backward,each,ends⟩ :=
    @runLength_counts _ (fun d => held (place - d)) (place - 1) 1 fun d _ less => behind d (by omega)
  obtain ⟨b,most',forward,each',ends'⟩ :=
    @runLength_counts _ (fun d => held (place + d)) (limit - place) 1 fun d _ less => ahead d (by omega)
  refine ⟨a,b,backward,forward,by omega,by omega,by omega,by omega,fun i least greatest => ?_,fun more => ?_,fun more => ?_⟩
  · rcases Nat.lt_trichotomy i place with less | rfl | more
    · have held := each (place - i) (by omega) (by omega)
      rwa [Nat.sub_sub_self (Nat.le_of_lt less)] at held
    · exact here
    · have held := each' (i - place) (by omega) (by omega)
      rwa [Nat.add_sub_cancel' (Nat.le_of_lt more)] at held
  · have stopped := ends (by omega)
    rw [Nat.add_comm 1 a,← Nat.sub_sub] at stopped
    exact Bool.eq_false_iff.mp stopped
  · have stopped := ends' (by omega)
    rw [Nat.add_comm 1 b,← Nat.add_assoc] at stopped
    exact Bool.eq_false_iff.mp stopped

end

-- No difference on the way is below zero, and no sum is out of reach.
theorem shape_onSheet {cell : CellRef} (on : cell.OnSheet) (book : Option Workbook) :
    (⟨cell,book⟩ : Site).shape = ofFormula (⟨cell,book⟩ : Site).linestShape := by
  have limits : columnLimit + 1 < Column.limit ∧ rowLimit + 1 < Column.limit := by decide
  have := on.column
  have := on.row
  obtain same | ⟨f,⟨-,-,last⟩,-⟩ := shape_linestShape ⟨cell,book⟩ on.column.1 on.row.1
  · exact same
  · simp only at last
    omega

section
variable {book : Workbook} {cell : CellRef} {formula : String} (named : cell.sheet ≠ "") (bared : bare cell.sheet = cell.sheet)
include named bared

theorem neighbour_asked (holds : (book.entry cell).formula? = some formula) (column row : Nat) (on : (⟨cell.sheet,column,row⟩ : CellRef).OnSheet) :
    (do return (← liftReference (book.formulaAt (⟨cell.sheet,column,row⟩ : CellRef).text)) == some formula : Except FormulaError Bool) =
      .ok ((book.entry ⟨cell.sheet,column,row⟩).formula? == some formula) := by
  obtain ⟨s,known⟩ := Workbook.sheet_of_formula holds
  rw [Workbook.formulaAt_cell ⟨on.bounded,named,bared⟩ known]
  rfl

theorem linestShape_runs (on : cell.OnSheet) (holds : (book.entry cell).formula? = some formula) : ∃ L R T B,
    Longest (fun column => (book.entry ⟨cell.sheet,column,cell.row⟩).formula? = some formula) columnLimit cell.column L R ∧
    Longest (fun row => (book.entry ⟨cell.sheet,cell.column,row⟩).formula? = some formula) rowLimit cell.row T B ∧
    (⟨cell,some book⟩ : Site).linestShape =
      .ok (if L < R then (R - L,some (cell.column - L)) else (max 1 (B - T),some (cell.row - T))) := by
  have asked := neighbour_asked named bared holds
  obtain ⟨a,b,before,after,across⟩ := runLength_around
    (fun column => (book.entry ⟨cell.sheet,column,cell.row⟩).formula? == some formula) (beq_iff_eq.mpr holds) on.column.1 on.column.2
    (fun d less => asked (cell.column - d) cell.row ⟨by have := on.column; simp only; omega,on.row⟩)
    (fun d less => asked (cell.column + d) cell.row ⟨by have := on.column; simp only; omega,on.row⟩)
  obtain ⟨c,d,above,below,down⟩ := runLength_around
    (fun row => (book.entry ⟨cell.sheet,cell.column,row⟩).formula? == some formula) (beq_iff_eq.mpr holds) on.row.1 on.row.2
    (fun d less => asked cell.column (cell.row - d) ⟨on.column,by have := on.row; simp only; omega⟩)
    (fun d less => asked cell.column (cell.row + d) ⟨on.column,by have := on.row; simp only; omega⟩)
  simp only [beq_iff_eq] at across down
  refine ⟨_,_,_,_,across,down,?_⟩
  have wide : cell.column + b - (cell.column - a) = a + b ∧ cell.column - (cell.column - a) = a := by
    have := across.above
    omega
  have tall : cell.row + d - (cell.row - c) = c + d ∧ cell.row - (cell.row - c) = c := by
    have := down.above
    omega
  obtain ⟨s,known⟩ := Workbook.sheet_of_formula holds
  have own := Workbook.formulaAt_cell ⟨on.bounded,named,bared⟩ known
  rw [holds] at own
  unfold linestShape
  simp only [own]
  simp only [liftReference,Except.mapError,bind,Except.bind] at before after above below ⊢
  simp only [before,after,above,below,wide,tall]
  rw [if_neg (by simp)]
  by_cases lone : a + b = 0
  · rw [if_neg (not_not.mpr lone),if_neg (by omega),Nat.max_comm]
    rfl
  · rw [if_pos lone,if_pos (by have := across.above; omega)]
    rfl

end
end Site

-- Cells of a row with the same formula, side by side, share one fit: as many coefficients as cells, counted from the left. A
-- cell alone in its row shares it with those of its column, and then at least a line is fitted. Nothing is subtracted below zero.
theorem siblings_inferred (book : Workbook) {cell : CellRef} (on : cell.OnSheet) :
    (⟨cell,some book⟩ : Site).shape = ofFormula (⟨cell,some book⟩ : Site).linestShape ∧
    ∀ formula, cell.sheet ≠ "" → bare cell.sheet = cell.sheet → (book.entry cell).formula? = some formula → ∃ L R T B,
      Longest (fun column => (book.entry ⟨cell.sheet,column,cell.row⟩).formula? = some formula) columnLimit cell.column L R ∧
      Longest (fun row => (book.entry ⟨cell.sheet,cell.column,row⟩).formula? = some formula) rowLimit cell.row T B ∧
      (⟨cell,some book⟩ : Site).linestShape =
        .ok (if L < R then (R - L,some (cell.column - L)) else (max 1 (B - T),some (cell.row - T))) ∧
      (L < R → ∀ k ≤ R - L, (⟨⟨cell.sheet,L + k,cell.row⟩,some book⟩ : Site).linestShape = .ok (R - L,some k)) := by
  refine ⟨Site.shape_onSheet on (some book),fun formula named bared holds => ?_⟩
  obtain ⟨L,R,T,B,across,down,shape⟩ := Site.linestShape_runs named bared on holds
  refine ⟨L,R,T,B,across,down,shape,fun many k inside => ?_⟩
  -- the run of a neighbour is the same one
  have moved := across.moved (Nat.le_add_right L k) (by have := across.first_le; have := across.le_last; omega)
  have there : (⟨cell.sheet,L + k,cell.row⟩ : CellRef).OnSheet :=
    ⟨⟨Nat.le_trans moved.above moved.first_le,Nat.le_trans moved.le_last moved.below⟩,on.row⟩
  obtain ⟨L',R',T',B',across',-,shape'⟩ := @Site.linestShape_runs book ⟨cell.sheet,L + k,cell.row⟩ _ named bared there
    (moved.each _ moved.first_le moved.le_last)
  obtain ⟨rfl,rfl⟩ := moved.unique across'
  rw [shape',if_pos many,Nat.add_sub_cancel_left]

def fitted : Workbook :=
  let fit : Entry := ⟨some "=LINEST(A1:A5,B1:B5)",.empty,none⟩
  ⟨[⟨"S",[(⟨4,1⟩,fit),(⟨5,1⟩,fit),(⟨6,1⟩,fit),(⟨4,3⟩,fit)]⟩],0⟩

theorem siblings_inferred_three : (⟨"S",5,1⟩ : CellRef).OnSheet ∧
    (fitted.entry ⟨"S",5,1⟩).formula? = some "=LINEST(A1:A5,B1:B5)" ∧
    ∀ k ≤ 2, (⟨⟨"S",4 + k,1⟩,some fitted⟩ : Site).linestShape = .ok (2,some k) := by
  have on : (⟨"S",5,1⟩ : CellRef).OnSheet := ⟨by decide,by decide⟩
  have holds : ∀ c ∈ [4,5,6], (fitted.entry ⟨"S",c,1⟩).formula? = some "=LINEST(A1:A5,B1:B5)" := by decide +kernel
  have apart : ∀ c ∈ [3,7], ¬ (fitted.entry ⟨"S",c,1⟩).formula? = some "=LINEST(A1:A5,B1:B5)" := by decide +kernel
  obtain ⟨L,R,T,B,across,-,-,each⟩ := (siblings_inferred fitted on).2 _ (by decide) (by decide) (holds 5 (by decide))
  have three : Longest (fun c => (fitted.entry ⟨"S",c,1⟩).formula? = some "=LINEST(A1:A5,B1:B5)") columnLimit 5 4 6 :=
    ⟨by decide,by decide,by decide,by decide,fun i low high => holds i (by simp; omega),fun _ => apart 3 (by decide),
      fun _ => apart 7 (by decide)⟩
  obtain ⟨rfl,rfl⟩ := three.unique across
  exact ⟨on,holds 5 (by decide),each (by decide)⟩

-- Two fits side by side on a sheet whose name has quotes around it, and a sheet of the name without them.
def quotedFits : Workbook :=
  let fit : Entry := ⟨some "=LINEST(A1:A5,B1:B5)",.empty,none⟩
  ⟨[⟨"'q'",[(⟨1,5⟩,⟨none,.number 1.0,none⟩),(⟨4,1⟩,fit),(⟨5,1⟩,fit)]⟩,⟨"q",[]⟩],0⟩

-- The sheet without the quotes is asked, so a fit of two coefficients is taken for one that stands alone.
theorem siblings_hidden : (⟨"'q'",4,1⟩ : CellRef).OnSheet ∧
    Longest (fun column => (quotedFits.entry ⟨"'q'",column,1⟩).formula? = some "=LINEST(A1:A5,B1:B5)") columnLimit 4 4 5 ∧
    (⟨⟨"'q'",4,1⟩,some quotedFits⟩ : Site).linestShape = .ok (1,none) := by
  have holds : ∀ c ∈ [4,5], (quotedFits.entry ⟨"'q'",c,1⟩).formula? = some "=LINEST(A1:A5,B1:B5)" := by decide +kernel
  have apart : ∀ c ∈ [3,6], ¬ (quotedFits.entry ⟨"'q'",c,1⟩).formula? = some "=LINEST(A1:A5,B1:B5)" := by decide +kernel
  refine ⟨⟨by decide,by decide⟩,?_,by decide +kernel⟩
  exact ⟨by decide,by decide,by decide,by decide,fun i low high => holds i (by simp; omega),fun _ => apart 3 (by decide),
    fun _ => apart 6 (by decide)⟩

end Recalc
