import Recalc.Proofs.Build.Closure

namespace Recalc

-- The rows from one bound to the other, whichever is above. Without a first row they start at the
-- first one there is, without a last row they have no end.
def RowBetween (first last : Option Nat) (row : Nat) : Prop :=
  match last with
  | some last => min (first.getD 1) last ≤ row ∧ row ≤ max (first.getD 1) last
  | none => first.getD 1 ≤ row

theorem RowBetween.convex {first last : Option Nat} (low : RowBetween first last a) (high : RowBetween first last b)
    (most : a ≤ c) (above : c ≤ n) (below : n ≤ b) : RowBetween first last n := by
  unfold RowBetween at *
  cases last with
  | none => exact Nat.le_trans low (Nat.le_trans most above)
  | some last =>
    simp only at *
    omega

-- What a range from one address to the other asks for.
def Asked (first last : Address) (p : Position) : Prop :=
  (first.column ≤ p.column ∧ p.column ≤ last.column) ∧ RowBetween first.row last.row p.row

namespace Extents

def Contains (e : Extents) (p : Position) : Prop := p.column ≤ max e.columns 1 ∧ p.row ≤ max e.rows 1

def pull (e : Extents) (p : Position) : Position := ⟨min p.column (max e.columns 1),min p.row (max e.rows 1)⟩

theorem contains_pull (e : Extents) (p : Position) : e.Contains (e.pull p) :=
  ⟨Nat.min_le_right _ _,Nat.min_le_right _ _⟩

theorem pull_of_contains {e : Extents} (inside : e.Contains p) : e.pull p = p := by
  obtain ⟨column,row⟩ := inside
  simp [pull,Nat.min_eq_left column,Nat.min_eq_left row]

end Extents

theorem Rect.mem_bounds {r : Rect} (bounded : r.Bounded) (p : Position) : ⟨r.sheet,p.column,p.row⟩ ∈ r.cells ↔
    (r.firstColumn ≤ p.column ∧ p.column ≤ r.lastColumn) ∧ r.firstRow ≤ p.row ∧ p.row ≤ r.lastRow := by
  obtain ⟨columns,rows⟩ := bounded
  rw [Rect.mem_cells]
  unfold Rect.rows Rect.columns Rect.cellAt
  constructor
  · rintro ⟨row,column,below,within,same⟩
    simp only [CellRef.mk.injEq] at same
    omega
  · intro ⟨column,row⟩
    refine ⟨p.row - r.firstRow,p.column - r.firstColumn,by omega,by omega,?_⟩
    simp only [CellRef.mk.injEq,true_and]
    omega

section
variable {first last most n : Nat}

theorem between_pulled (ordered : first ≤ last) :
    (min first most ≤ n ∧ n ≤ min last most) ↔ ∃ d, (first ≤ d ∧ d ≤ last) ∧ min d most = n := by
  constructor
  · intro inside
    by_cases short : n < most
    · exact ⟨n,by omega,by omega⟩
    · exact ⟨last,by omega,by omega⟩
  · intro ⟨d,within,same⟩
    omega

theorem rowBetween_pulled {first last : Option Nat} (positive : 1 ≤ most) :
    (min (first.elim 1 (min · most)) (last.elim most (min · most)) ≤ n ∧
      n ≤ max (first.elim 1 (min · most)) (last.elim most (min · most))) ↔
    ∃ d, RowBetween first last d ∧ min d most = n := by
  have start : first.elim 1 (min · most) = min (first.getD 1) most := by
    cases first with
    | none => simp [Nat.min_eq_left positive]
    | some first => rfl
  rw [start]
  unfold RowBetween
  generalize first.getD 1 = top
  cases last with
  | none =>
    simp only [Option.elim_none]
    constructor
    · intro inside
      by_cases short : n < most
      · exact ⟨n,by omega,by omega⟩
      · exact ⟨max top most,by omega,by omega⟩
    · intro ⟨d,above,same⟩
      omega
  | some last =>
    have ordered : min top last ≤ max top last := by omega
    rw [← between_pulled ordered]
    simp only [Option.elim_some]
    omega

end

section
variable {text sheet : String} {e : Extents} {parts : RangeParts} {first last : Address}

theorem asked_pulled (ordered : first.column ≤ last.column) (p : Position) :
    ((min first.column (max e.columns 1) ≤ p.column ∧ p.column ≤ min last.column (max e.columns 1)) ∧
      min (first.row.elim 1 (min · (max e.rows 1))) (last.row.elim (max e.rows 1) (min · (max e.rows 1))) ≤ p.row ∧
      p.row ≤ max (first.row.elim 1 (min · (max e.rows 1))) (last.row.elim (max e.rows 1) (min · (max e.rows 1)))) ↔
    ∃ q, Asked first last q ∧ e.pull q = p := by
  rw [between_pulled ordered,rowBetween_pulled (Nat.le_max_right _ _)]
  constructor
  · intro ⟨⟨column,within,left⟩,row,between,right⟩
    refine ⟨⟨column,row⟩,⟨within,between⟩,?_⟩
    rw [Extents.pull,left,right]
  · intro ⟨q,⟨within,between⟩,same⟩
    subst same
    exact ⟨⟨q.column,within,rfl⟩,q.row,between,rfl⟩

-- If any position that is asked for is within the extents, pulling back makes no new ones.
theorem pulled_exactly (asked : Asked first last q) (inside : e.Contains q) (p : Position) :
    (∃ q, Asked first last q ∧ e.pull q = p) ↔ Asked first last p ∧ e.Contains p := by
  constructor
  · intro ⟨d,⟨within,between⟩,same⟩
    subst same
    obtain ⟨⟨left,right⟩,row⟩ := asked
    obtain ⟨below,above⟩ := inside
    refine ⟨⟨by simp only [Extents.pull]; omega,?_⟩,e.contains_pull d⟩
    by_cases short : d.row ≤ max e.rows 1
    · simpa [Extents.pull,Nat.min_eq_left short] using between
    · exact row.convex between above (by simp only [Extents.pull]; omega) (Nat.min_le_left _ _)
  · intro ⟨wanted,within⟩
    exact ⟨p,wanted,Extents.pull_of_contains within⟩

theorem clampRange_corners (split : splitRange (Text.without '$' text) = some parts) (starts : Address.parse parts.first = .ok first)
    (ends : Address.parse parts.last = .ok last) (ordered : first.column ≤ last.column) :
    let left : CellRef := ⟨"",min first.column (max e.columns 1),first.row.elim 1 (min · (max e.rows 1))⟩
    let right : CellRef := ⟨"",min last.column (max e.columns 1),last.row.elim (max e.rows 1) (min · (max e.rows 1))⟩
    clampRange text e = .ok ((parts.sheet.elim "" (· ++ "!")) ++ (left.a1 ++ ":" ++ right.a1)) := by
  unfold clampRange
  simp only [split,starts,ends,bind,Except.bind,Nat.not_lt.mpr ordered,if_false]
  cases parts.sheet with
  | none => simp [pure,Except.pure,CellRef.a1]
  | some on => rfl

theorem splitRange_corners {on : Option String} {left right : CellRef} (named : ∀ name, on = some name → name ≠ "" ∧ bare name = name) :
    splitRange ((on.elim "" (· ++ "!")) ++ (left.a1 ++ ":" ++ right.a1)) = some ⟨on,left.a1,right.a1⟩ := by
  have free (cell : CellRef) : '!' ∉ cell.a1.toList := a1_free (by decide) (by decide)
  have mark : '!' ∉ (left.a1 ++ ":" ++ right.a1).toList := by simp [free]
  have colon : ':' ∉ left.a1.toList := a1_free (by decide) (by decide)
  have split : splitSheet ((on.elim "" (· ++ "!")) ++ (left.a1 ++ ":" ++ right.a1)) = (on,left.a1 ++ ":" ++ right.a1) := by
    cases on with
    | none => simpa using splitSheet_none mark
    | some name =>
      obtain ⟨some,bared⟩ := named name rfl
      simp only [Option.elim_some]
      rw [splitSheet_append some mark,bared]
  simp [splitRange,split,Text.splitFirst_append colon]

-- The cells of a clamped range are the ones asked for, each pulled back to the extents. They are the
-- ones asked for within the extents just if there is such a cell.
theorem clampRange_pulls (split : splitRange (Text.without '$' text) = some parts) (starts : Address.parse parts.first = .ok first)
    (ends : Address.parse parts.last = .ok last) (ordered : first.column ≤ last.column) (named : parts.sheet.getD sheet ≠ "")
    (sized : e.rows < Column.limit) :
    ∃ clamped r, clampRange text e = .ok clamped ∧ Rect.parse clamped sheet = .ok r ∧ r.sheet = parts.sheet.getD sheet ∧
      (∀ p : Position, ⟨r.sheet,p.column,p.row⟩ ∈ r.cells ↔ ∃ q, Asked first last q ∧ e.pull q = p) ∧
      ((∀ p : Position, ⟨r.sheet,p.column,p.row⟩ ∈ r.cells ↔ Asked first last p ∧ e.Contains p) ↔
        ∃ q, Asked first last q ∧ e.Contains q) := by
  obtain ⟨-,firstBounds⟩ := Address.parse_ok starts
  obtain ⟨-,lastBounds⟩ := Address.parse_ok ends
  have most : 1 < Column.limit := by decide
  have top : 1 ≤ first.row.elim 1 (min · (max e.rows 1)) ∧ first.row.elim 1 (min · (max e.rows 1)) < Column.limit := by
    cases row : first.row with
    | none => simp only [Option.elim_none]; omega
    | some row =>
      have bounds := firstBounds.row _ row
      simp only [Option.elim_some]
      omega
  have bottom : 1 ≤ last.row.elim (max e.rows 1) (min · (max e.rows 1)) ∧
      last.row.elim (max e.rows 1) (min · (max e.rows 1)) < Column.limit := by
    cases row : last.row with
    | none => simp only [Option.elim_none]; omega
    | some row =>
      have bounds := lastBounds.row _ row
      simp only [Option.elim_some]
      omega
  have columns := firstBounds.column
  have columns' := lastBounds.column
  have clamped := clampRange_corners (e := e) split starts ends ordered
  have within := asked_pulled (e := e) ordered
  generalize first.row.elim 1 (min · (max e.rows 1)) = r₁ at top clamped within
  generalize last.row.elim (max e.rows 1) (min · (max e.rows 1)) = r₂ at bottom clamped within
  let left : CellRef := ⟨"",min first.column (max e.columns 1),r₁⟩
  let right : CellRef := ⟨"",min last.column (max e.columns 1),r₂⟩
  have sheets : ∀ name, parts.sheet = some name → name ≠ "" ∧ bare name = name := by
    intro name on
    exact ⟨by simpa [on] using named,splitRange_sheet split on⟩
  have leftBounded : left.Bounded := ⟨by simp only [left]; omega,top⟩
  have rightBounded : right.Bounded := ⟨by simp only [right]; omega,bottom⟩
  have parsed := Rect.parse_corners leftBounded rightBounded (splitRange_corners sheets) (by simp only [left,right]; omega) named
  have bounded : (Rect.ofCorners (parts.sheet.getD sheet) left.column left.row right.column right.row).Bounded := by
    refine ⟨?_,?_⟩
    · simp only [Rect.ofCorners,left,right]
      omega
    · simp only [Rect.ofCorners,left,right]
      omega
  have cells (p : Position) := (Rect.mem_bounds bounded p).trans (within p)
  refine ⟨_,_,clamped,parsed,rfl,cells,?_⟩
  constructor
  · intro same
    let corner : Position := ⟨left.column,min r₁ r₂⟩
    have listed := (Rect.mem_bounds bounded corner).mpr ⟨⟨Nat.le_refl _,bounded.column.2.1⟩,Nat.le_refl _,bounded.row.2.1⟩
    exact ⟨corner,(same corner).mp listed⟩
  · intro some p
    obtain ⟨q,asked,inside⟩ := some
    exact (cells p).trans (pulled_exactly asked inside p)

end

-- A range to the right of everything is pulled back onto the last column, which it does not name.
theorem clampRange_strays : clampRange "D1:F5" ⟨3,5⟩ = .ok "C1:C5" ∧ Rect.parse "C1:C5" "S" = .ok ⟨"S",3,1,3,5⟩ ∧
    Address.parse "D1" = .ok ⟨none,4,some 1⟩ ∧ Address.parse "F5" = .ok ⟨none,6,some 5⟩ ∧
    (⟨"S",3,1⟩ : CellRef) ∈ (⟨"S",3,1,3,5⟩ : Rect).cells ∧ ¬ Asked ⟨none,4,some 1⟩ ⟨none,6,some 5⟩ ⟨3,1⟩ := by
  refine ⟨?_,?_,?_,?_,?_,?_⟩
  all_goals first | decide +kernel | simp [Asked]

theorem clampRange_pulls_columns : ∃ clamped r, clampRange "Data!$B:$D" ⟨3,7⟩ = .ok clamped ∧ Rect.parse clamped "S" = .ok r ∧
    r.sheet = "Data" ∧ ∀ p : Position, ⟨r.sheet,p.column,p.row⟩ ∈ r.cells ↔ Asked ⟨none,2,none⟩ ⟨none,4,none⟩ p ∧ Extents.Contains ⟨3,7⟩ p := by
  have split : splitRange (Text.without '$' "Data!$B:$D") = some ⟨some "Data","B","D"⟩ := by decide +kernel
  have starts : Address.parse "B" = .ok ⟨none,2,none⟩ := by decide +kernel
  have ends : Address.parse "D" = .ok ⟨none,4,none⟩ := by decide +kernel
  have named : (some "Data").getD "S" ≠ "" := by decide
  have sized : (⟨3,7⟩ : Extents).rows < Column.limit := by decide
  obtain ⟨clamped,r,made,parsed,on,-,same⟩ := clampRange_pulls split starts ends (by decide) named sized
  refine ⟨clamped,r,made,parsed,on,same.mpr ⟨⟨2,1⟩,?_,?_⟩⟩
  · simp [Asked,RowBetween]
  · simp [Extents.Contains]

end Recalc
