import Recalc.Formula.Generate
import Recalc.Proofs.Address.Spelling
import Recalc.Proofs.Formula.Compile.Guards

namespace Recalc.Site

open Guarded

variable {test : Nat → Except FormulaError Bool} {here most i : Nat}

theorem runLength_most {most distance n : Nat} (counted : runLength test most distance = .ok n) : n ≤ most := by
  induction most generalizing distance n with
  | zero =>
    cases counted
    exact Nat.le_refl 0
  | succ most ih =>
    obtain ⟨passed,-,rest⟩ := bind_ok.mp counted
    split at rest
    · obtain ⟨k,found,last⟩ := bind_ok.mp rest
      cases last
      exact Nat.succ_le_succ (ih found)
    · cases rest
      exact Nat.zero_le _

theorem walk_back (test : Nat → Except FormulaError Bool) (inside : i < here) : walk (0 < ·) test (minus · 1) i i =
    ofFormula (runLength (fun d => test (here - d)) i (here - i) >>= fun n => pure (i - n)) := by
  induction i with
  | zero => rfl
  | succ i ih =>
    have place : here - (here - (i + 1)) = i + 1 := by omega
    have further : here - (i + 1) + 1 = here - i := by omega
    simp only [walk,runLength,place,further]
    cases test (i + 1) with
    | error e => rfl
    | ok passed =>
      cases passed with
      | false => rfl
      | true =>
        have next := ih (by omega)
        have back : minus (i + 1) 1 = pure i := minus_le (by omega)
        simp only [Nat.zero_lt_succ,decide_true,if_true,ofFormula_ok,pure_bind,back,next]
        cases runLength (fun d => test (here - d)) i (here - i) with
        | error e => rfl
        | ok n => exact congrArg (fun m => ofFormula (.ok m)) (Nat.add_sub_add_right i 1 n).symm

theorem walk_forth (test : Nat → Except FormulaError Bool) (room : most + 1 < Column.limit) (ahead : here ≤ i) :
    walk (· ≤ most) test (plus · 1) (most + 1 - i) i =
      ofFormula (runLength (fun d => test (here + d)) (most + 1 - i) (i - here) >>= fun n => pure (i + n)) := by
  induction left : most + 1 - i generalizing i with
  | zero => rfl
  | succ steps ih =>
    have place : here + (i - here) = i := by omega
    have further : i - here + 1 = i + 1 - here := by omega
    have inside : i ≤ most := by omega
    simp only [walk,runLength,place,further,inside,decide_true,if_true]
    cases test i with
    | error e => rfl
    | ok passed =>
      cases passed with
      | false => rfl
      | true =>
        have next := ih (i := i + 1) (by omega) (by omega)
        have forth : plus i 1 = pure (i + 1) := plus_lt (by omega)
        simp only [if_true,ofFormula_ok,pure_bind,forth,next]
        cases runLength (fun d => test (here + d)) steps (i + 1 - here) with
        | error e => rfl
        | ok n => exact congrArg (fun m => ofFormula (.ok m)) (by omega)

def around (test : Nat → Except FormulaError Bool) (most here : Nat) : Except FormulaError (Int × Nat) := do
  let before ← runLength (fun d => test (here - d)) (here - 1) 1
  let after ← runLength (fun d => test (here + d)) (most - here) 1
  return (((before + after : Nat) : Int),before + 1)

-- The two walks end where the counts do, unless the place after this one has no number.
theorem span_around (test : Nat → Except FormulaError Bool) (low : 1 ≤ here) (room : most + 1 < Column.limit) :
    Follows (fun f => f = .beyond ∧ Column.limit ≤ here + 1) (span test most here) (around test most here) := by
  have back := walk_back test (show here - 1 < here by omega)
  rw [Nat.sub_sub_self low] at back
  simp only [span,around,minus_le low,pure_bind,back,ofFormula_bind,bind_assoc]
  refine (Follows.answer _).bind fun before counted => ?_
  have behind := runLength_most counted
  by_cases last : here + 1 < Column.limit
  · have forth := walk_forth test room (show here ≤ here + 1 by omega)
    rw [Nat.add_sub_add_right,Nat.add_sub_cancel_left] at forth
    simp only [ofFormula_pure,pure_bind,plus_lt last,Nat.add_sub_add_right,forth,ofFormula_bind,bind_assoc]
    refine (Follows.answer _).bind fun after _ => .inl ?_
    have wide : here + 1 + after - (here - 1 - before) = before + after + 1 + 1 := by omega
    have far : here - (here - 1 - before) = before + 1 := by omega
    rw [minus_le (by omega),pure_bind,wide,minus_le (by omega),pure_bind,minus_le (by omega),pure_bind,far,ofFormula_pure]
    exact congrArg (fun degree => pure (degree,before + 1)) (by omega)
  · rw [plus_not_lt (by omega)]
    exact .inr ⟨.beyond,⟨rfl,by omega⟩,rfl⟩

theorem linestShape_around (cell : CellRef) (book : Workbook) : linestShape ⟨cell,some book⟩ = (do
    let formulaAt (column row : Nat) : Except FormulaError (Option String) :=
      liftReference (book.formulaAt (⟨cell.sheet,column,row⟩ : CellRef).text)
    let own ← formulaAt cell.column cell.row
    if own = none then return (1,none)
    let along ← around (fun column => do return (← formulaAt column cell.row) == own) columnLimit cell.column
    let found ← if along.1 = 0 then around (fun row => do return (← formulaAt cell.column row) == own) rowLimit cell.row else pure along
    return ((max found.1 1).toNat,some (found.2 - 1))) := by
  simp only [linestShape,around,bind_assoc,pure_bind]
  refine congrArg _ (funext fun own => ?_)
  by_cases missing : own = none
  · rw [if_pos missing,if_pos missing]
  · rw [if_neg missing,if_neg missing]
    refine congrArg _ (funext fun before => congrArg _ (funext fun after => ?_))
    have largest (degree : Nat) : max degree 1 = (max (degree : Int) 1).toNat := by omega
    by_cases alone : before + after = 0
    · rw [if_neg (not_not_intro alone),if_pos (by omega)]
      exact congrArg _ (funext fun above => congrArg _ (funext fun below => congrArg pure (Prod.ext (largest _) rfl)))
    · rw [if_pos alone,if_neg (by omega)]
      exact congrArg pure (Prod.ext (by simp only; omega) rfl)

theorem around_apart (counted : around test most here = .ok found) : 1 ≤ found.2 := by
  obtain ⟨before,-,rest⟩ := bind_ok.mp counted
  obtain ⟨after,-,last⟩ := bind_ok.mp rest
  cases last
  exact Nat.succ_pos before

def Last (site : Site) : Prop := site.book ≠ none ∧ (Column.limit ≤ site.cell.column + 1 ∨ Column.limit ≤ site.cell.row + 1)

theorem shape_linestShape (site : Site) (column : 1 ≤ site.cell.column) (row : 1 ≤ site.cell.row) :
    Follows (fun f => f = .beyond ∧ site.Last) site.shape site.linestShape := by
  obtain ⟨cell,book⟩ := site
  cases book with
  | none => exact .inl rfl
  | some book =>
    rw [linestShape_around]
    simp only [shape]
    refine (Follows.answer _).bind fun own _ => ?_
    by_cases missing : own = none
    · rw [if_pos missing,if_pos missing]
      exact .answer _
    rw [if_neg missing,if_neg missing]
    refine ((span_around _ column (by decide)).mono ?_).bind fun along counted => ?_
    · exact fun f stop => ⟨stop.1,Option.some_ne_none book,.inl stop.2⟩
    have ends (found : Int × Nat) (apart : 1 ≤ found.2) : Follows (fun f => f = .beyond ∧ Last ⟨cell,some book⟩)
        (do return ((max found.1 1).toNat,some (← minus found.2 1))) (pure ((max found.1 1).toNat,some (found.2 - 1))) := by
      rw [minus_le apart]
      exact .answer _
    split
    · refine ((span_around _ row (by decide)).mono ?_).bind fun found counted => ends found (around_apart counted)
      exact fun f stop => ⟨stop.1,Option.some_ne_none book,.inr stop.2⟩
    · exact ends along (around_apart counted)

end Recalc.Site
