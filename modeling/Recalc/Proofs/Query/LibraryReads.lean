import Recalc.Library.Apply
import Recalc.Proofs.Query.Requests

namespace Recalc.Library
open Operand

variable {g : Grants} {args : List Operand}

section
variable (granted : ∀ o ∈ args, o.Granted g)
include granted

theorem arg_granted (i : Nat) : (arg args i).Granted g := by
  unfold arg
  cases found : args[i]? with
  | none => trivial
  | some o => exact granted o (List.mem_of_getElem? found)

theorem numberOr_asks (fallback : Float) (i : Nat) : (numberOr fallback args[i]?).Asks g := by
  cases found : args[i]? with
  | none => exact .pure _
  | some o => exact number_asks (granted o (List.mem_of_getElem? found))

theorem numbersOf_asks (member : o ∈ args) : (numbersOf o).Asks g :=
  (Work.Asks.lift (flatten_asks (granted o member))).bind fun _ => .ofExcept _

theorem numbers_asks : (numbers args).Asks g :=
  (Work.Asks.mapM fun _ member => numbersOf_asks granted member).bind fun _ => .pure _

theorem sum_asks : (sum args).Asks g := (numbers_asks granted).bind fun _ => .pure _

theorem average_asks : (average args).Asks g := by
  refine (numbers_asks granted).bind fun ns => ?_
  split
  · exact .throw _
  · exact .pure _

theorem least_asks : (least args).Asks g := (numbers_asks granted).bind fun _ => .pure _

theorem greatest_asks : (greatest args).Asks g := (numbers_asks granted).bind fun _ => .pure _

theorem tally_asks (test : Bool → Value → Bool) : (tally test args).Asks g := by
  refine Work.Asks.bind (.mapM fun o member => ?_) fun _ => .pure _
  exact (Work.Asks.lift (flatten_asks (granted o member))).bind fun _ => .pure _

theorem rank_asks : (rank args).Asks g := by
  refine (number_asks (arg_granted granted 0)).bind fun number => ?_
  refine (numberOr_asks granted _ 2).bind fun order => ?_
  refine (Work.Asks.lift (flatten_asks (arg_granted granted 1))).bind fun values => ?_
  refine (Work.Asks.ofExcept _).bind fun ns => ?_
  split
  · exact .pure _
  · exact .throw _

theorem sumProduct_asks : (sumProduct args).Asks g := by
  refine (Work.Asks.lift (grid_asks (arg_granted granted 0))).bind fun first => ?_
  split
  · exact (Work.Asks.ofExcept _).bind fun _ => .pure _
  · rename_i o found
    refine (Work.Asks.lift (grid_asks (granted o (List.mem_of_getElem? found)))).bind fun second => ?_
    split
    · exact (Work.Asks.ofExcept _).bind fun _ => .pure _
    · exact .throw _

theorem npv_asks : (npv args).Asks g := by
  have rest : ∀ o ∈ args.drop 1, o.Granted g := fun o member => granted o (List.mem_of_mem_drop member)
  refine (number_asks (arg_granted granted 0)).bind fun rate => ?_
  split
  · exact .throw _
  · exact (numbers_asks rest).bind fun _ => .pure _

theorem rounded_asks (mode : Decimal.Rounding) : (rounded mode args).Asks g :=
  (number_asks (arg_granted granted 0)).bind fun _ => (numberOr_asks granted _ 1).bind fun _ => .pure _

theorem mod_asks : (mod args).Asks g := by
  refine (number_asks (arg_granted granted 0)).bind fun n => (number_asks (arg_granted granted 1)).bind fun d => ?_
  split
  · exact .throw _
  · exact .pure _

theorem ofOne_asks (f : Float → Except ErrorValue Float) (i : Nat) : (ofOne f (arg args i)).Asks g := by
  refine (number_asks (arg_granted granted i)).bind fun n => (Work.Asks.ofExcept _).bind fun result => ?_
  split
  · exact .pure _
  · exact .throw _

theorem power_asks : (power args).Asks g :=
  (number_asks (arg_granted granted 1)).bind fun _ => ofOne_asks granted _ 0

theorem countIf_asks : (countIf args).Asks g :=
  (Work.Asks.lift (scalar_asks (arg_granted granted 1))).bind fun _ =>
    (Work.Asks.lift (flatten_asks (arg_granted granted 0))).bind fun _ => .pure _

theorem ifError_asks : (ifError args).Asks g := by
  refine Query.Asks.bind (scalar_asks (arg_granted granted 0)) fun value => ?_
  split
  · exact scalar_asks (arg_granted granted 1)
  · exact .pure _

theorem charCount_asks (i : Nat) : (charCount args[i]?).Asks g := by
  refine (numberOr_asks granted _ i).bind fun n => ?_
  split
  · exact .throw _
  · exact .pure _

theorem left_asks : (left args).Asks g :=
  (text_asks (arg_granted granted 0)).bind fun _ => (charCount_asks granted 1).bind fun _ => .pure _

theorem right_asks : (right args).Asks g :=
  (text_asks (arg_granted granted 0)).bind fun _ => (charCount_asks granted 1).bind fun _ => .pure _

theorem mid_asks : (mid args).Asks g := by
  refine (text_asks (arg_granted granted 0)).bind fun _ => (number_asks (arg_granted granted 1)).bind fun _ =>
    (charCount_asks granted 2).bind fun _ => ?_
  split
  · exact .throw _
  · exact .pure _

theorem len_asks : (len args).Asks g := (text_asks (arg_granted granted 0)).bind fun _ => .pure _

theorem substitute_asks : (substitute args).Asks g := by
  refine (text_asks (arg_granted granted 0)).bind fun text => (text_asks (arg_granted granted 1)).bind fun old =>
    (text_asks (arg_granted granted 2)).bind fun new => ?_
  extract_lets rest
  have rest_asks (occurrence : Option Nat) : (rest occurrence).Asks g := by
    unfold rest
    split
    · exact .pure _
    · split <;> exact .pure _
  cases found : args[3]? with
  | none => exact (Work.Asks.pure _).bind rest_asks
  | some o =>
    refine (number_asks (granted o (List.mem_of_getElem? found))).bind fun n => ?_
    split
    · exact .throw_bind _ _
    · exact (Work.Asks.pure _).bind rest_asks

theorem concatenate_asks : (concatenate args).Asks g :=
  (Work.Asks.mapM fun o member => text_asks (granted o member)).bind fun _ => .pure _

theorem linest_asks (degree : Nat) (coefficient : Option Nat) : (linest args degree coefficient).Asks g := by
  have values (i : Nat) (o : Operand) (given : args[i]? = some o) : o.flatten.Asks g :=
    flatten_asks (granted o (List.mem_of_getElem? given))
  unfold linest
  -- What follows each of the three arguments, whether it is given or not.
  extract_lets withYs
  have withYs_asks (ys : List Float) : (withYs ys).Asks g := by
    unfold withYs
    extract_lets withXs
    have withXs_asks (xs : List Float) : (withXs xs).Asks g := by
      unfold withXs
      extract_lets fit
      have fit_asks (intercept : Bool) : (fit intercept).Asks g := by
        unfold fit
        dsimp only
        split
        · exact .throw_bind _ _
        · refine (Work.Asks.ofExcept _).bind fun fitted => ?_
          split
          · split
            · exact .pure _
            · exact .throw _
          · exact .pure _
      cases third : args[2]? with
      | none => exact (Work.Asks.pure _).bind fit_asks
      | some o => exact (truth_asks (granted o (List.mem_of_getElem? third))).bind fit_asks
    cases second : args[1]? with
    | none => exact (Work.Asks.pure _).bind withXs_asks
    | some o => exact (Work.Asks.lift (values 1 o second)).bind fun vs => (Work.Asks.ofExcept _).bind withXs_asks
  cases first : args[0]? with
  | none => exact .throw_bind _ _
  | some o => exact (Work.Asks.lift (values 0 o first)).bind fun vs => (Work.Asks.ofExcept _).bind withYs_asks

end

namespace Table

theorem of_done (o : Operand) (transposed : Bool) : ∃ t, Table.of o transposed = .done t := by
  cases o with
  | range r => exact ⟨_,rfl⟩
  | value v => cases v <;> exact ⟨_,rfl⟩

theorem get_asks {transposed : Bool} (granted : o.Granted g) (made : Table.of o transposed = .done t) (row column : Nat) :
    (t.get row column).Asks g := by
  cases o with
  | range r =>
    cases made
    unfold get
    cases transposed
    · exact Rect.valueAt_asks (granted row column)
    · exact Rect.valueAt_asks (granted column row)
  | value v => cases v <;> cases made <;> trivial

theorem findText_asks {t : Table} (keys : ∀ row, (t.get row 0).Asks g) (wanted : List Char) (rows : List Nat) :
    (t.findText wanted rows).Asks g := by
  induction rows with
  | nil => exact .pure _
  | cons row more ih =>
    refine (keys row).bind fun key => ?_
    split
    · exact ih
    · split
      · exact .pure _
      · exact ih

theorem findBelow_asks {t : Table} (keys : ∀ row, (t.get row 0).Asks g) (target : Float) (found : Option Nat)
    (rows : List Nat) : (t.findBelow target found rows).Asks g := by
  induction rows generalizing found with
  | nil => exact .pure _
  | cons row more ih =>
    refine (keys row).bind fun key => ?_
    split
    · split
      · exact ih _
      · exact .pure _
    · exact ih _

end Table

theorem scan_asks {get : Nat → Query Value} (gets : ∀ i, (get i).Asks g) (mode : MatchMode) (item : Value)
    (found : Option Nat) (places : List Nat) : (scan mode item get found places).Asks g := by
  induction places generalizing found with
  | nil => exact .pure _
  | cons i more ih =>
    refine (gets i).bind fun value => ?_
    split
    · exact ih _
    · dsimp only
      split
      · exact ih _
      · exact .pure _

theorem matchPosition_asks (granted : ∀ o ∈ args, o.Granted g) : (matchPosition args).Asks g := by
  refine (Work.Asks.lift (scalar_asks (arg_granted granted 0))).bind fun item => ?_
  obtain ⟨t,made⟩ := Table.of_done (arg args 1) false
  have gets := Table.get_asks (arg_granted granted 1) made
  dsimp only
  split
  · exact .throw_bind _ _
  · refine (numberOr_asks granted _ 2).bind fun kind => ?_
    rw [made]
    change Work.Asks g (if t.rows ≠ 1 ∧ t.columns ≠ 1 then _ else _)
    split
    · exact .throw_bind _ _
    · refine (Work.Asks.lift (scan_asks (fun i => ?_) _ _ _ _)).bind fun found => ?_
      · split
        · exact gets 0 i
        · exact gets i 0
      · split
        · exact .pure _
        · exact .throw _

theorem index_asks (granted : ∀ o ∈ args, o.Granted g) : (index args).Asks g := by
  obtain ⟨t,made⟩ := Table.of_done (arg args 0) false
  have gets := Table.get_asks (arg_granted granted 0) made
  have within (place : Nat × Nat) : (do
      if place.1 = 0 ∨ place.2 = 0 then throw .value
      if t.rows < place.1 ∨ t.columns < place.2 then throw .ref
      t.get (place.1 - 1) (place.2 - 1) : Work Value).Asks g := by
    dsimp only
    split
    · exact .throw_bind _ _
    · split
      · exact .throw_bind _ _
      · exact .lift (gets _ _)
  unfold index
  rw [made]
  change Work.Asks g ((arg args 1).number >>= _)
  refine (number_asks (arg_granted granted 1)).bind fun row => ?_
  extract_lets tail
  have tail_asks (column : Option Float) : (tail column).Asks g := by
    unfold tail
    dsimp only
    split
    · exact .throw_bind _ _
    · exact within _
  cases given : args[2]? with
  | none => exact (Work.Asks.pure _).bind tail_asks
  | some o =>
    have number := number_asks (granted o (List.mem_of_getElem? given))
    exact Work.Asks.bind (number.bind fun n => .pure (some n)) tail_asks

theorem lookup_asks (transposed : Bool) (item : (arg args 0).Granted g) (mode : ∀ o, args[3]? = some o → o.Granted g)
    (table : Table.of (arg args 1) transposed = .done t) (keys : ∀ row, (t.get row 0).Asks g)
    (results : (arg args 2).number.Ensures g fun n => ∀ row, (t.get row (Decimal.toCount n - 1)).Asks g) :
    (lookup transposed args).Asks g := by
  refine (Work.Asks.lift (scalar_asks item)).bind fun item => ?_
  extract_lets sought known
  have sought_asks : (sought ()).Asks g := by
    unfold sought
    rw [table]
    change Work.Asks g ((arg args 2).number >>= _)
    refine results.bind fun n result => ?_
    extract_lets index keyed found tail within placed
    have found_asks (place : Option Nat) : (found place).Asks g := by
      unfold found
      split
      · exact .lift (result _)
      · exact .throw _
    have tail_asks (approximate : Bool) : (tail approximate).Asks g := by
      unfold tail
      split
      · split
        · exact (Work.Asks.lift (Table.findBelow_asks keys _ _ _)).bind found_asks
        · exact .throw_bind _ _
      · exact (Work.Asks.lift (Table.findText_asks keys _ _)).bind found_asks
    have within_asks : (within ()).Asks g := by
      unfold within
      cases given : args[3]? with
      | none => exact (Work.Asks.pure _).bind tail_asks
      | some o => exact (truth_asks (mode o given)).bind tail_asks
    have placed_asks : (placed ()).Asks g := by
      unfold placed
      split
      · exact .throw_bind _ _
      · exact within_asks
    split
    · exact .throw_bind _ _
    · exact placed_asks
  have known_asks : (known ()).Asks g := by
    unfold known
    split
    · exact .throw_bind _ _
    · exact sought_asks
  split
  · exact .throw_bind _ _
  · exact known_asks

-- The summed range starts where it is written, but takes its shape from the tested one.
theorem sumIf_asks (tested : (arg args 0).Granted g) (criterion : (arg args 1).Granted g)
    (summed : ∀ r, args[2]? = some (.range r) → ∀ row column, g.cells (r.cellAt row column).text) :
    (sumIf args).Asks g := by
  have summand (rows columns : Nat) : Query.Ensures g (SumSource.of rows columns args[2]?)
      fun source => ∀ row column value, (source.summed row column value).Asks g := by
    cases third : args[2]? with
    | none => exact fun _ _ _ => trivial
    | some o => cases o with
      | range r => exact fun row column value => Rect.valueAt_asks fun _ _ => summed r third row column
      | value v => cases v <;> exact fun _ _ _ => trivial
  refine (Work.Asks.lift (scalar_asks criterion)).bind fun v => (Work.Asks.lift (grid_asks tested)).bind fun grid => ?_
  refine (Work.Ensures.lift (summand _ _)).bind fun source sums => ?_
  refine (Work.Asks.foldlM (fun sum place _ => ?_) _).bind fun _ => .pure _
  refine (Work.Asks.lift (sums _ _ _)).bind fun v => ?_
  split
  · exact .pure _
  · exact .throw _
  · exact .pure _

end Recalc.Library
