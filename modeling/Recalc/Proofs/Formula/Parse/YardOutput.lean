import Recalc.Proofs.Formula.Parse.Primaries

namespace Recalc.ReversePolish.Yard
variable {y z : Yard} {q ts pending : List Token}

def onto (y : Yard) (base : List Item) : Yard := {y with output := y.output ++ base}

theorem popToStart_onto (pending : List Token) (output base : List Item) :
    popToStart pending (output ++ base) = ((popToStart pending output).1,(popToStart pending output).2 ++ base) := by
  induction pending generalizing output with
  | nil => rfl
  | cons t pending ih =>
    unfold popToStart
    split
    · rfl
    · exact ih (.ofToken t :: output)

theorem popOperators_onto (n : Nat) (pending : List Token) (output base : List Item) :
    popOperators n pending (output ++ base) = (popOperators n pending output).map fun (left,order) => (left,order ++ base) := by
  induction pending generalizing output with
  | nil => rfl
  | cons t pending ih =>
    unfold popOperators
    split
    · cases rankOf t with
      | error e => rfl
      | ok m =>
        change (if n ≤ m then popOperators n pending (.ofToken t :: output ++ base) else pure (t :: pending,output ++ base)) =
          (if n ≤ m then popOperators n pending (.ofToken t :: output) else pure (t :: pending,output)).map _
        split
        · exact ih (.ofToken t :: output)
        · rfl
    · rfl

theorem separate_onto (y : Yard) (base : List Item) : (y.onto base).separate = y.separate.map fun y => y.onto base := by
  unfold separate onto
  rw [popToStart_onto]
  dsimp only
  split
  · rfl
  · split <;> rfl

theorem close_onto (y : Yard) (base : List Item) : (y.onto base).close = y.close.map fun y => y.onto base := by
  unfold close onto
  rw [popToStart_onto]
  generalize popToStart y.pending y.output = popped
  obtain ⟨_ | ⟨t,_ | ⟨function,below⟩⟩,output⟩ := popped
  · rfl
  · rfl
  · dsimp only
    split
    · split <;> rfl
    · rfl

theorem accept_onto (y : Yard) (base : List Item) (t : Token) : (y.onto base).accept t = (y.accept t).map fun y => y.onto base := by
  unfold accept
  split
  · rfl
  split
  · rfl
  split
  · exact separate_onto y base
  split
  · cases rankOf t with
    | error e => rfl
    | ok n =>
      change (popOperators n y.pending (y.output ++ base) >>= _) = _
      rw [popOperators_onto]
      change _ = Except.map _ (popOperators n y.pending y.output >>= _)
      cases popOperators n y.pending y.output <;> rfl
  split
  · rfl
  split
  · exact close_onto y base
  · rfl

theorem finish_onto (pending : List Token) (output base : List Item) :
    finish pending (output ++ base) = (finish pending output).map fun list => base.reverse ++ list := by
  induction pending generalizing output with
  | nil => simp [finish,Except.map]
  | cons t pending ih =>
    unfold finish
    split
    · rfl
    · exact ih (.ofToken t :: output)

def readOn (y : Yard) (ts : List Token) : Except FormulaError (List Item) := do
  let y ← (ts.flatMap expand).foldlM accept y
  finish y.pending y.output

theorem Takes.readOn (takes : Takes y ts z) (q : List Token) : y.readOn (ts ++ q) = z.readOn q := by
  unfold Yard.readOn
  rw [List.flatMap_append,List.foldlM_append,takes]
  rfl

theorem readOn_onto (y : Yard) (base : List Item) (ts : List Token) :
    (y.onto base).readOn ts = (y.readOn ts).map fun list => base.reverse ++ list := by
  unfold readOn
  generalize ts.flatMap expand = tokens
  induction tokens generalizing y with
  | nil => exact finish_onto y.pending y.output base
  | cons t tokens ih =>
    rw [List.foldlM_cons,List.foldlM_cons,accept_onto]
    cases y.accept t with
    | error e => rfl
    | ok z => exact ih z

-- After a primary the rest is read as if nothing stood before.
theorem readOn_yields {list : List Item} (waits : Waits 7 pending) (yields : Yields ts list.reverse true) (output : List Item)
    (counts : List Nat) (filled : List Bool) (q : List Token) : readOn ⟨output,pending,counts,filled⟩ (ts ++ q) =
      (readOn ⟨[],pending,counts,markFilled filled⟩ q).map fun rest => output.reverse ++ list ++ rest := by
  have takes := yields ⟨output,pending,counts,filled⟩ fun t top => (waits t top).1
  rw [takes.readOn]
  have moved := readOn_onto ⟨[],pending,counts,markFilled filled⟩ (list.reverse ++ output) q
  simpa [onto,marked] using moved

end Recalc.ReversePolish.Yard
