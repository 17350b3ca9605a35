import Recalc.Formula.ReversePolish
import Recalc.Proofs.Address.Spelling

namespace Recalc
open ReversePolish

-- All that one lexeme can do to what is scanned. No constructor lets a number have a sign, or an
-- operator between operands be without a rank.
inductive Scanned.Grows (s : Scanned) : Scanned → Prop where
  | skip : Grows s s
  | number (text : String) (unsigned : text.toList.head? ≠ some '-') : Grows s (s.push (.operand text .number))
  | operand (text : String) (other : subkind ≠ .number) : Grows s (s.push (.operand text subkind))
  | between (ranked : rank symbol = some n) : Grows s (s.push (.between symbol))
  | minus : Grows s (s.push .minus)
  | percent : Grows s (s.push .percent)
  | openCall (name : String) : Grows s (s.openCall name)
  | openGroup : Grows s s.openGroup
  | openArray : Grows s s.openArray
  | close : Grows s s.close
  | comma : Grows s s.comma
  | nextRow (inside : s.groups.head? = some .array) : Grows s s.nextRow

namespace Lexeme
variable {s s' : Scanned} {c : Char} {rest rest' : List Char} {size : Nat}

theorem number_unsigned (starts : c.isDigit = true ∨ (c = '.' ∧ startsDigit rest = true)) :
    (String.ofList (number (c :: rest)).1).toList.head? ≠ some '-' := by
  change (String.ofList ((c :: rest).takeWhile Char.isDigit ++ (fraction ((c :: rest).dropWhile Char.isDigit)).1 ++
    (exponent (fraction ((c :: rest).dropWhile Char.isDigit)).2).1)).toList.head? ≠ _
  rw [String.toList_ofList]
  by_cases digit : c.isDigit = true
  · rw [List.takeWhile_cons_of_pos digit]
    rintro ⟨⟩
    cases digit
  · obtain ⟨rfl,-⟩ := starts.resolve_left digit
    rintro ⟨⟩

theorem word_grows (s : Scanned) (cs : List Char) : s.Grows (word s cs).1 := by
  unfold word
  dsimp only
  split
  · exact .openCall _
  · split <;> exact .operand _ (by decide)

theorem step_grows (stepped : step size s c rest = .ok (s',rest')) : s.Grows s' := by
  unfold step at stepped
  dsimp only at stepped
  split at stepped
  · cases stepped
    split
    · exact .between rfl
    · exact .skip
  split at stepped
  -- texts, error values and sheet names in quotes
  · split at stepped
    · cases stepped
      exact .operand _ (by decide)
    · cases stepped
  · split at stepped
    · cases stepped
      exact .operand _ (by decide)
    · cases stepped
  · split at stepped
    · cases stepped
    · split at stepped
      · cases stepped
        exact .operand _ (by decide)
      · cases stepped
  -- arrays and their rows
  · cases stepped
    exact .openArray
  · cases stepped
    exact .close
  · split at stepped
    · rename_i inside
      cases stepped
      exact .nextRow inside
    · cases stepped
  -- brackets and commas
  · cases stepped
    exact .openGroup
  · cases stepped
    exact .close
  · cases stepped
    exact .comma
  -- signs stand between operands or before one
  · cases stepped
    split
    · exact .between rfl
    · exact .skip
  · cases stepped
    split
    · exact .between rfl
    · exact .minus
  -- operators
  · cases stepped
    exact .between rfl
  · cases stepped
    exact .between rfl
  · cases stepped
    exact .between rfl
  · cases stepped
    exact .between rfl
  · cases stepped
    exact .between rfl
  · split at stepped <;>
    · cases stepped
      exact .between rfl
  · split at stepped <;>
    · cases stepped
      exact .between rfl
  · cases stepped
    exact .percent
  -- numbers and words
  · split at stepped
    · rename_i starts
      cases stepped
      exact .number _ (number_unsigned starts)
    · split at stepped
      · have named := word_grows s (c :: rest)
        rw [Except.ok.inj stepped] at named
        exact named
      · cases stepped

theorem run_keeps {P : Scanned → Prop}
    (keeps : ∀ {s s' : Scanned} {c : Char} {rest rest' : List Char}, P s → step size s c rest = .ok (s',rest') → P s')
    (steps : Nat) (holds : P s) (cs : List Char) (ran : run size steps s cs = .ok s') : P s' := by
  induction steps generalizing s cs with
  | zero =>
    cases cs <;> (cases ran; exact holds)
  | succ steps ih =>
    cases cs with
    | nil =>
      cases ran
      exact holds
    | cons c rest =>
      obtain ⟨⟨between,left⟩,stepped,ran⟩ := bind_ok.mp ran
      exact ih (keeps holds stepped) left ran

theorem scanned_keeps {P : Scanned → Prop}
    (keeps : ∀ {size : Nat} {s s' : Scanned} {c : Char} {rest rest' : List Char}, P s → step size s c rest = .ok (s',rest') → P s')
    (start : P .start) (scanned : tokenizeChars cs = .ok ts) : ∃ s, P s ∧ ts = s.tokens.reverse := by
  obtain ⟨s,ran,last⟩ := bind_ok.mp scanned
  cases last
  exact ⟨s,run_keeps keeps _ start _ ran,rfl⟩

end Lexeme
end Recalc
