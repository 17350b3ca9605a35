import Recalc.Library.Criterion
import Recalc.Proofs.Decimal.Numerals

namespace Recalc

theorem ErrorValue.parse_spells {t : String} {e : ErrorValue} (found : parse t = some e) :
    (Text.trimBy Text.isBlank t.toList).map Char.toLower = e.text.toList.map Char.toLower := by
  unfold parse at found
  have same : e.text = Text.asciiUpper (Text.trim t) := by simpa using List.find?_some found
  have blind : Char.toLower ∘ Char.toUpper = Char.toLower := funext Text.toLower_toUpper
  rw [same,Text.asciiUpper,String.toList_ofList,List.map_map,blind,Text.trim,String.toList_ofList]

namespace Criterion

inductive Wanted where
  | nothing
  | number (n : Float)
  | boolean (b : Bool)
  | error (e : ErrorValue)
  | spelling

def worded (word : String) : Wanted :=
  if Text.sameIgnoringAsciiCase word "TRUE" then .boolean true
  else if Text.sameIgnoringAsciiCase word "FALSE" then .boolean false
  else (ErrorValue.parse word).elim .spelling .error

def wanted (operand : List Char) : Wanted :=
  if operand = [] then .nothing
  else (Decimal.number? (Text.trimBy Text.isBlank operand)).elim (worded (String.ofList operand)) .number

-- An error value can only be asked for, not ruled out: with another sign its name is a text.
def Wanted.under (c : Comparator) (operand : List Char) : Wanted → Criterion
  | .nothing => .blank (c != .notEqual)
  | .number n => .number c n
  | .boolean b => .boolean c b
  | .error e => if c = .equal then .error e else .text c (Text.lower operand)
  | .spelling => .text c (Text.lower operand)

variable {s word : String} {c : Comparator} {operand : List Char} {n : Float} {b : Bool} {e : ErrorValue}

theorem parse_wanted (split : Comparator.strip (Text.trimBy Text.isBlank s.toList) = (c,operand)) :
    parse s = (wanted operand).under c operand := by
  unfold parse wanted
  simp only [split]
  by_cases void : operand = []
  · rw [if_pos void,if_pos void]
    rfl
  rw [if_neg void,if_neg void]
  cases Decimal.number? (Text.trimBy Text.isBlank operand) with
  | some n => rfl
  | none =>
    dsimp only [Option.elim_none,worded]
    split
    · rfl
    · split
      · rfl
      · cases ErrorValue.parse (String.ofList operand) with
        | none => rfl
        | some e => cases c <;> rfl

theorem error_apart (found : ErrorValue.parse word = some e) : Decimal.number? (Text.trimBy Text.isBlank word.toList) = none ∧
    Text.sameIgnoringAsciiCase word "TRUE" = false ∧ Text.sameIgnoringAsciiCase word "FALSE" = false := by
  have spells := ErrorValue.parse_spells found
  have other (truth : String) (apart : ∀ e : ErrorValue,
      Text.trimBy Text.isBlank (truth.toList.map Char.toLower) ≠ e.text.toList.map Char.toLower) :
      Text.sameIgnoringAsciiCase word truth = false := by
    refine Bool.eq_false_iff.mpr fun same => apart e ?_
    have letters := String.ofList_injective (beq_iff_eq.mp same)
    rw [← letters,Text.trimBy_lower Text.isBlank_toLower,spells]
  refine ⟨?_,other _ fun e => by cases e <;> decide,other _ fun e => by cases e <;> decide⟩
  rw [← Decimal.number?_lower,spells]
  cases e <;> decide

theorem worded_error : worded word = .error e ↔ ErrorValue.parse word = some e := by
  constructor
  · intro asks
    unfold worded at asks
    split at asks
    · cases asks
    · split at asks
      · cases asks
      · cases found : ErrorValue.parse word with
        | none =>
          rw [found] at asks
          cases asks
        | some other =>
          rw [found] at asks
          cases asks
          rfl
  · intro found
    obtain ⟨-,untrue,unfalse⟩ := error_apart found
    rw [worded,untrue,unfalse,found]
    rfl

theorem worded_number : worded word ≠ .number n := by
  unfold worded
  split
  · exact nofun
  · split
    · exact nofun
    · cases ErrorValue.parse word <;> exact nofun

theorem wanted_number : wanted operand = .number n ↔ Decimal.number? (Text.trimBy Text.isBlank operand) = some n := by
  unfold wanted
  by_cases void : operand = []
  · subst void
    exact ⟨nofun,nofun⟩
  rw [if_neg void]
  cases Decimal.number? (Text.trimBy Text.isBlank operand) with
  | some m => rw [Option.elim_some,Wanted.number.injEq,Option.some.injEq]
  | none => exact ⟨fun asks => absurd asks worded_number,nofun⟩

theorem wanted_error : wanted operand = .error e ↔ ErrorValue.parse (String.ofList operand) = some e := by
  unfold wanted
  by_cases void : operand = []
  · subst void
    exact ⟨nofun,nofun⟩
  rw [if_neg void]
  cases read : Decimal.number? (Text.trimBy Text.isBlank operand) with
  | none => exact worded_error
  | some n =>
    refine ⟨nofun,fun found => ?_⟩
    have none := (error_apart found).1
    rw [String.toList_ofList,read] at none
    cases none

end Criterion
end Recalc
