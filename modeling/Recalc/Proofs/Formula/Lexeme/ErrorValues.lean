import Recalc.Proofs.Formula.Lexeme.ReadingOn

namespace Recalc
open Lexeme
variable {c : Char} {cs rest : List Char} {s : Scanned} {size : Nat}

namespace ErrorValue

def body (e : ErrorValue) : List Char := e.text.toList.tail

theorem text_body (e : ErrorValue) : e.text.toList = '#' :: e.body := by cases e <;> decide

theorem body_inside (e : ErrorValue) : ∀ c ∈ e.body, isErrorChar c = true := by cases e <;> exact Text.each_of_all (by decide)

theorem text_upper (e : ErrorValue) : e.text.toList.map Char.toUpper = e.text.toList := by cases e <;> decide

theorem text_apart (e other : ErrorValue) : (e.text.toList ++ ['/']).isPrefixOf other.text.toList = false := by
  cases e <;> cases other <;> decide

end ErrorValue

theorem isErrorChar_blank (blank : Text.isBlank c = true) : isErrorChar c = false := by
  have plain := isReferenceChar_blank blank
  cases inside : isErrorChar c with
  | false => rfl
  | true =>
    simp only [isErrorChar,Bool.or_eq_true,decide_eq_true_eq] at inside
    simp only [isReferenceChar,Bool.or_eq_false_iff] at plain
    rcases inside with ((letter | rfl) | rfl) | rfl
    · exact letter.symm.trans plain.1.1.1.1.1
    all_goals revert blank; decide

-- No blank is in the run that is looked up, so all of it has to be the error value.
theorem trim_run (inside : ∀ c ∈ cs, isErrorChar c = true) : Text.trim (String.ofList ('#' :: cs)) = String.ofList ('#' :: cs) := by
  have plain : ∀ c ∈ '#' :: cs, Text.isBlank c = false := by
    intro c member
    rcases List.mem_cons.mp member with rfl | member
    · rfl
    · exact Bool.eq_false_iff.mpr fun blank => absurd (inside c member) (by simp [isErrorChar_blank blank])
  have kept : Text.trimBy Text.isBlank ([] ++ ('#' :: cs ++ [])) = '#' :: cs := Text.trimBy_around (by simp) (List.cons_ne_nil _ _)
    (fun c head => plain c (List.mem_of_head? head)) (fun c last => plain c (List.mem_of_getLast? last))
  rw [Text.trim,String.toList_ofList]
  simpa using congrArg String.ofList kept

theorem parse_overrun (e : ErrorValue) (inside : ∀ c ∈ cs, isErrorChar c = true) :
    ErrorValue.parse (String.ofList ('#' :: (e.body ++ '/' :: cs))) = none := by
  have run : ∀ c ∈ e.body ++ '/' :: cs, isErrorChar c = true := by
    intro c member
    rcases List.mem_append.mp member with member | member
    · exact e.body_inside c member
    · rcases List.mem_cons.mp member with rfl | member
      · decide
      · exact inside c member
  unfold ErrorValue.parse
  rw [trim_run run,List.find?_eq_none]
  intro other _ found
  have same : other.text.toList = (e.text.toList ++ ['/']) ++ cs.map Char.toUpper := by
    have upper := congrArg String.toList (beq_iff_eq.mp found)
    rw [upper,Text.asciiUpper,String.toList_ofList,String.toList_ofList,← e.text_upper,e.text_body]
    simp
  have overruns : (e.text.toList ++ ['/']).isPrefixOf other.text.toList = true := by
    rw [same,List.isPrefixOf_iff_prefix]
    exact List.prefix_append _ _
  rw [ErrorValue.text_apart] at overruns
  cases overruns

namespace Lexeme

theorem step_error_ends (e : ErrorValue) (ends : ∀ c, rest.head? = some c → isErrorChar c = false) :
    step size s '#' (e.body ++ rest) = .ok (s.push (.operand e.text .error),rest) := by
  have known : ErrorValue.parse (String.ofList ('#' :: e.body)) = some e := by
    rw [← e.text_body,String.ofList_toList,e.parse_text]
  unfold step
  simp only [show Text.isBlank '#' = false from rfl,Bool.false_eq_true,if_false,Text.takeWhile_parted e.body_inside ends,
    Text.dropWhile_parted e.body_inside ends,known]

theorem step_error_overruns (e : ErrorValue) (size : Nat) (s : Scanned) (rest : List Char) :
    step size s '#' (e.body ++ '/' :: rest) = .error (.unknownErrorValue (e.text ++ String.ofList (('/' :: rest).takeWhile isErrorChar))) := by
  have first : ('/' :: rest).takeWhile isErrorChar = '/' :: rest.takeWhile isErrorChar := List.takeWhile_cons_of_pos (by decide)
  have taken : (e.body ++ '/' :: rest).takeWhile isErrorChar = e.body ++ '/' :: rest.takeWhile isErrorChar := by
    rw [List.takeWhile_append_of_pos e.body_inside,first]
  have inside : ∀ c ∈ rest.takeWhile isErrorChar, isErrorChar c = true := fun c member => List.mem_takeWhile_imp member
  have text : String.ofList ('#' :: (e.body ++ '/' :: rest.takeWhile isErrorChar)) = e.text ++ String.ofList (('/' :: rest).takeWhile isErrorChar) := by
    rw [first,← List.cons_append,← e.text_body,String.ofList_append,String.ofList_toList]
  unfold step
  simp only [show Text.isBlank '#' = false from rfl,Bool.false_eq_true,if_false,taken,parse_overrun e inside]
  rw [text]

end Lexeme

theorem tokenizeChars_operand {before : List Char} {t : Token} (stands : ∀ size rest, Scans size .start (before ++ rest) s rest)
    (stepped : ∀ size, step size s c (cs ++ rest) = .ok (s.push t,rest)) : ∃ size left, rest.length ≤ left ∧
      tokenizeChars (before ++ (c :: cs ++ rest)) =
        (run size left (Scanned.over ⟨[],s.groups⟩ (t :: s.tokens)) rest).map fun t => t.tokens.reverse :=
  tokenizeChars_scans fun size => (stands size _).trans (.step (stepped size) .here)

-- Where an operand may end an error value does too, unless a division sign stands there: that is taken
-- for a part of the error value, which is then not known. What follows is read as after a number.
theorem error_ends {before w : List Char} {ts : List Token} (e : ErrorValue) (n : Numeral)
    (stands : ∀ size rest, Scans size .start (before ++ rest) s rest) (parts : Parts true w)
    (number : tokenizeChars (before ++ (n.chars ++ w)) = .ok ts) :
    ∃ us, ts = s.tokens.reverse ++ .operand (String.ofList n.chars) .number :: us ∧
      tokenizeChars (before ++ (e.text.toList ++ w)) =
        if w.head? = some '/' then .error (.unknownErrorValue (e.text ++ String.ofList (w.takeWhile isErrorChar)))
        else .ok (s.tokens.reverse ++ .operand e.text .error :: us) := by
  obtain ⟨c,cs,chars,-⟩ := n.begins
  have stepped : ∀ size, step size s c (cs ++ w) = .ok (s.push (.operand (String.ofList n.chars) .number),w) := by
    intro size
    obtain ⟨d,ds,same,stepped⟩ := step_number n parts
    cases chars.symm.trans same
    exact stepped
  obtain ⟨size,left,enough,same⟩ := tokenizeChars_operand stands stepped
  rw [chars,same] at number
  cases ran : run size left (Scanned.over ⟨[],s.groups⟩ (.operand (String.ofList n.chars) .number :: s.tokens)) w with
  | error cause => rw [ran] at number; cases number
  | ok t =>
    rw [ran] at number
    have operands : (Token.operand (String.ofList n.chars) .number :: s.tokens).head?.any Token.endsOperand =
        (Token.operand e.text .error :: s.tokens).head?.any Token.endsOperand := rfl
    obtain ⟨s',rfl,again⟩ := run_over operands enough ran
    refine ⟨s'.tokens.reverse,?_,?_⟩
    · cases number
      simp [Scanned.over]
    · split
      · rename_i slash
        obtain ⟨rest,rfl⟩ := List.head?_eq_some_iff.mp slash
        obtain ⟨size',left',enough',same'⟩ := tokenizeChars_scans fun size => stands size (e.text.toList ++ '/' :: rest)
        cases left' with
        | zero =>
          rw [e.text_body] at enough'
          cases enough'
        | succ left' =>
          rw [same',e.text_body,List.cons_append,run,step_error_overruns]
          rfl
      · rename_i other
        have ends : ∀ c, w.head? = some c → isErrorChar c = false := by
          have each : ∀ c ∈ closing, c ≠ '/' → isErrorChar c = false := Text.each_of_all (by decide)
          intro c head
          rcases parts c head with blank | closes
          · exact isErrorChar_blank blank
          · exact each c closes fun slash => other (slash ▸ head)
        obtain ⟨size',left',enough',same'⟩ := tokenizeChars_operand stands fun _ => step_error_ends e ends
        rw [e.text_body,same',again size' left' enough']
        simp [Except.map,Scanned.over]

theorem error_ends_multiplied : ∃ us, tokenizeChars ("2*5%)".toList) = .ok (.operand "2" .number :: .between "*" :: .operand "5" .number :: us) ∧
    tokenizeChars ("2*#DIV/0!%)".toList) = .ok (.operand "2" .number :: .between "*" :: .operand "#DIV/0!" .error :: us) := by
  let s : Scanned := ⟨[.between "*",.operand "2" .number],[]⟩
  let n : Numeral := ⟨[5],none,none,.inl (by decide)⟩
  have stands : ∀ size rest, Scans size .start (['2','*'] ++ rest) s rest := fun size rest =>
    .step (t := ⟨[.operand "2" .number],[]⟩) rfl (.step rfl .here)
  have parts : Parts true ['%',')'] := by
    intro c head
    cases head
    exact .inr (by decide)
  have number : tokenizeChars (['2','*'] ++ (n.chars ++ ['%',')'])) =
      .ok [.operand "2" .number,.between "*",.operand "5" .number,.percent,.groupStop] := by decide +kernel
  obtain ⟨us,read,instead⟩ := error_ends .div0 n stands parts number
  exact ⟨us,number.trans (congrArg _ read),instead⟩

theorem error_divided : (tokenize "5/2").toOption.isSome = true ∧
    tokenize "#REF!/2" = .error (.unknownErrorValue "#REF!/2") := by decide +kernel

end Recalc
