import Recalc.Proofs.Formula.Lexeme.ClosingBrackets

namespace Recalc

def outside (quote : Option Char) : List Char → List Char
  | [] => []
  | c :: cs =>
    if quote = none ∧ (isOpening c || isClosing c) then c :: outside (quoteAfter quote c) cs else outside (quoteAfter quote c) cs

variable {c : Char} {cs rest : List Char} {quote : Option Char} {p : Char → Bool}

theorem outside_plain (plain : isPlain c = true) (cs : List Char) : outside none (c :: cs) = outside none cs := by
  obtain ⟨opening,closing,quote⟩ := plain_marks plain
  simp [outside,quoteAfter,opening,closing,quote]

theorem outside_opening (opening : isOpening c = true) (cs : List Char) : outside none (c :: cs) = c :: outside none cs := by
  simp [outside,quoteAfter,opening,opening_marks opening]

theorem outside_closing (closing : isClosing c = true) (cs : List Char) : outside none (c :: cs) = c :: outside none cs := by
  have other : isQuote c = false := by rcases isClosing_cases closing with rfl | rfl <;> decide
  simp [outside,quoteAfter,closing,other]

theorem outside_quote (quotes : isQuote c = true) (cs : List Char) : outside none (c :: cs) = outside (some c) cs := by
  simp [outside,quoteAfter,quotes,quote_marks quotes]

theorem outside_inside (mark c : Char) (cs : List Char) :
    outside (some mark) (c :: cs) = outside (if c = mark then none else some mark) cs := by
  simp [outside,quoteAfter]

theorem outside_dropWhile (plain : ∀ c, p c = true → isPlain c = true) (cs : List Char) :
    outside none (cs.dropWhile p) = outside none cs := by
  induction cs with
  | nil => rfl
  | cons c cs ih =>
    cases member : p c with
    | false => rw [List.dropWhile_cons_of_neg (by simp [member])]
    | true => rw [List.dropWhile_cons_of_pos member,ih,outside_plain (plain c member)]

inductive Act where
  | skip
  | push (t : Token)
  | openCall (name : String)
  | openGroup
  | openArray
  | close
  | comma
  | nextRow

def Act.on (s : Scanned) : Act → Scanned
  | skip => s
  | push t => s.push t
  | openCall name => s.openCall name
  | openGroup => s.openGroup
  | openArray => s.openArray
  | close => s.close
  | comma => s.comma
  | nextRow => s.nextRow

def Act.Marks (cs rest : List Char) : Act → Prop
  | openCall _ => ∃ o, isOpening o = true ∧ outside none cs = o :: outside none rest
  | openGroup => ∃ o, isOpening o = true ∧ outside none cs = o :: outside none rest
  | openArray => ∃ o, isOpening o = true ∧ outside none cs = o :: outside none rest
  | close => ∃ o, isClosing o = true ∧ outside none cs = o :: outside none rest
  | _ => outside none cs = outside none rest

-- What is scanned matters only by its groups and by whether an operand ends there.
structure Lexes (s : Scanned) (c : Char) (cs : List Char) (act : Act) (rest : List Char) : Prop where
  again : ∀ size (t : Scanned), t.endsOperand = s.endsOperand → t.groups = s.groups → Lexeme.step size t c cs = .ok (act.on t,rest)
  marks : act.Marks (c :: cs) rest
  shorter : rest <:+ cs

namespace Lexeme
variable {s s' : Scanned} {rest' : List Char} {size : Nat}

theorem lexes_alone (act : alone c = some f) (s : Scanned) (rest : List Char) : ∃ act, f s = act.on s ∧ Lexes s c rest act rest := by
  have opens (opening : isOpening c = true) : ∃ o, isOpening o = true ∧ outside none (c :: rest) = o :: outside none rest :=
    ⟨c,opening,outside_opening opening rest⟩
  have closes (closing : isClosing c = true) : ∃ o, isClosing o = true ∧ outside none (c :: rest) = o :: outside none rest :=
    ⟨c,closing,outside_closing closing rest⟩
  have plain (plain : isPlain c = true) : outside none (c :: rest) = outside none rest := outside_plain plain rest
  unfold alone at act
  split at act <;> cases act
  · exact ⟨.openArray,rfl,fun size t _ _ => rfl,opens (by decide),List.suffix_rfl⟩
  · exact ⟨.openGroup,rfl,fun size t _ _ => rfl,opens (by decide),List.suffix_rfl⟩
  · exact ⟨.close,rfl,fun size t _ _ => rfl,closes (by decide),List.suffix_rfl⟩
  · exact ⟨.close,rfl,fun size t _ _ => rfl,closes (by decide),List.suffix_rfl⟩
  · exact ⟨.comma,rfl,fun size t _ _ => rfl,plain (by decide),List.suffix_rfl⟩
  · cases ends : s.endsOperand with
    | true =>
      refine ⟨.push (.between "+"),if_pos ends,fun size t same _ => ?_,plain (by decide),List.suffix_rfl⟩
      change Except.ok (if t.endsOperand = true then t.push (.between "+") else t,rest) = _
      rw [same,ends]
      rfl
    | false =>
      refine ⟨.skip,if_neg (by simp [ends]),fun size t same _ => ?_,plain (by decide),List.suffix_rfl⟩
      change Except.ok (if t.endsOperand = true then t.push (.between "+") else t,rest) = _
      rw [same,ends]
      rfl
  · refine ⟨.push (if s.endsOperand then .between "-" else .minus),rfl,fun size t same _ => ?_,plain (by decide),List.suffix_rfl⟩
    change Except.ok (t.push (if t.endsOperand = true then .between "-" else .minus),rest) = _
    rw [same]
    rfl
  all_goals exact ⟨.push _,rfl,fun size t _ _ => rfl,plain (by decide),List.suffix_rfl⟩

theorem quoted_rest {mark : Char} (quotes : isQuote mark = true) (read : quoted mark cs = some (text,rest)) :
    outside (some mark) cs = outside none rest ∧ rest <:+ cs := by
  fun_induction quoted mark cs generalizing text with
  | case1 => cases read
  | case2 more ih =>
    obtain ⟨⟨inner,left⟩,found,made⟩ := Option.map_eq_some_iff.mp read
    cases made
    obtain ⟨same,suffix⟩ := ih found
    refine ⟨?_,suffix.trans ⟨[mark,mark],rfl⟩⟩
    rw [outside_inside,if_pos rfl,outside_quote quotes,same]
  | case3 d more other =>
    cases read
    exact ⟨by rw [outside_inside,if_pos rfl],List.suffix_cons mark _⟩
  | case4 =>
    cases read
    exact ⟨rfl,List.suffix_cons mark _⟩
  | case5 c rest' other ih =>
    obtain ⟨⟨inner,left⟩,found,made⟩ := Option.map_eq_some_iff.mp read
    cases made
    obtain ⟨same,suffix⟩ := ih found
    refine ⟨?_,suffix.trans (List.suffix_cons c _)⟩
    rw [outside_inside,if_neg other,same]

theorem lexes_text (stepped : step size s '"' rest = .ok (s',rest')) : ∃ act : Act, s' = act.on s ∧ Lexes s '"' rest act rest' := by
  unfold step at stepped
  simp only [show Text.isBlank '"' = false from rfl,Bool.false_eq_true,if_false] at stepped
  cases read : quoted '"' rest with
  | none => rw [read] at stepped; cases stepped
  | some found =>
    rw [read] at stepped
    cases stepped
    obtain ⟨same,shorter⟩ := quoted_rest (by decide) read
    refine ⟨.push _,rfl,fun size t _ _ => ?_,(outside_quote (by decide) rest).trans same,shorter⟩
    unfold step
    simp only [show Text.isBlank '"' = false from rfl,Bool.false_eq_true,if_false,read]
    rfl

theorem lexes_sheet (stepped : step size s '\'' rest = .ok (s',rest')) : ∃ act : Act, s' = act.on s ∧ Lexes s '\'' rest act rest' := by
  unfold step at stepped
  simp only [show Text.isBlank '\'' = false from rfl,Bool.false_eq_true,if_false] at stepped
  cases read : quoted '\'' rest with
  | none => rw [read] at stepped; cases stepped
  | some found =>
    obtain ⟨sheet,left⟩ := found
    obtain ⟨same,shorter⟩ := quoted_rest (by decide) read
    have dropped := outside_dropWhile plain_reference_char left
    rw [read] at stepped
    dsimp only at stepped
    split at stepped
    · rename_i mark
      cases stepped
      refine ⟨.push _,rfl,fun size t _ _ => ?_,(outside_quote (by decide) rest).trans (same.trans dropped.symm),
        (List.dropWhile_suffix _).trans shorter⟩
      unfold step
      simp only [show Text.isBlank '\'' = false from rfl,Bool.false_eq_true,if_false,read,mark,if_true]
      rfl
    · cases stepped

theorem lexes_error (stepped : step size s '#' rest = .ok (s',rest')) : ∃ act : Act, s' = act.on s ∧ Lexes s '#' rest act rest' := by
  have dropped := outside_dropWhile plain_error rest
  unfold step at stepped
  simp only [show Text.isBlank '#' = false from rfl,Bool.false_eq_true,if_false] at stepped
  split at stepped
  · rename_i e known
    cases stepped
    refine ⟨.push _,rfl,fun size t _ _ => ?_,(outside_plain (by decide) rest).trans dropped.symm,List.dropWhile_suffix _⟩
    unfold step
    simp only [show Text.isBlank '#' = false from rfl,Bool.false_eq_true,if_false,known]
    rfl
  · cases stepped

theorem lexes_semicolon (stepped : step size s ';' rest = .ok (s',rest')) : ∃ act : Act, s' = act.on s ∧ Lexes s ';' rest act rest' := by
  unfold step at stepped
  simp only [show Text.isBlank ';' = false from rfl,Bool.false_eq_true,if_false] at stepped
  split at stepped
  · rename_i inside
    cases stepped
    refine ⟨.nextRow,rfl,fun size t _ groups => ?_,outside_plain (by decide) rest,List.suffix_rfl⟩
    unfold step
    simp only [show Text.isBlank ';' = false from rfl,Bool.false_eq_true,if_false,groups,inside,if_true]
    rfl
  · cases stepped

theorem outside_comparison (first : isPlain c = true) (second : isPlain d = true) (rest : List Char) :
    outside none (c :: d :: rest) = outside none rest := (outside_plain first (d :: rest)).trans (outside_plain second rest)

theorem lexes_less (stepped : step size s '<' rest = .ok (s',rest')) : ∃ act : Act, s' = act.on s ∧ Lexes s '<' rest act rest' := by
  rw [step_less] at stepped
  split at stepped <;> cases stepped
  · exact ⟨.push _,rfl,fun size t _ _ => rfl,outside_comparison (by decide) (by decide) rest',List.suffix_cons _ _⟩
  · exact ⟨.push _,rfl,fun size t _ _ => rfl,outside_comparison (by decide) (by decide) rest',List.suffix_cons _ _⟩
  · rename_i equal greater
    refine ⟨.push _,rfl,fun size t _ _ => ?_,outside_plain (by decide) _,List.suffix_rfl⟩
    rw [step_less]
    split
    · exact absurd rfl (equal _)
    · exact absurd rfl (greater _)
    · rfl

theorem lexes_greater (stepped : step size s '>' rest = .ok (s',rest')) : ∃ act : Act, s' = act.on s ∧ Lexes s '>' rest act rest' := by
  rw [step_greater] at stepped
  split at stepped <;> cases stepped
  · exact ⟨.push _,rfl,fun size t _ _ => rfl,outside_comparison (by decide) (by decide) rest',List.suffix_cons _ _⟩
  · rename_i equal
    refine ⟨.push _,rfl,fun size t _ _ => ?_,outside_plain (by decide) _,List.suffix_rfl⟩
    rw [step_greater]
    split
    · exact absurd rfl (equal _)
    · rfl

theorem lexes_blank (blank : Text.isBlank c = true) (stepped : step size s c rest = .ok (s',rest')) :
    ∃ act : Act, s' = act.on s ∧ Lexes s c rest act rest' := by
  have same : outside none (c :: rest) = outside none (rest.dropWhile Text.isBlank) := by
    rw [outside_plain (plain_blank c blank),outside_dropWhile plain_blank]
  unfold step at stepped
  simp only [blank,if_true] at stepped
  cases stepped
  by_cases joins : s.endsOperand = true ∧ startsOperand (rest.dropWhile Text.isBlank) = true
  · refine ⟨.push (.between " "),if_pos joins,fun size t ends _ => ?_,same,List.dropWhile_suffix _⟩
    unfold step
    simp only [blank,if_true,ends,if_pos joins]
    rfl
  · refine ⟨.skip,if_neg joins,fun size t ends _ => ?_,same,List.dropWhile_suffix _⟩
    unfold step
    simp only [blank,if_true,ends,if_neg joins]
    rfl

theorem fraction_rest (cs : List Char) : outside none (fraction cs).2 = outside none cs ∧ (fraction cs).2 <:+ cs := by
  unfold fraction
  split
  · rw [outside_plain (by decide)]
    exact ⟨outside_dropWhile plain_digit _,(List.dropWhile_suffix _).trans (List.suffix_cons _ _)⟩
  · exact ⟨rfl,List.suffix_rfl⟩

theorem exponent_rest (cs : List Char) : outside none (exponent cs).2 = outside none cs ∧ (exponent cs).2 <:+ cs := by
  fun_cases exponent cs with
  | case1 mark marked d more digit =>
    rw [outside_plain (plain_mark marked)]
    exact ⟨outside_dropWhile plain_digit _,(List.dropWhile_suffix _).trans (List.suffix_cons _ _)⟩
  | case2 mark marked sign more other signed =>
    rw [outside_plain (plain_mark marked),outside_plain (plain_sign signed.1)]
    exact ⟨outside_dropWhile plain_digit _,(List.dropWhile_suffix _).trans ⟨[_,_],rfl⟩⟩
  | _ => exact ⟨rfl,List.suffix_rfl⟩

theorem number_rest (starts : c.isDigit = true ∨ c = '.') (cs : List Char) :
    outside none (number (c :: cs)).2 = outside none (c :: cs) ∧ (number (c :: cs)).2 <:+ cs := by
  obtain ⟨point,pointed⟩ := fraction_rest ((c :: cs).dropWhile Char.isDigit)
  obtain ⟨mark,marked⟩ := exponent_rest (fraction ((c :: cs).dropWhile Char.isDigit)).2
  refine ⟨mark.trans (point.trans (outside_dropWhile plain_digit (c :: cs))),marked.trans ?_⟩
  by_cases digit : c.isDigit = true
  · rw [List.dropWhile_cons_of_pos digit] at pointed ⊢
    exact pointed.trans (List.dropWhile_suffix _)
  · cases starts.resolve_left digit
    exact List.dropWhile_suffix _

theorem lexes_number (blank : Text.isBlank c = false) (other : c ∉ symbols) (starts : c.isDigit = true ∨ (c = '.' ∧ startsDigit rest = true))
    (s : Scanned) : Lexes s c rest (.push (.operand (String.ofList (number (c :: rest)).1) .number)) (number (c :: rest)).2 := by
  obtain ⟨same,shorter⟩ := number_rest (starts.imp_right And.left) rest
  refine ⟨fun size t _ _ => ?_,same.symm,shorter⟩
  rw [step_other blank other,if_pos starts]
  rfl

theorem word_acts (reference : isReferenceChar c = true) (rest : List Char) : ∃ (act : Act) (rest' : List Char),
    (∀ t, word t (c :: rest) = (act.on t,rest')) ∧ act.Marks (c :: rest) rest' ∧ rest' <:+ rest := by
  have dropped : (c :: rest).dropWhile isReferenceChar <:+ rest := by
    rw [List.dropWhile_cons_of_pos reference]
    exact List.dropWhile_suffix _
  have same := outside_dropWhile plain_reference_char (c :: rest)
  by_cases bracket : ∃ left, (c :: rest).dropWhile isReferenceChar = '(' :: left
  · obtain ⟨left,bracket⟩ := bracket
    rw [bracket] at dropped same
    rw [outside_opening (by decide)] at same
    exact ⟨.openCall _,left,fun t => word_opens t bracket,⟨'(',by decide,same.symm⟩,(List.suffix_cons _ _).trans dropped⟩
  · exact ⟨.push _,_,fun t => word_stands t fun left same => bracket ⟨left,same⟩,same.symm,dropped⟩

theorem lexes_step (stepped : step size s c rest = .ok (s',rest')) : ∃ act : Act, s' = act.on s ∧ Lexes s c rest act rest' := by
  by_cases symbol : c ∈ symbols
  · rcases symbols_cases symbol with ⟨f,act⟩ | rfl | rfl | rfl | rfl | rfl | rfl
    · rw [step_alone act] at stepped
      cases stepped
      exact lexes_alone act s rest
    · exact lexes_text stepped
    · exact lexes_sheet stepped
    · exact lexes_error stepped
    · exact lexes_semicolon stepped
    · exact lexes_less stepped
    · exact lexes_greater stepped
  by_cases blank : Text.isBlank c = true
  · exact lexes_blank blank stepped
  have blank := Bool.eq_false_iff.mpr blank
  rw [step_other blank symbol] at stepped
  split at stepped
  · rename_i starts
    cases stepped
    exact ⟨_,rfl,lexes_number blank symbol starts s⟩
  · rename_i number
    split at stepped
    · rename_i starts
      obtain ⟨act,left,does,marks,shorter⟩ := word_acts (Word.mk c [] starts (by simp)).reference rest
      rw [does s] at stepped
      cases stepped
      refine ⟨act,rfl,fun size t _ _ => ?_,marks,shorter⟩
      rw [step_other blank symbol,if_neg number,if_pos starts,does]
    · cases stepped

end Lexeme

theorem Scanned.comma_push (s : Scanned) : ∃ t, s.comma = s.push t := by
  unfold Scanned.comma
  split <;> exact ⟨_,rfl⟩

theorem Act.tokens (act : Act) (s : Scanned) : s.tokens <:+ (act.on s).tokens := by
  cases act with
  | skip => exact List.suffix_rfl
  | push t => exact List.suffix_cons _ _
  | openCall name => exact List.suffix_cons _ _
  | openGroup => exact List.suffix_cons _ _
  | openArray => exact ⟨[_,_],rfl⟩
  | close =>
    obtain ⟨tokens,_ | ⟨_ | _ | _,groups⟩⟩ := s
    · exact List.suffix_cons _ _
    · exact List.suffix_cons _ _
    · exact List.suffix_cons _ _
    · exact ⟨[_,_],rfl⟩
  | comma =>
    obtain ⟨t,comma⟩ := s.comma_push
    rw [on,comma]
    exact List.suffix_cons _ _
  | nextRow => exact ⟨[_,_,_],rfl⟩

end Recalc
