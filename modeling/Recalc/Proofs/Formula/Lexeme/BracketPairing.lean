import Recalc.Proofs.Formula.Lexeme.Actions

namespace Recalc

-- The brackets that stay open, latest first, where each that closes has to fit the one it closes.
def unclosed (fits : Char → Char → Bool) (opened : List Char) : List Char → Option (List Char)
  | [] => some opened
  | c :: cs =>
    if isOpening c then unclosed fits (c :: opened) cs
    else match opened with
      | [] => none
      | o :: opened => if fits o c then unclosed fits opened cs else none

def nested (fits : Char → Char → Bool) (formula : String) : Bool := unclosed fits [] (outside none formula.toList) == some []

def sameKind (o c : Char) : Bool := (o = '(' && c = ')') || (o = '\x7b' && c = '\x7d')
def anyKind (_ _ : Char) : Bool := true

variable {c : Char} {cs rest : List Char} {quote : Option Char}

theorem outside_blank (blank : Text.isBlank c = true) (quote : Option Char) (cs : List Char) :
    outside quote (cs ++ [c]) = outside quote cs := by
  obtain ⟨opening,closing,-⟩ := plain_marks (plain_blank c blank)
  induction cs generalizing quote with
  | nil => simp [outside,opening,closing]
  | cons d cs ih => simp [outside,ih]

theorem outside_rdropWhile (quote : Option Char) (cs : List Char) : outside quote (cs.rdropWhile Text.isBlank) = outside quote cs := by
  induction cs using List.reverseRecOn with
  | nil => rfl
  | append_singleton cs c ih =>
    cases blank : Text.isBlank c with
    | true => rw [List.rdropWhile_concat_pos _ _ _ blank,ih,outside_blank blank]
    | false => rw [List.rdropWhile_concat_neg _ _ _ (by simp [blank])]

theorem outside_dropEquals (cs : List Char) : outside none (dropEquals cs) = outside none cs := by
  unfold dropEquals
  split
  · rw [outside_plain (by decide)]
  · rfl

theorem outside_body (cs : List Char) : outside none (bodyChars cs) = outside none cs := by
  rw [bodyChars,outside_dropEquals,Text.trimBy_rdropWhile,outside_rdropWhile,outside_dropWhile plain_blank]

namespace Lexeme
variable {s s' : Scanned} {size : Nat}

theorem run_tokens (steps : Nat) (ran : run size steps s cs = .ok s') : s.tokens <:+ s'.tokens := by
  have later {t t' : Scanned} {c : Char} {rest rest' : List Char} (before : s.tokens <:+ t.tokens)
      (stepped : step size t c rest = .ok (t',rest')) : s.tokens <:+ t'.tokens := by
    obtain ⟨act,rfl,-⟩ := lexes_step stepped
    exact before.trans (act.tokens t)
  exact run_keeps later steps List.suffix_rfl cs ran

end Lexeme

theorem Unmatched.later {tokens tokens' : List Token} (unmatched : Unmatched tokens.reverse) (later : tokens <:+ tokens') :
    Unmatched tokens'.reverse := by
  obtain ⟨before,after,split,closed⟩ := unmatched
  obtain ⟨more,rfl⟩ := later
  exact ⟨before,after ++ more.reverse,by simp [split],closed⟩

theorem Unmatched.brackets (unmatched : Unmatched ts) : brackets [] ts = none := by
  obtain ⟨before,after,rfl,closed⟩ := unmatched
  rw [brackets_append,closed]
  rfl

theorem Scanned.Kept.unmatched {s : Scanned} (kept : s.Kept) (none : s.groups = []) : Unmatched s.close.tokens.reverse := by
  obtain ⟨tokens,groups⟩ := s
  cases none
  rcases kept.opened with closed | unmatched
  · exact ⟨tokens.reverse,[],by simp [Scanned.close],closed⟩
  · exact unmatched.later (List.suffix_cons _ _)

theorem Scanned.Kept.groups_nil {s : Scanned} (kept : s.Kept) (closed : brackets [] s.tokens.reverse = some []) : s.groups = [] := by
  rcases kept.opened with counted | unmatched
  · rw [closed] at counted
    cases groups : s.groups with
    | nil => rfl
    | cons group rest =>
      rw [groups] at counted
      cases group <;> cases counted
  · rw [unmatched.brackets] at closed
    cases closed

namespace Lexeme
variable {s s' : Scanned} {size : Nat}

theorem unclosed_act {opened : List Char} {act : Act} (counted : opened.length = s.groups.length) (marks : act.Marks cs rest) :
    (∃ opened', unclosed anyKind opened (outside none cs) = unclosed anyKind opened' (outside none rest) ∧
      opened'.length = (act.on s).groups.length) ∨ act = .close ∧ s.groups = [] := by
  have opens {o : Char} {group : Group} (opening : isOpening o = true) (next : outside none cs = o :: outside none rest) :
      ∃ opened', unclosed anyKind opened (outside none cs) = unclosed anyKind opened' (outside none rest) ∧
        opened'.length = (group :: s.groups).length :=
    ⟨o :: opened,by simp [next,unclosed,opening],by simp [counted]⟩
  cases act with
  | skip => exact .inl ⟨opened,congrArg _ marks,counted⟩
  | push t => exact .inl ⟨opened,congrArg _ marks,counted⟩
  | nextRow => exact .inl ⟨opened,congrArg _ marks,counted⟩
  | comma =>
    obtain ⟨t,comma⟩ := s.comma_push
    exact .inl ⟨opened,congrArg _ marks,by rw [Act.on,comma]; exact counted⟩
  | openCall name =>
    obtain ⟨o,opening,next⟩ := marks
    exact .inl (opens opening next)
  | openGroup =>
    obtain ⟨o,opening,next⟩ := marks
    exact .inl (opens opening next)
  | openArray =>
    obtain ⟨o,opening,next⟩ := marks
    exact .inl (opens opening next)
  | close =>
    obtain ⟨o,closing,next⟩ := marks
    have other : isOpening o = false := by rcases isClosing_cases closing with rfl | rfl <;> rfl
    obtain ⟨tokens,_ | ⟨group,groups⟩⟩ := s
    · exact .inr ⟨rfl,rfl⟩
    · cases opened with
      | nil => cases counted
      | cons b opened =>
        refine .inl ⟨opened,by simp [next,unclosed,other,anyKind],?_⟩
        cases group <;> simpa [Act.on,Scanned.close] using counted

-- The open brackets are as many as the open groups, unless one is closed where none is open.
-- Induction on the text.
theorem run_unclosed {opened : List Char} (steps : Nat) (enough : cs.length ≤ steps) (kept : s.Kept)
    (counted : opened.length = s.groups.length) (ran : run size steps s cs = .ok s') :
    (∃ left, unclosed anyKind opened (outside none cs) = some left ∧ left.length = s'.groups.length) ∨ Unmatched s'.tokens.reverse := by
  induction steps generalizing s cs opened with
  | zero =>
    cases List.length_eq_zero_iff.mp (Nat.le_zero.mp enough)
    cases ran
    exact .inl ⟨opened,rfl,counted⟩
  | succ steps ih =>
    cases cs with
    | nil =>
      cases ran
      exact .inl ⟨opened,rfl,counted⟩
    | cons c rest =>
      obtain ⟨⟨t,left⟩,stepped,ran⟩ := bind_ok.mp ran
      obtain ⟨act,rfl,lexes⟩ := lexes_step stepped
      have shorter : left.length ≤ steps := Nat.le_trans lexes.shorter.length_le (Nat.le_of_succ_le_succ enough)
      rcases unclosed_act counted lexes.marks with ⟨opened',same,counted'⟩ | ⟨rfl,bare⟩
      · rw [same]
        exact ih shorter (kept_step kept stepped) counted' ran
      · exact .inr ((kept.unmatched bare).later (run_tokens steps ran))

end Lexeme

theorem nested_of_closed (tokenized : tokenize (stripEquals formula) = .ok ts) (closed : brackets [] ts = some []) :
    nested anyKind formula = true := by
  obtain ⟨s,ran,last⟩ := bind_ok.mp tokenized
  cases last
  have groups := (Lexeme.run_keeps Lexeme.kept_step _ Scanned.kept_start _ ran).groups_nil closed
  have none : ([] : List Char).length = Scanned.start.groups.length := rfl
  rcases Lexeme.run_unclosed _ (Nat.le_refl _) Scanned.kept_start none ran with ⟨left,told,counted⟩ | unmatched
  · rw [groups] at counted
    rw [List.length_eq_zero_iff.mp counted,stripEquals_body,outside_body] at told
    simp [nested,told]
  · rw [unmatched.brackets] at closed
    cases closed

-- In a formula that is read the brackets outside of quotes are nested, and it may end each of
-- them by a bracket of either kind: what is read is the same.
theorem brackets_nested (formula : String) :
    (∀ t, parseFormula formula = .ok t → nested anyKind formula = true) ∧
      ∀ other, loosened other = loosened formula → parseFormula other = parseFormula formula := by
  refine ⟨fun t parsed => ?_,fun other alike => parseFormula_loosened alike⟩
  cases tokenized : tokenize (stripEquals formula) with
  | error e =>
    simp only [parseFormula,tokenized] at parsed
    cases parsed
  | ok ts =>
    rw [parseFormula_at tokenized] at parsed
    obtain ⟨list,ordered⟩ := parseTokens_ordered parsed
    exact nested_of_closed tokenized (ReversePolish.brackets_closed tokenized ordered)

theorem brackets_nested_mixed :
    nested anyKind "=\x7bSUM(1,2\x7d;\")\")" = true ∧ parseFormula "=\x7bSUM(1,2\x7d;\")\")" = parseFormula "=\x7bSUM(1,2);\")\"\x7d" := by
  have read : (parseFormula "=\x7bSUM(1,2\x7d;\")\")").toOption.isSome = true := by decide +kernel
  obtain ⟨nests,alike⟩ := brackets_nested "=\x7bSUM(1,2\x7d;\")\")"
  refine ⟨?_,(alike _ (by decide)).symm⟩
  cases parsed : parseFormula "=\x7bSUM(1,2\x7d;\")\")" with
  | error e => simp [parsed,Except.toOption] at read
  | ok t => exact nests t parsed

theorem kinds_unchecked : (parseFormula "=\x7b1)").toOption.isSome = true ∧ nested sameKind "=\x7b1)" = false := by decide +kernel

end Recalc
