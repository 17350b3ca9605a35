import Recalc.Proofs.Formula.Lexeme.Scanning
import Recalc.Proofs.Formula.Parse.TokenPlacement

namespace Recalc

def isOpening (c : Char) : Bool := c = '(' || c = '\x7b'
def isClosing (c : Char) : Bool := c = ')' || c = '\x7d'
def isQuote (c : Char) : Bool := c = '"' || c = '\''
def isPlain (c : Char) : Bool := !(isOpening c || isClosing c || isQuote c)

def quoteAfter (quote : Option Char) (c : Char) : Option Char :=
  match quote with
  | some mark => if c = mark then none else some mark
  | none => if isQuote c then some c else none

-- The text with all brackets that close, outside of quotes, of one kind.
def loosen (quote : Option Char) : List Char → List Char
  | [] => []
  | c :: cs => (if quote = none ∧ isClosing c then ')' else c) :: loosen (quoteAfter quote c) cs

def loosened (formula : String) : List Char := loosen none formula.toList

variable {c : Char} {cs rest : List Char} {quote : Option Char} {p : Char → Bool}

theorem isPlain_cases (c : Char) : isPlain c = true ∨ c = '(' ∨ c = '\x7b' ∨ c = ')' ∨ c = '\x7d' ∨ c = '"' ∨ c = '\'' := by
  by_cases plain : isPlain c = true
  · exact .inl plain
  · simp only [isPlain,isOpening,isClosing,isQuote,Bool.not_eq_true,Bool.not_eq_false',Bool.or_eq_true,decide_eq_true_eq] at plain
    tauto

theorem plain_of (rejects : ['(','\x7b',')','\x7d','"','\''].all (fun c => !p c) = true) (c : Char) (member : p c = true) :
    isPlain c = true := by
  have each : ∀ c ∈ ['(','\x7b',')','\x7d','"','\''], p c = false := by simpa using rejects
  refine (isPlain_cases c).resolve_right fun mark => ?_
  rw [each c (by simpa using mark)] at member
  cases member

theorem plain_blank (c : Char) (blank : Text.isBlank c = true) : isPlain c = true := plain_of (by decide) c blank

theorem plain_marks (plain : isPlain c = true) : isOpening c = false ∧ isClosing c = false ∧ isQuote c = false := by
  simpa [isPlain,and_assoc] using plain

theorem isClosing_cases (closing : isClosing c = true) : c = ')' ∨ c = '\x7d' := by simpa [isClosing] using closing

theorem opening_marks (opening : isOpening c = true) : isClosing c = false ∧ isQuote c = false := by
  simp only [isOpening,Bool.or_eq_true,decide_eq_true_eq] at opening
  rcases opening with rfl | rfl <;> decide

theorem quote_marks (quotes : isQuote c = true) : isOpening c = false ∧ isClosing c = false := by
  simp only [isQuote,Bool.or_eq_true,decide_eq_true_eq] at quotes
  rcases quotes with rfl | rfl <;> decide

theorem loosen_plain (plain : isPlain c = true) (cs : List Char) : loosen none (c :: cs) = c :: loosen none cs := by
  obtain ⟨opening,closing,quote⟩ := plain_marks plain
  simp [loosen,quoteAfter,closing,quote]

theorem loosen_opening (opening : isOpening c = true) (cs : List Char) : loosen none (c :: cs) = c :: loosen none cs := by
  simp [loosen,quoteAfter,opening_marks opening]

theorem loosen_quote (quotes : isQuote c = true) (cs : List Char) : loosen none (c :: cs) = c :: loosen (some c) cs := by
  simp [loosen,quoteAfter,quotes,quote_marks quotes]

theorem loosen_inside (mark c : Char) (cs : List Char) :
    loosen (some mark) (c :: cs) = c :: loosen (if c = mark then none else some mark) cs := by
  simp [loosen,quoteAfter]

theorem loosen_head (c : Char) (cs : List Char) : ∃ d, loosen none (c :: cs) = d :: loosen (quoteAfter none c) cs ∧
    (isClosing c = false ∧ d = c ∨ isClosing c = true ∧ d = ')') := by
  refine ⟨_,rfl,?_⟩
  cases closing : isClosing c <;> simp

theorem loosen_span (plain : ∀ c, p c = true → isPlain c = true) (cs : List Char) :
    (loosen none cs).takeWhile p = cs.takeWhile p ∧ (loosen none cs).dropWhile p = loosen none (cs.dropWhile p) := by
  induction cs with
  | nil => exact ⟨rfl,rfl⟩
  | cons c cs ih =>
    cases member : p c with
    | true =>
      rw [loosen_plain (plain c member)]
      simpa [member] using ih
    | false =>
      obtain ⟨d,loosened,made⟩ := loosen_head c cs
      have other : p d = false := by
        rcases made with ⟨-,rfl⟩ | ⟨-,rfl⟩
        · exact member
        · exact Bool.eq_false_iff.mpr fun closes => absurd (plain _ closes) (by decide)
      simp [loosened,member,other]

namespace Lexeme

theorem quoted_loosen {mark : Char} (quotes : isQuote mark = true) (cs : List Char) :
    quoted mark (loosen (some mark) cs) = (quoted mark cs).map fun (text,rest) => (text,loosen none rest) := by
  fun_induction quoted mark cs with
  | case1 => rfl
  | case2 more ih =>
    rw [loosen_inside,if_pos rfl,loosen_quote quotes]
    simp [quoted,ih,Function.comp_def]
  | case3 d more other =>
    obtain ⟨e,loosened,made⟩ := loosen_head d more
    have apart : e ≠ mark := by
      rcases made with ⟨-,rfl⟩ | ⟨-,rfl⟩
      · exact other
      · intro same
        rw [← same] at quotes
        exact absurd quotes (by decide)
    rw [loosen_inside,if_pos rfl]
    simp [loosened,quoted,apart]
  | case4 => simp [loosen,quoted]
  | case5 c rest other ih =>
    rw [loosen_inside,if_neg other,quoted.eq_def]
    simp [other,ih,Function.comp_def]

theorem head_loosen (f : List Char → Bool) (head : ∀ c cs ds, f (c :: cs) = f (c :: ds)) (closing : ∀ c cs, isClosing c = true → f (c :: cs) = f [')'])
    (cs : List Char) : f (loosen none cs) = f cs := by
  cases cs with
  | nil => rfl
  | cons c cs =>
    obtain ⟨d,loosened,⟨-,rfl⟩ | ⟨closes,rfl⟩⟩ := loosen_head c cs
    · rw [loosened,head]
    · rw [loosened,closing c cs closes,head]

theorem startsDigit_loosen (cs : List Char) : startsDigit (loosen none cs) = startsDigit cs := by
  refine head_loosen startsDigit (fun c cs ds => rfl) (fun c cs closing => ?_) cs
  rcases isClosing_cases closing with rfl | rfl <;> rfl

theorem startsOperand_loosen (cs : List Char) : startsOperand (loosen none cs) = startsOperand cs := by
  refine head_loosen startsOperand (fun c cs ds => rfl) (fun c cs closing => ?_) cs
  rcases isClosing_cases closing with rfl | rfl <;> rfl

theorem plain_digit (c : Char) (digit : c.isDigit = true) : isPlain c = true := plain_of (by decide) c digit

theorem plain_reference_char (c : Char) (reference : isReferenceChar c = true) : isPlain c = true := plain_of (by decide) c reference

theorem plain_error (c : Char) (error : isErrorChar c = true) : isPlain c = true := plain_of (by decide) c error

theorem fraction_other (other : c ≠ '.') (cs : List Char) : fraction (c :: cs) = ([],c :: cs) := by
  unfold fraction
  split
  · rename_i same
    exact absurd (List.cons.inj same).1 other
  · rfl

theorem fraction_loosen (cs : List Char) : fraction (loosen none cs) = ((fraction cs).1,loosen none (fraction cs).2) := by
  cases cs with
  | nil => rfl
  | cons c cs =>
    by_cases point : c = '.'
    · obtain ⟨taken,dropped⟩ := loosen_span plain_digit cs
      rw [point,loosen_plain (by decide)]
      simp [fraction,taken,dropped]
    · obtain ⟨d,loosened,made⟩ := loosen_head c cs
      have other : d ≠ '.' := by
        rcases made with ⟨-,rfl⟩ | ⟨-,rfl⟩
        · exact point
        · decide
      rw [fraction_other point,loosened,fraction_other other]

theorem plain_mark (mark : c = 'e' ∨ c = 'E') : isPlain c = true := by rcases mark with rfl | rfl <;> decide

theorem plain_sign (sign : c = '+' ∨ c = '-') : isPlain c = true := by rcases sign with rfl | rfl <;> decide

theorem exponent_loosen (cs : List Char) : exponent (loosen none cs) = ((exponent cs).1,loosen none (exponent cs).2) := by
  fun_cases exponent cs with
  | case1 mark marked d more digit =>
    obtain ⟨taken,dropped⟩ := loosen_span plain_digit more
    rw [loosen_plain (plain_mark marked),loosen_plain (plain_digit d digit)]
    simp [exponent,marked,digit,taken,dropped]
  | case2 mark marked sign more other signed =>
    obtain ⟨taken,dropped⟩ := loosen_span plain_digit more
    rw [loosen_plain (plain_mark marked),loosen_plain (plain_sign signed.1)]
    simp [exponent,marked,other,signed,startsDigit_loosen,taken,dropped]
  | case3 mark marked sign more other unsigned =>
    rw [loosen_plain (plain_mark marked)]
    by_cases signed : sign = '+' ∨ sign = '-'
    · have next : startsDigit (loosen none more) = false := by simpa [startsDigit_loosen,signed] using unsigned
      rw [loosen_plain (plain_sign signed)]
      simp [exponent,marked,other,next]
    · obtain ⟨d,loosened,⟨-,rfl⟩ | ⟨closing,rfl⟩⟩ := loosen_head sign more
      · simp [loosened,exponent,marked,other,signed]
      · simp [loosened,exponent,marked,show ')'.isDigit = false from rfl]
  | case4 mark marked =>
    rw [loosen_plain (plain_mark marked)]
    simp [loosen,exponent,marked]
  | case5 c cs other =>
    obtain ⟨d,loosened,made⟩ := loosen_head c cs
    have apart : ¬ (d = 'e' ∨ d = 'E') := by
      rcases made with ⟨-,rfl⟩ | ⟨-,rfl⟩
      · exact other
      · decide
    simp [loosened,exponent,apart]
  | case6 => rfl

theorem number_loosen (cs : List Char) : number (loosen none cs) = ((number cs).1,loosen none (number cs).2) := by
  obtain ⟨taken,dropped⟩ := loosen_span plain_digit cs
  simp [number,taken,dropped,fraction_loosen,exponent_loosen]

theorem word_opens (s : Scanned) (bracket : cs.dropWhile isReferenceChar = '(' :: rest) :
    word s cs = (s.openCall (stripFunctionMarker (String.ofList (cs.takeWhile isReferenceChar))),rest) := by
  unfold word
  rw [bracket]
  rfl

def wordOperand (text : String) : Token :=
  if Text.asciiUpper text = "TRUE" ∨ Text.asciiUpper text = "FALSE" then .operand (Text.asciiUpper text) .logical
  else .operand text .range

theorem word_stands (s : Scanned) (other : ∀ rest, cs.dropWhile isReferenceChar ≠ '(' :: rest) :
    word s cs = (s.push (wordOperand (String.ofList (cs.takeWhile isReferenceChar))),cs.dropWhile isReferenceChar) := by
  unfold word wordOperand
  split
  · rename_i bracket
    exact absurd bracket (other _)
  · dsimp only
    split <;> rfl

theorem word_loosen (s : Scanned) (cs : List Char) : word s (loosen none cs) = ((word s cs).1,loosen none (word s cs).2) := by
  obtain ⟨taken,dropped⟩ := loosen_span plain_reference_char cs
  by_cases bracket : ∃ rest, cs.dropWhile isReferenceChar = '(' :: rest
  · obtain ⟨rest,bracket⟩ := bracket
    rw [bracket,loosen_opening (by decide)] at dropped
    rw [word_opens s bracket,word_opens s dropped,taken]
  · have other : ∀ rest, cs.dropWhile isReferenceChar ≠ '(' :: rest := fun rest same => bracket ⟨rest,same⟩
    have other' : ∀ rest, (loosen none cs).dropWhile isReferenceChar ≠ '(' :: rest := by
      intro rest same
      rw [dropped] at same
      cases left : cs.dropWhile isReferenceChar with
      | nil => rw [left] at same; cases same
      | cons c more =>
        obtain ⟨d,loosened,made⟩ := loosen_head c more
        rw [left,loosened] at same
        cases same
        rcases made with ⟨-,rfl⟩ | ⟨-,closes⟩
        · exact other more left
        · exact absurd closes (by decide)
    rw [word_stands s other,word_stands s other',taken,dropped]

theorem bytes_loosen (quote : Option Char) (cs : List Char) : bytes (loosen quote cs) = bytes cs := by
  unfold bytes
  generalize 0 = size
  induction cs generalizing quote size with
  | nil => rfl
  | cons c cs ih =>
    have same : (if quote = none ∧ isClosing c = true then ')' else c).utf8Size = c.utf8Size := by
      split
      · rename_i closes
        rcases isClosing_cases closes.2 with rfl | rfl <;> rfl
      · rfl
    simp only [loosen,List.foldl_cons,same]
    exact ih _ _

theorem next_loosen (cs : List Char) : (∃ c rest, cs = c :: rest ∧ loosen none cs = c :: loosen none rest) ∨
    (∀ c, cs.head? = some c → isPlain c = false) ∧ ∀ c, (loosen none cs).head? = some c → isPlain c = false := by
  cases cs with
  | nil => exact .inr ⟨nofun,nofun⟩
  | cons c rest =>
    cases plain : isPlain c with
    | true => exact .inl ⟨c,rest,rfl,loosen_plain plain rest⟩
    | false =>
      obtain ⟨d,loosened,made⟩ := loosen_head c rest
      refine .inr ⟨?_,?_⟩
      · rintro _ ⟨⟩
        exact plain
      · rw [loosened]
        rintro _ ⟨⟩
        rcases made with ⟨-,rfl⟩ | ⟨-,rfl⟩
        · exact plain
        · rfl

theorem step_less_apart (size : Nat) (s : Scanned) (apart : ∀ c, rest.head? = some c → isPlain c = false) :
    step size s '<' rest = .ok (s.push (.between "<"),rest) := by
  rw [step_less]
  split
  · exact absurd (apart '=' rfl) (by decide)
  · exact absurd (apart '>' rfl) (by decide)
  · rfl

theorem step_greater_apart (size : Nat) (s : Scanned) (apart : ∀ c, rest.head? = some c → isPlain c = false) :
    step size s '>' rest = .ok (s.push (.between ">"),rest) := by
  rw [step_greater]
  split
  · exact absurd (apart '=' rfl) (by decide)
  · rfl

theorem step_less_loosen (size : Nat) (s : Scanned) (rest : List Char) :
    step size s '<' (loosen none rest) = (step size s '<' rest).map fun (t,left) => (t,loosen none left) := by
  rcases next_loosen rest with ⟨c,more,rfl,loosened⟩ | ⟨apart,apart'⟩
  · rw [loosened,step_less,step_less]
    by_cases equal : c = '='
    · rw [equal]
      rfl
    by_cases greater : c = '>'
    · rw [greater]
      rfl
    simp [equal,greater,Except.map,loosened]
  · rw [step_less_apart size s apart,step_less_apart size s apart']
    rfl

theorem step_greater_loosen (size : Nat) (s : Scanned) (rest : List Char) :
    step size s '>' (loosen none rest) = (step size s '>' rest).map fun (t,left) => (t,loosen none left) := by
  rcases next_loosen rest with ⟨c,more,rfl,loosened⟩ | ⟨apart,apart'⟩
  · rw [loosened,step_greater,step_greater]
    by_cases equal : c = '='
    · rw [equal]
      rfl
    simp [equal,Except.map,loosened]
  · rw [step_greater_apart size s apart,step_greater_apart size s apart']
    rfl

theorem step_error_loosen (size : Nat) (s : Scanned) (rest : List Char) :
    step size s '#' (loosen none rest) = (step size s '#' rest).map fun (t,left) => (t,loosen none left) := by
  obtain ⟨taken,dropped⟩ := loosen_span plain_error rest
  unfold step
  simp only [show Text.isBlank '#' = false from rfl,Bool.false_eq_true,if_false,taken,dropped]
  split <;> rfl

theorem step_semicolon_loosen (size : Nat) (s : Scanned) (rest : List Char) :
    step size s ';' (loosen none rest) = (step size s ';' rest).map fun (t,left) => (t,loosen none left) := by
  have position := bytes_loosen none (';' :: rest)
  rw [loosen_plain (by decide)] at position
  unfold step
  simp only [show Text.isBlank ';' = false from rfl,Bool.false_eq_true,if_false,position]
  split <;> rfl

def alone (c : Char) : Option (Scanned → Scanned) :=
  match c with
  | '\x7b' => some Scanned.openArray
  | '(' => some Scanned.openGroup
  | '\x7d' => some Scanned.close
  | ')' => some Scanned.close
  | ',' => some Scanned.comma
  | '+' => some fun s => if s.endsOperand then s.push (.between "+") else s
  | '-' => some fun s => s.push (if s.endsOperand then .between "-" else .minus)
  | '*' => some fun s => s.push (.between "*")
  | '/' => some fun s => s.push (.between "/")
  | '^' => some fun s => s.push (.between "^")
  | '&' => some fun s => s.push (.between "&")
  | '=' => some fun s => s.push (.between "=")
  | '%' => some fun s => s.push .percent
  | _ => none

theorem step_alone (act : alone c = some f) (size : Nat) (s : Scanned) (rest : List Char) : step size s c rest = .ok (f s,rest) := by
  unfold alone at act
  split at act <;> cases act <;> rfl

theorem quoteAfter_alone (act : alone c = some f) : quoteAfter none c = none := by
  have other : isQuote c = false := by
    refine Bool.eq_false_iff.mpr fun quotes => ?_
    simp only [isQuote,Bool.or_eq_true,decide_eq_true_eq] at quotes
    rcases quotes with rfl | rfl <;> cases act
  simp [quoteAfter,other]

theorem symbols_cases (symbol : c ∈ symbols) :
    (∃ f, alone c = some f) ∨ c = '"' ∨ c = '\'' ∨ c = '#' ∨ c = ';' ∨ c = '<' ∨ c = '>' := by
  have each : ∀ c ∈ symbols, (alone c).isSome = true ∨ c = '"' ∨ c = '\'' ∨ c = '#' ∨ c = ';' ∨ c = '<' ∨ c = '>' :=
    Text.each_of_all (by decide)
  exact (each c symbol).imp_left Option.isSome_iff_exists.mp

theorem step_text_loosen (size : Nat) (s : Scanned) (rest : List Char) :
    step size s '"' (loosen (some '"') rest) = (step size s '"' rest).map fun (t,left) => (t,loosen none left) := by
  have position := bytes_loosen none ('"' :: rest)
  rw [loosen_quote (by decide)] at position
  unfold step
  simp only [show Text.isBlank '"' = false from rfl,Bool.false_eq_true,if_false,position,quoted_loosen (show isQuote '"' = true from rfl)]
  cases quoted '"' rest <;> rfl

theorem step_sheet_loosen (size : Nat) (s : Scanned) (rest : List Char) :
    step size s '\'' (loosen (some '\'') rest) = (step size s '\'' rest).map fun (t,left) => (t,loosen none left) := by
  have position := bytes_loosen none ('\'' :: rest)
  rw [loosen_quote (by decide)] at position
  unfold step
  simp only [show Text.isBlank '\'' = false from rfl,Bool.false_eq_true,if_false,position,
    quoted_loosen (show isQuote '\'' = true from rfl)]
  cases quoted '\'' rest with
  | none => rfl
  | some read =>
    obtain ⟨sheet,rest⟩ := read
    obtain ⟨taken,dropped⟩ := loosen_span plain_reference_char rest
    have mark : (loosen none rest).head? = some '!' ↔ rest.head? = some '!' := by
      rcases next_loosen rest with ⟨c,more,rfl,loosened⟩ | ⟨apart,apart'⟩
      · rw [loosened]
        rfl
      · exact ⟨fun same => absurd (apart' _ same) (by decide),fun same => absurd (apart _ same) (by decide)⟩
    simp only [Option.map_some,mark,taken,dropped]
    split <;> rfl

-- The scanner does not tell the kinds of closing brackets apart. The characters by cases.
theorem step_loosen {more : List Char} (size : Nat) (s : Scanned) (loosened : loosen none (c :: rest) = d :: more) :
    step size s d more = (step size s c rest).map fun (t,left) => (t,loosen none left) := by
  by_cases symbol : c ∈ symbols
  · rcases symbols_cases symbol with ⟨f,act⟩ | rfl | rfl | rfl | rfl | rfl | rfl
    · obtain ⟨e,made,kept⟩ := loosen_head c rest
      rw [quoteAfter_alone act] at made
      cases made.symm.trans loosened
      rw [step_alone act]
      refine step_alone ?_ size s _
      rcases kept with ⟨-,rfl⟩ | ⟨closing,rfl⟩
      · exact act
      · rcases isClosing_cases closing with rfl | rfl <;> exact act
    · cases (loosen_quote (by decide) rest).symm.trans loosened
      exact step_text_loosen size s rest
    · cases (loosen_quote (by decide) rest).symm.trans loosened
      exact step_sheet_loosen size s rest
    · cases (loosen_plain (by decide) rest).symm.trans loosened
      exact step_error_loosen size s rest
    · cases (loosen_plain (by decide) rest).symm.trans loosened
      exact step_semicolon_loosen size s rest
    · cases (loosen_plain (by decide) rest).symm.trans loosened
      exact step_less_loosen size s rest
    · cases (loosen_plain (by decide) rest).symm.trans loosened
      exact step_greater_loosen size s rest
  have plain : isPlain c = true := by
    refine (isPlain_cases c).resolve_right fun mark => symbol ?_
    rcases mark with rfl | rfl | rfl | rfl | rfl | rfl <;> decide
  cases (loosen_plain plain rest).symm.trans loosened
  by_cases blank : Text.isBlank c = true
  · obtain ⟨-,dropped⟩ := loosen_span plain_blank rest
    unfold step
    simp only [blank,if_true,dropped,startsOperand_loosen]
    rfl
  · have position := bytes_loosen none (c :: rest)
    have number := number_loosen (c :: rest)
    have word := word_loosen s (c :: rest)
    have blank := Bool.eq_false_iff.mpr blank
    rw [loosen_plain plain] at position number word
    rw [step_other blank symbol,step_other blank symbol,position,startsDigit_loosen,number,word]
    split
    · rfl
    · split <;> rfl

theorem run_loosen (size steps : Nat) (s : Scanned) (cs : List Char) : run size steps s (loosen none cs) = run size steps s cs := by
  induction steps generalizing s cs with
  | zero => cases cs <;> rfl
  | succ steps ih =>
    cases cs with
    | nil => rfl
    | cons c rest =>
      obtain ⟨d,loosened,-⟩ := loosen_head c rest
      have stepped := step_loosen size s loosened
      rw [loosened,run,run,stepped]
      cases step size s c rest with
      | error e => rfl
      | ok next => exact ih next.1 next.2

end Lexeme

@[simp] theorem length_loosen (quote : Option Char) (cs : List Char) : (loosen quote cs).length = cs.length := by
  induction cs generalizing quote with
  | nil => rfl
  | cons c cs ih => simp [loosen,ih]

theorem tokenizeChars_loosen (cs : List Char) : tokenizeChars (loosen none cs) = tokenizeChars cs := by
  unfold tokenizeChars
  rw [Lexeme.bytes_loosen,length_loosen,Lexeme.run_loosen]

theorem loosen_concat (quote : Option Char) (cs : List Char) (c : Char) :
    ∃ d, loosen quote (cs ++ [c]) = loosen quote cs ++ [d] ∧ Text.isBlank d = Text.isBlank c := by
  induction cs generalizing quote with
  | nil =>
    refine ⟨_,rfl,?_⟩
    split
    · rename_i closes
      rcases isClosing_cases closes.2 with rfl | rfl <;> rfl
    · rfl
  | cons b cs ih =>
    obtain ⟨d,loosened,same⟩ := ih (quoteAfter quote b)
    exact ⟨d,by simp [loosen,loosened],same⟩

theorem loosen_rdropWhile (quote : Option Char) (cs : List Char) :
    (loosen quote cs).rdropWhile Text.isBlank = loosen quote (cs.rdropWhile Text.isBlank) := by
  induction cs using List.reverseRecOn with
  | nil => rfl
  | append_singleton cs c ih =>
    obtain ⟨d,loosened,same⟩ := loosen_concat quote cs c
    rw [loosened]
    cases blank : Text.isBlank c with
    | true => rw [List.rdropWhile_concat_pos _ _ _ (same.trans blank),List.rdropWhile_concat_pos _ _ _ blank,ih]
    | false =>
      rw [List.rdropWhile_concat_neg _ _ _ (by simp [same,blank]),List.rdropWhile_concat_neg _ _ _ (by simp [blank]),loosened]

def dropEquals : List Char → List Char
  | '=' :: rest => rest
  | cs => cs

def bodyChars (cs : List Char) : List Char := dropEquals (Text.trimBy Text.isBlank cs)

theorem stripEquals_body (formula : String) : (stripEquals formula).toList = bodyChars formula.toList := by
  unfold stripEquals bodyChars dropEquals
  split <;> simp_all

theorem dropEquals_apart (apart : ∀ c, cs.head? = some c → isPlain c = false) : dropEquals cs = cs := by
  unfold dropEquals
  split
  · exact absurd (apart '=' rfl) (by decide)
  · rfl

theorem dropEquals_loosen (cs : List Char) : dropEquals (loosen none cs) = loosen none (dropEquals cs) := by
  rcases Lexeme.next_loosen cs with ⟨c,rest,rfl,loosened⟩ | ⟨apart,apart'⟩
  · rw [loosened]
    by_cases equal : c = '='
    · rw [equal]
      rfl
    · simp [dropEquals,equal,loosened]
  · rw [dropEquals_apart apart,dropEquals_apart apart']

theorem loosen_body (cs : List Char) : bodyChars (loosen none cs) = loosen none (bodyChars cs) := by
  rw [bodyChars,Text.trimBy_rdropWhile,(loosen_span plain_blank cs).2,loosen_rdropWhile,dropEquals_loosen]
  rfl

theorem parseFormula_loosened (alike : loosened other = loosened formula) : parseFormula other = parseFormula formula := by
  have body : loosen none (bodyChars other.toList) = loosen none (bodyChars formula.toList) := by
    rw [← loosen_body,← loosen_body]
    exact congrArg bodyChars alike
  have tokens : tokenize (stripEquals other) = tokenize (stripEquals formula) := by
    rw [tokenize,tokenize,stripEquals_body,stripEquals_body,← tokenizeChars_loosen,body,tokenizeChars_loosen]
  rw [parseFormula,parseFormula,tokens]

end Recalc
