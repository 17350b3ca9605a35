import Recalc.Formula.Expr
import Recalc.Formula.Lexeme
import Recalc.Proofs.Address.Spelling

namespace Recalc
open Lexeme

def digitChars (ds : List (Fin 10)) : List Char := ds.map fun d => Nat.digitChar d.val

theorem isDigit_digitChar (d : Fin 10) : (Nat.digitChar d.val).isDigit = true := by
  revert d
  decide

theorem digitChars_digit (member : c ∈ digitChars ds) : c.isDigit = true := by
  obtain ⟨d,-,made⟩ := List.mem_map.mp member
  rw [← made]
  exact isDigit_digitChar d

structure Exponent where
  mark : Char
  sign : Option Char
  digits : List (Fin 10)
  marked : mark = 'e' ∨ mark = 'E'
  signed : ∀ c, sign = some c → c = '+' ∨ c = '-'
  some : digits ≠ []

def Exponent.chars (e : Exponent) : List Char := e.mark :: (e.sign.toList ++ digitChars e.digits)

structure Numeral where
  whole : List (Fin 10)
  fraction : Option (List (Fin 10))
  exponent : Option Exponent
  some : whole ≠ [] ∨ ∃ d ds, fraction = some (d :: ds)

namespace Numeral

def point (n : Numeral) : List Char := n.fraction.elim [] fun ds => '.' :: digitChars ds
def power (n : Numeral) : List Char := n.exponent.elim [] Exponent.chars
def chars (n : Numeral) : List Char := digitChars n.whole ++ (n.point ++ n.power)

end Numeral

structure Word where
  first : Char
  rest : List Char
  starts : first.isAlpha = true ∨ first = '_' ∨ first = '$'
  within : ∀ c ∈ rest, isReferenceChar c = true

namespace Word

def chars (w : Word) : List Char := w.first :: w.rest
def text (w : Word) : String := String.ofList w.chars

end Word

structure PlainReference extends Word where
  other : Text.asciiUpper toWord.text ≠ "TRUE" ∧ Text.asciiUpper toWord.text ≠ "FALSE"

abbrev ReferenceRest := List {c : Char // isReferenceChar c = true}

def doubled (mark : Char) (cs : List Char) : List Char := cs.flatMap fun c => if c = mark then [mark,mark] else [c]

inductive Atom where
  | number (n : Numeral)
  | text (content : String)
  | truth (value : Bool)
  | reference (r : PlainReference)
  | onSheet (sheet : String) (rest : ReferenceRest)
  | between (op : BinaryOp)
  | minus
  | percent
  | callStart (name : Word)
  | groupStart
  | stop
  | arrayStart
  | arrayStop
  | comma
  | semicolon

namespace Atom

def truthText (value : Bool) : String := if value then "TRUE" else "FALSE"

def sheetChars (sheet : String) (rest : ReferenceRest) : List Char := '\'' :: (sheet.toList ++ '\'' :: '!' :: rest.map Subtype.val)

def chars : Atom → List Char
  | number n => n.chars
  | text content => '"' :: (doubled '"' content.toList ++ ['"'])
  | truth value => (truthText value).toList
  | reference r => r.chars
  | onSheet sheet rest => '\'' :: (doubled '\'' sheet.toList ++ '\'' :: '!' :: rest.map Subtype.val)
  | between op => op.symbol.toList
  | minus => ['-']
  | percent => ['%']
  | callStart name => name.chars ++ ['(']
  | groupStart => ['(']
  | stop => [')']
  | arrayStart => ['\x7b']
  | arrayStop => ['\x7d']
  | comma => [',']
  | semicolon => [';']

def scan (s : Scanned) : Atom → Scanned
  | number n => s.push (.operand (String.ofList n.chars) .number)
  | text content => s.push (.operand content .text)
  | truth value => s.push (.operand (truthText value) .logical)
  | reference r => s.push (.operand r.text .range)
  | onSheet sheet rest => s.push (.operand (String.ofList (sheetChars sheet rest)) .range)
  | between op => s.push (.between op.symbol)
  | minus => s.push .minus
  | percent => s.push .percent
  | callStart name => s.openCall (Lexeme.stripFunctionMarker name.text)
  | groupStart => s.openGroup
  | stop => s.close
  | arrayStart => s.openArray
  | arrayStop => s.close
  | comma => s.comma
  | semicolon => s.nextRow

def Fits (s : Scanned) : Atom → Prop
  | between _ => s.endsOperand = true
  | percent => s.endsOperand = true
  | semicolon => s.groups.head? = some .array
  | stop => True
  | arrayStop => True
  | comma => True
  | _ => s.endsOperand = false

inductive Leads : Scanned → List Atom → Scanned → Prop where
  | done : Leads s [] s
  | next (fits : p.Fits s) (rest : Leads (p.scan s) ps s') : Leads s (p :: ps) s'

end Atom

abbrev Blanks := List {c : Char // Text.isBlank c = true}

def spread (gap : Nat → Blanks) : List Atom → List Char
  | [] => (gap 0).map Subtype.val
  | p :: ps => (gap 0).map Subtype.val ++ (p.chars ++ spread (fun n => gap (n + 1)) ps)

def closing : List Char := ['^','*','/','+','-','&','=','<','>','%',')','\x7d',',',';']

-- Nothing that would still belong to what ends here.
def Parts (operand : Bool) (rest : List Char) : Prop := ∀ c, rest.head? = some c →
  Text.isBlank c = true ∨ if operand then c ∈ closing else c ≠ '=' ∧ c ≠ '>'

variable {s s' : Scanned} {c : Char} {rest : List Char}

theorem isReferenceChar_digit (digit : c.isDigit = true) : isReferenceChar c = true := by
  simp [isReferenceChar,Char.isAlphanum,digit]

theorem isAlpha_bounds (letter : c.isAlpha = true) : (65 ≤ c.toNat ∧ c.toNat ≤ 90) ∨ (97 ≤ c.toNat ∧ c.toNat ≤ 122) := by
  have either : c.isUpper = true ∨ c.isLower = true := (Bool.or_eq_true _ _).mp letter
  rcases either with upper | lower
  · exact .inl (Column.isUpper_bounds upper)
  · obtain ⟨low,high⟩ := (Bool.and_eq_true _ _).mp lower
    exact .inr ⟨UInt32.le_iff_toNat_le.mp (of_decide_eq_true low),UInt32.le_iff_toNat_le.mp (of_decide_eq_true high)⟩

theorem isReferenceChar_blank (blank : Text.isBlank c = true) : isReferenceChar c = false := by
  cases plain : isReferenceChar c with
  | false => rfl
  | true =>
    simp only [Text.isBlank,Bool.or_eq_true,Bool.and_eq_true,decide_eq_true_eq] at blank
    simp only [isReferenceChar,Char.isAlphanum,Bool.or_eq_true,decide_eq_true_eq] at plain
    rcases plain with (((((letter | digit) | rfl) | rfl) | rfl) | rfl) | rfl
    · have bounds := isAlpha_bounds letter
      omega
    · have bounds : 48 ≤ c.toNat ∧ c.toNat ≤ 57 := isDigit_bounds digit
      omega
    all_goals revert blank; decide

theorem Parts.plain (parts : Parts true rest) : ∀ c, rest.head? = some c → isReferenceChar c = false ∧ c ≠ '(' ∧ c ≠ '"' := by
  have each : ∀ c ∈ closing, isReferenceChar c = false ∧ c ≠ '(' ∧ c ≠ '"' := Text.each_of_all (by decide)
  intro c head
  rcases parts c head with blank | member
  · refine ⟨isReferenceChar_blank blank,?_,?_⟩
    all_goals
      intro same
      rw [same] at blank
      exact absurd blank (by decide)
  · exact each c member

theorem Parts.digit (parts : Parts true rest) : ∀ c, rest.head? = some c → c.isDigit = false := by
  intro c head
  cases digit : c.isDigit with
  | false => rfl
  | true =>
    have plain := (parts.plain c head).1
    rw [isReferenceChar_digit digit] at plain
    cases plain

theorem Numeral.begins (n : Numeral) : ∃ c cs, n.chars = c :: cs ∧ (c.isDigit = true ∨ (c = '.' ∧ startsDigit cs = true)) := by
  unfold Numeral.chars
  cases whole : n.whole with
  | cons d ds => exact ⟨Nat.digitChar d.val,_,rfl,.inl (isDigit_digitChar d)⟩
  | nil =>
    rcases n.some with some | ⟨d,ds,fraction⟩
    · exact absurd whole some
    · exact ⟨'.',digitChars (d :: ds) ++ n.power,by simp [digitChars,Numeral.point,fraction],.inr ⟨rfl,isDigit_digitChar d⟩⟩

theorem Numeral.reference (starts : c.isDigit = true ∨ (c = '.' ∧ startsDigit rest = true)) : isReferenceChar c = true := by
  rcases starts with digit | ⟨point,-⟩
  · exact isReferenceChar_digit digit
  · rw [point]
    decide

theorem plain_reference (reference : isReferenceChar c = true) : Text.isBlank c = false ∧ c ≠ '=' ∧ c ≠ '>' := by
  refine ⟨?_,?_,?_⟩
  · cases blank : Text.isBlank c with
    | false => rfl
    | true =>
      rw [isReferenceChar_blank blank] at reference
      cases reference
  all_goals
    intro same
    rw [same] at reference
    exact absurd reference (by decide)

theorem Word.reference (w : Word) : isReferenceChar w.first = true := by
  rcases w.starts with letter | same | same
  · simp [isReferenceChar,Char.isAlphanum,letter]
  · rw [same]
    decide
  · rw [same]
    decide

theorem Word.inside (w : Word) : ∀ c ∈ w.chars, isReferenceChar c = true := by
  intro c member
  rcases List.mem_cons.mp member with same | member
  · rw [same]
    exact Word.reference w
  · exact w.within c member

namespace Lexeme

theorem quoted_doubled (mark : Char) (cs : List Char) (after : rest.head? ≠ some mark) :
    quoted mark (doubled mark cs ++ mark :: rest) = some (cs,rest) := by
  induction cs with
  | nil =>
    cases rest with
    | nil => simp [doubled,quoted]
    | cons c rest =>
      have other : c ≠ mark := by
        intro same
        exact after (by rw [same]; rfl)
      simp [doubled,quoted,other]
  | cons c cs ih =>
    have split : doubled mark (c :: cs) = (if c = mark then [mark,mark] else [c]) ++ doubled mark cs := rfl
    rw [split]
    by_cases same : c = mark
    · simp [quoted,same,ih]
    · rw [if_neg same,List.append_assoc,List.singleton_append,quoted.eq_def]
      simp [same,ih]

theorem fraction_point (n : Numeral) (digits : ∀ c, rest.head? = some c → c.isDigit = false) (point : rest.head? ≠ some '.') :
    fraction (n.point ++ rest) = (n.point,rest) := by
  unfold Numeral.point
  cases n.fraction with
  | none =>
    simp only [Option.elim_none,List.nil_append]
    unfold fraction
    split
    · simp at point
    · rfl
  | some ds =>
    have inside : ∀ c ∈ digitChars ds, c.isDigit = true := fun c member => digitChars_digit member
    simp only [Option.elim_some,List.cons_append,fraction,Text.takeWhile_parted inside digits,Text.dropWhile_parted inside digits]

theorem exponent_power (n : Numeral) (parts : Parts true rest) : exponent (n.power ++ rest) = (n.power,rest) := by
  have digits := parts.digit
  unfold Numeral.power
  cases n.exponent with
  | none =>
    cases rest with
    | nil => rfl
    | cons c rest =>
      have plain := (parts.plain c rfl).1
      have other : ¬ (c = 'e' ∨ c = 'E') := by
        intro mark
        rcases mark with same | same <;> (rw [same] at plain; exact absurd plain (by decide))
      simp [exponent,other]
  | some e =>
    obtain ⟨mark,sign,ds,marked,signed,some⟩ := e
    have inside : ∀ c ∈ digitChars ds, c.isDigit = true := fun c member => digitChars_digit member
    obtain ⟨d,ds,rfl⟩ := List.exists_cons_of_ne_nil some
    have first := isDigit_digitChar d
    cases sign with
    | none =>
      have taken := Text.takeWhile_parted inside digits
      have dropped := Text.dropWhile_parted inside digits
      simp only [digitChars,List.map_cons,List.cons_append] at taken dropped
      simp [Exponent.chars,exponent,marked,digitChars,first,taken,dropped]
    | some sign =>
      have plain : sign.isDigit = false := by rcases signed sign rfl with same | same <;> (rw [same]; rfl)
      have taken := Text.takeWhile_parted inside digits
      have dropped := Text.dropWhile_parted inside digits
      simp only [digitChars,List.map_cons,List.cons_append] at taken dropped
      simp [Exponent.chars,exponent,marked,digitChars,first,taken,dropped,plain,signed sign rfl,startsDigit]

theorem number_chars (n : Numeral) (parts : Parts true rest) : number (n.chars ++ rest) = (n.chars,rest) := by
  have inside : ∀ c ∈ digitChars n.whole, c.isDigit = true := fun c member => digitChars_digit member
  have power : ∀ c, (n.power ++ rest).head? = some c → c.isDigit = false ∧ c ≠ '.' := by
    intro c head
    unfold Numeral.power at head
    cases exponent : n.exponent with
    | none =>
      rw [exponent] at head
      refine ⟨parts.digit c head,?_⟩
      intro same
      have plain := (parts.plain c head).1
      rw [same] at plain
      exact absurd plain (by decide)
    | some e =>
      rw [exponent] at head
      cases head
      rcases e.marked with same | same <;> (rw [same]; decide)
  have point : ∀ c, (n.point ++ (n.power ++ rest)).head? = some c → c.isDigit = false := by
    intro c head
    unfold Numeral.point at head
    cases fraction : n.fraction with
    | none =>
      rw [fraction] at head
      exact (power c head).1
    | some ds =>
      rw [fraction] at head
      cases head
      rfl
  have fractional := fraction_point n (fun c head => (power c head).1) (fun same => (power _ same).2 rfl)
  unfold number Numeral.chars
  rw [List.append_assoc,List.append_assoc,Text.takeWhile_parted inside point,Text.dropWhile_parted inside point,fractional]
  simp only [exponent_power n parts,List.append_assoc]

def symbols : List Char := ['"','#','\'','\x7b','\x7d',';','(',')',',','+','-','*','/','^','&','=','<','>','%']

theorem step_other (blank : Text.isBlank c = false) (other : c ∉ symbols) : step size s c rest =
    if c.isDigit = true ∨ (c = '.' ∧ startsDigit rest = true) then
      .ok (s.push (.operand (String.ofList (number (c :: rest)).1) .number),(number (c :: rest)).2)
    else if c.isAlpha = true ∨ c = '_' ∨ c = '$' then .ok (word s (c :: rest))
    else .error (.unexpectedCharacter c (size - bytes (c :: rest))) := by
  unfold step
  simp only [blank,Bool.false_eq_true,if_false]
  split
  all_goals first | exact absurd (by decide) other | rfl

theorem step_reference (reference : isReferenceChar c = true) : step size s c rest =
    if c.isDigit = true ∨ (c = '.' ∧ startsDigit rest = true) then
      .ok (s.push (.operand (String.ofList (number (c :: rest)).1) .number),(number (c :: rest)).2)
    else if c.isAlpha = true ∨ c = '_' ∨ c = '$' then .ok (word s (c :: rest))
    else .error (.unexpectedCharacter c (size - bytes (c :: rest))) := by
  have each : ∀ c ∈ symbols, isReferenceChar c = false := Text.each_of_all (by decide)
  refine step_other (plain_reference reference).1 fun symbol => ?_
  rw [each c symbol] at reference
  cases reference

theorem step_number (n : Numeral) (parts : Parts true rest) : ∃ c cs, n.chars = c :: cs ∧
    step size s c (cs ++ rest) = .ok (s.push (.operand (String.ofList n.chars) .number),rest) := by
  have number := number_chars n parts
  obtain ⟨c,cs,chars,starts⟩ := n.begins
  have digit : c.isDigit = true ∨ (c = '.' ∧ startsDigit (cs ++ rest) = true) := by
    refine starts.imp_right fun ⟨point,first⟩ => ⟨point,?_⟩
    cases cs with
    | nil => cases first
    | cons d cs => exact first
  refine ⟨c,cs,chars,?_⟩
  rw [step_reference (Numeral.reference starts),if_pos digit,← List.cons_append,← chars,number]

theorem step_word (size : Nat) (s : Scanned) (w : Word) (rest : List Char) : step size s w.first (w.rest ++ rest) = .ok (word s (w.chars ++ rest)) := by
  have number : ¬ (w.first.isDigit = true ∨ (w.first = '.' ∧ startsDigit (w.rest ++ rest) = true)) := by
    rcases w.starts with letter | same | same
    · have bounds := isAlpha_bounds letter
      intro digit
      rcases digit with digit | ⟨point,-⟩
      · have bounds' : 48 ≤ w.first.toNat ∧ w.first.toNat ≤ 57 := isDigit_bounds digit
        omega
      · rw [point] at letter
        revert letter
        decide
    · simp [same]
    · simp [same]
  rw [step_reference (Word.reference w),if_neg number,if_pos w.starts]
  rfl

theorem word_call (w : Word) (rest : List Char) :
    word s (w.chars ++ '(' :: rest) = (s.openCall (stripFunctionMarker w.text),rest) := by
  have after : ∀ c, ('(' :: rest).head? = some c → isReferenceChar c = false := by
    intro c head
    cases head
    decide
  unfold word
  rw [Text.takeWhile_parted w.inside after,Text.dropWhile_parted w.inside after]
  rfl

theorem word_operand (w : Word) (parts : Parts true rest) : word s (w.chars ++ rest) =
    (s.push (if Text.asciiUpper w.text = "TRUE" ∨ Text.asciiUpper w.text = "FALSE" then .operand (Text.asciiUpper w.text) .logical
      else .operand w.text .range),rest) := by
  have after : ∀ c, rest.head? = some c → isReferenceChar c = false := fun c head => (parts.plain c head).1
  unfold word
  rw [Text.takeWhile_parted w.inside after,Text.dropWhile_parted w.inside after]
  split
  · rename_i bracket
    exact absurd rfl (parts.plain '(' rfl).2.1
  · change (if Text.asciiUpper w.text = "TRUE" ∨ Text.asciiUpper w.text = "FALSE" then _ else _) = _
    split <;> rfl

theorem step_text (content : String) (parts : Parts true rest) :
    step size s '"' (doubled '"' content.toList ++ '"' :: rest) = .ok (s.push (.operand content .text),rest) := by
  have after : rest.head? ≠ some '"' := fun head => (parts.plain '"' head).2.2 rfl
  have read := quoted_doubled '"' content.toList after
  unfold step
  simp only [show Text.isBlank '"' = false from rfl,read,Bool.false_eq_true,if_false,String.ofList_toList]

theorem step_sheet (sheet : String) (reference : ReferenceRest) (parts : Parts true rest) :
    step size s '\'' (doubled '\'' sheet.toList ++ '\'' :: ('!' :: reference.map Subtype.val ++ rest)) =
      .ok (s.push (.operand (String.ofList (Atom.sheetChars sheet reference)) .range),rest) := by
  have after : ∀ c, rest.head? = some c → isReferenceChar c = false := fun c head => (parts.plain c head).1
  have inside : ∀ c ∈ '!' :: reference.map Subtype.val, isReferenceChar c = true := by
    intro c member
    rcases List.mem_cons.mp member with same | member
    · rw [same]
      decide
    · obtain ⟨d,-,made⟩ := List.mem_map.mp member
      rw [← made]
      exact d.property
  have mark : ('!' :: reference.map Subtype.val ++ rest).head? ≠ some '\'' := by simp
  have read := quoted_doubled '\'' sheet.toList mark
  unfold step
  simp only [show Text.isBlank '\'' = false from rfl,read,Bool.false_eq_true,if_false,Text.takeWhile_parted inside after,
    Text.dropWhile_parted inside after]
  rfl

end Lexeme

theorem step_less (size : Nat) (s : Scanned) (rest : List Char) : Lexeme.step size s '<' rest =
    match rest with
    | '=' :: rest => .ok (s.push (.between "<="),rest)
    | '>' :: rest => .ok (s.push (.between "<>"),rest)
    | rest => .ok (s.push (.between "<"),rest) := rfl

theorem step_greater (size : Nat) (s : Scanned) (rest : List Char) : Lexeme.step size s '>' rest =
    match rest with
    | '=' :: rest => .ok (s.push (.between ">="),rest)
    | rest => .ok (s.push (.between ">"),rest) := rfl

namespace Atom
variable {p : Atom} {ps qs : List Atom}

def ofTruth : Bool → Word
  | true => ⟨'T',['R','U','E'],by decide,Text.each_of_all (by decide)⟩
  | false => ⟨'F',['A','L','S','E'],by decide,Text.each_of_all (by decide)⟩

theorem step_scan (size : Nat) (fits : p.Fits s) (parts : Parts (p.scan s).endsOperand rest) :
    ∃ c cs, p.chars = c :: cs ∧ step size s c (cs ++ rest) = .ok (p.scan s,rest) := by
  cases p with
  | number n => exact step_number n parts
  | text content =>
    refine ⟨'"',_,rfl,?_⟩
    rw [List.append_assoc]
    exact step_text content parts
  | truth value =>
    have read := step_word size s (ofTruth value) rest
    rw [word_operand _ parts] at read
    cases value <;> exact ⟨_,_,rfl,read⟩
  | reference r =>
    have read := step_word size s r.toWord rest
    rw [word_operand _ parts,if_neg (not_or.mpr r.other)] at read
    exact ⟨_,_,rfl,read⟩
  | onSheet sheet reference =>
    refine ⟨'\'',_,rfl,?_⟩
    rw [List.append_assoc]
    exact step_sheet sheet reference parts
  | between op =>
    have operand : s.endsOperand = true := fits
    have other : ∀ c, rest.head? = some c → c ≠ '=' ∧ c ≠ '>' := by
      intro c head
      rcases parts c head with blank | plain
      · constructor
        all_goals
          intro same
          rw [same] at blank
          exact absurd blank (by decide)
      · exact plain
    cases op with
    | add =>
      refine ⟨'+',[],rfl,?_⟩
      change Except.ok (if s.endsOperand = true then s.push (.between "+") else s,rest) = _
      rw [if_pos operand]
      rfl
    | subtract =>
      refine ⟨'-',[],rfl,?_⟩
      change Except.ok (s.push (if s.endsOperand = true then .between "-" else .minus),rest) = _
      rw [if_pos operand]
      rfl
    | less =>
      refine ⟨'<',[],rfl,?_⟩
      change step size s '<' rest = _
      rw [step_less]
      split
      · exact absurd rfl (other '=' rfl).1
      · exact absurd rfl (other '>' rfl).2
      · rfl
    | greater =>
      refine ⟨'>',[],rfl,?_⟩
      change step size s '>' rest = _
      rw [step_greater]
      split
      · exact absurd rfl (other '=' rfl).1
      · rfl
    | _ => exact ⟨_,_,rfl,rfl⟩
  | minus =>
    have operand : s.endsOperand = false := fits
    refine ⟨'-',[],rfl,?_⟩
    change Except.ok (s.push (if s.endsOperand = true then .between "-" else .minus),rest) = _
    rw [operand]
    rfl
  | callStart name =>
    have read := step_word size s name ('(' :: rest)
    rw [word_call] at read
    refine ⟨name.first,name.rest ++ ['('],rfl,?_⟩
    rw [List.append_assoc]
    exact read
  | semicolon =>
    have array : s.groups.head? = some .array := fits
    refine ⟨';',[],rfl,?_⟩
    change (if s.groups.head? = some .array then Except.ok (s.nextRow,rest) else _) = _
    rw [if_pos array]
    rfl
  | _ => exact ⟨_,_,rfl,rfl⟩

theorem closes (fits : p.Fits s) (operand : s.endsOperand = true) : ∃ c cs, p.chars = c :: cs ∧ c ∈ closing := by
  cases p with
  | between op => cases op <;> exact ⟨_,_,rfl,by decide⟩
  | percent => exact ⟨_,_,rfl,by decide⟩
  | stop => exact ⟨_,_,rfl,by decide⟩
  | arrayStop => exact ⟨_,_,rfl,by decide⟩
  | comma => exact ⟨_,_,rfl,by decide⟩
  | semicolon => exact ⟨_,_,rfl,by decide⟩
  | _ => cases operand.symm.trans fits

theorem opens (fits : p.Fits s) (operand : s.endsOperand = false) :
    ∃ c cs, p.chars = c :: cs ∧ Text.isBlank c = false ∧ c ≠ '=' ∧ c ≠ '>' := by
  cases p with
  | number n =>
    obtain ⟨c,cs,chars,starts⟩ := n.begins
    exact ⟨c,cs,chars,plain_reference (Numeral.reference starts)⟩
  | truth value => cases value <;> exact ⟨_,_,rfl,by decide⟩
  | reference r => exact ⟨_,_,rfl,plain_reference r.toWord.reference⟩
  | callStart name => exact ⟨_,_,rfl,plain_reference name.reference⟩
  | between op => cases operand.symm.trans fits
  | percent => cases operand.symm.trans fits
  | _ => exact ⟨_,_,rfl,by decide⟩

-- After an operand blanks before the atom are not taken for an operator.
theorem starts (fits : p.Fits s) (chars : p.chars = c :: cs) :
    Text.isBlank c = false ∧ (s.endsOperand = true → startsOperand (c :: rest) = false) := by
  have each : ∀ c ∈ closing, Text.isBlank c = false ∧ startsOperand [c] = false := Text.each_of_all (by decide)
  cases operand : s.endsOperand with
  | true =>
    obtain ⟨d,ds,same,member⟩ := closes fits operand
    cases chars.symm.trans same
    exact ⟨(each c member).1,fun _ => (each c member).2⟩
  | false =>
    obtain ⟨d,ds,same,blank,-⟩ := opens fits operand
    cases chars.symm.trans same
    exact ⟨blank,nofun⟩

theorem Leads.append (first : Leads s ps s') (second : Leads s' qs t) : Leads s (ps ++ qs) t := by
  induction first with
  | done => exact second
  | next fits rest ih => exact .next fits (ih second)

end Atom

namespace Lexeme
open Atom

def Reads (size : Nat) (s : Scanned) (cs : List Char) (s' : Scanned) : Prop :=
  ∀ steps, cs.length ≤ steps → run size steps s cs = .ok s'

theorem reads_end : Reads size s [] s := by
  intro steps _
  cases steps <;> rfl

theorem Reads.step (reads : Reads size t rest s') (stepped : Lexeme.step size s c cs = .ok (t,rest)) (shorter : rest.length ≤ cs.length) :
    Reads size s (c :: cs) s' := by
  intro steps enough
  cases steps with
  | zero => simp at enough
  | succ steps =>
    simp only [List.length_cons] at enough
    have ran := reads steps (by omega)
    unfold run
    rw [stepped]
    exact ran

theorem reads_blanks (gap : Blanks) (begins : ∀ c, rest.head? = some c → Text.isBlank c = false)
    (plain : s.endsOperand = true → startsOperand rest = false) (reads : Reads size s rest s') :
    Reads size s (gap.map Subtype.val ++ rest) s' := by
  cases gap with
  | nil => exact reads
  | cons b gap =>
    have inside : ∀ c ∈ gap.map Subtype.val, Text.isBlank c = true := by
      intro c member
      obtain ⟨d,-,made⟩ := List.mem_map.mp member
      rw [← made]
      exact d.property
    have joins : ¬ (s.endsOperand = true ∧ startsOperand rest = true) := by
      intro ⟨operand,starts⟩
      rw [plain operand] at starts
      cases starts
    have stepped : Lexeme.step size s b.val (gap.map Subtype.val ++ rest) = .ok (s,rest) := by
      unfold Lexeme.step
      simp only [b.property,if_true]
      rw [Text.dropWhile_parted inside begins,if_neg joins]
    exact reads.step stepped (by simp)

theorem parts_spread (leads : Leads s ps s') (gap : Nat → Blanks) : Parts s.endsOperand (spread gap ps) := by
  intro c head
  cases leads with
  | done =>
    left
    obtain ⟨d,-,made⟩ := List.mem_map.mp (List.mem_of_head? head)
    rw [← made]
    exact d.property
  | next fits rest =>
    unfold spread at head
    cases first : gap 0 with
    | cons b gap =>
      rw [first] at head
      cases head
      exact .inl b.property
    | nil =>
      rw [first] at head
      right
      cases operand : s.endsOperand with
      | true =>
        obtain ⟨d,cs,chars,closing⟩ := closes fits operand
        rw [chars] at head
        cases head
        exact closing
      | false =>
        obtain ⟨d,cs,chars,-,plain⟩ := opens fits operand
        rw [chars] at head
        cases head
        exact plain

-- Blanks between the atoms do not change what they stand for.
theorem reads_spread (size : Nat) (leads : Leads s ps s') (gap : Nat → Blanks) : Reads size s (spread gap ps) s' := by
  induction leads generalizing gap with
  | done =>
    unfold spread
    rw [← List.append_nil ((gap 0).map Subtype.val)]
    exact reads_blanks (gap 0) (by simp) (fun _ => rfl) reads_end
  | next fits rest ih =>
    obtain ⟨c,cs,chars,stepped⟩ := step_scan size fits (parts_spread rest fun n => gap (n + 1))
    obtain ⟨blank,apart⟩ := starts fits chars
    unfold spread
    rw [chars]
    refine reads_blanks (gap 0) ?_ apart ((ih _).step stepped ?_)
    · intro d head
      cases head
      exact blank
    · simp

end Lexeme

theorem tokenize_spread (leads : Atom.Leads .start ps s') (gap : Nat → Blanks) :
    tokenize (String.ofList (spread gap ps)) = .ok s'.tokens.reverse := by
  have read := Lexeme.reads_spread (Lexeme.bytes (spread gap ps)) leads gap _ (Nat.le_refl _)
  unfold tokenize tokenizeChars
  rw [String.toList_ofList,read]
  rfl

end Recalc
