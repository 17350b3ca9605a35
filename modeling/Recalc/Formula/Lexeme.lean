import Recalc.Formula.Error
import Recalc.Formula.Token
import Recalc.Text.Blank
import Recalc.Value

namespace Recalc

inductive Group where
  | call
  | parentheses
  | array
  deriving DecidableEq, Repr

-- What stands left of the reading position: tokens and open groups, latest first.
structure Scanned where
  tokens : List Token
  groups : List Group

namespace Scanned

def start : Scanned := ⟨[],[]⟩

def push (s : Scanned) (t : Token) : Scanned := {s with tokens := t :: s.tokens}

def endsOperand (s : Scanned) : Bool := s.tokens.head?.any Token.endsOperand

-- A closing bracket without an opening one is left for the parser to refuse.
def close (s : Scanned) : Scanned :=
  match s.groups with
  | .call :: groups => ⟨.functionStop :: s.tokens,groups⟩
  | .array :: groups => ⟨.functionStop :: .functionStop :: s.tokens,groups⟩
  | .parentheses :: groups => ⟨.groupStop :: s.tokens,groups⟩
  | [] => ⟨.groupStop :: s.tokens,[]⟩

def openCall (s : Scanned) (name : String) : Scanned := ⟨.functionStart name :: s.tokens,.call :: s.groups⟩
def openGroup (s : Scanned) : Scanned := ⟨.groupStart :: s.tokens,.parentheses :: s.groups⟩

def openArray (s : Scanned) : Scanned :=
  ⟨.functionStart "ARRAYROW" :: .functionStart "ARRAY" :: s.tokens,.array :: s.groups⟩

def nextRow (s : Scanned) : Scanned :=
  {s with tokens := .functionStart "ARRAYROW" :: .comma :: .functionStop :: s.tokens}

def comma (s : Scanned) : Scanned :=
  match s.groups with
  | .call :: _ => s.push .comma
  | .array :: _ => s.push .comma
  | _ => s.push (.between ",")

end Scanned

namespace Lexeme

def bytes (cs : List Char) : Nat := cs.foldl (fun size c => size + c.utf8Size) 0

def quoted (mark : Char) : List Char → Option (List Char × List Char)
  | [] => none
  | c :: rest =>
    if c = mark then
      match rest with
      | d :: more =>
        if d = mark then (quoted mark more).map fun (text,rest) => (mark :: text,rest)
        else some ([],rest)
      | [] => some ([],[])
    else (quoted mark rest).map fun (text,rest) => (c :: text,rest)

def isErrorChar (c : Char) : Bool := c.isAlphanum || c = '/' || c = '!' || c = '?'

def isReferenceChar (c : Char) : Bool :=
  c.isAlphanum || c = '_' || c = '.' || c = '$' || c = '!' || c = ':'

def startsOperand (cs : List Char) : Bool :=
  match cs with
  | [] => false
  | c :: _ =>
    c.isAlphanum || c = '"' || c = '#' || c = '\'' || c = '(' || c = '\x7b' || c = '$' || c = '_' || c = '.'

def startsDigit : List Char → Bool
  | c :: _ => c.isDigit
  | [] => false

def exponent (cs : List Char) : List Char × List Char :=
  match cs with
  | mark :: rest =>
    if mark = 'e' ∨ mark = 'E' then
      match rest with
      | sign :: more =>
        if sign.isDigit then (mark :: rest.takeWhile Char.isDigit,rest.dropWhile Char.isDigit)
        else if (sign = '+' ∨ sign = '-') ∧ startsDigit more then
          (mark :: sign :: more.takeWhile Char.isDigit,more.dropWhile Char.isDigit)
        else ([],cs)
      | [] => ([],cs)
    else ([],cs)
  | [] => ([],[])

def fraction (cs : List Char) : List Char × List Char :=
  match cs with
  | '.' :: rest => ('.' :: rest.takeWhile Char.isDigit,rest.dropWhile Char.isDigit)
  | cs => ([],cs)

def number (cs : List Char) : List Char × List Char :=
  let (afterPoint,rest) := fraction (cs.dropWhile Char.isDigit)
  let (afterMark,rest) := exponent rest
  (cs.takeWhile Char.isDigit ++ afterPoint ++ afterMark,rest)

def functionMarker : List Char := ['_','x','l','f','n','.']

def stripFunctionMarker (name : String) : String :=
  let cs := name.toList
  let head := (cs.take functionMarker.length).map Char.toLower
  if functionMarker.length < cs.length ∧ head = functionMarker then
    String.ofList (cs.drop functionMarker.length)
  else name

def word (s : Scanned) (cs : List Char) : Scanned × List Char :=
  let text := String.ofList (cs.takeWhile isReferenceChar)
  match cs.dropWhile isReferenceChar with
  | '(' :: rest => (s.openCall (stripFunctionMarker text),rest)
  | rest =>
    let upper := Text.asciiUpper text
    if upper = "TRUE" ∨ upper = "FALSE" then (s.push (.operand upper .logical),rest)
    else (s.push (.operand text .range),rest)

-- One lexeme, which starts with `c`; `size` is the length of the whole text in bytes.
def step (size : Nat) (s : Scanned) (c : Char) (rest : List Char) :
    Except ParseError (Scanned × List Char) :=
  let position := size - bytes (c :: rest)
  if Text.isBlank c then
    let rest := rest.dropWhile Text.isBlank
    .ok (if s.endsOperand ∧ startsOperand rest then s.push (.between " ") else s,rest)
  else match c with
    | '"' => match quoted '"' rest with
      | some (text,rest) => .ok (s.push (.operand (String.ofList text) .text),rest)
      | none => .error (.unterminatedText position)
    | '#' =>
      let text := String.ofList ('#' :: rest.takeWhile isErrorChar)
      match ErrorValue.parse text with
      | some e => .ok (s.push (.operand e.text .error),rest.dropWhile isErrorChar)
      | none => .error (.unknownErrorValue text)
    | '\'' => match quoted '\'' rest with
      | none => .error (.unterminatedSheetName position)
      | some (sheet,rest) =>
        if rest.head? = some '!' then
          let text := '\'' :: sheet ++ '\'' :: rest.takeWhile isReferenceChar
          .ok (s.push (.operand (String.ofList text) .range),rest.dropWhile isReferenceChar)
        else .error (.missingSheetMark (String.ofList sheet))
    | '\x7b' => .ok (s.openArray,rest)
    | '\x7d' => .ok (s.close,rest)
    | ';' => if s.groups.head? = some .array then .ok (s.nextRow,rest)
      else .error (.unexpectedSemicolon position)
    | '(' => .ok (s.openGroup,rest)
    | ')' => .ok (s.close,rest)
    | ',' => .ok (s.comma,rest)
    | '+' => .ok (if s.endsOperand then s.push (.between "+") else s,rest)
    | '-' => .ok (s.push (if s.endsOperand then .between "-" else .minus),rest)
    | '*' => .ok (s.push (.between "*"),rest)
    | '/' => .ok (s.push (.between "/"),rest)
    | '^' => .ok (s.push (.between "^"),rest)
    | '&' => .ok (s.push (.between "&"),rest)
    | '=' => .ok (s.push (.between "="),rest)
    | '<' => match rest with
      | '=' :: rest => .ok (s.push (.between "<="),rest)
      | '>' :: rest => .ok (s.push (.between "<>"),rest)
      | rest => .ok (s.push (.between "<"),rest)
    | '>' => match rest with
      | '=' :: rest => .ok (s.push (.between ">="),rest)
      | rest => .ok (s.push (.between ">"),rest)
    | '%' => .ok (s.push .percent,rest)
    | c =>
      if c.isDigit ∨ (c = '.' ∧ startsDigit rest) then
        let (text,rest) := number (c :: rest)
        .ok (s.push (.operand (String.ofList text) .number),rest)
      else if c.isAlpha ∨ c = '_' ∨ c = '$' then .ok (word s (c :: rest))
      else .error (.unexpectedCharacter c position)

def run (size : Nat) : Nat → Scanned → List Char → Except ParseError Scanned
  | _, s, [] => .ok s
  | 0, s, _ => .ok s
  | steps + 1, s, c :: rest => do
    let (s,rest) ← step size s c rest
    run size steps s rest

end Lexeme

def tokenizeChars (cs : List Char) : Except ParseError (List Token) := do
  let s ← Lexeme.run (Lexeme.bytes cs) cs.length .start cs
  return s.tokens.reverse

def tokenize (text : String) : Except ParseError (List Token) := tokenizeChars text.toList

def stripEquals (formula : String) : String :=
  match Text.trimBy Text.isBlank formula.toList with
  | '=' :: rest => String.ofList rest
  | cs => String.ofList cs

end Recalc
