import Recalc.Operator

namespace Recalc

-- A pattern for texts: `?` is any one character, `*` any run of them, `~` takes the special
-- meaning from the character after it.
inductive Piece where
  | char (c : Char)
  | one
  | many
  deriving DecidableEq, Repr

namespace Piece

def parse : List Char → List Piece
  | [] => []
  | '~' :: c :: rest => .char c :: parse rest
  | '~' :: [] => [.char '~']
  | '?' :: rest => .one :: parse rest
  | '*' :: rest => .many :: parse rest
  | c :: rest => .char c :: parse rest

def takes : Piece → Char → Bool
  | .char d, c => d == c
  | .one, _ => true
  | .many, _ => false

def splitRuns : List Piece → List Piece × List (List Piece)
  | [] => ([],[])
  | .many :: ps => let (first,rest) := splitRuns ps; ([],first :: rest)
  | p :: ps => let (first,rest) := splitRuns ps; (p :: first,rest)

def matchStart : List Piece → List Char → Option (List Char)
  | [], cs => some cs
  | _ :: _, [] => none
  | p :: ps, c :: cs => if p.takes c then matchStart ps cs else none

def matchLeftmost (ps : List Piece) : List Char → Option (List Char)
  | [] => matchStart ps []
  | c :: cs => match matchStart ps (c :: cs) with
    | some rest => some rest
    | none => matchLeftmost ps cs

def matchEnd (ps : List Piece) (cs : List Char) : Bool :=
  ps.length ≤ cs.length && matchStart ps (cs.drop (cs.length - ps.length)) == some []

-- Each stretch between two runs may as well stand as far left as it can; the last one
-- stands at the end.
def matchRuns : List (List Piece) → List Char → Bool
  | [], cs => cs == []
  | [last], cs => matchEnd last cs
  | ps :: more, cs => match matchLeftmost ps cs with
    | some rest => matchRuns more rest
    | none => false

def matchAll (ps : List Piece) (cs : List Char) : Bool :=
  let (first,runs) := splitRuns ps
  match matchStart first cs with
  | some rest => matchRuns runs rest
  | none => false

end Piece

def wildcard (pattern text : List Char) : Bool := Piece.matchAll (Piece.parse pattern) text

inductive Comparator where
  | equal
  | notEqual
  | less
  | lessEqual
  | greater
  | greaterEqual
  deriving DecidableEq, Repr

namespace Comparator

def strip : List Char → Comparator × List Char
  | '>' :: '=' :: rest => (.greaterEqual,rest)
  | '<' :: '=' :: rest => (.lessEqual,rest)
  | '<' :: '>' :: rest => (.notEqual,rest)
  | '>' :: rest => (.greater,rest)
  | '<' :: rest => (.less,rest)
  | '=' :: rest => (.equal,rest)
  | cs => (.equal,cs)

def test : Comparator → Ordering → Bool
  | .equal, o => o == .eq
  | .notEqual, o => o != .eq
  | .less, o => o == .lt
  | .lessEqual, o => o != .gt
  | .greater, o => o == .gt
  | .greaterEqual, o => o != .lt

end Comparator

inductive Criterion where
  | number (c : Comparator) (n : Float)
  | text (c : Comparator) (pattern : List Char)
  | boolean (c : Comparator) (b : Bool)
  | error (e : ErrorValue)
  | blank (wanted : Bool)

namespace Criterion

def parse (s : String) : Criterion :=
  let (c,operand) := Comparator.strip (Text.trimBy Text.isBlank s.toList)
  if operand = [] then .blank (c != .notEqual)
  else match Decimal.number? (Text.trimBy Text.isBlank operand) with
    | some n => .number c n
    | none =>
      let text := String.ofList operand
      if Text.sameIgnoringAsciiCase text "TRUE" then .boolean c true
      else if Text.sameIgnoringAsciiCase text "FALSE" then .boolean c false
      else match ErrorValue.parse text, c with
        | some e, .equal => .error e
        | _, _ => .text c (Text.lower operand)

def ofValue : Value → Criterion
  | .number n => .number .equal n
  | .boolean b => .boolean .equal b
  | .error e => .error e
  | .text s => parse s
  | .empty => .blank true
  | .array _ => .blank true

def boolOrder (a b : Bool) : Ordering := compare a.toNat b.toNat

-- A criterion that does not apply to a kind of value holds only when it asks for a difference.
def holds : Criterion → Value → Bool
  | .blank wanted, v => v.isBlank == wanted
  | .error e, v => v.error? == some e
  | .number c n, .number m => (Value.compareNumbers m n).any c.test
  | .number .equal n, .text s => (Decimal.number? (Text.trimBy Text.isBlank s.toList)).any (· == n)
  | .number c _, _ => c == .notEqual
  | .boolean c b, .boolean a => c.test (boolOrder a b)
  | .boolean c _, _ => c == .notEqual
  | .text .equal p, .text s => wildcard p (Text.lower s.toList)
  | .text .notEqual p, .text s => !wildcard p (Text.lower s.toList)
  | .text c p, .text s => s != "" && c.test (Text.order (Text.lower s.toList) p)
  | .text c _, _ => c == .notEqual

end Criterion
end Recalc
