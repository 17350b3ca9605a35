import Recalc.Decimal.Numeral
import Recalc.Decimal.Shortest
import Recalc.Text.Blank
import Recalc.Text.Case

namespace Recalc

-- The error values of a sheet. They are data that formulas pass on, not failures.
inductive ErrorValue where
  | null
  | div0
  | value
  | ref
  | name
  | num
  | na
  deriving DecidableEq, Repr

namespace ErrorValue

def all : List ErrorValue := [.na,.value,.div0,.ref,.name,.null,.num]

def text : ErrorValue → String
  | .null => "#NULL!"
  | .div0 => "#DIV/0!"
  | .value => "#VALUE!"
  | .ref => "#REF!"
  | .name => "#NAME?"
  | .num => "#NUM!"
  | .na => "#N/A"

def parse (text : String) : Option ErrorValue :=
  let wanted := Text.asciiUpper (Text.trim text)
  all.find? fun e => e.text == wanted

theorem mem_all (e : ErrorValue) : e ∈ all := by cases e <;> decide

theorem parse_text (e : ErrorValue) : parse e.text = some e := by cases e <;> decide

end ErrorValue

inductive Content where
  | empty
  | boolean (b : Bool)
  | number (n : Float)
  | text (s : String)
  | error (e : ErrorValue)

namespace Content

def isEmpty : Content → Bool
  | .empty => true
  | _ => false

def isError : Content → Bool
  | .error _ => true
  | _ => false

def number? : Content → Option Float
  | .number n => some n
  | .boolean b => some (if b then 1.0 else 0.0)
  | _ => none

def text? : Content → Option String
  | .text s => some s
  | _ => none

def display : Content → String
  | .empty => ""
  | .boolean b => if b then "TRUE" else "FALSE"
  | .number n => Decimal.display n
  | .text s => s
  | .error e => e.text

end Content

inductive Value where
  | empty
  | boolean (b : Bool)
  | number (n : Float)
  | text (s : String)
  | error (e : ErrorValue)
  | array (rows : List (List Value))

instance : Inhabited Content := ⟨.empty⟩
instance : Inhabited Value := ⟨.empty⟩

namespace Value

def ofContent : Content → Value
  | .empty => .empty
  | .boolean b => .boolean b
  | .number n => .number n
  | .text s => .text s
  | .error e => .error e

def toContent : Value → Content
  | .empty => .empty
  | .boolean b => .boolean b
  | .number n => .number n
  | .text s => .text s
  | .error e => .error e
  | .array _ => .error .value

-- Equality of stored values: numbers compare as numbers, so not-a-number differs from itself.
mutual
def same : Value → Value → Bool
  | .empty, .empty => true
  | .boolean a, .boolean b => a == b
  | .number a, .number b => a == b
  | .text a, .text b => a == b
  | .error a, .error b => a == b
  | .array a, .array b => sameRows a b
  | _, _ => false
def sameRow : List Value → List Value → Bool
  | [], [] => true
  | a :: as, b :: bs => same a b && sameRow as bs
  | _, _ => false
def sameRows : List (List Value) → List (List Value) → Bool
  | [], [] => true
  | a :: as, b :: bs => sameRow a b && sameRows as bs
  | _, _ => false
end

-- Text that spells an infinity or not-a-number is not numeric.
def number? : Value → Option Float
  | .number n => some n
  | .boolean b => some (if b then 1.0 else 0.0)
  | .text s =>
    if s = "" then some 0.0
    else (Decimal.number? (Text.trimBy Text.isBlank s.toList)).filter Float.isFinite
  | .empty => some 0.0
  | .error _ => none
  | .array _ => none

def toNumber : Value → Except ErrorValue Float
  | .error e => .error e
  | v => match v.number? with
    | some n => .ok n
    | none => .error .value

def toBool : Value → Except ErrorValue Bool
  | .boolean b => .ok b
  | .number n => .ok (n != 0.0)
  | .empty => .ok false
  | .text s =>
    if Text.sameIgnoringAsciiCase s "TRUE" then .ok true
    else if Text.sameIgnoringAsciiCase s "FALSE" then .ok false
    else .error .value
  | .error e => .error e
  | .array _ => .error .value

-- A whole number below 10 ^ 15 has no sign of zero.
def numberText (n : Float) : String :=
  if Decimal.isWhole n ∧ n.abs < 1e15 then toString (Decimal.toInt n) else Decimal.display n

def toText : Value → String
  | .number n => numberText n
  | .text s => s
  | .boolean b => if b then "TRUE" else "FALSE"
  | .error e => e.text
  | .empty => ""
  | .array _ => ErrorValue.value.text

def error? : Value → Option ErrorValue
  | .error e => some e
  | _ => none

def isError (v : Value) : Bool := v.error?.isSome

def isBlank : Value → Bool
  | .empty => true
  | .text s => s == ""
  | _ => false

def isEmpty : Value → Bool
  | .empty => true
  | _ => false

def isArray : Value → Bool
  | .array _ => true
  | _ => false

def flatten : Value → List Value
  | .array rows => rows.flatten
  | v => [v]

end Value
end Recalc
