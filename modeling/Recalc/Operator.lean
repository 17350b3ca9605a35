import Recalc.Formula.Expr

namespace Recalc

namespace UnaryOp

def apply (op : UnaryOp) (v : Value) : Value :=
  match v.toNumber with
  | .error e => .error e
  | .ok n => match op with
    | .negate => .number (-n)
    | .percent => .number (n / 100.0)

end UnaryOp

namespace Value

def compareNumbers (a b : Float) : Option Ordering :=
  if a < b then some .lt else if b < a then some .gt else if a == b then some .eq else none

def zeroIfBlank (v : Value) : Value := if v.isBlank then .number 0.0 else v

def isText : Value → Bool
  | .text _ => true
  | _ => false

-- With a text on either side both compare as texts without letter case, else as numbers.
def compare (left right : Value) : Except ErrorValue Ordering :=
  let left := left.zeroIfBlank
  let right := right.zeroIfBlank
  if left.isText ∨ right.isText then
    .ok (Text.order (Text.lower left.toText.toList) (Text.lower right.toText.toList))
  else do
    let l ← left.toNumber
    let r ← right.toNumber
    match compareNumbers l r with
    | some o => return o
    | none => throw .num

def equalsBlank : Value → Bool
  | .empty => true
  | .number n => n == 0.0
  | .text s => s == ""
  | .boolean b => !b
  | _ => false

-- Values of different kinds differ, except that a blank equals every empty value.
def equal : Value → Value → Bool
  | .empty, v => v.equalsBlank
  | v, .empty => v.equalsBlank
  | .text a, .text b => Text.lower a.toList == Text.lower b.toList
  | .number a, .number b => a == b
  | .boolean a, .boolean b => a == b
  | .error a, .error b => a == b
  | _, _ => false

end Value

namespace BinaryOp

def arithmetic (f : Float → Float → Except ErrorValue Float) (left right : Value) : Value :=
  match (do f (← left.toNumber) (← right.toNumber) : Except ErrorValue Float) with
  | .ok n => .number n
  | .error e => .error e

def comparison (test : Ordering → Bool) (left right : Value) : Value :=
  match left.compare right with
  | .ok o => .boolean (test o)
  | .error e => .error e

def quotient (a b : Float) : Except ErrorValue Float := if b == 0.0 then .error .div0 else .ok (a / b)

def raised (a b : Float) : Except ErrorValue Float :=
  let result := a.pow b
  if result.isNaN ∨ result.isInf then .error .num else .ok result

def applyTo (op : BinaryOp) (left right : Value) : Value :=
  match op with
  | .add => arithmetic (fun a b => .ok (a + b)) left right
  | .subtract => arithmetic (fun a b => .ok (a - b)) left right
  | .multiply => arithmetic (fun a b => .ok (a * b)) left right
  | .divide => arithmetic quotient left right
  | .power => arithmetic raised left right
  | .concat => .text (left.toText ++ right.toText)
  | .equal => comparison (fun _ => left.equal right) left right
  | .notEqual => comparison (fun _ => !left.equal right) left right
  | .less => comparison (· == .lt) left right
  | .lessEqual => comparison (· != .gt) left right
  | .greater => comparison (· == .gt) left right
  | .greaterEqual => comparison (· != .lt) left right

def apply (op : BinaryOp) (left right : Value) : Value :=
  match left.error?, right.error? with
  | some e, _ => .error e
  | none, some e => .error e
  | none, none => op.applyTo left right

end BinaryOp
end Recalc
