import Recalc.Formula.Expr
import Recalc.Library.Apply

namespace Recalc

def connectValue (conjunction : Bool) (state : Bool × Bool) (v : Value) : Except ErrorValue (Bool × Bool) :=
  if v.isBlank then .ok state
  else do
    let b ← v.toBool
    return (true,if conjunction then state.2 && b else state.2 || b)

def connect (conjunction : Bool) (operands : List Operand) : Work Value := do
  let (seen,result) ← operands.foldlM (fun state o => do
    Work.ofExcept ((← (o.flatten : Query (List Value))).foldlM (connectValue conjunction) state)) (false,conjunction)
  if seen then return .boolean result else throw .value

def negation (v : Value) : Value :=
  match v.toBool with
  | .ok b => .boolean !b
  | .error e => .error e

namespace Expr

-- Arguments are evaluated from the left before they are used, except that a range is
-- passed on unread. A condition decides which branch is evaluated at all.
mutual
def query : Expr → Query Value
  | .literal v => .done v
  | .cell address => .cell true address .done
  | .range address => .range address fun r => do return .array (← r.valueGrid)
  | .unary op e => do return op.apply (← query e)
  | .binary op l r => do
    let left ← query l
    let right ← query r
    return op.apply left right
  | .ifThen c t => do
    match (← query c).toBool with
    | .error e => return .error e
    | .ok true => query t
    | .ok false => return .boolean false
  | .ifElse c t e => do
    match (← query c).toBool with
    | .error e => return .error e
    | .ok true => query t
    | .ok false => query e
  | .all args => do (connect true (← operands args)).settle
  | .any args => do (connect false (← operands args)).settle
  | .not e => do return negation (← query e)
  | .array rows => do return .array (← queryRows rows)
  | .call f args => do Library.apply f (← operands args)
  | .linest args degree coefficient => do (Library.linest (← operands args) degree coefficient).settle
def operands : List Expr → Query (List Operand)
  | [] => .done []
  | .range address :: es => .range address fun r => do return .range r :: (← operands es)
  | e :: es => do
    let v ← query e
    let os ← operands es
    return .value v :: os
def queryEach : List Expr → Query (List Value)
  | [] => .done []
  | e :: es => do
    let v ← query e
    let vs ← queryEach es
    return v :: vs
def queryRows : List (List Expr) → Query (List (List Value))
  | [] => .done []
  | r :: rs => do
    let vs ← queryEach r
    let vss ← queryRows rs
    return vs :: vss
end

end Expr
end Recalc
