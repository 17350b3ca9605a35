import Recalc.Formula.Lexeme

namespace Recalc

structure Item where
  token : Token
  arity : Nat
  deriving DecidableEq, Repr

inductive ItemKind where
  | operand
  | range
  | operator
  | function
  | generic
  deriving DecidableEq, Repr

namespace Item

def ofToken (t : Token) : Item := ⟨t,0⟩

def kind (i : Item) : ItemKind :=
  match i.token.kind with
  | .operand => if i.token.subkind = .range then .range else .operand
  | .function => .function
  | .prefixOp => .operator
  | .infixOp => .operator
  | .postfixOp => .operator
  | _ => .generic

def operands (i : Item) : Nat :=
  match i.kind with
  | .operator => if i.token.kind = .infixOp then 2 else 1
  | .function => i.arity
  | _ => 0

-- Operands of an operator count from 1, arguments of a function from 0.
def firstPosition (i : Item) : Nat := if i.kind = .operator then 1 else 0

end Item

namespace ReversePolish

def rank : String → Option Nat
  | ":" => some 8
  | " " => some 8
  | "," => some 8
  | "u-" => some 7
  | "%" => some 6
  | "^" => some 5
  | "*" => some 4
  | "/" => some 4
  | "+" => some 3
  | "-" => some 3
  | "&" => some 2
  | "=" => some 1
  | "<" => some 1
  | ">" => some 1
  | "<=" => some 1
  | ">=" => some 1
  | "<>" => some 1
  | _ => none

def rankOf (t : Token) : Except FormulaError Nat :=
  match rank (if t.kind = .prefixOp ∧ t.text = "-" then "u-" else t.text) with
  | some n => .ok n
  | none => .error (.parse (.unknownOperator t.text))

def isFunction (t : Token) : Bool := t.kind == .function && t.subkind == .none

def expand (t : Token) : List Token :=
  if t.kind = .function ∧ t.subkind = .start then
    [⟨.function,.none,t.text⟩,⟨.argumentList,.start,"("⟩]
  else if t.kind = .function ∧ t.subkind = .stop then [⟨.argumentList,.stop,")"⟩]
  else [t]

-- `output` and `pending` are latest first. Per open function, `counts` holds its finished
-- arguments and `filled` whether anything stands in the present one.
structure Yard where
  output : List Item
  pending : List Token
  counts : List Nat
  filled : List Bool

namespace Yard

def start : Yard := ⟨[],[],[],[]⟩

def markFilled : List Bool → List Bool
  | [] => []
  | _ :: rest => true :: rest

def popToStart : List Token → List Item → List Token × List Item
  | [], output => ([],output)
  | t :: pending, output =>
    if t.isStart then (t :: pending,output) else popToStart pending (.ofToken t :: output)

def popOperators (n : Nat) : List Token → List Item → Except FormulaError (List Token × List Item)
  | [], output => .ok ([],output)
  | t :: pending, output =>
    if t.isOperator then do
      let m ← rankOf t
      if n ≤ m then popOperators n pending (.ofToken t :: output) else return (t :: pending,output)
    else .ok (t :: pending,output)

def separate (y : Yard) : Except FormulaError Yard :=
  let (pending,output) := popToStart y.pending y.output
  match y.filled with
  | [] => .error .mismatchedParentheses
  | value :: filled =>
    let counts := match y.counts with
      | [] => []
      | n :: counts => (if value then n + 1 else n) :: counts
    if pending = [] then .error .mismatchedParentheses
    else .ok ⟨output,pending,counts,false :: filled⟩

def close (y : Yard) : Except FormulaError Yard :=
  match popToStart y.pending y.output with
  | ([],_) => .error .mismatchedParentheses
  | (_ :: pending,output) => match pending with
    | [] => .ok ⟨output,[],y.counts,y.filled⟩
    | function :: below =>
      if isFunction function then
        match y.counts, y.filled with
        | n :: counts, value :: filled =>
          .ok ⟨⟨function,n + if value then 1 else 0⟩ :: output,below,counts,filled⟩
        | _, _ => .error .mismatchedParentheses
      else .ok ⟨output,pending,y.counts,y.filled⟩

def accept (y : Yard) (t : Token) : Except FormulaError Yard :=
  if t.kind = .operand then .ok {y with output := .ofToken t :: y.output,filled := markFilled y.filled}
  else if isFunction t then
    .ok {y with pending := t :: y.pending,counts := 0 :: y.counts,filled := false :: markFilled y.filled}
  else if t.kind = .separator then y.separate
  else if t.isOperator then do
    let n ← rankOf t
    let (pending,output) ← popOperators n y.pending y.output
    return {y with output := output,pending := t :: pending}
  else if t.isStart then .ok {y with pending := t :: y.pending}
  else if t.isStop then y.close
  else .ok y

-- An opening bracket that is still pending was never closed.
def finish : List Token → List Item → Except FormulaError (List Item)
  | [], output => .ok output.reverse
  | t :: pending, output =>
    if t.isStart ∨ t.isStop then .error .mismatchedParentheses
    else finish pending (.ofToken t :: output)

end Yard

def ofTokens (tokens : List Token) : Except FormulaError (List Item) := do
  let y ← (tokens.flatMap expand).foldlM Yard.accept .start
  Yard.finish y.pending y.output

end ReversePolish
end Recalc
