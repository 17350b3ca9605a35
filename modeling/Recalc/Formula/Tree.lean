import Recalc.Formula.ReversePolish

namespace Recalc

inductive Tree where
  | node (item : Item) (children : List Tree)

namespace Tree

def item : Tree → Item
  | node item _ => item

def children : Tree → List Tree
  | node _ children => children

def push (stack : List Tree) (item : Item) : Except ParseError (List Tree) :=
  let n := item.operands
  if stack.length < n then .error (.missingOperand item.token.text)
  else .ok (node item (stack.take n).reverse :: stack.drop n)

def ofItems (items : List Item) : Except ParseError Tree := do
  match ← items.foldlM push [] with
  | [] => throw .emptyFormula
  | [tree] => return tree
  | _ :: surplus :: _ => throw (.surplusOperand surplus.item.token.text)

mutual
def items : Tree → List Item
  | node item children => itemsAll children ++ [item]
def itemsAll : List Tree → List Item
  | [] => []
  | t :: ts => items t ++ itemsAll ts
end

mutual
def size : Tree → Nat
  | node _ children => sizeAll children + 1
def sizeAll : List Tree → Nat
  | [] => 0
  | t :: ts => size t + sizeAll ts
end

structure Placed where
  item : Item
  position : Nat
  parent : Option Nat
  children : List Nat
  deriving DecidableEq, Repr

-- A tree numbered from `first` ends with its root.
def rootsFrom (first : Nat) : List Tree → List Nat
  | [] => []
  | t :: ts => (first + t.size - 1) :: rootsFrom (first + t.size) ts

mutual
def placeFrom (first position : Nat) (parent : Option Nat) : Tree → List Placed
  | node item children =>
    placeAllFrom first item.firstPosition (first + sizeAll children) children ++
      [⟨item,position,parent,rootsFrom first children⟩]
def placeAllFrom (first position parent : Nat) : List Tree → List Placed
  | [] => []
  | t :: ts =>
    placeFrom first position (some parent) t ++ placeAllFrom (first + t.size) (position + 1) parent ts
end

def placed (t : Tree) : List Placed := placeFrom 0 0 none t

def childAt? (t : Tree) (position : Nat) : Option Tree :=
  if t.item.firstPosition ≤ position then t.children[position - t.item.firstPosition]? else none

-- The table argument of a lookup with a literal index reads two slices only.
structure TableUse where
  vertical : Bool
  index : Nat
  deriving DecidableEq, Repr

def literalIndex (t : Tree) : Option Nat :=
  if t.item.kind = .operand ∧ t.item.token.subkind = .number then do
    let n ← Decimal.number? t.item.token.text.toList
    if Decimal.isWhole n ∧ 1.0 ≤ n then some (Decimal.toCount n) else none
  else none

def tableUse (item : Item) (children : List Tree) : Option TableUse :=
  if item.kind = .function then
    let name := Text.asciiUpper (Lexeme.stripFunctionMarker item.token.text)
    if name = "VLOOKUP" ∨ name = "HLOOKUP" then do
      return ⟨name == "VLOOKUP",← literalIndex (← children[2]?)⟩
    else none
  else none

structure Reference where
  text : String
  table : Option TableUse
  deriving DecidableEq, Repr

mutual
def referencesAs (table : Option TableUse) : Tree → List Reference
  | node item children =>
    referencesAll (tableUse item children) 0 children ++
      if item.kind = .range then [⟨item.token.text,table⟩] else []
def referencesAll (table : Option TableUse) (index : Nat) : List Tree → List Reference
  | [] => []
  | t :: ts =>
    referencesAs (if index = 1 then table else none) t ++ referencesAll table (index + 1) ts
end

def references (t : Tree) : List Reference := referencesAs none t

end Tree

def parseTokens (tokens : List Token) : Except FormulaError Tree := do
  liftParse (Tree.ofItems (← ReversePolish.ofTokens tokens))

def parseFormula (formula : String) : Except FormulaError Tree := do
  parseTokens (← liftParse (tokenize (stripEquals formula)))

end Recalc
