import Recalc.Address.Column
import Recalc.Formula.Lexeme

namespace Recalc

-- What ends a computation without an answer. An error is an answer, of a formula that is wrong.
inductive Fault where
  | place (index : Nat)
  | cut (offset : Nat)
  -- a difference below zero, or a sum that 32 bits do not hold
  | below
  | beyond
  | endless
  deriving DecidableEq, Repr

-- Computations that index, cut texts at byte offsets and count in 32 bits.
abbrev Guarded := ExceptT FormulaError (Except Fault)

namespace Guarded

def fault {α : Type} (f : Fault) : Guarded α := ExceptT.mk (.error f)
def ofFormula {α : Type} (r : Except FormulaError α) : Guarded α := ExceptT.mk (.ok r)

def element {α : Type} (list : List α) (index : Nat) : Guarded α :=
  match list[index]? with
  | some a => return a
  | none => fault (.place index)

def minus (a b : Nat) : Guarded Nat := if b ≤ a then return a - b else fault .below
def plus (a b : Nat) : Guarded Nat := if a + b < Column.limit then return a + b else fault .beyond

end Guarded

namespace Lexeme

def splitBytes : Nat → List Char → Option (List Char × List Char)
  | 0, cs => some ([],cs)
  | _ + 1, [] => none
  | offset + 1, c :: cs =>
    if c.utf8Size ≤ offset + 1 then
      (splitBytes (offset + 1 - c.utf8Size) cs).map fun (before,after) => (c :: before,after)
    else none

def cutFunctionMarker (name : String) : Guarded String :=
  let marker := bytes functionMarker
  if marker < bytes name.toList then
    match splitBytes marker name.toList with
    | some (before,after) => return if before.map Char.toLower = functionMarker then String.ofList after else name
    | none => Guarded.fault (.cut marker)
  else return name

end Lexeme
end Recalc
