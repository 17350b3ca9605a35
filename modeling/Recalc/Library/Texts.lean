import Recalc.Library.Numbers
import Recalc.Text.Search

namespace Recalc.Library

open Operand

-- Lengths and positions count characters.
def charCount (o : Option Operand) : Work Nat := do
  let n ← numberOr 1.0 o
  if !n.isFinite ∨ n ≤ -1.0 then throw .value else return Decimal.toCount n

def ofChars (cs : List Char) : Value := .text (String.ofList cs)

def left (args : List Operand) : Work Value := do
  let text ← (arg args 0).text
  return ofChars (text.toList.take (← charCount args[1]?))

def right (args : List Operand) : Work Value := do
  let text ← (arg args 0).text
  let n ← charCount args[1]?
  return ofChars (text.toList.drop (text.toList.length - n))

def mid (args : List Operand) : Work Value := do
  let text ← (arg args 0).text
  let start ← (arg args 1).number
  let n ← charCount args[2]?
  if !start.isFinite ∨ start < 1.0 then throw .value
  return ofChars ((text.toList.drop (Decimal.toCount start - 1)).take n)

def len (args : List Operand) : Work Value := do
  return .number (Float.ofNat (← (arg args 0).text).toList.length)

def substitute (args : List Operand) : Work Value := do
  let text ← (arg args 0).text
  let old ← (arg args 1).text
  let new ← (arg args 2).text
  let occurrence : Option Nat ← match args[3]? with
    | none => pure none
    | some o =>
      let n ← o.number
      if !n.isFinite ∨ n < 1.0 then throw .value else pure (some (Decimal.toCount n))
  if old = "" then return .text text
  else match occurrence with
    | none => return ofChars (Text.replaceAll old.toList new.toList text.toList)
    | some n => return ofChars (Text.replaceNth old.toList new.toList n 0 text.toList)

def concatenate (args : List Operand) : Work Value := do
  return .text (String.join (← args.mapM Operand.text))

end Recalc.Library
