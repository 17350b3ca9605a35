import Recalc.Address.Column
import Recalc.Decimal.Numeral
import Recalc.Text.Blank
import Recalc.Text.Case
import Recalc.Text.Search

namespace Recalc

-- The sheet stands before the last `!`, without the quotes around it.
def splitSheet (text : String) : Option String × String :=
  match Text.splitLast '!' text.toList with
  | some (sheet,rest) =>
    if sheet = [] then (none,text)
    else (some (String.ofList (Text.trimBy (· = '\'') sheet)),String.ofList rest)
  | none => (none,text)

structure Position where
  column : Nat
  row : Nat
  deriving DecidableEq, Repr

structure Address where
  sheet : Option String
  column : Nat
  row : Option Nat
  deriving DecidableEq, Repr

def rowNumber (digits : List Char) : Option Nat :=
  let n := Decimal.digitsValue digits
  if 1 ≤ n ∧ n < Column.limit then some n else none

def allDigits (cs : List Char) : Bool := cs ≠ [] && cs.all Char.isDigit

def rowColumn (cs : List Char) : Option (List Char × List Char) :=
  match cs with
  | 'R' :: '[' :: rest => do
    let (row,rest) ← Text.splitFirst ']' rest
    match rest with
    | 'C' :: '[' :: rest =>
      let (column,rest) ← Text.splitFirst ']' rest
      if allDigits row ∧ allDigits column ∧ rest = [] then some (row,column) else none
    | _ => none
  | 'R' :: rest => do
    let (row,column) ← Text.splitFirst 'C' rest
    if allDigits row ∧ allDigits column then some (row,column) else none
  | _ => none

-- Markers, blanks and letter case do not matter after the sheet.
def Address.parse (text : String) : Except ReferenceError Address :=
  let (sheet,rest) := splitSheet text
  let cleaned := (rest.toList.filter fun c => c ≠ '$' ∧ c ≠ ' ').map Char.toUpper
  let invalid := ReferenceError.invalidAddress text
  let columnText := cleaned.takeWhile Char.isUpper
  let rowText := cleaned.dropWhile Char.isUpper
  if columnText ≠ [] ∧ rowText = [] then do
    let column ← Column.ofLetters (String.ofList columnText)
    return ⟨sheet,column,none⟩
  else if columnText ≠ [] ∧ allDigits rowText then do
    let column ← Column.ofLetters (String.ofList columnText)
    match rowNumber rowText with
    | some row => return ⟨sheet,column,some row⟩
    | none => throw invalid
  else match rowColumn cleaned with
    | none => .error invalid
    | some (rowText,columnText) => match rowNumber columnText, rowNumber rowText with
      | some column, some row => .ok ⟨sheet,column,some row⟩
      | _, _ => .error invalid

structure CellRef where
  sheet : String
  column : Nat
  row : Nat
  deriving DecidableEq, Repr

namespace CellRef

def parse (text sheet : String) : Except ReferenceError CellRef := do
  let address ← Address.parse text
  match address.row with
  | none => throw (.invalidAddress text)
  | some row =>
    let sheet := address.sheet.getD sheet
    if sheet = "" then throw (.missingSheet text) else return ⟨sheet,address.column,row⟩

def parseQualified (text : String) : Except ReferenceError CellRef := parse text ""

def a1 (cell : CellRef) : String := Column.letters cell.column ++ toString cell.row

def text (cell : CellRef) : String := cell.sheet ++ "!" ++ cell.a1

def position (cell : CellRef) : Position := ⟨cell.column,cell.row⟩

end CellRef
end Recalc
