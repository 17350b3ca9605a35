import Recalc.Address.Error
import Recalc.Text.Quoted

namespace Recalc

-- What keeps a text from being a formula. Positions are offsets in UTF-8 bytes.
inductive ParseError where
  | unexpectedSemicolon (position : Nat)
  | unexpectedCharacter (c : Char) (position : Nat)
  | unterminatedText (position : Nat)
  | unterminatedSheetName (position : Nat)
  | missingSheetMark (sheet : String)
  | unknownErrorValue (text : String)
  | unknownOperator (text : String)
  | missingOperand (operator : String)
  | emptyFormula
  | surplusOperand (text : String)
  | misplacedToken (text : String)
  | invalidNumber (text : String)
  | invalidErrorValue (text : String)
  | invalidOperand (text : String)
  deriving DecidableEq, Repr

def ParseError.message : ParseError → String
  | .unexpectedSemicolon position => "Unexpected ';' at position " ++ toString position
  | .unexpectedCharacter c position =>
    "Unexpected character '" ++ String.singleton c ++ "' at position " ++ toString position
  | .unterminatedText position => "Unterminated string starting at position " ++ toString position
  | .unterminatedSheetName position => "Unterminated sheet name starting at position " ++ toString position
  | .missingSheetMark sheet => "Expected '!' after sheet name '" ++ sheet ++ "'"
  | .unknownErrorValue text => "Unknown error literal: " ++ text
  | .unknownOperator text => "Unknown operator: " ++ text
  | .missingOperand operator => "Missing operand for '" ++ operator ++ "'"
  | .emptyFormula => "Empty formula"
  | .surplusOperand text => "Unexpected operand '" ++ text ++ "'"
  | .misplacedToken text => "Unexpected token '" ++ text ++ "'"
  | .invalidNumber text => "Invalid number: " ++ text
  | .invalidErrorValue text => "Invalid error literal: " ++ text
  | .invalidOperand text => "Unexpected operand: " ++ text

inductive FormulaError where
  | parse (cause : ParseError)
  | mismatchedParentheses
  | unsupportedArity (function : String) (arity : Nat)
  | unknownFunction (name : String)
  | unsupportedOperator (text : String)
  | notAReference (function text : String)
  | assignmentToRange (address : String)
  | unknownCell (address : String)
  | circularReference (cell callStack : String)
  | evaluation (cell callStack : String) (source : FormulaError)
  | suspended (cell : String) (depth : Nat)
  | reference (cause : ReferenceError)
  deriving DecidableEq, Repr

namespace FormulaError

def message : FormulaError → String
  | .parse cause => "Parse error: " ++ cause.message
  | .mismatchedParentheses => "Mismatched or misplaced parentheses"
  | .unsupportedArity function arity =>
    "Function " ++ function ++ " does not support " ++ toString arity ++ " arguments"
  | .unknownFunction name => "Unknown function: " ++ name
  | .unsupportedOperator text => "Unsupported operator: " ++ Text.quote text
  | .notAReference function text =>
    "Invalid argument: " ++ function ++ " expects a reference, got '" ++ text ++ "'"
  | .assignmentToRange address => "Invalid argument: Cannot assign a value to range " ++ address
  | .unknownCell address => "Unknown cell: " ++ address
  | .circularReference cell callStack =>
    "Circular reference: evaluation of " ++ cell ++ " already in progress\nCall stack:\n" ++ callStack
  | .evaluation cell callStack source =>
    "Problem evaluating " ++ cell ++ ": " ++ source.message ++ "\nCall stack:\n" ++ callStack
  | .suspended cell depth => "Evaluation suspended at " ++ cell ++ " (depth " ++ toString depth ++ ")"
  | .reference cause => cause.message

def isTagged : FormulaError → Bool
  | .circularReference _ _ => true
  | .evaluation _ _ _ => true
  | .suspended _ _ => true
  | _ => false

def isCircular : FormulaError → Bool
  | .circularReference _ _ => true
  | _ => false

end FormulaError

def liftReference {α : Type} : Except ReferenceError α → Except FormulaError α :=
  Except.mapError FormulaError.reference

def liftParse {α : Type} : Except ParseError α → Except FormulaError α :=
  Except.mapError FormulaError.parse

end Recalc
