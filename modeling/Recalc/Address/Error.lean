namespace Recalc

inductive ReferenceError where
  | invalidAddress (text : String)
  | invalidRange (text : String)
  | emptyColumn
  | invalidColumnNumber (number : Nat)
  | nonIncreasingColumns (range : String) (maxColumn maxRow : Nat)
  | missingBounds (text : String)
  | missingSheet (text : String)
  | sheetNotFound (name : String)
  | shapeMismatch (address : String) (expectedRows expectedColumns rows columns : Nat)
  deriving DecidableEq, Repr

def ReferenceError.message : ReferenceError → String
  | .invalidAddress text => "Invalid address format: " ++ text
  | .invalidRange text => "Invalid cell range: " ++ text
  | .emptyColumn => "Column may not be empty"
  | .invalidColumnNumber number => "Column number must be larger than 0: " ++ toString number
  | .nonIncreasingColumns range maxColumn maxRow =>
    "Incorrect range specified: [" ++ range ++ "], max_col: [" ++ toString maxColumn ++
      "], max_row: [" ++ toString maxRow ++ "]"
  | .missingBounds text => "Row/Col start/end missing, range: [" ++ text ++ "]"
  | .missingSheet text => "No sheet specified for address: " ++ text
  | .sheetNotFound name => "Sheet not found: " ++ name
  | .shapeMismatch address expectedRows expectedColumns rows columns =>
    "Shape mismatch for " ++ address ++ ": expected " ++ toString expectedRows ++ "x" ++
      toString expectedColumns ++ ", got " ++ toString rows ++ "x" ++ toString columns

end Recalc
