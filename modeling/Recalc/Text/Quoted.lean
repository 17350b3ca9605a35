import Recalc.Text.Case
import Recalc.Text.HiddenTable

namespace Recalc.Text

def isHidden (c : Char) : Bool := within HiddenTable.hidden c

-- The escapes of a quoted text. A character without a mark of its own is shown by its number.
def escape (c : Char) : List Char :=
  match c with
  | '"' => ['\\','"']
  | '\\' => ['\\','\\']
  | '\n' => ['\\','n']
  | '\r' => ['\\','r']
  | '\t' => ['\\','t']
  | '\x00' => ['\\','0']
  | c =>
    if isHidden c then ['\\','u','\x7b'] ++ Nat.toDigits 16 c.toNat ++ ['\x7d'] else [c]

def quoteChars (cs : List Char) : List Char := '"' :: cs.flatMap escape ++ ['"']

def quote (s : String) : String := String.ofList (quoteChars s.toList)

end Recalc.Text
