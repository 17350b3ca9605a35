import Recalc.Decimal.Scaled
import Recalc.Text.Blank
import Recalc.Text.Case
import Recalc.Text.Search
import Recalc.Value

namespace Recalc

inductive NumberFormat where
  | general
  | custom (pattern : String)
  deriving DecidableEq, Repr

namespace NumberFormat

def parse (text : String) : NumberFormat :=
  let pattern := Text.trim text
  if pattern = "" ∨ Text.sameIgnoringAsciiCase pattern "general" then .general else .custom pattern

def text : NumberFormat → String
  | .general => "General"
  | .custom pattern => pattern

def places (f : NumberFormat) : Option Nat :=
  (Text.splitFirst '.' f.text.toList).map fun (_,fraction) =>
    (fraction.takeWhile fun c => c = '0' ∨ c = '#' ∨ c = '?').length

-- A number shown with so many places is also kept with so many.
def apply (f : NumberFormat) (v : Value) : Value :=
  match v, f.places with
  | .number n, some places => .number (Decimal.round .half (Int64.ofNat places) n)
  | v, _ => v

end NumberFormat
end Recalc
