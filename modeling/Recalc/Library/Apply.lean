import Recalc.Formula.Function
import Recalc.Library.Conditional
import Recalc.Library.Fit
import Recalc.Library.Table
import Recalc.Library.Texts

namespace Recalc.Library

def apply (f : Function) (args : List Operand) : Query Value :=
  match f with
  | .sum => (sum args).settle
  | .sumIf => (sumIf args).settle
  | .sumProduct => (sumProduct args).settle
  | .round => (rounded .half args).settle
  | .roundUp => (rounded .up args).settle
  | .roundDown => (rounded .down args).settle
  | .mod => (mod args).settle
  | .ln => (ofOne ln (arg args 0)).settle
  | .abs => (ofOne (fun n => .ok n.abs) (arg args 0)).settle
  | .sqrt => (ofOne sqrt (arg args 0)).settle
  | .power => (power args).settle
  | .exp => (ofOne (fun n => .ok n.exp) (arg args 0)).settle
  | .gammaLn => (ofOne gammaLn (arg args 0)).settle
  | .npv => (npv args).settle
  | .count => (count args).settle
  | .countA => (countA args).settle
  | .countIf => (countIf args).settle
  | .average => (average args).settle
  | .min => (least args).settle
  | .max => (greatest args).settle
  | .rankEq => (rank args).settle
  | .rank => (rank args).settle
  | .vlookup => (lookup false args).settle
  | .hlookup => (lookup true args).settle
  | .matchPosition => (matchPosition args).settle
  | .index => (index args).settle
  | .ifError => ifError args
  | .left => (left args).settle
  | .right => (right args).settle
  | .mid => (mid args).settle
  | .len => (len args).settle
  | .substitute => (substitute args).settle
  | .concatenate => (concatenate args).settle

end Recalc.Library
