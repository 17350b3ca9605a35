import Recalc.Text.Case

namespace Recalc

-- IF, AND, OR, NOT, array braces, ROW, COLUMN and LINEST have expressions of their own.
inductive Function where
  | sum
  | sumIf
  | sumProduct
  | round
  | roundUp
  | roundDown
  | mod
  | ln
  | abs
  | sqrt
  | power
  | exp
  | gammaLn
  | npv
  | count
  | countA
  | countIf
  | average
  | min
  | max
  | rankEq
  | rank
  | vlookup
  | hlookup
  | matchPosition
  | index
  | ifError
  | left
  | right
  | mid
  | len
  | substitute
  | concatenate
  deriving DecidableEq, Repr

namespace Function

def all : List Function :=
  [.sum,.sumIf,.sumProduct,.round,.roundUp,.roundDown,.mod,.ln,.abs,.sqrt,.power,.exp,.gammaLn,.npv,
    .count,.countA,.countIf,.average,.min,.max,.rankEq,.rank,.vlookup,.hlookup,.matchPosition,.index,
    .ifError,.left,.right,.mid,.len,.substitute,.concatenate]

theorem mem_all (f : Function) : f ∈ all := by cases f <;> decide

def name : Function → String
  | .sum => "SUM"
  | .sumIf => "SUMIF"
  | .sumProduct => "SUMPRODUCT"
  | .round => "ROUND"
  | .roundUp => "ROUNDUP"
  | .roundDown => "ROUNDDOWN"
  | .mod => "MOD"
  | .ln => "LN"
  | .abs => "ABS"
  | .sqrt => "SQRT"
  | .power => "POWER"
  | .exp => "EXP"
  | .gammaLn => "GAMMALN"
  | .npv => "NPV"
  | .count => "COUNT"
  | .countA => "COUNTA"
  | .countIf => "COUNTIF"
  | .average => "AVERAGE"
  | .min => "MIN"
  | .max => "MAX"
  | .rankEq => "RANK.EQ"
  | .rank => "RANK"
  | .vlookup => "VLOOKUP"
  | .hlookup => "HLOOKUP"
  | .matchPosition => "MATCH"
  | .index => "INDEX"
  | .ifError => "IFERROR"
  | .left => "LEFT"
  | .right => "RIGHT"
  | .mid => "MID"
  | .len => "LEN"
  | .substitute => "SUBSTITUTE"
  | .concatenate => "CONCATENATE"

structure Arity where
  least : Nat
  most : Option Nat
  deriving DecidableEq, Repr

def Arity.allows (a : Arity) (n : Nat) : Bool := a.least ≤ n && a.most.all (n ≤ ·)

def arity : Function → Arity
  | .sum => ⟨1,none⟩
  | .sumIf => ⟨2,some 3⟩
  | .sumProduct => ⟨1,some 2⟩
  | .round => ⟨1,some 2⟩
  | .roundUp => ⟨1,some 2⟩
  | .roundDown => ⟨1,some 2⟩
  | .mod => ⟨2,some 2⟩
  | .ln => ⟨1,some 1⟩
  | .abs => ⟨1,some 1⟩
  | .sqrt => ⟨1,some 1⟩
  | .power => ⟨2,some 2⟩
  | .exp => ⟨1,some 1⟩
  | .gammaLn => ⟨1,some 1⟩
  | .npv => ⟨2,none⟩
  | .count => ⟨1,none⟩
  | .countA => ⟨1,none⟩
  | .countIf => ⟨2,some 2⟩
  | .average => ⟨1,none⟩
  | .min => ⟨1,none⟩
  | .max => ⟨1,none⟩
  | .rankEq => ⟨2,some 3⟩
  | .rank => ⟨2,some 3⟩
  | .vlookup => ⟨3,some 4⟩
  | .hlookup => ⟨3,some 4⟩
  | .matchPosition => ⟨2,some 3⟩
  | .index => ⟨2,some 3⟩
  | .ifError => ⟨2,some 2⟩
  | .left => ⟨1,some 2⟩
  | .right => ⟨1,some 2⟩
  | .mid => ⟨3,some 3⟩
  | .len => ⟨1,some 1⟩
  | .substitute => ⟨3,some 4⟩
  | .concatenate => ⟨1,none⟩

def ofName (text : String) : Option Function :=
  let wanted := Text.asciiUpper text
  all.find? fun f => f.name == wanted

end Function

def libraryName (name : String) : String :=
  match Text.asciiUpper name with
  | "LN" => "xlog"
  | "MIN" => "xmin"
  | "MAX" => "xmax"
  | "SUM" => "xsum"
  | "ROUND" => "xround"
  | "RANK.EQ" => "rank_eq"
  | "GAMMALN" => "lgamma"
  | _ => Text.asciiLower name

end Recalc
