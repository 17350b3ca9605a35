import Recalc.Formula.Function
import Recalc.Text.Quoted
import Recalc.Value

namespace Recalc

inductive UnaryOp where
  | negate
  | percent
  deriving DecidableEq, Repr

inductive BinaryOp where
  | add
  | subtract
  | multiply
  | divide
  | power
  | concat
  | equal
  | notEqual
  | less
  | lessEqual
  | greater
  | greaterEqual
  deriving DecidableEq, Repr

namespace BinaryOp

def all : List BinaryOp :=
  [.add,.subtract,.multiply,.divide,.power,.concat,.equal,.notEqual,.less,.lessEqual,.greater,.greaterEqual]

def symbol : BinaryOp → String
  | .add => "+"
  | .subtract => "-"
  | .multiply => "*"
  | .divide => "/"
  | .power => "^"
  | .concat => "&"
  | .equal => "="
  | .notEqual => "<>"
  | .less => "<"
  | .lessEqual => "<="
  | .greater => ">"
  | .greaterEqual => ">="

def ofSymbol (text : String) : Option BinaryOp := all.find? fun op => op.symbol == text

theorem ofSymbol_symbol (op : BinaryOp) : ofSymbol op.symbol = some op := by cases op <;> decide

end BinaryOp

-- A compiled formula. References stay addresses until the formula is evaluated.
inductive Expr where
  | literal (value : Value)
  | cell (address : String)
  | range (address : String)
  | unary (op : UnaryOp) (operand : Expr)
  | binary (op : BinaryOp) (left right : Expr)
  | ifThen (condition consequent : Expr)
  | ifElse (condition consequent alternative : Expr)
  | all (args : List Expr)
  | any (args : List Expr)
  | not (arg : Expr)
  | array (rows : List (List Expr))
  | call (function : Function) (args : List Expr)
  | linest (args : List Expr) (degree : Nat) (coefficient : Option Nat)

namespace Expr

def isOperator : Expr → Bool
  | .unary _ _ => true
  | .binary _ _ _ => true
  | _ => false

def isReference : Expr → Bool
  | .cell _ => true
  | _ => false

def renderLiteral : Value → String
  | .text s => Text.quote s
  | .boolean b => if b then "true" else "false"
  | .empty => "blank"
  | v => v.toText

def grouped (grouping : Bool) (text : String) : String := if grouping then "(" ++ text ++ ")" else text

def commas (texts : List String) : String := String.intercalate ", " texts

def called (name : String) (args : List String) : String := name ++ "(" ++ commas args ++ ")"

-- Operators are grouped where they stand under an operator, and only there.
mutual
def renderUnder (operator : Bool) : Expr → String
  | .literal v => renderLiteral v
  | .cell address => called "eval_cell" [Text.quote address]
  | .range address => called "eval_range" [Text.quote address]
  | .unary .negate e => grouped operator ("-" ++ renderUnder true e)
  | .unary .percent e => grouped operator (renderUnder true e ++ "%")
  | .binary op l r =>
    grouped operator (renderUnder true l ++ " " ++ op.symbol ++ " " ++ renderUnder true r)
  | .ifThen c t => called "if" [renderUnder false c,renderUnder false t]
  | .ifElse c t e => called "if" [renderUnder false c,renderUnder false t,renderUnder false e]
  | .all args => called "all" (renderEach args)
  | .any args => called "any" (renderEach args)
  | .not e => called "not" [renderUnder false e]
  | .array rows => "\x7b" ++ String.intercalate "; " (renderRows rows) ++ "\x7d"
  | .call f args => called (libraryName f.name) (renderEach args)
  | .linest args degree coefficient =>
    "linest(" ++ commas (renderEach args) ++ ", degree=" ++ toString degree ++ ")" ++
      (match coefficient with
        | some index => "[" ++ toString index ++ "]"
        | none => "")
def renderEach : List Expr → List String
  | [] => []
  | e :: es => renderUnder false e :: renderEach es
def renderRows : List (List Expr) → List String
  | [] => []
  | r :: rs => commas (renderEach r) :: renderRows rs
end

theorem renderEach_map (es : List Expr) : renderEach es = es.map (renderUnder false) := by
  induction es with
  | nil => rfl
  | cons e es ih => rw [renderEach,ih,List.map_cons]

def render (e : Expr) : String := renderUnder false e

theorem renderUnder_alone {e : Expr} (alone : e.isOperator = false) (operator : Bool) : e.renderUnder operator = e.render := by
  cases e with
  | unary | binary => cases alone
  | _ => simp only [render,renderUnder]

end Expr
end Recalc
