import Recalc.Formula.Arena
import Recalc.Formula.Compile

namespace Recalc

namespace Site

open Guarded

def walk (inside : Nat → Bool) (test : Nat → Except FormulaError Bool) (move : Nat → Guarded Nat) : Nat → Nat → Guarded Nat
  | 0, i => return i
  | steps + 1, i =>
    if inside i then do
      if ← ofFormula (test i) then walk inside test move steps (← move i) else return i
    else return i

def span (test : Nat → Except FormulaError Bool) (most here : Nat) : Guarded (Int × Nat) := do
  let first ← minus here 1
  let first ← walk (0 < ·) test (minus · 1) first first
  let last ← plus here 1
  let last ← walk (· ≤ most) test (plus · 1) (most + 1 - last) last
  let width ← minus (← minus last first) 1
  return ((width : Int) - 1,← minus here first)

def shape (site : Site) : Guarded (Nat × Option Nat) :=
  match site.book with
  | none => return (1,none)
  | some book => do
    let cell := site.cell
    let formulaAt (column row : Nat) : Except FormulaError (Option String) :=
      liftReference (book.formulaAt (⟨cell.sheet,column,row⟩ : CellRef).text)
    let own ← ofFormula (formulaAt cell.column cell.row)
    if own = none then return (1,none)
    let along ← span (fun column => do return (← formulaAt column cell.row) == own) columnLimit cell.column
    let (degree,coefficient) ←
      if along.1 = 0 then span (fun row => do return (← formulaAt cell.column row) == own) rowLimit cell.row
      else pure along
    return ((max degree 1).toNat,some (← minus coefficient 1))

end Site

namespace Arena

open Guarded

def position (site : Site) (name : String) (nodes : List Tree.Placed) : List Nat → Guarded Expr
  | [] => ofFormula (Expr.ofPosition site name [])
  | [reference] => do
    let node ← element nodes reference
    ofFormula (Expr.ofPosition site name [.node node.item []])
  | children => throw (.unsupportedArity name children.length)

def row (nodes : List Tree.Placed) (compile : Nat → Guarded Expr) (child : Nat) : Guarded (List Expr) := do
  let node ← element nodes child
  if Expr.isArrayRow node.item then node.children.mapM compile else return [← compile child]

def call (site : Site) (name : String) (arity : Nat) (arguments : Guarded (List Expr)) (rows : Guarded (List (List Expr)))
    (position : Guarded Expr) : Guarded Expr :=
  let unsupported : Guarded Expr := throw (.unsupportedArity name arity)
  if name = "IF" then
    if arity = 2 ∨ arity = 3 then do
      match ← arguments with
      | [c,t] => return .ifThen c t
      | [c,t,e] => return .ifElse c t e
      | _ => unsupported
    else unsupported
  else if name = "AND" ∨ name = "OR" then
    if arity = 0 then unsupported
    else do
      let args ← arguments
      return if name = "AND" then .all args else .any args
  else if name = "NOT" then do
    match ← arguments with
    | [e] => return .not e
    | _ => unsupported
  else if name = "ARRAY" then do return .array (← rows)
  else if name = "ARRAYROW" then do return .array [← arguments]
  else if name = "ROW" ∨ name = "COLUMN" then position
  else if name = "LINEST" ∨ name = "LINESTMARIO" then
    if arity = 0 then unsupported
    else do
      let args ← arguments
      let (degree,coefficient) ← site.shape
      return .linest args degree coefficient
  else match Function.ofName name with
    | none => throw (.unknownFunction name)
    | some f => if f.arity.allows arity then do return .call f (← arguments) else unsupported

-- The expression of the element at an index. An element deeper than `depth` is not reached.
def generate (site : Site) (nodes : List Tree.Placed) : Nat → Nat → Guarded Expr
  | 0, _ => fault .endless
  | depth + 1, index => do
    let node ← element nodes index
    let token := node.item.token
    match node.item.kind with
    | .operand => ofFormula (Expr.ofOperand token)
    | .range => ofFormula (Expr.ofReference site token)
    | .operator => ofFormula (Expr.ofOperator token (← node.children.mapM (generate site nodes depth)))
    | .generic => throw (.parse (.misplacedToken token.text))
    | .function =>
      let name := Text.asciiUpper (← Lexeme.cutFunctionMarker token.text)
      call site name node.children.length (node.children.mapM (generate site nodes depth))
        (node.children.mapM (row nodes (generate site nodes depth))) (position site name nodes node.children)

def compile (arena : Arena) (site : Site) : Guarded Expr := generate site arena.nodes arena.nodes.length arena.root

def compileTokens (tokens : List Token) (site : Site) : Guarded Expr := do
  let arena ← build (← ofFormula (ReversePolish.ofTokens tokens))
  arena.compile site

end Arena
end Recalc
