import Recalc.Formula.Expr
import Recalc.Formula.Tree
import Recalc.Workbook

namespace Recalc

def columnLimit : Nat := 16384
def rowLimit : Nat := 1048576

structure Site where
  cell : CellRef
  book : Option Workbook

namespace Site

def extents (site : Site) : Extents :=
  match site.book with
  | some book => book.extents
  | none => ⟨columnLimit,rowLimit⟩

def runLength (test : Nat → Except FormulaError Bool) : Nat → Nat → Except FormulaError Nat
  | 0, _ => .ok 0
  | most + 1, distance => do
    if ← test distance then return (← runLength test most (distance + 1)) + 1 else return 0

-- Neighbours with the same formula share one fit: as many coefficients as cells, and each
-- cell shows its own. A cell alone in its row looks along its column.
def linestShape (site : Site) : Except FormulaError (Nat × Option Nat) :=
  match site.book with
  | none => .ok (1,none)
  | some book => do
    let cell := site.cell
    let formulaAt (column row : Nat) : Except FormulaError (Option String) :=
      liftReference (book.formulaAt (⟨cell.sheet,column,row⟩ : CellRef).text)
    let own ← formulaAt cell.column cell.row
    if own = none then return (1,none)
    let before ← runLength (fun d => do return (← formulaAt (cell.column - d) cell.row) == own) (cell.column - 1) 1
    let after ← runLength (fun d => do return (← formulaAt (cell.column + d) cell.row) == own)
      (columnLimit - cell.column) 1
    if before + after ≠ 0 then return (before + after,some before)
    let above ← runLength (fun d => do return (← formulaAt cell.column (cell.row - d)) == own) (cell.row - 1) 1
    let below ← runLength (fun d => do return (← formulaAt cell.column (cell.row + d)) == own)
      (rowLimit - cell.row) 1
    return (max (above + below) 1,some above)

end Site

namespace Expr

def ofOperand (t : Token) : Except FormulaError Expr :=
  match t.subkind with
  | .number => match Decimal.number? t.text.toList with
    | some n => .ok (.literal (.number n))
    | none => .error (.parse (.invalidNumber t.text))
  | .text => .ok (.literal (.text t.text))
  | .logical => .ok (.literal (.boolean (Text.sameIgnoringAsciiCase t.text "TRUE")))
  | .error => match ErrorValue.parse t.text with
    | some e => .ok (.literal (.error e))
    | none => .error (.parse (.invalidErrorValue t.text))
  | _ => .error (.parse (.invalidOperand t.text))

def ofReference (site : Site) (t : Token) : Except FormulaError Expr := do
  let address ← liftReference (canonicalize (Text.without '$' t.text) site.cell.sheet)
  return if isRange address then .range address else .cell address

def ofOperator (t : Token) (operands : List Expr) : Except FormulaError Expr :=
  if t.kind = .infixOp then
    match BinaryOp.ofSymbol t.text with
    | none => .error (.unsupportedOperator t.text)
    | some op => match operands with
      | [l,r] => .ok (.binary op l r)
      | _ => .error (.parse (.missingOperand t.text))
  else
    match (if t.text = "-" then some UnaryOp.negate else if t.text = "%" then some .percent else none) with
    | none => .error (.unsupportedOperator t.text)
    | some op => match operands with
      | [e] => .ok (.unary op e)
      | _ => .error (.parse (.missingOperand t.text))

def functionName (t : Token) : String := Text.asciiUpper (Lexeme.stripFunctionMarker t.text)

def isArrayRow (i : Item) : Bool :=
  i.kind == .function && Text.sameIgnoringAsciiCase i.token.text "ARRAYROW"

-- A row of an array gives its items; any other item of an array is a row of its own.
def rowOf (t : Tree) (e : Expr) : List Expr :=
  match isArrayRow t.item, e with
  | true, .array [row] => row
  | _, e => [e]

def ofPosition (site : Site) (name : String) (children : List Tree) : Except FormulaError Expr := do
  let pick (column row : Nat) : Expr :=
    .literal (.number (Float.ofNat (if name = "ROW" then row else column)))
  match children with
  | [] => return pick site.cell.column site.cell.row
  | [reference] =>
    let item := reference.item
    if item.kind ≠ .range then throw (.notAReference name item.token.text)
    let rect ← liftReference (Rect.parse (Text.without '$' item.token.text) site.cell.sheet)
    return pick rect.firstColumn rect.firstRow
  | _ => throw (.unsupportedArity name children.length)

mutual
def ofTree (site : Site) : Tree → Except FormulaError Expr
  | .node item children =>
    match item.kind with
    | .operand => ofOperand item.token
    | .range => ofReference site item.token
    | .operator => do ofOperator item.token (← ofTrees site children)
    | .generic => .error (.parse (.misplacedToken item.token.text))
    | .function =>
      let name := functionName item.token
      let unsupported : Except FormulaError Expr := .error (.unsupportedArity name children.length)
      if name = "IF" then
        if children.length = 2 ∨ children.length = 3 then do
          match ← ofTrees site children with
          | [c,t] => return .ifThen c t
          | [c,t,e] => return .ifElse c t e
          | _ => unsupported
        else unsupported
      else if name = "AND" ∨ name = "OR" then
        if children = [] then unsupported
        else do
          let args ← ofTrees site children
          return if name = "AND" then .all args else .any args
      else if name = "NOT" then do
        match ← ofTrees site children with
        | [e] => return .not e
        | _ => unsupported
      else if name = "ARRAY" then do
        return .array (List.zipWith rowOf children (← ofTrees site children))
      else if name = "ARRAYROW" then do return .array [← ofTrees site children]
      else if name = "ROW" ∨ name = "COLUMN" then ofPosition site name children
      else if name = "LINEST" ∨ name = "LINESTMARIO" then
        if children = [] then unsupported
        else do
          let args ← ofTrees site children
          let (degree,coefficient) ← site.linestShape
          return .linest args degree coefficient
      else match Function.ofName name with
        | none => .error (.unknownFunction name)
        | some f =>
          if f.arity.allows children.length then do return .call f (← ofTrees site children) else unsupported
def ofTrees (site : Site) : List Tree → Except FormulaError (List Expr)
  | [] => .ok []
  | t :: ts => do
    let e ← ofTree site t
    let es ← ofTrees site ts
    return e :: es
end

end Expr

def clampItems (extents : Item → Except ReferenceError Extents) (items : List Item) :
    Except ReferenceError (List Item) :=
  items.mapM fun item =>
    if item.kind = .range then do
      return {item with token := {item.token with text := ← clampRange item.token.text (← extents item)}}
    else return item

def compile (formula : String) (site : Site) : Except FormulaError Expr := do
  let items ← ReversePolish.ofTokens (← liftParse (tokenize (stripEquals formula)))
  let items ← liftReference (clampItems (fun _ => .ok site.extents) items)
  Expr.ofTree site (← liftParse (Tree.ofItems items))

end Recalc
