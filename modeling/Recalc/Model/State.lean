import Recalc.Evaluation
import Recalc.Model.Graph
import Recalc.NumberFormat

namespace Recalc

-- A constant compiles to its literal. `dirty` means the value must be computed before it
-- is read; `evaluating` that reading the cell now would close a circle.
structure Cell where
  address : String
  sheet : String
  formula : Option String
  expr : Expr
  value : Value
  format : NumberFormat
  dirty : Bool
  evaluating : Bool

namespace Cell

def constant (address sheet : String) (value : Value) (format : NumberFormat) : Cell :=
  ⟨address,sheet,none,.literal value,value,format,false,false⟩

def ofFormula (address sheet formula : String) (cached : Value) (format : NumberFormat) (dirty : Bool) : Cell :=
  ⟨address,sheet,some formula,.literal cached,cached,format,dirty,false⟩

end Cell

structure RangeNode where
  address : String
  cells : List (List String)

inductive Node where
  | cell (c : Cell)
  | range (r : RangeNode)

namespace Node

def address : Node → String
  | .cell c => c.address
  | .range r => r.address

def isRange : Node → Bool
  | .cell _ => false
  | .range _ => true

-- Ranges are never dirty; their cells are.
def isDirty : Node → Bool
  | .cell c => c.dirty
  | .range _ => false

def cell? : Node → Option Cell
  | .cell c => some c
  | .range _ => none

def changeCell (f : Cell → Cell) : Node → Node
  | .cell c => .cell (f c)
  | .range r => .range r

end Node

structure Limits where
  callStack : Nat
  depth : Nat
  deriving DecidableEq, Repr

-- Compiled cells and what reads what. `current` holds the cells under evaluation, latest
-- first; `callStack` the same for messages, but it is emptied when it grows too long.
-- `narrowed` holds the full tables of lookups that read two slices only.
structure Model where
  nodes : List Node
  graph : Graph
  narrowed : List String
  defaultSheet : String
  limits : Limits
  current : List NodeId
  callStack : List NodeId
  depthOffset : Nat

namespace Model

def empty (limits : Limits) (defaultSheet : String) : Model :=
  ⟨[],.empty,[],defaultSheet,{limits with depth := max limits.depth 1},[],[],0⟩

def find? (m : Model) (address : String) : Option NodeId := m.nodes.findIdx? fun n => n.address == address

def insert (m : Model) (n : Node) : Model := {m with nodes := m.nodes ++ [n]}

def link (m : Model) (precedent dependent : NodeId) : Model :=
  {m with graph := m.graph.add precedent dependent}

def changeCell (m : Model) (id : NodeId) (f : Cell → Cell) : Model :=
  {m with nodes := m.nodes.modify id (Node.changeCell f)}

def narrow (m : Model) (address : String) : Model :=
  if address ∈ m.narrowed then m else {m with narrowed := address :: m.narrowed}

def addressOf (m : Model) (id : NodeId) : String := (m.nodes[id]?.map Node.address).getD ""

def isDirty (m : Model) (id : NodeId) : Bool := m.nodes[id]?.any Node.isDirty

def resolve (m : Model) (address : String) : Except FormulaError NodeId :=
  match m.find? address with
  | some id => .ok id
  | none => do
    let key ← liftReference (canonicalize (Text.without '$' address) m.defaultSheet)
    match m.find? key with
    | some id => return id
    | none => throw (.unknownCell key)

def node? (m : Model) (address : String) : Option Node :=
  match m.resolve address with
  | .ok id => m.nodes[id]?
  | .error _ => none

def contains (m : Model) (address : String) : Bool := (m.node? address).isSome

def rangeCount (m : Model) : Nat := (m.nodes.filter Node.isRange).length

def callStackText (m : Model) : String :=
  String.intercalate "\n" (m.callStack.reverse.map fun id => "  " ++ m.addressOf id)

def sortedAddresses (m : Model) (ids : List NodeId) : List String :=
  (ids.map m.addressOf).mergeSort fun a b => Text.order a.toList b.toList != .gt

def dependents (m : Model) (address : String) : Except FormulaError (List String) := do
  return m.sortedAddresses (m.graph.dependents (← m.resolve address))

def precedents (m : Model) (address : String) : Except FormulaError (List String) := do
  return m.sortedAddresses (m.graph.precedents (← m.resolve address))

def hasCircularReference (m : Model) (address : String) : Except FormulaError Bool := do
  return m.graph.reachesCycle (← m.resolve address)

end Model
end Recalc
