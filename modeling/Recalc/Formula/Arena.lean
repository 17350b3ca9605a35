import Recalc.Formula.Fault
import Recalc.Formula.Tree

namespace Recalc

-- The elements of a formula in reverse Polish order, each with the numbers of its neighbours, and the number of the root.
structure Arena where
  nodes : List Tree.Placed
  root : Nat

namespace Arena

open Guarded

def blank (item : Item) : Tree.Placed := ⟨item,0,none,[]⟩

-- Finished operands wait on a stack, latest first. The ones taken are in the order of the text.
def takeOperands (consumer : Item) : Nat → List Nat → List Nat → Except ParseError (List Nat × List Nat)
  | 0, taken, stack => .ok (taken,stack)
  | _ + 1, _, [] => .error (.missingOperand consumer.token.text)
  | n + 1, taken, child :: stack => takeOperands consumer n (child :: taken) stack

def adopt (parent : Nat) : Nat → List Nat → List Tree.Placed → Guarded (List Tree.Placed)
  | _, [], nodes => return nodes
  | position, child :: children, nodes => do
    let node ← element nodes child
    adopt parent (position + 1) children (nodes.set child {node with position := position,parent := some parent})

def step (state : List Tree.Placed × List Nat) (index : Nat) : Guarded (List Tree.Placed × List Nat) := do
  let node ← element state.1 index
  let (children,stack) ← ofFormula (liftParse (takeOperands node.item node.item.operands [] state.2))
  let nodes ← adopt index node.item.firstPosition children state.1
  let node ← element nodes index
  return (nodes.set index {node with children := children},index :: stack)

def build (items : List Item) : Guarded Arena := do
  let (nodes,stack) ← (List.range items.length).foldlM step (items.map blank,[])
  match stack with
  | [] => throw (.parse .emptyFormula)
  | [root] => return ⟨nodes,root⟩
  | _ :: surplus :: _ =>
    let node ← element nodes surplus
    throw (.parse (.surplusOperand node.item.token.text))

def childAt? (arena : Arena) (index position : Nat) : Guarded (Option Tree.Placed) := do
  let node ← element arena.nodes index
  return (← node.children.mapM (element arena.nodes)).find? fun child => child.position == position

end Arena
end Recalc
