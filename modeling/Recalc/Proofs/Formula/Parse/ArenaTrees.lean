import Recalc.Formula.Arena
import Recalc.Proofs.Formula.Compile.Guards
import Recalc.Proofs.Formula.Parse.Numbering
import Recalc.Proofs.Formula.Parse.Stacking

namespace Recalc.Arena

open Recalc.Tree Guarded

def forestFrom (first : Nat) : List Tree → List Placed
  | [] => []
  | t :: ts => placeFrom first 0 none t ++ forestFrom (first + t.size) ts

@[simp] theorem sizeAll_append (ts us : List Tree) : sizeAll (ts ++ us) = sizeAll ts + sizeAll us := by
  induction ts with
  | nil => simp [sizeAll]
  | cons t ts ih => simp [sizeAll,ih,Nat.add_assoc]

@[simp] theorem rootsFrom_append (ts us : List Tree) (first : Nat) : rootsFrom first (ts ++ us) = rootsFrom first ts ++ rootsFrom (first + sizeAll ts) us := by
  induction ts generalizing first with
  | nil => simp [rootsFrom,sizeAll]
  | cons t ts ih => simp [rootsFrom,sizeAll,ih,Nat.add_assoc]

@[simp] theorem forestFrom_append (ts us : List Tree) (first : Nat) :
    forestFrom first (ts ++ us) = forestFrom first ts ++ forestFrom (first + sizeAll ts) us := by
  induction ts generalizing first with
  | nil => simp [forestFrom,sizeAll]
  | cons t ts ih => simp [forestFrom,sizeAll,ih,Nat.add_assoc]

@[simp] theorem length_forestFrom (ts : List Tree) (first : Nat) : (forestFrom first ts).length = sizeAll ts := by
  induction ts generalizing first with
  | nil => rfl
  | cons t ts ih => simp [forestFrom,sizeAll,ih]

theorem placeFrom_root (t : Tree) (first : Nat) : ∃ inside indices, inside.length + 1 = t.size ∧
    ∀ position parent, placeFrom first position parent t = inside ++ [⟨t.item,position,parent,indices⟩] := by
  cases t with
  | node item children =>
    exact ⟨placeAllFrom first item.firstPosition (first + sizeAll children) children,rootsFrom first children,
      by simp [size],fun position parent => by simp [placeFrom,Tree.item]⟩

theorem takeOperands_eq (consumer : Item) (n : Nat) (taken stack : List Nat) : takeOperands consumer n taken stack =
    if stack.length < n then .error (.missingOperand consumer.token.text) else .ok ((stack.take n).reverse ++ taken,stack.drop n) := by
  induction n generalizing taken stack with
  | zero => simp [takeOperands]
  | succ n ih =>
    cases stack with
    | nil => simp [takeOperands]
    | cons child stack => simp [takeOperands,ih]

theorem adopt_forest (parent : Nat) (ts : List Tree) (position : Nat) (before after : List Placed) :
    adopt parent position (rootsFrom before.length ts) (before ++ forestFrom before.length ts ++ after) =
      pure (before ++ placeAllFrom before.length position parent ts ++ after) := by
  induction ts generalizing position before with
  | nil => simp [adopt,rootsFrom,forestFrom,placeAllFrom]
  | cons t ts ih =>
    obtain ⟨inside,indices,size,placed⟩ := placeFrom_root t before.length
    have root : before.length + t.size - 1 = (before ++ inside).length := by simp; omega
    have length : (before ++ placeFrom before.length position (some parent) t).length = before.length + t.size := by
      simp
    have rest := ih (position + 1) (before ++ placeFrom before.length position (some parent) t)
    rw [length] at rest
    have there : (before ++ forestFrom before.length (t :: ts) ++ after)[(before ++ inside).length]? = some ⟨t.item,0,none,indices⟩ := by
      simp [forestFrom,placed]
    have changed : (before ++ forestFrom before.length (t :: ts) ++ after).set (before ++ inside).length ⟨t.item,position,some parent,indices⟩ =
        before ++ placeFrom before.length position (some parent) t ++ forestFrom (before.length + t.size) ts ++ after := by
      simp [forestFrom,placed]
    rw [rootsFrom,root,adopt,element_some there]
    simp only [pure_bind,changed,rest]
    simp [placeAllFrom]

-- What stands in the arena while the elements are read: the finished trees, then the elements still to come.
def reading (stack : List Tree) (rest : List Item) : List Placed × List Nat :=
  (forestFrom 0 stack.reverse ++ rest.map blank,(rootsFrom 0 stack.reverse).reverse)

theorem reading_here (stack : List Tree) (item : Item) (rest : List Item) :
    element (reading stack (item :: rest)).1 (sizeAll stack.reverse) = pure (blank item) :=
  element_some (by simp [reading])

theorem reading_waits (stack : List Tree) (rest : List Item) : (reading stack rest).2.length = stack.length := by
  simp [reading]

theorem step_joins (trees below : List Tree) (item : Item) (rest : List Item) (fits : trees.length = item.operands) :
    step (reading (trees.reverse ++ below) (item :: rest)) (sizeAll (trees.reverse ++ below).reverse) =
      pure (reading (node item trees :: below) rest) := by
  let first := sizeAll below.reverse
  let before := forestFrom 0 below.reverse
  let index := first + sizeAll trees
  let after := blank item :: rest.map blank
  have length : before.length = first := length_forestFrom below.reverse 0
  have here : sizeAll (trees.reverse ++ below).reverse = index := by simp [first,index]
  have nodes : (reading (trees.reverse ++ below) (item :: rest)).1 = before ++ forestFrom first trees ++ after := by
    simp [reading,before,first,after]
  have waiting : (reading (trees.reverse ++ below) (item :: rest)).2 = (rootsFrom first trees).reverse ++ (rootsFrom 0 below.reverse).reverse := by
    simp [reading,first]
  have taken : takeOperands item item.operands [] (reading (trees.reverse ++ below) (item :: rest)).2 =
      .ok (rootsFrom first trees,(rootsFrom 0 below.reverse).reverse) := by
    have count : (rootsFrom first trees).reverse.length = item.operands := by simp [fits]
    rw [waiting,takeOperands_eq,if_neg (by simp only [List.length_append]; omega),←count]
    simp
  have adopted := adopt_forest index trees item.firstPosition before after
  rw [length] at adopted
  let placed := before ++ placeAllFrom first item.firstPosition index trees
  have place : placed.length = index := by simp [placed,length,index]
  have next : (placed ++ after)[index]? = some (blank item) := by
    rw [←place]
    simp [after]
  have done : ((placed ++ after).set index {blank item with children := rootsFrom first trees},index :: (rootsFrom 0 below.reverse).reverse) =
      reading (node item trees :: below) rest := by
    have set : (placed ++ after).set index {blank item with children := rootsFrom first trees} =
        placed ++ ⟨item,0,none,rootsFrom first trees⟩ :: rest.map blank := by
      rw [←place]
      simp [after,blank]
    rw [set]
    simp [reading,forestFrom,rootsFrom,placeFrom,size,placed,before,first,index]
  rw [step,reading_here,here]
  simp only [pure_bind,blank]
  rw [taken]
  simp only [liftParse,Except.mapError,ofFormula_ok,pure_bind,nodes,adopted]
  rw [element_some next]
  simpa only [pure_bind] using congrArg pure done

theorem step_reading (stack : List Tree) (item : Item) (rest : List Item) : step (reading stack (item :: rest)) (sizeAll stack.reverse) =
    ofFormula (liftParse (push stack item) >>= fun after => pure (reading after rest)) := by
  by_cases few : stack.length < item.operands
  · rw [step,reading_here]
    simp only [pure_bind,blank,takeOperands_eq,reading_waits,push,few,if_true]
    rfl
  · have split : stack = (stack.take item.operands).reverse.reverse ++ stack.drop item.operands := by simp
    have joins := step_joins (stack.take item.operands).reverse (stack.drop item.operands) item rest (by simp; omega)
    rw [←split] at joins
    rw [joins]
    simp only [push,few,if_false]
    rfl

theorem push_size {item : Item} (pushed : push stack item = .ok after) : sizeAll after.reverse = sizeAll stack.reverse + 1 := by
  obtain ⟨-,rfl⟩ := push_ok.mp pushed
  have split : stack.reverse = (stack.drop item.operands).reverse ++ (stack.take item.operands).reverse := by
    rw [←List.reverse_append,List.take_append_drop]
  rw [split]
  simp [sizeAll,size,Nat.add_assoc]

theorem steps_reading (rest : List Item) (stack : List Tree) :
    (List.range' (sizeAll stack.reverse) rest.length).foldlM step (reading stack rest) =
      ofFormula (liftParse (rest.foldlM push stack) >>= fun after => pure (reading after [])) := by
  induction rest generalizing stack with
  | nil => rfl
  | cons item rest ih =>
    rw [List.length_cons,List.range'_succ,List.foldlM_cons,step_reading,List.foldlM_cons]
    cases pushed : push stack item with
    | error e => rfl
    | ok after =>
      have next := ih after
      rw [push_size pushed] at next
      exact next

theorem reading_surplus (t surplus : Tree) (below : List Tree) : ∃ root latest roots node,
    (reading (t :: surplus :: below) []).2 = latest :: root :: roots ∧ element (reading (t :: surplus :: below) []).1 root = pure node ∧
      node.item = surplus.item := by
  obtain ⟨inside,indices,size,placed⟩ := placeFrom_root surplus (sizeAll below.reverse)
  have root : sizeAll below.reverse + surplus.size - 1 = (forestFrom 0 below.reverse ++ inside).length := by
    simp
    omega
  refine ⟨_,_,_,⟨surplus.item,0,none,indices⟩,by simp [reading,rootsFrom]; exact ⟨rfl,rfl,rfl⟩,element_some ?_,rfl⟩
  rw [root]
  simp [reading,forestFrom,placed]

-- The arena holds the numbered tree, and the tree is there whenever the arena is.
theorem build_placed (items : List Item) :
    build items = ofFormula (liftParse (Tree.ofItems items) >>= fun t => pure ⟨t.placed,t.size - 1⟩) := by
  have steps := steps_reading items []
  have start : reading [] items = (items.map blank,[]) := by simp [reading,forestFrom,rootsFrom]
  rw [start,show sizeAll [].reverse = 0 from rfl,←List.range_eq_range'] at steps
  rw [build,steps,Tree.ofItems]
  cases items.foldlM push [] with
  | error e => rfl
  | ok stack =>
    match stack with
    | [] => rfl
    | [t] =>
      have whole : reading [t] [] = (t.placed,[t.size - 1]) := by simp [reading,forestFrom,rootsFrom,Tree.placed]
      change (ofFormula (.ok (reading [t] [])) >>= _) = _
      rw [whole]
      rfl
    | t :: surplus :: below =>
      obtain ⟨root,latest,roots,node,waiting,found,same⟩ := reading_surplus t surplus below
      change (ofFormula (.ok (reading (t :: surplus :: below) [])) >>= _) = _
      generalize reading (t :: surplus :: below) [] = state at waiting found ⊢
      obtain ⟨nodes,stack⟩ := state
      cases waiting
      rw [ofFormula_ok,pure_bind]
      dsimp only at found ⊢
      rw [found,pure_bind,same]
      rfl

end Recalc.Arena
