import Recalc.Formula.Tree
import Recalc.Proofs.Address.Spelling

namespace Recalc
namespace Tree
variable {stack stack' after after' base : List Tree} {item : Item} {list list' a b c c' : List Item} {t w : Tree}
  {children trees trees' : List Tree}

theorem itemsAll_append (ts us : List Tree) : itemsAll (ts ++ us) = itemsAll ts ++ itemsAll us := by
  induction ts with
  | nil => rfl
  | cons t ts ih => simp [itemsAll,ih]

theorem push_ok : push stack item = .ok after ↔
    item.operands ≤ stack.length ∧ node item (stack.take item.operands).reverse :: stack.drop item.operands = after := by
  unfold push
  dsimp only
  split
  · simp
    omega
  · rename_i enough
    simp [Nat.le_of_not_lt enough]

theorem ofItems_ok : ofItems list = .ok t ↔ list.foldlM push [] = .ok [t] := by
  constructor
  · intro made
    obtain ⟨stack,pushed,last⟩ := bind_ok.mp made
    split at last <;> cases last
    exact pushed
  · intro pushed
    unfold ofItems
    rw [pushed]
    rfl

theorem push_flat (pushed : push stack item = .ok after) : itemsAll after.reverse = itemsAll stack.reverse ++ [item] := by
  obtain ⟨-,rfl⟩ := push_ok.mp pushed
  have split : stack.reverse = (stack.drop item.operands).reverse ++ (stack.take item.operands).reverse := by
    rw [← List.reverse_append,List.take_append_drop]
  rw [split,List.reverse_cons,itemsAll_append,itemsAll_append]
  simp [itemsAll,items]

theorem pushes_flat (pushed : list.foldlM push stack = .ok after) : itemsAll after.reverse = itemsAll stack.reverse ++ list := by
  induction list generalizing stack with
  | nil =>
    cases pushed
    simp
  | cons item list ih =>
    rw [List.foldlM_cons] at pushed
    obtain ⟨mid,first,rest⟩ := bind_ok.mp pushed
    rw [ih rest,push_flat first]
    simp

theorem ofItems_flat (made : ofItems list = .ok t) : t.items = list := by
  simpa [itemsAll] using pushes_flat (ofItems_ok.mp made)

-- What lies below the operands is not looked at, and what they are does not matter.
theorem push_over (pushed : push stack item = .ok after) (base : List Tree) : push (stack ++ base) item = .ok (after ++ base) := by
  obtain ⟨enough,rfl⟩ := push_ok.mp pushed
  refine push_ok.mpr ⟨by simp; omega,?_⟩
  rw [List.take_append_of_le_length enough,List.drop_append_of_le_length enough]
  rfl

theorem push_length (pushed : push stack item = .ok after) (same : stack'.length = stack.length) :
    ∃ after', push stack' item = .ok after' ∧ after'.length = after.length := by
  obtain ⟨enough,rfl⟩ := push_ok.mp pushed
  exact ⟨_,push_ok.mpr ⟨same ▸ enough,rfl⟩,by simp [same]⟩

theorem pushes_over (pushed : list.foldlM push stack = .ok after) (base : List Tree) :
    list.foldlM push (stack ++ base) = .ok (after ++ base) := by
  induction list generalizing stack with
  | nil =>
    cases pushed
    rfl
  | cons item list ih =>
    obtain ⟨mid,first,rest⟩ := bind_ok.mp pushed
    rw [List.foldlM_cons,push_over first base]
    exact ih rest

theorem pushes_length (pushed : list.foldlM push stack = .ok after) (same : stack'.length = stack.length) :
    ∃ after', list.foldlM push stack' = .ok after' ∧ after'.length = after.length := by
  induction list generalizing stack stack' with
  | nil =>
    cases pushed
    exact ⟨stack',rfl,same⟩
  | cons item list ih =>
    obtain ⟨mid,first,rest⟩ := bind_ok.mp pushed
    obtain ⟨mid',first',same'⟩ := push_length first same
    obtain ⟨after',rest',size⟩ := ih rest same'
    refine ⟨after',?_,size⟩
    rw [List.foldlM_cons,first']
    exact rest'

theorem pushes_given (pushed : list.foldlM push stack = .ok after) (given : list ≠ []) : after ≠ [] := by
  rintro rfl
  exact given (List.append_eq_nil_iff.mp (pushes_flat pushed).symm).2

theorem ofItems_head (made : ofItems list = .ok t) : ∃ i rest, list = i :: rest ∧ i.operands = 0 := by
  cases list with
  | nil => cases made
  | cons i rest =>
    obtain ⟨stack,first,-⟩ := bind_ok.mp (ofItems_ok.mp made)
    exact ⟨i,rest,rfl,by simpa using (push_ok.mp first).1⟩

theorem ofItems_swap (made : ofItems (a ++ c ++ b) = .ok w) (before : a.foldlM push [] = .ok stack) (here : c.foldlM push stack = .ok after)
    (other : c'.foldlM push stack = .ok after') (same : after'.length = after.length) : ∃ w', ofItems (a ++ c' ++ b) = .ok w' := by
  have pushed := ofItems_ok.mp made
  rw [List.foldlM_append,List.foldlM_append,before] at pushed
  change (c.foldlM push stack >>= fun stack => b.foldlM push stack) = _ at pushed
  rw [here] at pushed
  obtain ⟨last,rest,size⟩ := pushes_length pushed same
  obtain ⟨w',rfl⟩ := List.length_eq_one_iff.mp size
  refine ⟨w',ofItems_ok.mpr ?_⟩
  rw [List.foldlM_append,List.foldlM_append,before]
  change (c'.foldlM push stack >>= fun stack => b.foldlM push stack) = _
  rw [other]
  exact rest

def Stacks (list : List Item) (trees : List Tree) : Prop := ∀ stack, list.foldlM push stack = .ok (trees.reverse ++ stack)

theorem Stacks.append (first : Stacks list trees) (second : Stacks list' trees') :
    Stacks (list ++ list') (trees ++ trees') := by
  intro stack
  rw [List.foldlM_append,first stack]
  exact (second (trees.reverse ++ stack)).trans (by simp)

theorem stacks_node (fits : item.operands = children.length) (each : Stacks (itemsAll children) children) :
    Stacks (node item children).items [node item children] := by
  intro stack
  rw [items,List.foldlM_append,each stack]
  have pushed : push (children.reverse ++ stack) item = .ok (node item children :: stack) :=
    push_ok.mpr ⟨by simp [fits],by simp [fits]⟩
  change push (children.reverse ++ stack) item >>= pure = _
  rw [pushed]
  rfl

theorem Stacks.ofItems (piled : Stacks list [t]) : Tree.ofItems list = .ok t := ofItems_ok.mpr (piled [])

theorem ofItems_stacks (made : ofItems list = .ok t) : Stacks list [t] := fun stack => pushes_over (ofItems_ok.mp made) stack

end Tree
end Recalc
