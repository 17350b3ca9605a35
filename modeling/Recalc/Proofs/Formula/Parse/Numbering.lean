import Recalc.Formula.Tree

namespace Recalc.Tree

-- The tree stands among the numbered elements with its root at the index: every element names its
-- operands or arguments in order, and each of those its place among them.
inductive Laid (nodes : List Placed) : Nat → Nat → Option Nat → Tree → Prop where
  | node {item : Item} {children : List Tree} (there : nodes[i]? = some ⟨item,position,parent,indices⟩) (size : indices.length = children.length)
      (each : ∀ k j child, indices[k]? = some j → children[k]? = some child →
        Laid nodes j (item.firstPosition + k) (some i) child) : Laid nodes i position parent (.node item children)

mutual
@[simp] theorem length_placeFrom : (t : Tree) → ∀ first position parent, (placeFrom first position parent t).length = t.size
  | .node item children, first, position, parent => by
    simp [placeFrom,size,length_placeAllFrom children]
@[simp] theorem length_placeAllFrom : (ts : List Tree) → ∀ first position parent, (placeAllFrom first position parent ts).length = sizeAll ts
  | [], _, _, _ => rfl
  | t :: ts, first, position, parent => by
    simp [placeAllFrom,sizeAll,length_placeFrom t,length_placeAllFrom ts]
end

@[simp] theorem length_placed (t : Tree) : t.placed.length = t.size := length_placeFrom t 0 0 none

@[simp] theorem length_rootsFrom (ts : List Tree) (first : Nat) : (rootsFrom first ts).length = ts.length := by
  induction ts generalizing first with
  | nil => rfl
  | cons t ts ih => simp [rootsFrom,ih]

-- Induction on the tree, with whatever stands before it and after it.
mutual
theorem laid_placeFrom : (t : Tree) → ∀ before after position parent,
    Laid (before ++ placeFrom before.length position parent t ++ after) (before.length + t.size - 1) position parent t
  | .node item children, before, after, position, parent => by
    have last : before.length + (node item children).size - 1 = before.length + sizeAll children := by simp [size]
    rw [last,placeFrom]
    refine .node ?_ (length_rootsFrom children before.length) ?_
    · simp [length_placeAllFrom children]
    · have each := laid_placeAllFrom children before
        ([⟨item,position,parent,rootsFrom before.length children⟩] ++ after) item.firstPosition (before.length + sizeAll children)
      simpa using each
theorem laid_placeAllFrom : (ts : List Tree) → ∀ before after position parent k j child,
    (rootsFrom before.length ts)[k]? = some j → ts[k]? = some child →
    Laid (before ++ placeAllFrom before.length position parent ts ++ after) j (position + k) (some parent) child
  | [], _, _, _, _, _, _, _, _, absent => by cases absent
  | t :: ts, before, after, position, parent, 0, j, child, here, there => by
    cases here
    cases there
    have laid := laid_placeFrom t before (placeAllFrom (before.length + t.size) (position + 1) parent ts ++ after) position (some parent)
    simpa [placeAllFrom] using laid
  | t :: ts, before, after, position, parent, k + 1, j, child, here, there => by
    have length := length_placeFrom t before.length position (some parent)
    have laid := laid_placeAllFrom ts (before ++ placeFrom before.length position (some parent) t) after (position + 1) parent k j
      child (by simpa [rootsFrom,length] using here) (by simpa using there)
    have place : position + (k + 1) = position + 1 + k := by omega
    simpa [placeAllFrom,length,place] using laid
end

theorem laid_placed (t : Tree) : Laid t.placed (t.placed.length - 1) 0 none t := by
  have laid := laid_placeFrom t [] [] 0 none
  rw [length_placed]
  simpa [placed] using laid

end Recalc.Tree
