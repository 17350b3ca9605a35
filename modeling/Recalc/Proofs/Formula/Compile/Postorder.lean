import Recalc.Proofs.Formula.Compile.Generation

namespace Recalc

open Recalc.Tree Guarded

namespace Tree
variable {stack after : List Tree} {item : Item} {items : List Item} {t : Tree}

inductive Complete : Tree → Prop where
  | node {item : Item} {children : List Tree} (fits : children.length = item.operands) (each : ∀ t ∈ children, Complete t) :
    Complete (.node item children)

theorem push_complete (pushed : push stack item = .ok after) (complete : ∀ t ∈ stack, t.Complete) : ∀ t ∈ after, t.Complete := by
  obtain ⟨enough,rfl⟩ := push_ok.mp pushed
  intro t member
  rcases List.mem_cons.mp member with rfl | member
  · refine .node (by simp [enough]) fun u listed => complete u ?_
    exact List.mem_of_mem_take (List.mem_reverse.mp listed)
  · exact complete t (List.mem_of_mem_drop member)

theorem pushes_complete (pushed : items.foldlM push stack = .ok after) (complete : ∀ t ∈ stack, t.Complete) : ∀ t ∈ after, t.Complete := by
  induction items generalizing stack with
  | nil =>
    cases pushed
    exact complete
  | cons item items ih =>
    obtain ⟨mid,first,rest⟩ := bind_ok.mp pushed
    exact ih rest (push_complete first complete)

theorem ofItems_complete (made : ofItems items = .ok t) : t.Complete :=
  pushes_complete (ofItems_ok.mp made) (by simp) t (by simp)

mutual
theorem placeFrom_items : (t : Tree) → ∀ first position parent, (placeFrom first position parent t).map Placed.item = t.items
  | .node item children, first, position, parent => by
    simp [placeFrom,Tree.items,placeAllFrom_items children]
theorem placeAllFrom_items : (ts : List Tree) → ∀ first position parent, (placeAllFrom first position parent ts).map Placed.item = itemsAll ts
  | [], _, _, _ => rfl
  | t :: ts, first, position, parent => by
    simp [placeAllFrom,itemsAll,placeFrom_items t,placeAllFrom_items ts]
end

theorem size_pos (t : Tree) : 0 < t.size := by
  cases t
  exact Nat.succ_pos _

theorem rootsFrom_lt (ts : List Tree) (first : Nat) (listed : c ∈ rootsFrom first ts) : c < first + sizeAll ts := by
  induction ts generalizing first with
  | nil => cases listed
  | cons t ts ih =>
    have some := t.size_pos
    rcases List.mem_cons.mp listed with rfl | listed
    · simp only [sizeAll]
      omega
    · have inside := ih (first + t.size) listed
      simp only [sizeAll]
      omega

mutual
theorem placeFrom_ahead : (t : Tree) → ∀ first position parent k n, (placeFrom first position parent t)[k]? = some n →
    ∀ c ∈ n.children, c < first + k
  | .node item children, first, position, parent, k, n, there, c, listed => by
    have length := length_placeAllFrom children first item.firstPosition (first + sizeAll children)
    rw [placeFrom,List.getElem?_append,length] at there
    split at there
    · exact placeAllFrom_ahead children first _ _ k n there c listed
    · have last := List.mem_of_getElem? there
      rw [List.mem_singleton.mp last] at listed
      have inside := rootsFrom_lt children first listed
      omega
theorem placeAllFrom_ahead : (ts : List Tree) → ∀ first position parent k n, (placeAllFrom first position parent ts)[k]? = some n →
    ∀ c ∈ n.children, c < first + k
  | [], _, _, _, _, _, there, _, _ => by cases there
  | t :: ts, first, position, parent, k, n, there, c, listed => by
    rw [placeAllFrom,List.getElem?_append,length_placeFrom t] at there
    split at there
    · exact placeFrom_ahead t first _ _ k n there c listed
    · have inside := placeAllFrom_ahead ts (first + t.size) _ _ _ n there c listed
      omega
end

theorem Laid.children {nodes : List Placed} (laid : Laid nodes index place parent t) : ∃ n : Placed, nodes[index]? = some n ∧
    ∀ c ∈ n.children, ∃ u ∈ t.children, ∃ place parent, Laid nodes c place parent u := by
  cases laid with
  | node there size each =>
    refine ⟨_,there,fun c listed => ?_⟩
    obtain ⟨k,inside,rfl⟩ := List.mem_iff_getElem.mp listed
    have child := List.getElem?_eq_getElem (size ▸ inside)
    exact ⟨_,List.getElem_mem _,_,_,each k _ _ (List.getElem?_eq_getElem inside) child⟩

theorem Laid.named {nodes : List Placed} (laid : Laid nodes index place parent t) (complete : t.Complete) :
    ∃ indices, nodes[index]? = some ⟨t.item,place,parent,indices⟩ ∧ indices.length = t.item.operands ∧
      ∀ (k : Nat) i, indices[k]? = some i → ∃ child : Placed, nodes[i]? = some child ∧
        child.position = t.item.firstPosition + k ∧ child.parent = some index := by
  cases laid with
  | @node _ _ _ _ item children there size each => cases complete with
    | node fits _ =>
      refine ⟨_,there,size.trans fits,fun k i listed => ?_⟩
      have inside := (List.getElem?_eq_some_iff.mp listed).1
      obtain ⟨u,child⟩ : ∃ u, Laid nodes i (item.firstPosition + k) (some index) u :=
        ⟨_,each k i _ listed (List.getElem?_eq_getElem (size ▸ inside))⟩
      cases child with
      | node here _ _ => exact ⟨_,here,rfl,rfl⟩

theorem Complete.child (complete : t.Complete) (member : u ∈ t.children) : u.Complete := by
  cases complete with
  | node fits each => exact each u member

end Tree

namespace Guarded
variable {α β : Type} {x : Guarded α}

def Finishes (x : Guarded α) : Prop := x ≠ fault .endless

theorem Finishes.answer (r : Except FormulaError α) : Finishes (ofFormula r) := by
  intro endless
  cases endless

theorem Finishes.done (a : α) : Finishes (pure a : Guarded α) := .answer (.ok a)

theorem Finishes.bind {k : α → Guarded β} (first : Finishes x) (rest : ∀ a, Finishes (k a)) : Finishes (x >>= k) := by
  rcases x with f | e | a
  · intro endless
    cases endless
    exact first rfl
  · exact .answer (.error e)
  · exact rest a

theorem Finishes.composes : Composes fun α (x : Guarded α) => Finishes x := ⟨done,bind⟩

theorem Finishes.mapM {ι : Type} {f : ι → Guarded α} {is : List ι} (each : ∀ i ∈ is, Finishes (f i)) : Finishes (is.mapM f) :=
  composes.mapM each

theorem Finishes.fault {f : Fault} (other : f ≠ .endless) : Finishes (fault f : Guarded α) := by
  intro endless
  cases endless
  exact other rfl

theorem Finishes.guarded {f : Fault} {p : Prop} [Decidable p] (a : α) (other : f ≠ .endless) :
    Finishes (if p then pure a else Guarded.fault f) := by
  by_cases holds : p
  · rw [if_pos holds]
    exact .done a
  · rw [if_neg holds]
    exact .fault other

theorem element_finishes (list : List α) (index : Nat) : Finishes (element list index) := by
  unfold element
  split
  · exact .done _
  · exact .fault (by simp)

theorem minus_finishes (a b : Nat) : Finishes (minus a b) := .guarded (a - b) (by decide)

theorem plus_finishes (a b : Nat) : Finishes (plus a b) := .guarded (a + b) (by decide)

end Guarded

theorem Lexeme.cutFunctionMarker_finishes (name : String) : Finishes (cutFunctionMarker name) := by
  unfold cutFunctionMarker
  dsimp only
  split
  · split
    · exact .done _
    · exact .fault (by simp)
  · exact .done _

namespace Site

theorem walk_finishes (inside : Nat → Bool) (test : Nat → Except FormulaError Bool) {move : Nat → Guarded Nat} (moves : ∀ i, Finishes (move i))
    (steps i : Nat) : Finishes (walk inside test move steps i) := by
  induction steps generalizing i with
  | zero => exact .done i
  | succ steps ih =>
    unfold walk
    split
    · refine (Finishes.answer (test i)).bind fun same => ?_
      split
      · exact (moves i).bind ih
      · exact .done i
    · exact .done i

theorem span_finishes (test : Nat → Except FormulaError Bool) (most here : Nat) : Finishes (span test most here) := by
  refine (minus_finishes here 1).bind fun first => (walk_finishes _ test (fun i => minus_finishes i 1) first first).bind fun first => ?_
  refine (plus_finishes here 1).bind fun last => (walk_finishes _ test (fun i => plus_finishes i 1) _ last).bind fun last => ?_
  exact (minus_finishes last first).bind fun width => (minus_finishes width 1).bind fun width => (minus_finishes here first).bind fun place => .done _

theorem shape_finishes (site : Site) : Finishes site.shape := by
  unfold shape
  split
  · exact .done _
  · refine (Finishes.answer _).bind fun own => ?_
    split
    · exact .done _
    · refine (span_finishes _ _ _).bind fun along => ?_
      dsimp only
      split
      · exact (span_finishes _ _ _).bind fun found => (minus_finishes _ 1).bind fun place => .done _
      · exact (minus_finishes _ 1).bind fun place => .done _

end Site

namespace Arena
variable {nodes : List Placed} {items : List Item} {arena : Arena}

-- What is met on a way from the element down to its operands and theirs, in their order: each element after those
-- below it. Elements deeper than `depth` are not met.
def walk (nodes : List Placed) : Nat → Nat → List Nat
  | 0, _ => []
  | depth + 1, index => match nodes[index]? with
    | some n => n.children.flatMap (walk nodes depth) ++ [index]
    | none => []

theorem walk_some {n : Placed} (there : nodes[index]? = some n) (depth : Nat) :
    walk nodes (depth + 1) index = n.children.flatMap (walk nodes depth) ++ [index] := by
  rw [walk,there]

-- The elements of a tree stand in the order in which they are met. Induction as in `laid_placeFrom`.
mutual
theorem walk_placeFrom : (t : Tree) → ∀ before after position parent depth, t.size ≤ depth →
    walk (before ++ placeFrom before.length position parent t ++ after) depth (before.length + t.size - 1) = List.range' before.length t.size
  | .node item children, before, after, position, parent, 0, deep => by simp [size] at deep
  | .node item children, before, after, position, parent, depth + 1, deep => by
    have last : before.length + (node item children).size - 1 = before.length + sizeAll children := by simp [size]
    have there : (before ++ placeFrom before.length position parent (node item children) ++ after)[before.length + sizeAll children]? =
        some ⟨item,position,parent,rootsFrom before.length children⟩ := by
      simp [placeFrom,length_placeAllFrom children]
    have below := walk_placeAllFrom children before ([⟨item,position,parent,rootsFrom before.length children⟩] ++ after)
      item.firstPosition (before.length + sizeAll children) depth (by simpa [size] using deep)
    rw [last,walk_some there,size,List.range'_concat]
    simpa [placeFrom] using below
theorem walk_placeAllFrom : (ts : List Tree) → ∀ before after position parent depth, sizeAll ts ≤ depth →
    (rootsFrom before.length ts).flatMap (walk (before ++ placeAllFrom before.length position parent ts ++ after) depth) =
      List.range' before.length (sizeAll ts)
  | [], _, _, _, _, _, _ => rfl
  | t :: ts, before, after, position, parent, depth, deep => by
    have deep : t.size + sizeAll ts ≤ depth := deep
    have length := length_placeFrom t before.length position (some parent)
    have first := walk_placeFrom t before (placeAllFrom (before.length + t.size) (position + 1) parent ts ++ after) position (some parent)
      depth (by omega)
    have rest := walk_placeAllFrom ts (before ++ placeFrom before.length position (some parent) t) after (position + 1) parent depth (by omega)
    rw [rootsFrom,List.flatMap_cons,sizeAll,← List.range'_append_1]
    simp only [List.length_append,length] at rest
    simp only [placeAllFrom,List.append_assoc] at first rest ⊢
    rw [first,rest]
end

theorem walk_laid (laid : Laid nodes index place parent t) (complete : t.Complete) (met : i ∈ walk nodes depth index) :
    ∃ place parent u, Laid nodes i place parent u ∧ u.Complete := by
  induction depth generalizing index place parent t with
  | zero => cases met
  | succ depth ih =>
    obtain ⟨n,there,below⟩ := laid.children
    rw [walk_some there] at met
    rcases List.mem_append.mp met with met | met
    · obtain ⟨c,listed,met⟩ := List.mem_flatMap.mp met
      obtain ⟨u,member,_,_,inner⟩ := below c listed
      exact ih inner (complete.child member) met
    · rw [List.mem_singleton.mp met]
      exact ⟨_,_,_,laid,complete⟩

theorem walk_below (met : i ∈ walk nodes depth index) : i = index ∨ ∃ (p : Nat) (above : Placed), nodes[p]? = some above ∧ i ∈ above.children := by
  induction depth generalizing index with
  | zero => cases met
  | succ depth ih =>
    unfold walk at met
    split at met
    · rename_i n there
      rcases List.mem_append.mp met with met | met
      · obtain ⟨c,listed,met⟩ := List.mem_flatMap.mp met
        rcases ih met with rfl | below
        · exact .inr ⟨index,n,there,listed⟩
        · exact .inr below
      · exact .inl (List.mem_singleton.mp met)
    · cases met

theorem call_finishes (site : Site) (name : String) (arity : Nat) {arguments : Guarded (List Expr)} {rows : Guarded (List (List Expr))}
    {placed : Guarded Expr} (args : Finishes arguments) (each : Finishes rows) (place : Finishes placed) :
    Finishes (call site name arity arguments rows placed) := by
  rw [call_form]
  cases Expr.Form.choose name arity with
  | refused e => exact .answer _
  | made make => exact args.bind fun es => .answer _
  | array => exact each.bind fun rs => .done _
  | position => exact place
  | fit => exact args.bind fun es => site.shape_finishes.bind fun found => .done _

theorem generate_finishes (site : Site) (laid : Laid nodes index place parent t) (deep : t.size ≤ depth) : Finishes (generate site nodes depth index) := by
  induction depth generalizing index place parent t with
  | zero => exact absurd t.size_pos (by omega)
  | succ depth ih =>
    have further {j place : Nat} {parent : Option Nat} {u v : Tree} (deep : u.size ≤ depth + 1) (member : v ∈ u.children)
        (laid : Laid nodes j place parent v) : Finishes (generate site nodes depth j) :=
      ih laid (Nat.le_of_lt_succ (Nat.lt_of_lt_of_le (size_child member) deep))
    obtain ⟨n,there,below⟩ := laid.children
    have args : Finishes (n.children.mapM (generate site nodes depth)) := .mapM fun c listed => by
      obtain ⟨u,member,_,_,inner⟩ := below c listed
      exact further deep member inner
    have rows : Finishes (n.children.mapM (row nodes (generate site nodes depth))) := .mapM fun c listed => by
      obtain ⟨u,member,_,_,inner⟩ := below c listed
      obtain ⟨m,here,lower⟩ := inner.children
      rw [row,element_some here,pure_bind]
      split
      · refine .mapM fun g given => ?_
        obtain ⟨v,grand,_,_,innermost⟩ := lower g given
        exact further (Nat.le_of_lt (Nat.lt_of_lt_of_le (size_child member) deep)) grand innermost
      · exact (further deep member inner).bind fun e => .done _
    have placed (name : String) : Finishes (position site name nodes n.children) := by
      unfold position
      split
      · exact .answer _
      · exact (element_finishes nodes _).bind fun m => .answer _
      · exact .answer (.error _)
    rw [generate,element_some there,pure_bind]
    dsimp only
    split
    · exact .answer _
    · exact .answer _
    · exact args.bind fun es => .answer _
    · exact .answer (.error _)
    · exact (Lexeme.cutFunctionMarker_finishes _).bind fun name => call_finishes site _ _ args rows (placed _)

-- The elements form one tree, each after those below it, and the last one is its root.
structure Postorder (items : List Item) (arena : Arena) : Prop where
  elements : arena.nodes.map Placed.item = items
  last : arena.root + 1 = arena.nodes.length
  top : (arena.nodes[arena.root]?).map Placed.parent = some none
  parents : ∀ i, i < arena.root → ∃ p above, i < p ∧ arena.nodes[p]? = some above ∧ (arena.nodes[i]?).map Placed.parent = some (some p) ∧
    above.children.count i = 1
  only : ∀ (p : Nat) above, arena.nodes[p]? = some above → ∀ i ∈ above.children, (arena.nodes[i]?).map Placed.parent = some (some p)
  positions : ∀ (p k : Nat) above i, arena.nodes[p]? = some above → above.children[k]? = some i →
    (arena.nodes[i]?).map Placed.position = some (above.item.firstPosition + k)
  counts : ∀ (p : Nat) above, arena.nodes[p]? = some above → above.children.length = above.item.operands
  order : ∀ depth, arena.nodes.length ≤ depth → walk arena.nodes depth arena.root = List.range arena.nodes.length
  ends : ∀ site depth, arena.nodes.length ≤ depth → generate site arena.nodes depth arena.root ≠ fault .endless

theorem build_placed_ok (made : build items = pure arena) : ∃ t, Tree.ofItems items = .ok t ∧ arena = ⟨t.placed,t.size - 1⟩ := by
  rw [build_placed] at made
  cases tree : Tree.ofItems items with
  | error e =>
    rw [tree] at made
    cases made
  | ok t =>
    rw [tree] at made
    cases made
    exact ⟨t,rfl,rfl⟩

-- However the elements are put together: where they make an arena, it holds them as one tree in reverse Polish order.
theorem build_postorder (made : build items = pure arena) : arena.Postorder items := by
  obtain ⟨t,tree,rfl⟩ := build_placed_ok made
  have length := length_placed t
  have given := t.size_pos
  have laid := laid_placed t
  rw [length] at laid
  have order (depth : Nat) (deep : t.placed.length ≤ depth) : walk t.placed depth (t.size - 1) = List.range t.placed.length := by
    have met := walk_placeFrom t [] [] 0 none depth (length ▸ deep)
    simpa [Tree.placed,List.range_eq_range'] using met
  have met {i : Nat} (inside : i < t.placed.length) : i ∈ walk t.placed t.placed.length (t.size - 1) := by
    rw [order _ (Nat.le_refl _)]
    exact List.mem_range.mpr inside
  have every {p : Nat} {above : Placed} (there : t.placed[p]? = some above) : above.children.length = above.item.operands ∧
      ∀ (k : Nat) i, above.children[k]? = some i → ∃ child, t.placed[i]? = some child ∧
        child.position = above.item.firstPosition + k ∧ child.parent = some p := by
    obtain ⟨place,parent,u,here,complete⟩ := walk_laid laid (ofItems_complete tree) (met (List.getElem?_eq_some_iff.mp there).1)
    obtain ⟨indices,known,fits,each⟩ := here.named complete
    cases there.symm.trans known
    exact ⟨fits,each⟩
  have once {p : Nat} {above : Placed} (there : t.placed[p]? = some above) : above.children.Nodup := by
    refine List.nodup_iff_getElem?_ne_getElem?.mpr fun k l less inside same => ?_
    have listed := List.getElem?_eq_getElem inside
    obtain ⟨child,here,position,-⟩ := (every there).2 k _ (same.trans listed)
    obtain ⟨child',here',position',-⟩ := (every there).2 l _ listed
    cases here.symm.trans here'
    omega
  refine ⟨?_,?_,?_,?_,?_,?_,?_,order,?_⟩
  · rw [Tree.placed,placeFrom_items,ofItems_flat tree]
  · rw [length]
    exact Nat.sub_add_cancel given
  · obtain ⟨indices,here,-⟩ := laid.named (ofItems_complete tree)
    rw [here]
    rfl
  · intro i below
    have below : i < t.size - 1 := below
    rcases walk_below (met (i := i) (by omega)) with root | ⟨p,above,there,listed⟩
    · omega
    · obtain ⟨k,inside⟩ := List.getElem?_of_mem listed
      obtain ⟨child,here,-,parent⟩ := (every there).2 k i inside
      have ahead := placeFrom_ahead t 0 0 none p above there i listed
      exact ⟨p,above,by omega,there,by rw [here,Option.map_some,parent],List.count_eq_one_of_mem (once there) listed⟩
  · intro p above there i listed
    obtain ⟨k,inside⟩ := List.getElem?_of_mem listed
    obtain ⟨child,here,-,parent⟩ := (every there).2 k i inside
    rw [here,Option.map_some,parent]
  · intro p k above i there inside
    obtain ⟨child,here,position,-⟩ := (every there).2 k i inside
    rw [here,Option.map_some,position]
  · exact fun p above there => (every there).1
  · exact fun site depth deep => generate_finishes site laid (length ▸ deep)

theorem build_postorder_mixed : ∃ items arena, items = [Item.ofToken (.operand "1" .number),.ofToken (.operand "2" .number),
      .ofToken (.between "+"),.ofToken .percent,.ofToken .minus,.ofToken (.operand "A1:B2" .range),.ofToken (.operand "3" .number),
      .ofToken .minus,⟨⟨.function,.none,"F"⟩,2⟩,.ofToken (.between "*")] ∧ build items = pure arena ∧ arena.Postorder items :=
  ⟨_,_,rfl,rfl,build_postorder rfl⟩

end Arena
end Recalc
