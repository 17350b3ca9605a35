import Mathlib.Logic.Relation
import Recalc.Model.Graph

namespace Recalc.Graph
open Relation

def Leads (next : NodeId → List NodeId) (a b : NodeId) : Prop := b ∈ next a

def unspent (g : Graph) (visited : List NodeId) : Nat :=
  (g.edges.filter fun e => e.precedent ∉ visited).length

theorem unspent_cons (g : Graph) (fresh : n ∉ visited) :
    g.unspent visited = (g.dependents n).length + g.unspent (n :: visited) := by
  unfold unspent dependents
  rw [List.length_map]
  induction g.edges with
  | nil => rfl
  | cons e edges ih =>
    obtain ⟨p,d⟩ := e
    simp only [List.mem_cons,not_or,Bool.decide_and,decide_not] at ih ⊢
    by_cases same : p = n
    · subst p
      simp [fresh]
      omega
    · by_cases old : p ∈ visited
      · simpa [same,old] using ih
      · simp [same,old]
        omega

@[simp] theorem unspent_nil (g : Graph) : g.unspent [] = g.edges.length := by simp [unspent]

theorem visit_sound (reached : n ∈ visit next steps visited pending) :
    n ∈ visited ∨ ∃ p ∈ pending, ReflTransGen (Leads next) p n := by
  induction steps generalizing visited pending with
  | zero =>
    cases pending <;> exact .inl (by simpa [visit] using reached)
  | succ steps ih =>
    cases pending with
    | nil => exact .inl (by simpa [visit] using reached)
    | cons p pending =>
      simp only [visit] at reached
      split at reached
      · rcases ih reached with old | ⟨q,listed,path⟩
        · exact .inl old
        · exact .inr ⟨q,List.mem_cons_of_mem _ listed,path⟩
      · rcases ih reached with old | ⟨q,listed,path⟩
        · rcases List.mem_cons.mp old with rfl | old
          · exact .inr ⟨n,by simp,.refl⟩
          · exact .inl old
        · rcases List.mem_append.mp listed with successor | listed
          · exact .inr ⟨p,by simp,.head successor path⟩
          · exact .inr ⟨q,List.mem_cons_of_mem _ listed,path⟩

-- The steps cover the list and all that unvisited nodes can add to it. What is visited has
-- its successors visited or listed, so at the end nothing leads out.
theorem visit_closed (g : Graph) (bounded : ∀ n, (next n).length ≤ (g.dependents n).length)
    (enough : pending.length + g.unspent visited ≤ steps)
    (known : ∀ a ∈ visited, ∀ b ∈ next a, b ∈ visited ∨ b ∈ pending) :
    (∀ a ∈ visited, a ∈ visit next steps visited pending) ∧
      (∀ a ∈ pending, a ∈ visit next steps visited pending) ∧
      ∀ a ∈ visit next steps visited pending, ∀ b ∈ next a, b ∈ visit next steps visited pending := by
  induction steps generalizing visited pending with
  | zero =>
    have none : pending = [] := List.length_eq_zero_iff.mp (by omega)
    subst none
    simp only [visit]
    exact ⟨fun _ h => h,by simp,fun a old b successor => (known a old b successor).elim id (by simp)⟩
  | succ steps ih =>
    cases pending with
    | nil =>
      simp only [visit]
      exact ⟨fun _ h => h,by simp,fun a old b successor => (known a old b successor).elim id (by simp)⟩
    | cons p pending =>
      simp only [visit]
      split
      · rename_i old
        have known' : ∀ a ∈ visited, ∀ b ∈ next a, b ∈ visited ∨ b ∈ pending := by
          intro a seen b successor
          rcases known a seen b successor with h | h
          · exact .inl h
          · rcases List.mem_cons.mp h with rfl | h
            · exact .inl old
            · exact .inr h
        obtain ⟨keeps,lists,closed⟩ := ih (by simp only [List.length_cons] at enough; omega) known'
        refine ⟨keeps,?_,closed⟩
        intro a listed
        rcases List.mem_cons.mp listed with rfl | listed
        · exact keeps _ old
        · exact lists a listed
      · rename_i fresh
        have spent := g.unspent_cons fresh
        have few := bounded p
        have known' : ∀ a ∈ p :: visited, ∀ b ∈ next a, b ∈ p :: visited ∨ b ∈ next p ++ pending := by
          intro a seen b successor
          rcases List.mem_cons.mp seen with rfl | seen
          · exact .inr (List.mem_append_left _ successor)
          · rcases known a seen b successor with h | h
            · exact .inl (List.mem_cons_of_mem _ h)
            · rcases List.mem_cons.mp h with rfl | h
              · exact .inl (by simp)
              · exact .inr (List.mem_append_right _ h)
        obtain ⟨keeps,lists,closed⟩ := ih
          (by simp only [List.length_cons,List.length_append] at enough ⊢; omega) known'
        refine ⟨fun a seen => keeps a (List.mem_cons_of_mem _ seen),?_,closed⟩
        intro a listed
        rcases List.mem_cons.mp listed with rfl | listed
        · exact keeps _ (by simp)
        · exact lists a (List.mem_append_right _ listed)

theorem mem_closure (g : Graph) (bounded : ∀ n, (next n).length ≤ (g.dependents n).length) :
    n ∈ g.closure next start ↔ ∃ s ∈ start, ReflTransGen (Leads next) s n := by
  constructor
  · intro reached
    rcases visit_sound reached with h | h
    · simp at h
    · exact h
  · rintro ⟨s,started,path⟩
    have enough : start.length + g.unspent [] ≤ start.length + g.edges.length := by simp
    obtain ⟨-,lists,closed⟩ := visit_closed g bounded enough (by simp)
    induction path with
    | refl => exact lists s started
    | tail _ step ih => exact closed _ ih _ step

@[simp] theorem mem_dependents (g : Graph) : b ∈ g.dependents a ↔ (⟨a,b⟩ : Edge) ∈ g.edges := by
  simp only [dependents,List.mem_map,List.mem_filter,beq_iff_eq]
  constructor
  · rintro ⟨⟨p,d⟩,⟨member,rfl⟩,rfl⟩
    exact member
  · intro member
    exact ⟨_,⟨member,rfl⟩,rfl⟩

@[simp] theorem mem_add (g : Graph) : e ∈ (g.add a b).edges ↔ e = ⟨a,b⟩ ∨ e ∈ g.edges := by
  unfold add
  dsimp only
  split
  · rename_i present
    constructor
    · exact .inr
    · rintro (rfl | h)
      · exact present
      · exact h
  · exact List.mem_cons

end Recalc.Graph
