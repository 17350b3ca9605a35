import Recalc.Proofs.Model.Graph.Reach

namespace Recalc.Graph
open Relation
variable {g : Graph} {next : NodeId → List NodeId} {root n : NodeId} {path finished visited visited' : List NodeId}
  {stack : List (NodeId × Bool)}

def Circular (next : NodeId → List NodeId) (n : NodeId) : Prop :=
  ∃ y, ReflTransGen (Leads next) n y ∧ TransGen (Leads next) y y

def Ends (next : NodeId → List NodeId) (n : NodeId) : Prop := Acc (fun b a => Leads next a b) n

theorem Ends.along (ends : Ends next n) (way : ReflTransGen (Leads next) n y) : Ends next y := by
  induction way with
  | refl => exact ends
  | tail _ step ends => exact ends.inv step

theorem Ends.not_circular (ends : Ends next n) : ¬ Circular next n := by
  rintro ⟨y,way,circle⟩
  have there := ends.along way
  -- a node that comes back to itself passes through one that comes back to itself
  suffices none : ∀ a, Ends next a → ¬ TransGen (Leads next) a a from none y there circle
  intro a ends
  induction ends with
  | intro a _ ih =>
    intro circle
    obtain ⟨b,step,back⟩ := TransGen.head'_iff.mp circle
    exact ih b step (TransGen.tail' back step)

def marks (stack : List (NodeId × Bool)) : List NodeId := (stack.filter Prod.snd).map Prod.fst

theorem mem_marks : n ∈ marks stack ↔ (n,true) ∈ stack := by
  simp [marks]

-- Each marked node leads to nothing but what is known or stands above it on the stack.
def Entered (next : NodeId → List NodeId) : (NodeId → Prop) → List (NodeId × Bool) → Prop
  | _, [] => True
  | known, (n,marked) :: stack => (marked = true → ∀ p ∈ next n, known p) ∧ Entered next (fun p => p = n ∨ known p) stack

theorem Entered.mono (entered : Entered next known stack) (more : ∀ p, known p → known' p) : Entered next known' stack := by
  induction stack generalizing known known' with
  | nil => trivial
  | cons a stack ih =>
    exact ⟨fun marked p successor => more p (entered.1 marked p successor),ih entered.2 fun p => Or.imp_right (more p)⟩

theorem Entered.push {known : NodeId → Prop} (nodes : List NodeId) (entered : Entered next (fun p => p ∈ nodes ∨ known p) stack) :
    Entered next known (nodes.map (fun p => (p,false)) ++ stack) := by
  induction nodes generalizing known with
  | nil => simpa using entered
  | cons n nodes ih =>
    refine ⟨by simp,ih (entered.mono fun p => ?_)⟩
    rw [List.mem_cons]
    rintro ((rfl | listed) | known)
    · exact .inr (.inl rfl)
    · exact .inl listed
    · exact .inr (.inr known)

structure Searches (next : NodeId → List NodeId) (root : NodeId) (finished : List NodeId) (stack : List (NodeId × Bool)) : Prop where
  apart : stack.Pairwise fun a b => b.2 = true → a.1 ≠ b.1 ∧ TransGen (Leads next) b.1 a.1
  reached : ∀ a ∈ stack, ReflTransGen (Leads next) root a.1
  ended : ∀ n ∈ finished, Ends next n
  entered : Entered next (· ∈ finished) stack
  root : root ∈ finished ∨ root ∈ stack.map Prod.fst

theorem searches_start (next : NodeId → List NodeId) (root : NodeId) : Searches next root [] [(root,false)] :=
  ⟨by simp,by simpa using ReflTransGen.refl,by simp,⟨by simp,trivial⟩,by simp⟩

namespace Searches
variable {marked : Bool} {nodes : List NodeId} (searches : Searches next root finished ((n,marked) :: stack))
include searches

theorem unmarked : n ∉ marks stack := by
  intro member
  exact ((List.pairwise_cons.mp searches.apart).1 _ (mem_marks.mp member) rfl).1 rfl

theorem drop (among : n ∈ finished) : Searches next root finished stack := by
  refine ⟨searches.apart.of_cons,fun a listed => searches.reached a (List.mem_cons_of_mem _ listed),searches.ended,?_,?_⟩
  · refine searches.entered.2.mono ?_
    rintro p (rfl | known)
    · exact among
    · exact known
  · rcases searches.root with done | listed
    · exact .inl done
    · rw [List.map_cons] at listed
      rcases List.mem_cons.mp listed with same | listed
      · exact .inl ((same : root = n) ▸ among)
      · exact .inr listed

theorem finish (mark : marked = true) : Searches next root (n :: finished) stack := by
  have ends : Ends next n := ⟨n,fun p successor => searches.ended p (searches.entered.1 mark p successor)⟩
  have done : Searches next root (n :: finished) ((n,marked) :: stack) := by
    refine ⟨searches.apart,searches.reached,List.forall_mem_cons.mpr ⟨ends,searches.ended⟩,?_,?_⟩
    · exact searches.entered.mono fun p => List.mem_cons_of_mem n
    · exact searches.root.imp_left (List.mem_cons_of_mem n)
  exact done.drop List.mem_cons_self

theorem circular (meets : p ∈ next n) (onPath : p ∈ n :: marks stack) : Circular next root := by
  refine ⟨n,searches.reached _ List.mem_cons_self,?_⟩
  rcases List.mem_cons.mp onPath with rfl | member
  · exact .single meets
  · exact .head meets ((List.pairwise_cons.mp searches.apart).1 _ (mem_marks.mp member) rfl).2

theorem enter (order : nodes.Perm (next n)) (clear : ∀ p ∈ next n, p ∉ n :: marks stack) : Searches next root finished
    ((nodes.filter (· ∉ finished)).map (fun p => (p,false)) ++ (n,true) :: stack) := by
  obtain ⟨first,rest⟩ := List.pairwise_cons.mp searches.apart
  have fresh {a : NodeId × Bool} (listed : a ∈ (nodes.filter (· ∉ finished)).map fun p => (p,false)) :
      a.1 ∈ next n ∧ a.2 = false := by
    obtain ⟨p,member,rfl⟩ := List.mem_map.mp listed
    exact ⟨order.mem_iff.mp (List.mem_filter.mp member).1,rfl⟩
  refine ⟨?_,?_,searches.ended,?_,?_⟩
  · rw [List.pairwise_append]
    refine ⟨List.pairwise_map.mpr (List.pairwise_of_forall fun _ _ marked => by cases marked),List.pairwise_cons.mpr ⟨first,rest⟩,?_⟩
    · rintro a listed ⟨m,_⟩ below rfl
      rcases List.mem_cons.mp below with same | below
      · cases same
        exact ⟨fun same => clear a.1 (fresh listed).1 (same ▸ List.mem_cons_self),.single (fresh listed).1⟩
      · refine ⟨fun same => clear a.1 (fresh listed).1 ?_,(first _ below rfl).2.tail (fresh listed).1⟩
        exact same ▸ List.mem_cons_of_mem n (mem_marks.mpr below)
  · intro a listed
    rcases List.mem_append.mp listed with new | old
    · exact (searches.reached _ List.mem_cons_self).tail (fresh new).1
    · rcases List.mem_cons.mp old with rfl | old
      · exact searches.reached (n,marked) List.mem_cons_self
      · exact searches.reached a (List.mem_cons_of_mem _ old)
  · refine .push _ ⟨fun _ p successor => ?_,searches.entered.2.mono fun p => Or.imp_right .inr⟩
    by_cases done : p ∈ finished
    · exact .inr done
    · exact .inl (List.mem_filter.mpr ⟨order.mem_iff.mpr successor,by simpa using done⟩)
  · rcases searches.root with done | listed
    · exact .inl done
    · rw [List.map_append]
      exact .inr (List.mem_append_right _ listed)

end Searches

-- What a search has before it: a node is taken off the stack twice, and adds what it leads
-- to only once.
def pending (g : Graph) (finished : List NodeId) (stack : List (NodeId × Bool)) : Nat :=
  stack.length + (stack.filter fun a => !a.2).length + 2 * g.unspent (marks stack ++ finished)

theorem marks_push (nodes : List NodeId) : marks (nodes.map (fun p => (p,false)) ++ stack) = marks stack := by
  simp [marks,List.filter_map,Function.comp_def]

theorem pending_drop (g : Graph) (finished : List NodeId) (n : NodeId) (stack : List (NodeId × Bool)) :
    g.pending finished ((n,false) :: stack) = g.pending finished stack + 2 := by
  have marked : marks ((n,false) :: stack) = marks stack := rfl
  simp only [pending,marked,List.length_cons,List.filter_cons,Bool.not_false,if_true]
  omega

theorem pending_finish (g : Graph) (finished : List NodeId) (n : NodeId) (stack : List (NodeId × Bool)) :
    g.pending finished ((n,true) :: stack) = g.pending (n :: finished) stack + 1 := by
  have same : g.unspent (marks ((n,true) :: stack) ++ finished) = g.unspent (marks stack ++ n :: finished) := by
    have marked : marks ((n,true) :: stack) = n :: marks stack := rfl
    simp only [unspent,marked,List.mem_append,List.mem_cons,or_left_comm,List.cons_append]
  simp only [pending,same,List.length_cons,List.filter_cons,Bool.not_true,Bool.false_eq_true,if_false]
  omega

theorem pending_enter (g : Graph) {nodes : List NodeId} (bounded : nodes.length ≤ (g.dependents n).length)
    (fresh : n ∉ marks stack ++ finished) :
    g.pending finished ((nodes.filter (· ∉ finished)).map (fun p => (p,false)) ++ (n,true) :: stack) + 1 ≤
      g.pending finished ((n,false) :: stack) := by
  have marked : marks ((n,true) :: stack) = n :: marks stack := rfl
  have spent := g.unspent_cons fresh
  have few := List.length_filter_le (· ∉ finished) nodes
  have unmarked (nodes : List NodeId) : ((nodes.map fun p => (p,false)).filter fun a => !a.2) = nodes.map fun p => (p,false) :=
    List.filter_eq_self.mpr (by simp)
  rw [pending_drop]
  simp only [pending,marks_push,marked,unmarked,List.filter_append,List.length_append,List.length_map,List.length_cons,List.filter_cons,
    Bool.not_true,Bool.false_eq_true,if_false,List.cons_append]
  omega

theorem walk_spec (g : Graph) (bounded : ∀ n, (next n).length ≤ (g.dependents n).length)
    (searches : Searches next root finished stack) (enough : g.pending finished stack ≤ steps) :
    (walk next steps (marks stack) finished stack = true → Circular next root) ∧
      (walk next steps (marks stack) finished stack = false → Ends next root) := by
  induction steps generalizing finished stack with
  | zero =>
    cases stack with
    | nil => exact ⟨by simp [walk],fun _ => searches.ended root (searches.root.resolve_right (by simp))⟩
    | cons a stack =>
      obtain ⟨n,_ | _⟩ := a <;> simp [pending] at enough
  | succ steps ih =>
    cases stack with
    | nil => exact ⟨by simp [walk],fun _ => searches.ended root (searches.root.resolve_right (by simp))⟩
    | cons a stack =>
      obtain ⟨n,_ | _⟩ := a
      · have path : marks ((n,false) :: stack) = marks stack := rfl
        simp only [walk,path]
        split
        · rename_i done
          have dropped := g.pending_drop finished n stack
          exact ih (searches.drop done) (by omega)
        · rename_i fresh
          split
          · rename_i meets
            refine ⟨fun _ => ?_,by simp⟩
            obtain ⟨p,successor,onPath⟩ := List.any_eq_true.mp meets
            exact searches.circular successor (by simpa using onPath)
          · rename_i clear
            have clear : ∀ p ∈ next n, p ∉ n :: marks stack := by
              intro p successor onPath
              exact clear (List.any_eq_true.mpr ⟨p,successor,by simpa using onPath⟩)
            have entered : marks ((n,true) :: stack) = n :: marks stack := rfl
            have apart : n ∉ marks stack ++ finished := by simp [fresh,searches.unmarked]
            have spent := g.pending_enter (bounded n) apart
            have after := ih (searches.enter (.refl _) clear) (by omega)
            rwa [marks_push,entered] at after
      · have path : marks ((n,true) :: stack) = n :: marks stack := rfl
        have dropped := g.pending_finish finished n stack
        simp only [walk,path,List.erase_cons_head]
        exact ih (searches.finish rfl) (by omega)

def reverse (g : Graph) : Graph := ⟨g.edges.map fun e => ⟨e.dependent,e.precedent⟩⟩

@[simp] theorem dependents_reverse (g : Graph) (n : NodeId) : g.reverse.dependents n = g.precedents n := by
  simp [reverse,dependents,precedents,List.filter_map,Function.comp_def]

@[simp] theorem mem_precedents (g : Graph) : a ∈ g.precedents b ↔ (⟨a,b⟩ : Edge) ∈ g.edges := by
  rw [← dependents_reverse,mem_dependents,reverse,List.mem_map]
  constructor
  · rintro ⟨⟨p,d⟩,member,same⟩
    cases same
    exact member
  · exact fun member => ⟨_,member,rfl⟩

theorem reachesCycle_spec (g : Graph) (n : NodeId) :
    (g.reachesCycle n = true → Circular g.precedents n) ∧ (g.reachesCycle n = false → Ends g.precedents n) := by
  refine walk_spec g.reverse (fun n => by simp) (searches_start g.precedents n) ?_
  simp [pending,marks,reverse]
  omega

end Recalc.Graph
