import Recalc.Proofs.Model.Graph.Cycles

namespace Recalc.Graph
open Relation

def ofPairs (pairs : List (NodeId × NodeId)) : Graph := pairs.foldl (fun g pair => g.add pair.1 pair.2) empty

def Reads (pairs : List (NodeId × NodeId)) (a b : NodeId) : Prop := (b,a) ∈ pairs

variable {pairs : List (NodeId × NodeId)} {next : NodeId → List NodeId} {g : Graph} {root n m : NodeId}

theorem mem_addAll (pairs : List (NodeId × NodeId)) (g : Graph) :
    (⟨n,m⟩ : Edge) ∈ (pairs.foldl (fun g pair => g.add pair.1 pair.2) g).edges ↔ (n,m) ∈ pairs ∨ ⟨n,m⟩ ∈ g.edges := by
  induction pairs generalizing g with
  | nil => simp
  | cons pair pairs ih =>
    obtain ⟨a,b⟩ := pair
    rw [List.foldl_cons,ih,mem_add,List.mem_cons,Edge.mk.injEq,Prod.mk.injEq,or_left_comm,or_assoc]

theorem mem_ofPairs : (⟨n,m⟩ : Edge) ∈ (ofPairs pairs).edges ↔ (n,m) ∈ pairs := by
  simp [ofPairs,mem_addAll,empty]

theorem leads_precedents (pairs : List (NodeId × NodeId)) : Leads (ofPairs pairs).precedents = Reads pairs := by
  funext a b
  exact propext ((mem_precedents _).trans mem_ofPairs)

theorem leads_dependents (pairs : List (NodeId × NodeId)) : Leads (ofPairs pairs).dependents = Function.swap (Reads pairs) := by
  funext a b
  exact propext ((mem_dependents _).trans mem_ofPairs)

theorem mem_downstream (g : Graph) : m ∈ g.downstream [n] ↔ TransGen (Leads g.dependents) n m := by
  rw [downstream,mem_closure g fun _ => Nat.le_refl _,TransGen.head'_iff]
  simp [Leads]

-- A search for a circle, with its path and what it has finished. It ends when a node leads
-- back to its path, or with nothing left on the stack.
inductive Search where
  | going (path finished : List NodeId) (stack : List (NodeId × Bool))
  | found

namespace Search

def start (root : NodeId) : Search := going [] [] [(root,false)]

inductive Step (next : NodeId → List NodeId) : Search → Search → Prop where
  | leave {path finished : List NodeId} {n : NodeId} {stack : List (NodeId × Bool)} :
      Step next (going path finished ((n,true) :: stack)) (going (path.filter (· ≠ n)) (n :: finished) stack)
  | again {path finished : List NodeId} {n : NodeId} {stack : List (NodeId × Bool)} (done : n ∈ finished) :
      Step next (going path finished ((n,false) :: stack)) (going path finished stack)
  | meet {path finished : List NodeId} {n p : NodeId} {stack : List (NodeId × Bool)} (fresh : n ∉ finished)
      (successor : p ∈ next n) (back : p ∈ n :: path) : Step next (going path finished ((n,false) :: stack)) found
  | enter {path finished nodes : List NodeId} {n : NodeId} {stack : List (NodeId × Bool)} (fresh : n ∉ finished)
      (order : nodes.Perm (next n)) (clear : ∀ p ∈ next n, p ∉ n :: path) :
      Step next (going path finished ((n,false) :: stack))
        (going (n :: path) finished ((nodes.filter (· ∉ finished)).map (fun p => (p,false)) ++ (n,true) :: stack))

inductive Runs (next : NodeId → List NodeId) (s : Search) : Nat → Search → Prop where
  | none : Runs next s 0 s
  | more (ran : Runs next s k t) (step : Step next t u) : Runs next s (k + 1) u

def answer? : Search → Option Bool
  | found => some true
  | going _ _ [] => some false
  | going _ _ (_ :: _) => none

variable {s t : Search}

-- What every step keeps. The path is what is entered and not finished.
def Sound (next : NodeId → List NodeId) (root : NodeId) : Search → Prop
  | found => Circular next root
  | going path finished stack => Searches next root finished stack ∧ ∀ p, p ∈ path ↔ p ∈ marks stack

def left (g : Graph) : Search → Nat
  | found => 0
  | going _ finished stack => g.pending finished stack

theorem Sound.step (sound : Sound next root s) (step : Step next s t) : Sound next root t := by
  cases step with
  | @leave path finished n stack =>
    obtain ⟨searches,same⟩ := sound
    refine ⟨searches.finish rfl,fun p => ?_⟩
    have marked : marks ((n,true) :: stack) = n :: marks stack := rfl
    have apart := searches.unmarked
    rw [List.mem_filter,same,marked,List.mem_cons,decide_eq_true_iff]
    constructor
    · rintro ⟨rfl | listed,other⟩
      · exact absurd rfl other
      · exact listed
    · intro listed
      exact ⟨.inr listed,fun same => apart (same ▸ listed)⟩
  | again done => exact ⟨sound.1.drop done,sound.2⟩
  | @meet path finished n p stack fresh successor back =>
    refine sound.1.circular successor ?_
    rcases List.mem_cons.mp back with rfl | listed
    · exact List.mem_cons_self
    · exact List.mem_cons_of_mem _ ((sound.2 p).mp listed)
  | @enter path finished nodes n stack fresh order clear =>
    obtain ⟨searches,same⟩ := sound
    have marked : marks ((n,false) :: stack) = marks stack := rfl
    have entered : marks ((n,true) :: stack) = n :: marks stack := rfl
    simp only [marked] at same
    refine ⟨searches.enter order fun p successor => ?_,fun p => ?_⟩
    · simpa only [List.mem_cons,same] using clear p successor
    · rw [marks_push,entered,List.mem_cons,List.mem_cons,same]

theorem Step.left (g : Graph) (bounded : ∀ n, (next n).length ≤ (g.dependents n).length) (sound : Sound next root s) (step : Step next s t) :
    t.left g < s.left g := by
  cases step with
  | @leave path finished n stack =>
    have dropped := g.pending_finish finished n stack
    simp only [Search.left]
    omega
  | @again path finished n stack done =>
    have dropped := g.pending_drop finished n stack
    simp only [Search.left]
    omega
  | @meet path finished n p stack fresh successor back =>
    have dropped := g.pending_drop finished n stack
    simp only [Search.left]
    omega
  | @enter path finished nodes n stack fresh order clear =>
    have apart : n ∉ marks stack ++ finished := by simp [fresh,sound.1.unmarked]
    exact g.pending_enter (Nat.le_trans (Nat.le_of_eq order.length_eq) (bounded n)) apart

theorem Runs.sound (runs : Runs next (start root) k t) : Sound next root t := by
  induction runs with
  | none => exact ⟨searches_start next root,by simp [marks]⟩
  | more _ step ih => exact ih.step step

theorem Runs.left (g : Graph) (bounded : ∀ n, (next n).length ≤ (g.dependents n).length) (runs : Runs next (start root) k t) :
    k + t.left g ≤ (start root).left g := by
  induction runs with
  | none => omega
  | more ran step ih =>
    have less := step.left g bounded ran.sound
    omega

theorem left_start (g : Graph) (root : NodeId) : (start root).left g = 2 * g.edges.length + 2 := by
  have unmarked : marks [(root,false)] = [] := rfl
  have single : [(root,false)].length + ([(root,false)].filter fun a => !a.2).length = 2 := rfl
  simp only [left,start,pending,unmarked,List.nil_append,unspent_nil]
  omega

theorem goes_on (next : NodeId → List NodeId) (waits : s.answer? = none) : ∃ t, Step next s t := by
  match s with
  | found => cases waits
  | going path finished [] => cases waits
  | going path finished ((n,true) :: stack) => exact ⟨_,.leave⟩
  | going path finished ((n,false) :: stack) =>
    by_cases done : n ∈ finished
    · exact ⟨_,.again done⟩
    · by_cases back : ∃ p ∈ next n, p ∈ n :: path
      · obtain ⟨p,successor,onPath⟩ := back
        exact ⟨_,.meet done successor onPath⟩
      · exact ⟨_,.enter done (.refl _) fun p successor onPath => back ⟨p,successor,onPath⟩⟩

theorem Sound.answers (sound : Sound next root s) (ends : s.answer? = some b) : b = true ↔ Circular next root := by
  match s with
  | found =>
    cases ends
    exact ⟨fun _ => sound,fun _ => rfl⟩
  | going path finished [] =>
    cases ends
    have done : root ∈ finished := sound.1.root.resolve_right (by simp)
    simpa using (sound.1.ended root done).not_circular
  | going path finished (_ :: _) => cases ends

end Search

structure Gathering where
  seen : List NodeId
  stack : List NodeId

namespace Gathering

inductive Step (next : NodeId → List NodeId) : Gathering → Gathering → Prop where
  | again {seen stack : List NodeId} {n : NodeId} (old : n ∈ seen) : Step next ⟨seen,n :: stack⟩ ⟨seen,stack⟩
  | meet {seen stack nodes : List NodeId} {n : NodeId} (fresh : n ∉ seen) (order : nodes.Perm (next n)) :
      Step next ⟨seen,n :: stack⟩ ⟨n :: seen,nodes ++ stack⟩

inductive Runs (next : NodeId → List NodeId) (root : NodeId) : Nat → Gathering → Prop where
  | none {nodes : List NodeId} (order : nodes.Perm (next root)) : Runs next root 0 ⟨[],nodes⟩
  | more (ran : Runs next root k t) (step : Step next t u) : Runs next root (k + 1) u

variable {s t : Gathering}

structure Sound (next : NodeId → List NodeId) (root : NodeId) (s : Gathering) : Prop where
  reached : ∀ m, m ∈ s.seen ∨ m ∈ s.stack → TransGen (Leads next) root m
  closed : ∀ a, a = root ∨ a ∈ s.seen → ∀ b ∈ next a, b ∈ s.seen ∨ b ∈ s.stack

theorem Sound.step (sound : Sound next root s) (step : Step next s t) : Sound next root t := by
  obtain ⟨reached,closed⟩ := sound
  cases step with
  | again old =>
    refine ⟨fun m listed => reached m (listed.imp_right (List.mem_cons_of_mem _)),fun a among b successor => ?_⟩
    rcases closed a among b successor with seen | listed
    · exact .inl seen
    · rcases List.mem_cons.mp listed with rfl | later
      · exact .inl old
      · exact .inr later
  | @meet seen stack nodes n fresh order =>
    have here := reached n (.inr List.mem_cons_self)
    refine ⟨?_,fun a among b successor => ?_⟩
    · rintro m (met | listed)
      · rcases List.mem_cons.mp met with rfl | old
        · exact here
        · exact reached m (.inl old)
      · rcases List.mem_append.mp listed with new | old
        · exact here.tail (order.mem_iff.mp new)
        · exact reached m (.inr (List.mem_cons_of_mem _ old))
    · by_cases same : a = n
      · subst same
        exact .inr (List.mem_append_left _ (order.mem_iff.mpr successor))
      · have among : a = root ∨ a ∈ seen := among.imp_right fun met => (List.mem_cons.mp met).resolve_left same
        rcases closed a among b successor with old | listed
        · exact .inl (List.mem_cons_of_mem _ old)
        · rcases List.mem_cons.mp listed with rfl | later
          · exact .inl List.mem_cons_self
          · exact .inr (List.mem_append_right _ later)

theorem Runs.sound (runs : Runs next root k s) : Sound next root s := by
  induction runs with
  | none order =>
    refine ⟨fun m listed => ?_,fun a among b successor => ?_⟩
    · exact .single (order.mem_iff.mp (listed.resolve_left (by simp)))
    · obtain rfl := among.resolve_right (by simp)
      exact .inr (order.mem_iff.mpr successor)
  | more _ step ih => exact ih.step step

theorem Runs.left (g : Graph) (bounded : ∀ n, (next n).length ≤ (g.dependents n).length) (runs : Runs next root k s) :
    k + (s.stack.length + g.unspent s.seen) ≤ (next root).length + g.edges.length := by
  induction runs with
  | none order => simp [order.length_eq]
  | more _ step ih =>
    cases step with
    | again old =>
      simp only [List.length_cons] at ih ⊢
      omega
    | @meet seen stack nodes n fresh order =>
      have spent := g.unspent_cons fresh
      have few := Nat.le_trans (Nat.le_of_eq order.length_eq) (bounded n)
      simp only [List.length_cons,List.length_append] at ih ⊢
      omega

theorem goes_on (next : NodeId → List NodeId) (waits : s.stack ≠ []) : ∃ t, Step next s t := by
  obtain ⟨seen,stack⟩ := s
  cases stack with
  | nil => exact absurd rfl waits
  | cons n stack =>
    by_cases old : n ∈ seen
    · exact ⟨_,.again old⟩
    · exact ⟨_,.meet old (.refl _)⟩

theorem Sound.gathered (sound : Sound next root s) (done : s.stack = []) : m ∈ s.seen ↔ TransGen (Leads next) root m := by
  have closed (a b : NodeId) (among : a = root ∨ a ∈ s.seen) (step : Leads next a b) : b ∈ s.seen :=
    (sound.closed a among b step).resolve_right (by simp [done])
  refine ⟨fun seen => sound.reached m (.inl seen),fun way => ?_⟩
  induction way with
  | single step => exact closed _ _ (.inl rfl) step
  | tail _ step ih => exact closed _ _ (.inr ih) step

end Gathering

theorem length_dependents_le (g : Graph) (n : NodeId) : (g.dependents n).length ≤ g.edges.length := by
  rw [dependents,List.length_map]
  exact List.length_filter_le _ _

-- A circle is reported just where the precedents of the node lead to one, and downstream of a
-- node is what its dependents lead to. The walks that find this out may take what stands beside
-- each other in any order: they have a bounded number of steps, get stuck nowhere and agree.
theorem cycles_exact (pairs : List (NodeId × NodeId)) (n : NodeId) :
    let g := ofPairs pairs
    (g.reachesCycle n = true ↔ ∃ m, ReflTransGen (Reads pairs) n m ∧ TransGen (Reads pairs) m m) ∧
      (∀ m, m ∈ g.downstream [n] ↔ TransGen (Function.swap (Reads pairs)) n m) ∧
      (n ∈ g.downstream [n] ↔ TransGen (Reads pairs) n n) ∧
      (∀ k s, Search.Runs g.precedents (.start n) k s → k ≤ 2 * g.edges.length + 2 ∧
        (s.answer? = none → ∃ t, Search.Step g.precedents s t) ∧ ∀ b, s.answer? = some b → b = g.reachesCycle n) ∧
      ∀ k s, Gathering.Runs g.dependents n k s → k ≤ 2 * g.edges.length ∧
        (s.stack ≠ [] → ∃ t, Gathering.Step g.dependents s t) ∧ (s.stack = [] → ∀ m, m ∈ s.seen ↔ m ∈ g.downstream [n]) := by
  intro g
  have circular : g.reachesCycle n = true ↔ Circular g.precedents n := by
    obtain ⟨reports,passes⟩ := g.reachesCycle_spec n
    refine ⟨reports,fun circle => ?_⟩
    cases answer : g.reachesCycle n with
    | true => rfl
    | false => exact absurd circle (passes answer).not_circular
  have downstream (m : NodeId) : m ∈ g.downstream [n] ↔ TransGen (Function.swap (Reads pairs)) n m :=
    leads_dependents pairs ▸ mem_downstream g
  refine ⟨?_,downstream,(downstream n).trans transGen_swap,fun k s runs => ⟨?_,Search.goes_on _,fun b ends => ?_⟩,fun k s runs =>
    ⟨?_,Gathering.goes_on _,fun done m => ?_⟩⟩
  · rw [circular,Circular,leads_precedents]
  · have bound := runs.left g.reverse fun n => by simp
    rw [Search.left_start,reverse,List.length_map] at bound
    omega
  · exact Bool.eq_iff_iff.mpr ((runs.sound.answers ends).trans circular.symm)
  · have bound := runs.left g fun _ => Nat.le_refl _
    have few := g.length_dependents_le n
    omega
  · rw [runs.sound.gathered done,← mem_downstream g]

-- Two that share a precedent are no circle; one that reads itself through another is, and so is what reads it.
example : (ofPairs [(0,1),(0,2),(1,3),(2,3)]).reachesCycle 3 = false ∧ (ofPairs [(0,1),(1,0),(0,2)]).reachesCycle 2 = true := by decide

end Recalc.Graph
