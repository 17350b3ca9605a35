import Mathlib.Order.Bounds.Basic
import Recalc.Proofs.Model.State.Invalidate

namespace Recalc.Model
open Relation

-- A walk from node to node that clears cells as it meets them. With a node that is still to
-- be met stands whether the walk goes on from there; that is told when the node is put there,
-- by what the cells hold then.
structure Sweep where
  model : Model
  visited : List NodeId
  pending : List (NodeId × Bool)

namespace Sweep

def start (m : Model) (first : NodeId) (propagate : Bool) : Sweep := ⟨m,[],[(first,propagate)]⟩

inductive Step : Sweep → Sweep → Prop where
  | again {m : Model} {visited : List NodeId} {id : NodeId} {on : Bool} {pending : List (NodeId × Bool)} (seen : id ∈ visited) :
      Step ⟨m,visited,(id,on) :: pending⟩ ⟨m,visited,pending⟩
  | meets {m : Model} {visited next : List NodeId} {id : NodeId} {on : Bool} {pending : List (NodeId × Bool)}
      (fresh : id ∉ visited) (order : next.Perm (if on then m.graph.dependents id else [])) :
      Step ⟨m,visited,(id,on) :: pending⟩
        ⟨m.changeCell id clear,id :: visited,next.map (fun n => (n,(m.changeCell id clear).spreads n)) ++ pending⟩

inductive Runs (t : Sweep) : Nat → Sweep → Prop where
  | none : Runs t 0 t
  | more (ran : Runs t n u) (step : u.Step v) : Runs t (n + 1) v

end Sweep

variable {m m' : Model} {first id y : NodeId} {propagate : Bool} {t u : Sweep}

theorem spreads_changeAll (f : Cell → Cell) (again : ∀ c, f (f c) = f c) (ids : List NodeId) (m : Model) (apart : y ∉ ids) :
    (ids.foldl (fun m id => m.changeCell id f) m).spreads y = m.spreads y := by
  unfold spreads isDirty
  rw [nodes_changeAll f again,if_neg apart]

theorem changeAll_same (f : Cell → Cell) (again : ∀ c, f (f c) = f c) {ids ids' : List NodeId} (m : Model)
    (same : ∀ y, y ∈ ids ↔ y ∈ ids') :
    ids.foldl (fun m id => m.changeCell id f) m = ids'.foldl (fun m id => m.changeCell id f) m := by
  rw [rest_changeAll f ids,rest_changeAll f ids']
  congr 1
  apply List.ext_getElem?
  intro y
  rw [nodes_changeAll f again,nodes_changeAll f again]
  simp only [same]

-- What every step of a walk keeps: the cells met are cleared and no others, a node that is
-- to be met carries what was true of it before the walk, and nothing is met or put there but
-- what the change reaches. No path is lost: what a met node hands on to is met or waits.
structure Sweep.Sound (m : Model) (first : NodeId) (propagate : Bool) (t : Sweep) : Prop where
  cleared : t.model = t.visited.reverse.foldl (fun m id => m.changeCell id clear) m
  begun : first ∈ t.visited ∨ t.visited = [] ∧ t.pending = [(first,propagate)]
  told : ∀ id on, (id,on) ∈ t.pending → id ∉ t.visited → on = if id = first then propagate else m.spreads id
  within : ∀ id, (id ∈ t.visited ∨ ∃ on, (id,on) ∈ t.pending) → id ∈ m.reached first propagate
  closed : ∀ a ∈ t.visited, ∀ b, m.Hands first propagate a b → b ∈ t.visited ∨ ∃ on, (b,on) ∈ t.pending

namespace Sweep
variable {now : Model} {visited next : List NodeId} {on : Bool} {pending : List (NodeId × Bool)}

theorem sound_start : Sound m first propagate (start m first propagate) := by
  refine ⟨rfl,.inr ⟨rfl,rfl⟩,?_,?_,by simp [start]⟩
  · intro id on listed _
    obtain ⟨rfl,rfl⟩ : id = first ∧ on = propagate := by simpa [start] using listed
    simp
  · intro id listed
    obtain rfl : id = first := by simpa [start] using listed
    exact start_reached

theorem Sound.graph (sound : Sound m first propagate t) : t.model.graph = m.graph := by
  rw [sound.cleared]
  exact graph_same (outline_changeAll clear (fun _ => rfl) _ m)

theorem Sound.again (sound : Sound m first propagate ⟨now,visited,(id,on) :: pending⟩) (seen : id ∈ visited) :
    Sound m first propagate ⟨now,visited,pending⟩ := by
  obtain ⟨cleared,begun,told,within,closed⟩ := sound
  refine ⟨cleared,.inl ?_,?_,?_,?_⟩
  · rcases begun with met | ⟨none,-⟩
    · exact met
    · cases none
      cases seen
  · exact fun y flag listed => told y flag (List.mem_cons_of_mem _ listed)
  · rintro y (met | ⟨flag,listed⟩)
    · exact within y (.inl met)
    · exact within y (.inr ⟨flag,List.mem_cons_of_mem _ listed⟩)
  · intro a met b hands
    rcases closed a met b hands with old | ⟨flag,listed⟩
    · exact .inl old
    · rcases List.mem_cons.mp listed with here | later
      · cases here
        exact .inl seen
      · exact .inr ⟨flag,later⟩

theorem Sound.meets (sound : Sound m first propagate ⟨now,visited,(id,on) :: pending⟩)
    (fresh : id ∉ visited) (order : next.Perm (if on then now.graph.dependents id else [])) :
    Sound m first propagate ⟨now.changeCell id clear,id :: visited,
      next.map (fun n => (n,(now.changeCell id clear).spreads n)) ++ pending⟩ := by
  have graph : now.graph = m.graph := sound.graph
  obtain ⟨cleared,begun,told,within,closed⟩ := sound
  dsimp only at cleared begun told within closed
  have flag : on = if id = first then propagate else m.spreads id := told id on (by simp) fresh
  have here : id ∈ m.reached first propagate := within id (.inr ⟨on,by simp⟩)
  have cleared' : now.changeCell id clear = (id :: visited).reverse.foldl (fun m id => m.changeCell id clear) m := by
    rw [cleared,List.reverse_cons,List.foldl_append]
    rfl
  have met : first ∈ id :: visited := by
    rcases begun with met | ⟨-,alone⟩
    · exact List.mem_cons_of_mem _ met
    · cases alone
      simp
  have hands (b : NodeId) : b ∈ next ↔ m.Hands first propagate id b := by
    rw [order.mem_iff,flag,graph]
    unfold Hands
    generalize (if id = first then propagate else m.spreads id) = moves
    cases moves <;> simp
  refine ⟨cleared',.inl met,?_,?_,?_⟩
  · intro y flag listed apart
    rcases List.mem_append.mp listed with new | old
    · obtain ⟨b,-,same⟩ := List.mem_map.mp new
      cases same
      have other : y ≠ first := fun same => apart (same ▸ met)
      rw [cleared',spreads_changeAll clear (fun _ => rfl) _ m (mt List.mem_reverse.mp apart)]
      simp [other]
    · exact told y flag (List.mem_cons_of_mem _ old) fun seen => apart (List.mem_cons_of_mem _ seen)
  · rintro y (seen | ⟨flag,listed⟩)
    · rcases List.mem_cons.mp seen with rfl | old
      · exact here
      · exact within y (.inl old)
    · rcases List.mem_append.mp listed with new | old
      · obtain ⟨b,member,same⟩ := List.mem_map.mp new
        cases same
        exact mem_reached.mpr ((mem_reached.mp here).tail ((hands _).mp member))
      · exact within y (.inr ⟨flag,List.mem_cons_of_mem _ old⟩)
  · intro a seen b handed
    rcases List.mem_cons.mp seen with rfl | old
    · exact .inr ⟨_,List.mem_append_left _ (List.mem_map_of_mem ((hands b).mpr handed))⟩
    · rcases closed a old b handed with met | ⟨flag,listed⟩
      · exact .inl (List.mem_cons_of_mem _ met)
      · rcases List.mem_cons.mp listed with same | later
        · cases same
          exact .inl (by simp)
        · exact .inr ⟨flag,List.mem_append_right _ later⟩

theorem Sound.step (sound : Sound m first propagate t) (step : t.Step u) : Sound m first propagate u := by
  cases step with
  | again seen => exact sound.again seen
  | meets fresh order => exact sound.meets fresh order

def left (t : Sweep) : Nat := t.pending.length + t.model.graph.unspent t.visited

theorem Step.left (step : t.Step u) : u.left < t.left := by
  cases step with
  | again seen => simp [Sweep.left]
  | @meets now visited next id on pending fresh order =>
    have spent := now.graph.unspent_cons fresh
    have few : next.length ≤ (now.graph.dependents id).length := by
      rw [order.length_eq]
      cases on <;> simp
    simp only [Sweep.left,List.length_append,List.length_map,List.length_cons,changeCell]
    omega

theorem Runs.left (runs : t.Runs n u) : n + u.left ≤ t.left := by
  induction runs with
  | none => omega
  | more _ step ih =>
    have less := step.left
    omega

theorem Runs.sound (runs : (start m first propagate).Runs n t) : Sound m first propagate t := by
  induction runs with
  | none => exact sound_start
  | more _ step ih => exact ih.step step

theorem goes_on (waits : t.pending ≠ []) : ∃ u, t.Step u := by
  obtain ⟨now,visited,pending⟩ := t
  cases pending with
  | nil => exact absurd rfl waits
  | cons noted pending =>
    obtain ⟨id,on⟩ := noted
    by_cases seen : id ∈ visited
    · exact ⟨_,.again seen⟩
    · exact ⟨_,.meets seen (.refl _)⟩

theorem Sound.finished (sound : Sound m first propagate t) (done : t.pending = []) : t.model = m.invalidate first propagate := by
  obtain ⟨cleared,begun,-,within,closed⟩ := sound
  rw [cleared]
  refine changeAll_same clear (fun _ => rfl) m fun y => ?_
  rw [List.mem_reverse]
  refine ⟨fun met => within y (.inl met),fun reached => ?_⟩
  have path := mem_reached.mp reached
  induction path with
  | refl => simpa [done] using begun
  | tail path hands ih => simpa [done] using closed _ (ih (mem_reached.mpr path)) _ hands

end Sweep

structure Emptied (m : Model) (cells : Set NodeId) (m' : Model) : Prop where
  emptied : ∀ y ∈ cells, ∀ c, m.nodes[y]? = some (.cell c) → m'.nodes[y]? = some (.cell {c with value := .empty,dirty := true})
  kept : ∀ y, (∀ c, m.nodes[y]? = some (.cell c) → y ∉ cells) → m'.nodes[y]? = m.nodes[y]?
  rest : {m' with nodes := m.nodes} = m
  addresses : ∀ address, m'.find? address = m.find? address

theorem emptied_invalidate : m.Emptied {y | y ∈ m.reached first propagate} (m.invalidate first propagate) := by
  have nodes (y : NodeId) : (m.invalidate first propagate).nodes[y]? =
      if y ∈ m.reached first propagate then (m.nodes[y]?).map (Node.changeCell clear) else m.nodes[y]? :=
    nodes_changeAll clear (fun _ => rfl) _ m
  refine ⟨?_,?_,?_,?_⟩
  · intro y listed c found
    rw [nodes,found]
    exact if_pos listed
  · intro y apart
    rw [nodes]
    split
    · rename_i listed
      cases found : m.nodes[y]? with
      | none => rfl
      | some n =>
        cases n with
        | cell c => exact absurd listed (apart c found)
        | range r => rfl
    · rfl
  · unfold invalidate
    rw [rest_changeAll]
  · intro address
    rw [← find?_outline,outline_invalidate,find?_outline]

theorem reached_only : {y | y ∈ m.reached first false} = {first} := by
  ext y
  refine ⟨fun reached => ?_,fun here => here ▸ start_reached⟩
  rcases (mem_reached.mp reached).cases_head with here | ⟨b,⟨-,moves⟩,-⟩
  · exact here.symm
  · simp at moves

def Due (m : Model) (first : NodeId) (due : Set NodeId) : Prop :=
  first ∈ due ∧ ∀ id ∈ due, (id = first ∨ ∀ c, m.nodes[id]? = some (.cell c) → c.dirty = false) →
    ∀ y, (⟨id,y⟩ : Edge) ∈ m.graph.edges → y ∈ due

theorem hands_iff : m.Hands first true id y ↔
    (⟨id,y⟩ : Edge) ∈ m.graph.edges ∧ (id = first ∨ ∀ c, m.nodes[id]? = some (.cell c) → c.dirty = false) := by
  unfold Hands
  refine and_congr_right fun _ => ?_
  by_cases here : id = first
  · simp [here]
  · simp only [here,if_false,false_or,spreads,isDirty]
    cases m.nodes[id]? with
    | none => simp
    | some n => cases n <;> simp [Node.isDirty]

theorem least_reached : IsLeast {cells | m.Due first cells} {y | y ∈ m.reached first true} := by
  refine ⟨⟨start_reached,?_⟩,?_⟩
  · intro id reached moves y edge
    exact mem_reached.mpr ((mem_reached.mp reached).tail (hands_iff.mpr ⟨edge,moves⟩))
  · intro due closed y reached
    have path := mem_reached.mp reached
    induction path with
    | refl => exact closed.1
    | tail path hands ih =>
      obtain ⟨edge,moves⟩ := hands_iff.mp hands
      exact closed.2 _ (ih (mem_reached.mpr path)) moves _ edge

-- An invalidation empties the cells that are due and leaves all else alone, or, where it does
-- not propagate, empties its start. A walk gets there whatever order it takes the dependents
-- in: it has a bounded number of steps, stops at nothing that waits, and ends there.
theorem invalidate_exact (m : Model) (first : NodeId) :
    (∃ due, IsLeast {cells | m.Due first cells} due ∧ m.Emptied due (m.invalidate first true)) ∧
      m.Emptied {first} (m.invalidate first false) ∧
      ∀ propagate n t, (Sweep.start m first propagate).Runs n t → n ≤ 1 + m.graph.edges.length ∧
        (t.pending ≠ [] → ∃ u, t.Step u) ∧ (t.pending = [] → t.model = m.invalidate first propagate) := by
  refine ⟨⟨_,least_reached,emptied_invalidate⟩,reached_only ▸ emptied_invalidate,?_⟩
  intro propagate n t runs
  refine ⟨?_,Sweep.goes_on,runs.sound.finished⟩
  have bound := runs.left
  simp only [Sweep.left,Sweep.start,Graph.unspent_nil,List.length_singleton] at bound
  omega

end Recalc.Model
