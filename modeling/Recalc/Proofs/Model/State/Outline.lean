import Mathlib.Data.List.Nodup
import Recalc.Model.Assign

namespace Recalc

-- What no evaluation, assignment or reset ever changes: addresses, formulas, formats, edges
-- and settings. Contents, marks and the traces of a run are left out.
def Cell.outline (c : Cell) : Cell := {c with value := .empty,dirty := false,evaluating := false}

def Node.outline : Node → Node
  | .cell c => .cell c.outline
  | .range r => .range r

namespace Model

def outline (m : Model) : Model :=
  {m with nodes := m.nodes.map Node.outline,current := [],callStack := [],depthOffset := 0}

def cell? (m : Model) (id : NodeId) : Option Cell := (m.nodes[id]?).bind Node.cell?

theorem cell?_eq_some {m : Model} {id : NodeId} : m.cell? id = some c ↔ m.nodes[id]? = some (.cell c) := by
  unfold cell?
  cases found : m.nodes[id]? with
  | none => simp
  | some node => cases node <;> simp [Node.cell?]

theorem cell?_lt {m : Model} {id : NodeId} (found : m.cell? id = some c) : id < m.nodes.length :=
  (List.getElem?_eq_some_iff.mp (cell?_eq_some.mp found)).1

@[simp] theorem address_outline (n : Node) : n.outline.address = n.address := by cases n <;> rfl

@[simp] theorem getElem?_outline (m : Model) (id : NodeId) : m.outline.nodes[id]? = (m.nodes[id]?).map Node.outline := by
  simp [outline]

@[simp] theorem cell?_outline (m : Model) (id : NodeId) : m.outline.cell? id = (m.cell? id).map Cell.outline := by
  unfold cell?
  rw [getElem?_outline]
  cases m.nodes[id]? with
  | none => rfl
  | some node => cases node <;> rfl

@[simp] theorem find?_outline (m : Model) (address : String) : m.outline.find? address = m.find? address := by
  have same : (fun n : Node => n.address == address) ∘ Node.outline = fun n => n.address == address := by
    funext n
    simp
  unfold find? outline
  rw [List.findIdx?_map,same]

@[simp] theorem addressOf_outline (m : Model) (id : NodeId) : m.outline.addressOf id = m.addressOf id := by
  unfold addressOf
  rw [getElem?_outline]
  cases m.nodes[id]? with
  | none => rfl
  | some node => simp

@[simp] theorem resolve_outline (m : Model) (address : String) : m.outline.resolve address = m.resolve address := by
  unfold resolve
  simp only [find?_outline]
  rfl

@[simp] theorem rectOf_outline (m : Model) (address : String) : m.outline.rectOf address = m.rectOf address := by
  unfold rectOf
  rw [find?_outline]
  cases m.find? address with
  | none => rfl
  | some id =>
    simp only [Option.bind_some,getElem?_outline]
    cases m.nodes[id]? with
    | none => rfl
    | some node => cases node <;> rfl

section
variable {m m' : Model} (same : m'.outline = m.outline)
include same

theorem length_same : m'.nodes.length = m.nodes.length := by
  simpa [outline] using congrArg (fun m => m.nodes.length) same

theorem resolve_same (address : String) : m'.resolve address = m.resolve address := by
  rw [← resolve_outline m',same,resolve_outline]

theorem rectOf_same (address : String) : m'.rectOf address = m.rectOf address := by
  rw [← rectOf_outline m',same,rectOf_outline]

theorem addressOf_same (id : NodeId) : m'.addressOf id = m.addressOf id := by
  rw [← addressOf_outline m',same,addressOf_outline]

theorem graph_same : m'.graph = m.graph := by
  simpa [outline] using congrArg Model.graph same

theorem limits_same : m'.limits = m.limits := by
  simpa [outline] using congrArg Model.limits same

theorem cell?_same (id : NodeId) : (m'.cell? id).map Cell.outline = (m.cell? id).map Cell.outline := by
  rw [← cell?_outline,← cell?_outline,same]

theorem node_same (id : NodeId) : (m'.nodes[id]?).map Node.outline = (m.nodes[id]?).map Node.outline := by
  rw [← getElem?_outline,← getElem?_outline,same]

theorem cell_same {id : NodeId} (found : m.cell? id = some c) : ∃ c', m'.cell? id = some c' ∧ c'.outline = c.outline := by
  have mapped := cell?_same same id
  rw [found] at mapped
  simpa using mapped

theorem range_same {id : NodeId} (found : m.nodes[id]? = some (.range r)) : m'.nodes[id]? = some (.range r) := by
  have mapped := node_same same id
  rw [found] at mapped
  cases there : m'.nodes[id]? with
  | none => simp [there] at mapped
  | some node => cases node <;> simp_all [Node.outline]

theorem cell?_none_same {id : NodeId} : m'.cell? id = none ↔ m.cell? id = none := by
  have mapped := cell?_same same id
  cases here : m.cell? id <;> cases there : m'.cell? id <;> simp_all

end

@[simp] theorem nodes_changeCell (m : Model) (id j : NodeId) (f : Cell → Cell) :
    (m.changeCell id f).nodes[j]? = if id = j then (m.nodes[j]?).map (Node.changeCell f) else m.nodes[j]? := by
  simp only [changeCell,List.getElem?_modify]
  split <;> simp

@[simp] theorem cell?_changeCell (m : Model) (id j : NodeId) (f : Cell → Cell) :
    (m.changeCell id f).cell? j = if id = j then (m.cell? j).map f else m.cell? j := by
  unfold cell?
  rw [nodes_changeCell]
  split
  · cases m.nodes[j]? with
    | none => rfl
    | some node => cases node <;> rfl
  · rfl

theorem changeCell_outline (m : Model) (id : NodeId) (kept : ∀ c, (f c).outline = c.outline) :
    (m.changeCell id f).outline = m.outline := by
  have nodes : (m.nodes.modify id (Node.changeCell f)).map Node.outline = m.nodes.map Node.outline := by
    apply List.ext_getElem?
    intro j
    simp only [List.getElem?_map,List.getElem?_modify]
    cases m.nodes[j]? with
    | none => simp
    | some node =>
      split
      · cases node with
        | cell c => simp [Node.changeCell,Node.outline,kept]
        | range r => rfl
      · simp
  simp [outline,changeCell,nodes]

def Distinct (m : Model) : Prop := (m.nodes.map Node.address).Nodup

@[simp] theorem distinct_outline (m : Model) : m.outline.Distinct ↔ m.Distinct := by
  have same : Node.address ∘ Node.outline = Node.address := funext address_outline
  simp only [Distinct,outline,List.map_map,same]

theorem distinct_same {m m' : Model} (same : m'.outline = m.outline) (distinct : m.Distinct) : m'.Distinct := by
  rw [← distinct_outline] at distinct ⊢
  rwa [same]

theorem find?_some {m : Model} {id : NodeId} (found : m.find? address = some id) :
    ∃ n, m.nodes[id]? = some n ∧ n.address = address := by
  obtain ⟨bound,named,-⟩ := List.findIdx?_eq_some_iff_getElem.mp found
  exact ⟨m.nodes[id],List.getElem?_eq_getElem bound,by simpa using named⟩

theorem resolve_ok {m : Model} {id : NodeId} (resolved : m.resolve address = .ok id) : m.find? address = some id ∨
    m.find? address = none ∧ ∃ key, canonicalize (Text.without '$' address) m.defaultSheet = .ok key ∧ m.find? key = some id := by
  unfold resolve at resolved
  split at resolved
  · rename_i found
    cases resolved
    exact .inl found
  · rename_i absent
    refine .inr ⟨absent,?_⟩
    cases spelled : canonicalize (Text.without '$' address) m.defaultSheet with
    | error e => simp [spelled,liftReference,Except.mapError,bind,Except.bind] at resolved
    | ok key =>
      simp only [spelled,liftReference,Except.mapError,bind,Except.bind] at resolved
      cases found : m.find? key with
      | none => simp [found,throw,throwThe,MonadExceptOf.throw] at resolved
      | some y =>
        simp only [found,pure,Except.pure] at resolved
        cases resolved
        exact ⟨key,rfl,found⟩

theorem resolve_some {m : Model} {id : NodeId} (resolved : m.resolve address = .ok id) : ∃ n, m.nodes[id]? = some n := by
  rcases resolve_ok resolved with found | ⟨-,key,-,found⟩
  · exact (find?_some found).imp fun n known => known.1
  · exact (find?_some found).imp fun n known => known.1

theorem Distinct.eq {m : Model} {id y : NodeId} (distinct : m.Distinct) (one : m.nodes[id]? = some n)
    (two : m.nodes[y]? = some k) (same : n.address = k.address) : id = y := by
  obtain ⟨bound,rfl⟩ := List.getElem?_eq_some_iff.mp one
  obtain ⟨bound',rfl⟩ := List.getElem?_eq_some_iff.mp two
  have injective := List.nodup_iff_injective_getElem.mp distinct
  have equal := @injective ⟨id,by simpa using bound⟩ ⟨y,by simpa using bound'⟩ (by simpa using same)
  exact congrArg Fin.val equal

theorem Distinct.find? {m : Model} {id : NodeId} (distinct : m.Distinct) (found : m.nodes[id]? = some n) :
    m.find? n.address = some id := by
  cases first : m.find? n.address with
  | none =>
    have none := List.findIdx?_eq_none_iff.mp first
    simp at none
    exact absurd rfl (none n (List.mem_of_getElem? found))
  | some y =>
    obtain ⟨k,there,named⟩ := find?_some first
    rw [distinct.eq there found named]

theorem Distinct.resolve {m : Model} {id : NodeId} (distinct : m.Distinct) (found : m.cell? id = some c) :
    m.resolve c.address = .ok id := by
  have first := distinct.find? (cell?_eq_some.mp found)
  simp only [Node.address] at first
  simp [Model.resolve,first]

end Model
end Recalc
