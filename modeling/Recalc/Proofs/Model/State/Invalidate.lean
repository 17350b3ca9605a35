import Recalc.Proofs.Model.Evaluate.Evaluation
import Recalc.Proofs.Model.Graph.Reach

namespace Recalc.Model
open Relation
variable {o m m' : Model} {inputs values : NodeId → Option Value} {id start y f : NodeId} {propagate : Bool}

-- A change of `start` moves on along an edge: from the start if it propagates, and from
-- whatever else it reaches that is not dirty already.
def Hands (m : Model) (start : NodeId) (propagate : Bool) (a b : NodeId) : Prop :=
  (⟨a,b⟩ : Edge) ∈ m.graph.edges ∧ (if a = start then propagate else m.spreads a) = true

theorem mem_reached : y ∈ m.reached start propagate ↔ ReflTransGen (m.Hands start propagate) start y := by
  unfold reached
  rw [Graph.mem_closure m.graph]
  · have leads : Graph.Leads (fun id =>
        if if id = start then propagate else m.spreads id then m.graph.dependents id else []) =
        m.Hands start propagate := by
      funext a b
      unfold Graph.Leads Hands
      by_cases moves : (if a = start then propagate else m.spreads a) = true
      · simp [moves]
      · simp [moves]
    simp only [List.mem_singleton,exists_eq_left]
    rw [← leads]
  · intro a
    generalize (if a = start then propagate else m.spreads a) = moves
    cases moves <;> simp

theorem nodes_changeAll (f : Cell → Cell) (again : ∀ c, f (f c) = f c) (ids : List NodeId) (m : Model) :
    (ids.foldl (fun m id => m.changeCell id f) m).nodes[y]? =
      if y ∈ ids then (m.nodes[y]?).map (Node.changeCell f) else m.nodes[y]? := by
  have twice (n : Node) : Node.changeCell f (Node.changeCell f n) = Node.changeCell f n := by
    cases n <;> simp [Node.changeCell,again]
  induction ids generalizing m with
  | nil => simp
  | cons id ids ih =>
    rw [List.foldl_cons,ih,nodes_changeCell]
    by_cases here : id = y
    · subst here
      cases m.nodes[id]? <;> simp [twice]
    · by_cases later : y ∈ ids
      · simp [here,later]
      · simp [here,later,Ne.symm here]

theorem cell?_changeAll (f : Cell → Cell) (again : ∀ c, f (f c) = f c) (ids : List NodeId) (m : Model) :
    (ids.foldl (fun m id => m.changeCell id f) m).cell? y = if y ∈ ids then (m.cell? y).map f else m.cell? y := by
  unfold cell?
  rw [nodes_changeAll f again]
  split
  · cases m.nodes[y]? with
    | none => rfl
    | some n => cases n <;> rfl
  · rfl

theorem outline_changeAll (f : Cell → Cell) (kept : ∀ c, (f c).outline = c.outline) (ids : List NodeId) (m : Model) :
    (ids.foldl (fun m id => m.changeCell id f) m).outline = m.outline := by
  induction ids generalizing m with
  | nil => rfl
  | cons id ids ih => rw [List.foldl_cons,ih,changeCell_outline _ _ kept]

theorem rest_changeAll (f : Cell → Cell) (ids : List NodeId) (m : Model) :
    ids.foldl (fun m id => m.changeCell id f) m =
      {m with nodes := (ids.foldl (fun m id => m.changeCell id f) m).nodes} := by
  induction ids generalizing m with
  | nil => rfl
  | cons id ids ih => exact ih _

theorem traces_changeAll (f : Cell → Cell) (ids : List NodeId) (m : Model) :
    (ids.foldl (fun m id => m.changeCell id f) m).current = m.current ∧
      (ids.foldl (fun m id => m.changeCell id f) m).depthOffset = m.depthOffset := by
  rw [rest_changeAll]
  exact ⟨rfl,rfl⟩

theorem callStack_changeAll (f : Cell → Cell) (ids : List NodeId) (m : Model) :
    (ids.foldl (fun m id => m.changeCell id f) m).callStack = m.callStack := by
  rw [rest_changeAll]

@[simp] theorem cell?_invalidate : (m.invalidate start propagate).cell? y =
    if y ∈ m.reached start propagate then (m.cell? y).map clear else m.cell? y :=
  cell?_changeAll clear (fun _ => rfl) _ m

@[simp] theorem outline_invalidate : (m.invalidate start propagate).outline = m.outline :=
  outline_changeAll clear (fun _ => rfl) _ m

theorem Idle.of_cells (idle : m.Idle) (current : m'.current = m.current) (offset : m'.depthOffset = m.depthOffset)
    (cells : ∀ y c', m'.cell? y = some c' → ∃ c, m.cell? y = some c ∧ c'.evaluating = c.evaluating) : m'.Idle := by
  refine ⟨current.trans idle.current,offset.trans idle.offset,?_⟩
  intro y
  have before := idle.marks y
  unfold isEvaluating at before ⊢
  cases found : m'.cell? y with
  | none => rfl
  | some c' =>
    obtain ⟨c,was,same⟩ := cells y c' found
    simpa [was,same] using before

theorem idle_invalidate (idle : m.Idle) : (m.invalidate start propagate).Idle := by
  obtain ⟨current,offset⟩ := traces_changeAll clear (m.reached start propagate) m
  refine idle.of_cells current offset ?_
  intro y c' found
  rw [cell?_invalidate] at found
  split at found
  · obtain ⟨c,was,rfl⟩ := Option.map_eq_some_iff.mp found
    exact ⟨c,was,rfl⟩
  · exact ⟨c',found,rfl⟩

def without (values : NodeId → Option Value) (ids : List NodeId) (y : NodeId) : Option Value :=
  if y ∈ ids then none else values y

theorem settled_invalidate : (m.invalidate start propagate).settled = without m.settled (m.reached start propagate) := by
  funext y
  unfold settled without
  rw [cell?_invalidate]
  split
  · cases m.cell? y with
    | none => rfl
    | some c => simp [clear]
  · rfl

def Feeds (m : Model) (y f : NodeId) : Prop :=
  (⟨y,f⟩ : Edge) ∈ m.graph.edges ∨
    ∃ n r, m.nodes[n]? = some (.range r) ∧ (⟨y,n⟩ : Edge) ∈ m.graph.edges ∧ (⟨n,f⟩ : Edge) ∈ m.graph.edges

-- What a formula gives depends on nothing but the cells that feed it.
def Covered (m : Model) : Prop := ∀ f c c', (∀ y, m.Feeds y f → c y = c' y) → m.derive c f = m.derive c' f

theorem feeds_same (same : m'.outline = m.outline) : m'.Feeds y f ↔ m.Feeds y f := by
  unfold Feeds
  rw [graph_same same]
  refine or_congr Iff.rfl ?_
  constructor
  · rintro ⟨n,r,found,edges⟩
    exact ⟨n,r,range_same same.symm found,edges⟩
  · rintro ⟨n,r,found,edges⟩
    exact ⟨n,r,range_same same found,edges⟩

theorem reached_feeds (moves : m.isDirty start = false → propagate = true)
    (reached : y ∈ m.reached start propagate) (settled : m.settled y = some v) (feeds : m.Feeds y f) :
    f ∈ m.reached start propagate := by
  have handed {a b : NodeId} (clean : m.isDirty a = false) (edge : (⟨a,b⟩ : Edge) ∈ m.graph.edges) :
      m.Hands start propagate a b := by
    refine ⟨edge,?_⟩
    split
    · rename_i same
      exact moves (same ▸ clean)
    · simp [spreads,clean]
  obtain ⟨c,found,dirty,-⟩ := settled_eq_some.mp settled
  have clean : m.isDirty y = false := by simp [isDirty_cell?,found,dirty]
  rw [mem_reached] at reached ⊢
  rcases feeds with edge | ⟨n,r,range,first,second⟩
  · exact reached.tail (handed clean edge)
  · have still : m.isDirty n = false := by simp [isDirty,range,Node.isDirty]
    exact (reached.tail (handed clean first)).tail (handed still second)

-- A value that is left was derived from values that are left.
theorem Grounded.invalidate (covered : o.Covered) (same : m.outline = o.outline)
    (moves : m.isDirty start = false → propagate = true) (grounded : o.Grounded inputs m.settled) :
    o.Grounded (without inputs (m.reached start propagate)) (without m.settled (m.reached start propagate)) := by
  obtain ⟨rank,bound,bounded,derived⟩ := grounded.derived
  refine ⟨?_,rank,bound,bounded,?_⟩
  · intro y v given
    unfold without at given ⊢
    split at given
    · cases given
    · simp_all [grounded.given y v given]
  · intro y v free found
    have apart : y ∉ m.reached start propagate := by
      intro listed
      simp [without,listed] at found
    simp only [without,apart,if_false] at free found
    refine Eq.trans (covered y _ _ fun z feeds => ?_) (derived y v free found)
    unfold known lower without
    by_cases listed : z ∈ m.reached start propagate
    · cases before : m.settled z with
      | none => simp
      | some w => exact absurd (reached_feeds moves listed before ((feeds_same same).mpr ((feeds_same rfl).mp feeds))) apart
    · simp [listed]

theorem Grounded.give (grounded : o.Grounded inputs values) (fresh : values id = none) (v : Value) :
    o.Grounded (fun y => if y = id then some v else inputs y) (fun y => if y = id then some v else values y) := by
  obtain ⟨rank,bound,bounded,derived⟩ := grounded.derived
  refine ⟨?_,rank,bound,bounded,?_⟩
  · intro y w given
    split
    · rwa [if_pos ‹_›] at given
    · rw [if_neg ‹_›] at given
      exact grounded.given y w given
  · intro y w free found
    split at free
    · cases free
    · rename_i other
      rw [if_neg other] at found
      refine (o.derive_sharpens (known_below ?_) y).ok (derived y w free found)
      intro z u read
      unfold lower at read ⊢
      split at read
      · rename_i less
        have apart : z ≠ id := by
          rintro rfl
          simp [fresh] at read
        simp [less,apart,read]
      · cases read

theorem Grounded.hold (grounded : o.Grounded inputs values) (found : values id = some v) :
    o.Grounded (fun y => if y = id then some v else inputs y) values := by
  obtain ⟨rank,bound,bounded,derived⟩ := grounded.derived
  refine ⟨?_,rank,bound,bounded,?_⟩
  · intro y w given
    split at given
    · rename_i same
      rw [same,found,given]
    · exact grounded.given y w given
  · intro y w free known
    split at free
    · cases free
    · exact derived y w free known

def stored (m : Model) (id : NodeId) (value : Value) : Model :=
  (m.invalidate id true).changeCell id fun c => {c with value := value,dirty := false}

@[simp] theorem outline_stored : (m.stored id v).outline = m.outline :=
  Eq.trans (changeCell_outline _ id fun _ => rfl) outline_invalidate

@[simp] theorem start_reached : start ∈ m.reached start propagate := mem_reached.mpr .refl

@[simp] theorem cell?_stored : (m.stored id v).cell? y =
    if y = id then (m.cell? id).map fun c => {c with value := v,dirty := false}
    else if y ∈ m.reached id true then (m.cell? y).map clear else m.cell? y := by
  unfold stored
  rw [cell?_changeCell,cell?_invalidate]
  by_cases same : y = id
  · subst same
    simp only [start_reached,if_true]
    cases m.cell? y <;> rfl
  · simp [same,Ne.symm same]

theorem idle_stored (idle : m.Idle) : (m.stored id v).Idle := by
  obtain ⟨current,offset⟩ := traces_changeAll clear (m.reached id true) m
  refine idle.of_cells current offset ?_
  intro y c' found
  rw [cell?_stored] at found
  split at found
  · rename_i same
    obtain ⟨c,was,rfl⟩ := Option.map_eq_some_iff.mp found
    exact ⟨c,same ▸ was,rfl⟩
  · split at found
    · obtain ⟨c,was,rfl⟩ := Option.map_eq_some_iff.mp found
      exact ⟨c,was,rfl⟩
    · exact ⟨c',found,rfl⟩

theorem settled_stored (idle : m.Idle) (found : m.cell? id = some c) : (m.stored id v).settled =
    fun y => if y = id then some v else without m.settled (m.reached id true) y := by
  have still : c.evaluating = false := by simpa [isEvaluating,found] using idle.marks id
  funext y
  unfold settled without
  rw [cell?_stored]
  by_cases same : y = id
  · simp [same,found,still]
  · by_cases listed : y ∈ m.reached id true
    · cases there : m.cell? y <;> simp [same,listed,clear]
    · simp [same,listed]

inductive Assigns (m : Model) (address : String) (value : Value) : Except FormulaError Unit × Model → Prop where
  | fails (e : FormulaError) (absent : ∀ id, m.resolve address = .ok id → m.cell? id = none) :
      Assigns m address value (.error e,m)
  | skips (id : NodeId) (c : Cell) (resolved : m.resolve address = .ok id) (found : m.cell? id = some c) (clean : c.dirty = false)
      (same : c.value.same value = true) : Assigns m address value (.ok (),m)
  | stores (id : NodeId) (c : Cell) (resolved : m.resolve address = .ok id) (found : m.cell? id = some c)
      (other : ¬ (c.dirty = false ∧ c.value.same value = true)) : Assigns m address value (.ok (),m.stored id value)

theorem assign_assigns (m : Model) (address : String) (value : Value) :
    m.Assigns address value (m.assign address value) := by
  unfold assign
  cases resolved : m.resolve address with
  | error e => exact .fails e (by simp [resolved])
  | ok id =>
    simp only
    split
    · rename_i c there
      have found : m.cell? id = some c := cell?_eq_some.mpr there
      split
      · rename_i skipped
        exact .skips id c resolved found (by simpa using skipped.1) skipped.2
      · rename_i other
        exact .stores id c resolved found (by simpa using other)
    · rename_i other
      refine .fails _ fun y same => ?_
      rw [resolved] at same
      cases same
      cases found : m.cell? id with
      | none => rfl
      | some c => exact absurd (cell?_eq_some.mp found) (other c)

theorem reset_spec (m : Model) (address : String) :
    (∃ e, m.reset address = (.error e,m)) ∨
      ∃ id, m.resolve address = .ok id ∧ m.reset address = (.ok (),m.invalidate id (m.spreads id)) := by
  unfold reset
  cases m.resolve address with
  | error e => exact .inl ⟨e,rfl⟩
  | ok id => exact .inr ⟨id,rfl,rfl⟩

end Recalc.Model
