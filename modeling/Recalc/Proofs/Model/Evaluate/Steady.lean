import Recalc.Proofs.Model.Evaluate.Scratch

namespace Recalc

namespace Model

def settled (m : Model) (id : NodeId) : Option Value :=
  (m.cell? id).bind fun c => if c.dirty ∨ c.evaluating then none else some c.value

theorem settled_eq_some {m : Model} {id : NodeId} :
    m.settled id = some v ↔ ∃ c, m.cell? id = some c ∧ c.dirty = false ∧ c.evaluating = false ∧ c.value = v := by
  unfold settled
  cases m.cell? id with
  | none => simp
  | some c =>
    simp only [Option.bind_some,Option.some.injEq,exists_eq_left']
    cases c.dirty <;> cases c.evaluating <;> simp

theorem settled_eq_none {m : Model} {id : NodeId} (found : m.cell? id = some c) (busy : c.dirty ∨ c.evaluating) :
    m.settled id = none := by
  simp [settled,found,busy]

def isEvaluating (m : Model) (id : NodeId) : Bool := (m.cell? id).any Cell.evaluating

-- What running formulas may do: cells that are dirty and not under evaluation get a value.
structure Steady (m m' : Model) : Prop where
  outline : m'.outline = m.outline
  current : m'.current = m.current
  cells : ∀ id c, m.cell? id = some c → m'.cell? id = some c ∨
    c.dirty = true ∧ c.evaluating = false ∧ ∃ v, m'.cell? id = some {c with value := v,dirty := false}

namespace Steady

theorem refl (m : Model) : m.Steady m := ⟨rfl,rfl,fun _ _ found => .inl found⟩

theorem trans (one : Steady m m') (two : Steady m' m'') : Steady m m'' := by
  refine ⟨two.outline.trans one.outline,two.current.trans one.current,?_⟩
  intro id c found
  rcases one.cells id c found with kept | ⟨dirty,idle,v,changed⟩
  · exact two.cells id c kept
  · rcases two.cells id _ changed with kept | ⟨again,-⟩
    · exact .inr ⟨dirty,idle,v,kept⟩
    · cases again

variable {m m' : Model} {id : NodeId} (steady : Steady m m')
include steady

theorem clean (found : m.cell? id = some c) (clean : c.dirty = false) : m'.cell? id = some c := by
  rcases steady.cells id c found with kept | ⟨dirty,-⟩
  · exact kept
  · simp [clean] at dirty

theorem settled (found : m.settled id = some v) : m'.settled id = some v := by
  obtain ⟨c,there,clean,idle,value⟩ := settled_eq_some.mp found
  exact settled_eq_some.mpr ⟨c,steady.clean there clean,clean,idle,value⟩

theorem isEvaluating : m'.isEvaluating id = m.isEvaluating id := by
  unfold Model.isEvaluating
  cases before : m.cell? id with
  | none => simp [(cell?_none_same steady.outline).mpr before]
  | some c =>
    rcases steady.cells id c before with kept | ⟨-,idle,v,changed⟩
    · simp [kept]
    · simp [changed,idle]

end Steady

end Model
end Recalc
