import Recalc.Proofs.Model.Evaluate.Approximation
import Recalc.Proofs.Model.State.Outline

namespace Recalc

def FormulaError.kind : FormulaError → FormulaError
  | .circularReference _ _ => .circularReference "" ""
  | .evaluation cell _ source => .evaluation cell "" source
  | e => e

theorem FormulaError.kind_untagged {e : FormulaError} (untagged : e.isTagged = false) : e.kind = e := by
  cases e <;> first | rfl | simp [isTagged] at untagged

def Cell.conclude (c : Cell) : Except FormulaError Value → Except FormulaError Value
  | .ok v => .ok (c.format.apply v)
  | .error e => .error (if e.isTagged then e else .evaluation c.address "" e)

namespace Cell

theorem conclude_circle (c : Cell) : c.conclude circle = circle := rfl

theorem conclude_sharpens (c : Cell) (sharper : Sharpens r r') : Sharpens (c.conclude r) (c.conclude r') := by
  rcases sharper with rfl | rfl
  · exact .inl rfl
  · exact .refl _

theorem conclude_tagged (c : Cell) (tagged : e.isTagged = true) : c.conclude (.error e) = .error e := by
  simp [conclude,tagged]

theorem conclude_ok {c : Cell} (result : c.conclude r = .ok v) : ∃ w, r = .ok w ∧ v = c.format.apply w := by
  cases r with
  | error e => simp [conclude] at result
  | ok w => exact ⟨w,rfl,(Except.ok.inj result).symm⟩

end Cell

variable {id : NodeId} {values values' : NodeId → Option Value} {c c' : NodeId → Except FormulaError Value}

def known (values : NodeId → Option Value) (id : NodeId) : Except FormulaError Value :=
  match values id with
  | some v => .ok v
  | none => circle

theorem known_ok : known values id = .ok v ↔ values id = some v := by
  unfold known
  cases values id with
  | none => simp [circle]
  | some w => simp

theorem known_below (more : ∀ id v, values id = some v → values' id = some v) :
    Below (known values) (known values') := by
  intro id
  cases found : values id with
  | none => exact .inl (by simp [known,found])
  | some v => exact .inr (by simp [known,found,more id v found])

namespace Model

def nodeValue (m : Model) (cell : NodeId → Except FormulaError Value) (id : NodeId) : Except FormulaError Value :=
  match m.nodes[id]? with
  | some (.range r) => do
    return .array (← r.cells.mapM fun row => row.mapM fun address => do cell (← m.resolve address))
  | _ => cell id

def sourceOver (m : Model) (cell : NodeId → Except FormulaError Value) (plain : Bool) :
    Query.Source (Except FormulaError) where
  cell bare text := do
    let v ← m.nodeValue cell (← m.resolve text)
    return if bare ∧ plain ∧ v.isEmpty then .number 0.0 else v
  range text := m.rectOf text

def resultOf (m : Model) (cell : NodeId → Except FormulaError Value) (e : Expr) : Except FormulaError Value :=
  e.query.answer (m.sourceOver cell e.isReference)

def derive (m : Model) (cell : NodeId → Except FormulaError Value) (id : NodeId) : Except FormulaError Value :=
  match m.cell? id with
  | some c => c.conclude (m.resultOf cell c.expr)
  | none => .error (.unknownCell (m.addressOf id))

-- Evaluation that keeps nothing: apart from the inputs every cell is computed each time it
-- is read, through so many cells at most.
def scratch (m : Model) (inputs : NodeId → Option Value) : Nat → NodeId → Except FormulaError Value
  | 0, _ => circle
  | depth + 1, id => match inputs id with
    | some v => .ok v
    | none => m.derive (m.scratch inputs depth) id

theorem nodeValue_sharpens (m : Model) (below : Below c c') (id : NodeId) :
    Sharpens (m.nodeValue c id) (m.nodeValue c' id) := by
  unfold nodeValue
  split
  · refine Sharpens.bind (.mapM (fun row => .mapM (fun address => ?_) row) _) fun _ => .refl _
    exact (Sharpens.refl _).bind below
  · exact below id

theorem resultOf_sharpens (m : Model) (below : Below c c') (e : Expr) :
    Sharpens (m.resultOf c e) (m.resultOf c' e) := by
  apply Sharpens.answer
  · intro bare address
    exact (Sharpens.refl _).bind fun id => (m.nodeValue_sharpens below id).bind fun v => .refl _
  · rfl

theorem derive_sharpens (m : Model) (below : Below c c') : Below (m.derive c) (m.derive c') := by
  intro id
  unfold derive
  split
  · exact Cell.conclude_sharpens _ (m.resultOf_sharpens below _)
  · exact .refl _

theorem scratch_succ (m : Model) (inputs : NodeId → Option Value) (depth : Nat) :
    Below (m.scratch inputs depth) (m.scratch inputs (depth + 1)) := by
  induction depth with
  | zero => exact fun id => .circle_left _
  | succ depth ih =>
    intro id
    simp only [scratch]
    cases inputs id with
    | some v => exact .refl _
    | none => exact m.derive_sharpens ih id

theorem scratch_below (m : Model) (inputs : NodeId → Option Value) (deeper : n ≤ k) :
    Below (m.scratch inputs n) (m.scratch inputs k) := by
  induction deeper with
  | refl => exact .refl _
  | step _ ih => exact ih.trans (m.scratch_succ inputs _)

theorem scratch_unknown (m : Model) {inputs : NodeId → Option Value} (free : inputs id = none) (depth : Nat) :
    m.scratch inputs (depth + 1) id = m.derive (m.scratch inputs depth) id := by
  simp [scratch,free]

section
variable {m m' : Model} (same : m'.outline = m.outline)
include same

theorem nodeValue_same (cell : NodeId → Except FormulaError Value) : m'.nodeValue cell = m.nodeValue cell := by
  funext id
  unfold nodeValue
  cases here : m.nodes[id]? with
  | none =>
    have there : m'.nodes[id]? = none := by simpa [here] using node_same same id
    simp [there]
  | some node => cases node with
    | range r => simp only [range_same same here,resolve_same same]
    | cell c =>
      obtain ⟨c',there,-⟩ := cell_same same (cell?_eq_some.mpr here)
      simp [cell?_eq_some.mp there]

theorem resultOf_same (cell : NodeId → Except FormulaError Value) : m'.resultOf cell = m.resultOf cell := by
  funext e
  have sources : m'.sourceOver cell e.isReference = m.sourceOver cell e.isReference := by
    simp only [sourceOver,nodeValue_same same,resolve_same same,rectOf_same same]
  simp only [resultOf,sources]

theorem derive_same (cell : NodeId → Except FormulaError Value) : m'.derive cell = m.derive cell := by
  funext id
  unfold derive
  cases here : m.cell? id with
  | none => simp [(cell?_none_same same).mpr here,addressOf_same same]
  | some c =>
    obtain ⟨c',there,alike⟩ := cell_same same here
    have expr : c'.expr = c.expr := by simpa [Cell.outline] using congrArg Cell.expr alike
    have conclude : c'.conclude = c.conclude := by
      funext r
      have format : c'.format = c.format := by simpa [Cell.outline] using congrArg Cell.format alike
      have address : c'.address = c.address := by simpa [Cell.outline] using congrArg Cell.address alike
      cases r <;> simp [Cell.conclude,format,address]
    simp only [there,expr,conclude,resultOf_same same]

theorem scratch_same (inputs : NodeId → Option Value) : m'.scratch inputs = m.scratch inputs := by
  funext depth
  induction depth with
  | zero => rfl
  | succ depth ih =>
    funext id
    simp only [scratch,ih,derive_same same]

end

def lower (values : NodeId → Option Value) (rank : NodeId → Nat) (n : Nat) (id : NodeId) : Option Value :=
  if rank id < n then values id else none

-- Values that can be derived from the inputs one after the other.
structure Grounded (m : Model) (inputs values : NodeId → Option Value) : Prop where
  given : ∀ id v, inputs id = some v → values id = some v
  derived : ∃ rank : NodeId → Nat, ∃ bound, (∀ id, rank id < bound) ∧ ∀ id v, inputs id = none →
    values id = some v → m.derive (known (lower values rank (rank id))) id = .ok v

theorem lower_below (values : NodeId → Option Value) (rank : NodeId → Nat) (n : Nat) :
    Below (known (lower values rank n)) (known values) := by
  apply known_below
  intro id v found
  unfold lower at found
  split at found
  · exact found
  · cases found

namespace Grounded

theorem self (m : Model) (values : NodeId → Option Value) : m.Grounded values values :=
  ⟨fun _ _ found => found,fun _ => 0,1,fun _ => Nat.one_pos,fun id v free found => by simp [free] at found⟩

variable {m : Model} {inputs values : NodeId → Option Value}

theorem derive (grounded : m.Grounded inputs values) (free : inputs id = none) (found : values id = some v) :
    m.derive (known values) id = .ok v := by
  obtain ⟨rank,bound,-,derived⟩ := grounded.derived
  exact (m.derive_sharpens (lower_below values rank _) id).ok (derived id v free found)

-- Induction on the rank: a derivation reads values of lower rank only.
theorem scratch (grounded : m.Grounded inputs values) : ∃ n, Below (known values) (m.scratch inputs n) := by
  obtain ⟨rank,bound,bounded,derived⟩ := grounded.derived
  have computed : ∀ n id v, rank id < n → values id = some v → m.scratch inputs n id = .ok v := by
    intro n
    induction n with
    | zero => exact fun id v less => absurd less (Nat.not_lt_zero _)
    | succ n ih =>
      intro id v less found
      cases given : inputs id with
      | some w =>
        have same : values id = some w := grounded.given id w given
        rw [found] at same
        simp [Model.scratch,given,Option.some.inj same]
      | none =>
        rw [scratch_unknown m given]
        refine (m.derive_sharpens ?_ id).ok (derived id v given found)
        intro y
        unfold known lower
        split
        · rename_i w read
          split at read
          · rename_i lower
            exact .inr (ih y w (by omega) read)
          · cases read
        · exact .circle_left _
  refine ⟨bound,fun id => ?_⟩
  cases found : values id with
  | none => exact .inl (by simp [known,found])
  | some v => exact .inr (by simp [known,found,computed bound id v (bounded id) found])

theorem extend (grounded : m.Grounded inputs values) (fresh : values id = none)
    (value : m.derive (known values) id = .ok v) :
    m.Grounded inputs fun y => if y = id then some v else values y := by
  obtain ⟨rank,bound,bounded,derived⟩ := grounded.derived
  refine ⟨?_,fun y => if y = id then bound else rank y,bound + 1,?_,?_⟩
  · intro y w given
    have other : y ≠ id := by
      rintro rfl
      simp [grounded.given y w given] at fresh
    simp [other,grounded.given y w given]
  · intro y
    dsimp only
    split
    · omega
    · exact Nat.lt_succ_of_lt (bounded y)
  · intro y w free found
    dsimp only at found ⊢
    split at found
    · rename_i same
      subst same
      cases found
      refine (m.derive_sharpens (known_below ?_) y).ok value
      intro z u read
      have other : z ≠ y := by
        rintro rfl
        simp [fresh] at read
      simp [lower,other,bounded z,read]
    · rename_i other
      refine (m.derive_sharpens (known_below ?_) y).ok (derived y w free found)
      intro z u read
      unfold lower at read ⊢
      split at read
      · rename_i less
        have apart : z ≠ id := by
          rintro rfl
          simp [fresh] at read
        simp [apart,other,less,read]
      · cases read

end Grounded
end Model
end Recalc
