import Recalc.Model.Graph
import Recalc.Query

namespace Recalc

-- Stands for an evaluation that has not come to an end: what a circle of formulas gives at
-- every depth.
def circle {α : Type} : Except FormulaError α := .error (.circularReference "" "")

def Sharpens {α : Type} (r r' : Except FormulaError α) : Prop := r = circle ∨ r' = r

namespace Sharpens
variable {α β : Type} {r r' r'' : Except FormulaError α}

theorem refl (r : Except FormulaError α) : Sharpens r r := .inr rfl

theorem circle_left (r : Except FormulaError α) : Sharpens circle r := .inl rfl

theorem trans (one : Sharpens r r') (two : Sharpens r' r'') : Sharpens r r'' := by
  rcases one with h | rfl
  · exact .inl h
  · exact two

theorem ok (sharper : Sharpens r r') (result : r = .ok v) : r' = .ok v := by
  rcases sharper with h | rfl
  · simp [h,circle] at result
  · exact result

theorem error (sharper : Sharpens r r') (result : r = .error e) (ends : (.error e : Except FormulaError α) ≠ circle) :
    r' = .error e := by
  rcases sharper with h | rfl
  · exact absurd (result.symm.trans h) ends
  · exact result

theorem eq_circle (sharper : Sharpens r r') (result : r' = circle) : r = circle := by
  rcases sharper with h | rfl
  · exact h
  · exact result

theorem bind {f f' : α → Except FormulaError β} (first : Sharpens r r') (rest : ∀ a, Sharpens (f a) (f' a)) :
    Sharpens (r >>= f) (r' >>= f') := by
  rcases first with rfl | rfl
  · exact .inl rfl
  · cases r' with
    | error e => exact refl _
    | ok a => exact rest a

theorem mapM {f f' : α → Except FormulaError β} (each : ∀ a, Sharpens (f a) (f' a)) (as : List α) :
    Sharpens (as.mapM f) (as.mapM f') := by
  induction as with
  | nil => exact refl _
  | cons a as ih =>
    simp only [List.mapM_cons]
    exact (each a).bind fun b => ih.bind fun bs => refl _

theorem answer {s s' : Query.Source (Except FormulaError)}
    (cells : ∀ bare address, Sharpens (s.cell bare address) (s'.cell bare address))
    (ranges : s.range = s'.range) (q : Query α) : Sharpens (q.answer s) (q.answer s') := by
  induction q with
  | done a => exact refl _
  | cell bare address next ih => exact (cells bare address).bind ih
  | range address next ih =>
    simp only [Query.answer,ranges]
    exact (refl _).bind ih

end Sharpens

def Below (c c' : NodeId → Except FormulaError Value) : Prop := ∀ id, Sharpens (c id) (c' id)

namespace Below

theorem refl (c : NodeId → Except FormulaError Value) : Below c c := fun _ => .refl _

theorem trans (one : Below c c') (two : Below c' c'') : Below c c'' := fun id => (one id).trans (two id)

end Below
end Recalc
