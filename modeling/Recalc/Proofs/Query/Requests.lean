import Recalc.Proofs.Query.Composing
import Recalc.Query

namespace Recalc

structure Grants where
  rects : String → Except FormulaError Rect
  cells : String → Prop

namespace Query
variable {α β : Type} {g : Grants}

-- Whatever the cells answer, only granted ones are asked for, every range asked for is
-- there, and the result satisfies `post`.
def Ensures (g : Grants) : Query α → (α → Prop) → Prop
  | done a, post => post a
  | cell _ address next, post => g.cells address ∧ ∀ v, (next v).Ensures g post
  | range address next, post => ∃ r, g.rects address = .ok r ∧ (next r).Ensures g post

theorem Ensures.bind {q : Query α} {f : α → Query β} {mid : α → Prop} {post : β → Prop}
    (first : q.Ensures g mid) (rest : ∀ a, mid a → (f a).Ensures g post) : (q >>= f).Ensures g post := by
  change (q.bind f).Ensures g post
  induction q with
  | done a => exact rest a first
  | cell bare address next ih => exact ⟨first.1,fun v => ih v (first.2 v)⟩
  | range address next ih =>
    obtain ⟨r,found,further⟩ := first
    exact ⟨r,found,ih r further⟩

theorem Ensures.mono {q : Query α} {mid post : α → Prop} (ensures : q.Ensures g mid) (weaker : ∀ a, mid a → post a) :
    q.Ensures g post := by
  induction q with
  | done a => exact weaker a ensures
  | cell bare address next ih => exact ⟨ensures.1,fun v => ih v (ensures.2 v)⟩
  | range address next ih =>
    obtain ⟨r,found,further⟩ := ensures
    exact ⟨r,found,ih r further⟩

def Asks (g : Grants) (q : Query α) : Prop := q.Ensures g fun _ => True

namespace Asks

theorem pure (a : α) : (Pure.pure a : Query α).Asks g := trivial

theorem bind {q : Query α} {f : α → Query β} (first : q.Asks g) (rest : ∀ a, (f a).Asks g) : (q >>= f).Asks g :=
  Ensures.bind first fun a _ => rest a

theorem composes : Composes fun α (q : Query α) => q.Asks g := ⟨pure,bind⟩

theorem mapM {f : α → Query β} {as : List α} (each : ∀ a ∈ as, (f a).Asks g) : (as.mapM f).Asks g := composes.mapM each

end Asks
end Query

namespace Work
variable {α β : Type} {g : Grants}

def Asks (g : Grants) (w : Work α) : Prop := Query.Asks g w.run

def Ensures (g : Grants) (w : Work α) (post : α → Prop) : Prop :=
  Query.Ensures g w.run fun result => ∀ a, result = .ok a → post a

theorem Ensures.bind {w : Work α} {f : α → Work β} {post : α → Prop} (first : w.Ensures g post)
    (rest : ∀ a, post a → (f a).Asks g) : (w >>= f).Asks g :=
  Query.Ensures.bind first fun result known => match result with
    | .ok a => rest a (known a rfl)
    | .error _ => Query.Asks.pure _

theorem Ensures.lift {q : Query α} {post : α → Prop} (ensures : q.Ensures g post) :
    (liftM q : Work α).Ensures g post :=
  Query.Ensures.bind ensures fun a known => by
    rintro b ⟨⟩
    exact known

theorem Asks.ensures {w : Work α} {post : α → Prop} (asks : w.Asks g) (always : ∀ a, post a) : w.Ensures g post :=
  Query.Ensures.mono asks fun _ _ a _ => always a

namespace Asks

theorem pure (a : α) : (Pure.pure a : Work α).Asks g := trivial

theorem throw (e : ErrorValue) : (MonadExcept.throw e : Work α).Asks g := trivial

theorem throw_bind (e : ErrorValue) (f : α → Work β) : ((MonadExcept.throw e : Work α) >>= f).Asks g := trivial

theorem ofExcept (result : Except ErrorValue α) : (Work.ofExcept result).Asks g := trivial

theorem lift {q : Query α} (asks : q.Asks g) : (liftM q : Work α).Asks g :=
  Query.Asks.bind asks fun _ => Query.Asks.pure _

theorem bind {w : Work α} {f : α → Work β} (first : w.Asks g) (rest : ∀ a, (f a).Asks g) : (w >>= f).Asks g :=
  Query.Asks.bind first fun result => match result with
    | .ok a => rest a
    | .error _ => Query.Asks.pure _

theorem composes : Composes fun α (w : Work α) => w.Asks g := ⟨pure,bind⟩

theorem mapM {f : α → Work β} {as : List α} (each : ∀ a ∈ as, (f a).Asks g) : (as.mapM f).Asks g := composes.mapM each

theorem foldlM {f : β → α → Work β} {as : List α} (each : ∀ b, ∀ a ∈ as, (f b a).Asks g) (b : β) :
    (as.foldlM f b).Asks g := composes.foldlM each b

theorem settle {w : Work Value} (asks : w.Asks g) : w.settle.Asks g :=
  Query.Asks.bind asks fun result => match result with
    | .ok _ => trivial
    | .error _ => trivial

end Asks
end Work

def Rect.Granted (g : Grants) (r : Rect) : Prop :=
  ∀ row column, row < r.rows → column < r.columns → g.cells (r.cellAt row column).text

namespace Rect
variable {g : Grants} {r : Rect}

theorem valueAt_asks (granted : row < r.rows → column < r.columns → g.cells (r.cellAt row column).text) :
    (r.valueAt row column).Asks g := by
  unfold valueAt cell?
  split
  · rename_i found
    split at found
    · rename_i inside
      cases found
      exact ⟨granted inside.1 inside.2,fun v => trivial⟩
    · cases found
  · trivial

theorem mem_grid (listed : row ∈ r.grid) (member : cell ∈ row) :
    ∃ i j, i < r.rows ∧ j < r.columns ∧ cell = r.cellAt i j := by
  simp only [grid,List.mem_map,List.mem_range] at listed
  obtain ⟨i,inside,rfl⟩ := listed
  simp only [List.mem_map,List.mem_range] at member
  obtain ⟨j,within,rfl⟩ := member
  exact ⟨i,j,inside,within,rfl⟩

section
variable (granted : r.Granted g)
include granted

theorem entry_asks (listed : row ∈ r.grid) (member : cell ∈ row) : (Query.entry cell.text).Asks g := by
  obtain ⟨i,j,inside,within,rfl⟩ := mem_grid listed member
  exact ⟨granted i j inside within,fun v => trivial⟩

theorem values_asks : r.values.Asks g := by
  apply Query.Asks.mapM
  intro cell member
  obtain ⟨row,listed,member⟩ := List.mem_flatten.mp member
  exact entry_asks granted listed member

theorem valueGrid_asks : r.valueGrid.Asks g :=
  .mapM fun _ listed => .mapM fun _ member => entry_asks granted listed member

end
end Rect

namespace Operand
variable {g : Grants} {o : Operand}

def Granted (g : Grants) : Operand → Prop
  | .value _ => True
  | .range r => r.Granted g

section
variable (granted : o.Granted g)
include granted

theorem scalar_asks : o.scalar.Asks g := by
  unfold scalar
  split
  · trivial
  · trivial
  · split
    · exact Rect.valueAt_asks (granted 0 0)
    · trivial

theorem flatten_asks : o.flatten.Asks g := by
  cases o with
  | value v => trivial
  | range r => exact Rect.values_asks granted

theorem grid_asks : o.grid.Asks g := by
  unfold grid
  split
  · trivial
  · trivial
  · exact Rect.valueGrid_asks granted

theorem number_asks : o.number.Asks g := (Work.Asks.lift (scalar_asks granted)).bind fun _ => .ofExcept _

theorem truth_asks : o.truth.Asks g := (Work.Asks.lift (scalar_asks granted)).bind fun _ => .ofExcept _

theorem text_asks : o.text.Asks g := by
  refine (Work.Asks.lift (scalar_asks granted)).bind fun v => ?_
  split
  · exact .throw _
  · exact .throw _
  · exact .pure _

end
end Operand
end Recalc
