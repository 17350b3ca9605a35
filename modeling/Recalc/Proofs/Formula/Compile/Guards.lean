import Recalc.Formula.Fault

namespace Recalc.Guarded

variable {α β : Type} {stops : Fault → Prop} {x : Guarded α} {r : Except FormulaError α}

-- Answers as the plain computation does, or ends at one of the faults.
def Follows (stops : Fault → Prop) (x : Guarded α) (r : Except FormulaError α) : Prop :=
  x = ofFormula r ∨ ∃ f, stops f ∧ x = fault f

theorem Follows.answer (r : Except FormulaError α) : Follows stops (ofFormula r) r := .inl rfl

theorem Follows.done (a : α) : Follows stops (pure a) (pure a) := .inl rfl

theorem Follows.bind {k : α → Guarded β} {next : α → Except FormulaError β} (first : Follows stops x r)
    (rest : ∀ a, r = .ok a → Follows stops (k a) (next a)) : Follows stops (x >>= k) (r >>= next) := by
  obtain rfl | ⟨f,stop,rfl⟩ := first
  · cases r with
    | error e => exact .inl rfl
    | ok a => exact rest a rfl
  · exact .inr ⟨f,stop,rfl⟩

theorem Follows.mapM {ι κ : Type} {f : ι → Guarded α} {g : κ → Except FormulaError α} {is : List ι} {ks : List κ} (length : is.length = ks.length)
    (each : ∀ (n : Nat) i k, is[n]? = some i → ks[n]? = some k → Follows stops (f i) (g k)) : Follows stops (is.mapM f) (ks.mapM g) := by
  induction ks generalizing is with
  | nil =>
    obtain rfl := List.length_eq_zero_iff.mp length
    exact .done []
  | cons k ks ih =>
    obtain ⟨i,is,rfl⟩ := List.exists_cons_of_length_eq_add_one length
    rw [List.mapM_cons,List.mapM_cons]
    refine (each 0 i k rfl rfl).bind fun a _ => ?_
    exact (ih (by simpa using length) fun n => each (n + 1)).bind fun as _ => .done (a :: as)

theorem Follows.mono {wider : Fault → Prop} (follows : Follows stops x r) (wide : ∀ f, stops f → wider f) : Follows wider x r :=
  follows.imp_right fun ⟨f,stop,faulty⟩ => ⟨f,wide f stop,faulty⟩

@[simp] theorem ofFormula_ok (a : α) : ofFormula (.ok a) = (pure a : Guarded α) := rfl

@[simp] theorem ofFormula_pure (a : α) : ofFormula (pure a) = (pure a : Guarded α) := rfl

theorem ofFormula_bind (r : Except FormulaError α) (next : α → Except FormulaError β) :
    ofFormula (r >>= next) = ofFormula r >>= fun a => ofFormula (next a) := by
  cases r <;> rfl

theorem element_some {list : List α} {a : α} {index : Nat} (there : list[index]? = some a) : element list index = pure a := by
  simp [element,there]

theorem minus_le {a b : Nat} (below : b ≤ a) : minus a b = pure (a - b) := if_pos below

theorem plus_lt {a b : Nat} (inside : a + b < Column.limit) : plus a b = pure (a + b) := if_pos inside

theorem plus_not_lt {a b : Nat} (outside : Column.limit ≤ a + b) : plus a b = fault .beyond := if_neg (by omega)

end Recalc.Guarded
