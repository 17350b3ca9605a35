namespace Recalc

-- What holds of doing nothing, and of one step after the other where it holds of both.
structure Composes {m : Type → Type} [Monad m] (P : (α : Type) → m α → Prop) : Prop where
  pure : ∀ {α : Type} (a : α), P α (pure a)
  bind : ∀ {α β : Type} {x : m α} {f : α → m β}, P α x → (∀ a, P β (f a)) → P β (x >>= f)

namespace Composes
variable {m : Type → Type} [Monad m] {P : (α : Type) → m α → Prop} {α β : Type} {as : List α} (composes : Composes P)
include composes

theorem forM {f : α → m Unit} (each : ∀ a ∈ as, P Unit (f a)) : P Unit (as.forM f) := by
  induction as with
  | nil => exact composes.pure ()
  | cons a as ih =>
    obtain ⟨here,there⟩ := List.forall_mem_cons.mp each
    exact composes.bind here fun _ => ih there

theorem mapM [LawfulMonad m] {f : α → m β} (each : ∀ a ∈ as, P β (f a)) : P (List β) (as.mapM f) := by
  induction as with
  | nil => exact composes.pure []
  | cons a as ih =>
    obtain ⟨here,there⟩ := List.forall_mem_cons.mp each
    rw [List.mapM_cons]
    exact composes.bind here fun b => composes.bind (ih there) fun bs => composes.pure (b :: bs)

theorem foldlM {f : β → α → m β} (each : ∀ b, ∀ a ∈ as, P β (f b a)) (start : β) : P β (as.foldlM f start) := by
  induction as generalizing start with
  | nil => exact composes.pure start
  | cons a as ih =>
    rw [List.foldlM_cons]
    exact composes.bind (each start a List.mem_cons_self) fun next => ih (fun b c listed => each b c (List.mem_cons_of_mem a listed)) next

end Composes
end Recalc
