import Recalc.Address.Rect
import Recalc.Formula.Error
import Recalc.Value

namespace Recalc

-- `bare` tells a reference that the formula itself makes from a cell that is read through a
-- range. Nothing here can fail: only the one who answers can.
inductive Query (α : Type) where
  | done (a : α)
  | cell (bare : Bool) (address : String) (next : Value → Query α)
  | range (address : String) (next : Rect → Query α)

namespace Query

def bind {α β : Type} : Query α → (α → Query β) → Query β
  | done a, f => f a
  | cell bare address next, f => cell bare address fun v => (next v).bind f
  | range address next, f => range address fun r => (next r).bind f

instance : Monad Query where
  pure := done
  bind := bind

theorem bind_done {α : Type} (q : Query α) : q.bind done = q := by
  induction q with
  | done a => rfl
  | cell bare address next ih => simp only [bind,ih]
  | range address next ih => simp only [bind,ih]

theorem bind_assoc {α β γ : Type} (q : Query α) (f : α → Query β) (g : β → Query γ) :
    (q.bind f).bind g = q.bind fun a => (f a).bind g := by
  induction q with
  | done a => rfl
  | cell bare address next ih => simp only [bind,ih]
  | range address next ih => simp only [bind,ih]

instance : LawfulMonad Query := LawfulMonad.mk' Query
  bind_done (fun _ _ => rfl) bind_assoc

def entry (address : String) : Query Value := cell false address done

structure Source (m : Type → Type) where
  cell : Bool → String → m Value
  range : String → m Rect

def answer {m : Type → Type} [Monad m] {α : Type} (source : Source m) : Query α → m α
  | done a => pure a
  | cell bare address next => do answer source (next (← source.cell bare address))
  | range address next => do answer source (next (← source.range address))

theorem answer_bind {m : Type → Type} [Monad m] [LawfulMonad m] {α β : Type} (source : Source m)
    (q : Query α) (f : α → Query β) :
    (q.bind f).answer source = q.answer source >>= fun a => (f a).answer source := by
  induction q with
  | done a => simp [bind,answer]
  | cell bare address next ih => simp [bind,answer,ih]
  | range address next ih => simp [bind,answer,ih]

end Query

-- Queries that may end early with an error value, which is a result like any other.
abbrev Work := ExceptT ErrorValue Query

namespace Work

def settle (w : Work Value) : Query Value := do
  match ← w.run with
  | .ok v => return v
  | .error e => return .error e

def ofExcept {α : Type} (result : Except ErrorValue α) : Work α := ExceptT.mk (.done result)

end Work

namespace Rect

def ofAddress (address : String) : Except FormulaError Rect := liftReference (parse address "")

def size (r : Rect) : Nat := r.rows * r.columns

def isVector (r : Rect) : Bool := r.rows == 1 || r.columns == 1

def valueAt (r : Rect) (row column : Nat) : Query Value :=
  match r.cell? row column with
  | some cell => .entry cell.text
  | none => .done (.error .ref)

def valueAtIndex (r : Rect) (index : Nat) : Query Value :=
  if r.rows = 1 then r.valueAt 0 index else r.valueAt index 0

def values (r : Rect) : Query (List Value) := r.cells.mapM fun cell => .entry cell.text

def valueGrid (r : Rect) : Query (List (List Value)) :=
  r.grid.mapM fun row => row.mapM fun cell => .entry cell.text

end Rect

inductive Operand where
  | value (v : Value)
  | range (r : Rect)

namespace Operand

def firstOf (rows : List (List Value)) : Value :=
  ((rows.head?.bind List.head?).getD (.error .value))

def scalar : Operand → Query Value
  | .value (.array rows) => .done (firstOf rows)
  | .value v => .done v
  | .range r => if r.size = 1 then r.valueAt 0 0 else .done (.error .value)

def flatten : Operand → Query (List Value)
  | .value v => .done v.flatten
  | .range r => r.values

def grid : Operand → Query (List (List Value))
  | .value (.array rows) => .done rows
  | .value v => .done [[v]]
  | .range r => r.valueGrid

def isDirect : Operand → Bool
  | .value v => !v.isArray
  | .range _ => false

def number (o : Operand) : Work Float := do
  Work.ofExcept (Value.toNumber (← o.scalar))

def truth (o : Operand) : Work Bool := do
  Work.ofExcept (Value.toBool (← o.scalar))

def text (o : Operand) : Work String := do
  match (← o.scalar : Value) with
  | .error e => throw e
  | .array _ => throw .value
  | v => return v.toText

end Operand
end Recalc
