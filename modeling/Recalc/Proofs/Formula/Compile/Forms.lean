import Recalc.Formula.Compile

namespace Recalc
namespace Expr

inductive Form where
  | refused (e : FormulaError)
  | made (make : List Expr → Except FormulaError Expr)
  | array
  | position
  | fit

namespace Form

def condition (otherwise : FormulaError) : List Expr → Except FormulaError Expr
  | [c,t] => .ok (.ifThen c t)
  | [c,t,e] => .ok (.ifElse c t e)
  | _ => .error otherwise

def negation (otherwise : FormulaError) : List Expr → Except FormulaError Expr
  | [e] => .ok (.not e)
  | _ => .error otherwise

def choose (name : String) (arity : Nat) : Form :=
  let unsupported := FormulaError.unsupportedArity name arity
  if name = "IF" then
    if arity = 2 ∨ arity = 3 then .made (condition unsupported) else .refused unsupported
  else if name = "AND" ∨ name = "OR" then
    if arity = 0 then .refused unsupported else .made fun es => .ok (if name = "AND" then .all es else .any es)
  else if name = "NOT" then .made (negation unsupported)
  else if name = "ARRAY" then .array
  else if name = "ARRAYROW" then .made fun es => .ok (.array [es])
  else if name = "ROW" ∨ name = "COLUMN" then .position
  else if name = "LINEST" ∨ name = "LINESTMARIO" then
    if arity = 0 then .refused unsupported else .fit
  else match Function.ofName name with
    | none => .refused (.unknownFunction name)
    | some f => if f.arity.allows arity then .made fun es => .ok (.call f es) else .refused unsupported

-- In any monad where formulas can be refused. The parts are computed where they are needed.
def run {m : Type → Type} [Monad m] (answer : {α : Type} → Except FormulaError α → m α) (arguments : m (List Expr))
    (rows : m (List (List Expr))) (position : m Expr) (shape : m (Nat × Option Nat)) : Form → m Expr
  | refused e => answer (.error e)
  | made make => do answer (make (← arguments))
  | array => return .array (← rows)
  | .position => position
  | fit => do
    let args ← arguments
    let (degree,coefficient) ← shape
    return .linest args degree coefficient

inductive Over : String → List Expr → Expr → Prop where
  | ifThen (c t : Expr) : Over "IF" [c,t] (.ifThen c t)
  | ifElse (c t e : Expr) : Over "IF" [c,t,e] (.ifElse c t e)
  | all (es : List Expr) : Over "AND" es (.all es)
  | any (es : List Expr) : Over "OR" es (.any es)
  | not (e : Expr) : Over "NOT" [e] (.not e)
  | row (es : List Expr) : Over "ARRAYROW" es (.array [es])
  | call (named : Function.ofName name = some f) (es : List Expr) : Over name es (.call f es)

variable {name : String} {arity : Nat} {es : List Expr} {e : Expr} {make : List Expr → Except FormulaError Expr}

theorem choose_made (chosen : choose name arity = .made make) (made : make es = .ok e) : Over name es e := by
  unfold choose at chosen
  dsimp only at chosen
  split at chosen
  · rename_i named
    split at chosen
    · cases chosen
      subst named
      unfold condition at made
      split at made <;> cases made
      · exact .ifThen _ _
      · exact .ifElse _ _ _
    · cases chosen
  split at chosen
  · rename_i named
    split at chosen
    · cases chosen
    · cases chosen
      rcases named with rfl | rfl
      · cases made
        exact .all es
      · cases made
        exact .any es
  split at chosen
  · rename_i named
    cases chosen
    subst named
    unfold negation at made
    split at made <;> cases made
    exact .not _
  split at chosen
  · cases chosen
  split at chosen
  · rename_i named
    cases chosen
    cases made
    subst named
    exact .row es
  split at chosen
  · cases chosen
  split at chosen
  · split at chosen <;> cases chosen
  split at chosen
  · cases chosen
  · rename_i f found
    split at chosen
    · cases chosen
      cases made
      exact .call found es
    · cases chosen

theorem choose_tableless (other : choose name arity = .array ∨ choose name arity = .fit) : name ≠ "VLOOKUP" ∧ name ≠ "HLOOKUP" := by
  have called (f : Function) (name : String) : ¬ ((if f.arity.allows arity then made fun es => .ok (.call f es)
      else refused (.unsupportedArity name arity)) = array ∨ (if f.arity.allows arity then made fun es => .ok (.call f es)
      else refused (.unsupportedArity name arity)) = fit) := by
    split <;> simp
  constructor
  · rintro rfl
    exact called .vlookup _ other
  · rintro rfl
    exact called .hlookup _ other

end Form
end Expr

end Recalc
