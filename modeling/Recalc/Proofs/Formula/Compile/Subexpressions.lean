import Recalc.Proofs.Formula.Compile.Compilation

namespace Recalc
namespace Expr

mutual
def parts : Expr → List Expr
  | .literal v => [.literal v]
  | .cell address => [.cell address]
  | .range address => [.range address]
  | .unary op e => .unary op e :: parts e
  | .binary op l r => .binary op l r :: (parts l ++ parts r)
  | .ifThen c t => .ifThen c t :: (parts c ++ parts t)
  | .ifElse c t e => .ifElse c t e :: (parts c ++ parts t ++ parts e)
  | .all args => .all args :: partsEach args
  | .any args => .any args :: partsEach args
  | .not e => .not e :: parts e
  | .array rows => .array rows :: partsRows rows
  | .call f args => .call f args :: partsEach args
  | .linest args degree coefficient => .linest args degree coefficient :: partsEach args
def partsEach : List Expr → List Expr
  | [] => []
  | e :: es => parts e ++ partsEach es
def partsRows : List (List Expr) → List Expr
  | [] => []
  | r :: rs => partsEach r ++ partsRows rs
end

def children : Expr → List Expr
  | .unary _ e => [e]
  | .binary _ l r => [l,r]
  | .ifThen c t => [c,t]
  | .ifElse c t e => [c,t,e]
  | .all args => args
  | .any args => args
  | .not e => [e]
  | .array rows => rows.flatten
  | .call _ args => args
  | .linest args _ _ => args
  | _ => []

def isLiteral : Expr → Bool
  | .literal _ => true
  | _ => false

theorem partsEach_flatMap (es : List Expr) : partsEach es = es.flatMap parts := by
  induction es with
  | nil => rfl
  | cons e es ih => rw [partsEach,ih,List.flatMap_cons]

theorem partsRows_flatMap (rows : List (List Expr)) : partsRows rows = rows.flatten.flatMap parts := by
  induction rows with
  | nil => rfl
  | cons r rs ih => rw [partsRows,ih,partsEach_flatMap,List.flatten_cons,List.flatMap_append]

theorem parts_children (e : Expr) : e.parts = e :: e.children.flatMap parts := by
  cases e <;> simp [parts,children,partsEach_flatMap,partsRows_flatMap]

theorem mem_parts {p e : Expr} : p ∈ e.parts ↔ p = e ∨ ∃ c ∈ e.children, p ∈ c.parts := by
  rw [parts_children,List.mem_cons,List.mem_flatMap]

theorem self_parts (e : Expr) : e ∈ e.parts := mem_parts.mpr (.inl rfl)

theorem child_parts {c e p : Expr} (child : c ∈ e.children) (part : p ∈ c.parts) : p ∈ e.parts :=
  mem_parts.mpr (.inr ⟨c,child,part⟩)

theorem child_smaller {c e : Expr} (child : c ∈ e.children) : sizeOf c < sizeOf e := by
  have listed (es : List Expr) (member : c ∈ es) : sizeOf c < sizeOf es := List.sizeOf_lt_of_mem member
  cases e with
  | array rows =>
    obtain ⟨row,member,inside⟩ := List.mem_flatten.mp child
    have whole := List.sizeOf_lt_of_mem member
    have item := listed row inside
    simp only [array.sizeOf_spec]
    omega
  | all args | any args | call f args | linest args degree coefficient =>
    have item := listed args child
    simp only [all.sizeOf_spec,any.sizeOf_spec,call.sizeOf_spec,linest.sizeOf_spec]
    omega
  | literal | cell | range => cases child
  | unary | binary | ifThen | ifElse | not =>
    simp only [children,List.mem_cons,List.not_mem_nil,or_false] at child
    simp only [unary.sizeOf_spec,binary.sizeOf_spec,ifThen.sizeOf_spec,ifElse.sizeOf_spec,not.sizeOf_spec]
    rcases child with rfl | rfl | rfl <;> omega

-- Induction on all that an expression is made of.
theorem children_induction {P : Expr → Prop} (step : ∀ e, (∀ c ∈ e.children, P c) → P e) (e : Expr) : P e :=
  step e fun c child =>
    have := child_smaller child
    children_induction step c
  termination_by sizeOf e

end Expr
end Recalc
