import Recalc.Proofs.Formula.Compile.Generation
import Recalc.Proofs.Formula.Compile.Subexpressions

namespace Recalc

open Recalc.Tree Recalc.Expr Guarded

-- Computations that have an answer only where each of their steps has one.
class Answers (m : Type → Type) [Monad m] : Prop where
  bind : ∀ {α β : Type} {x : m α} {f : α → m β} {b : β}, x >>= f = pure b → ∃ a, x = pure a ∧ f a = pure b
  pure : ∀ {α : Type} {a b : α}, (Pure.pure a : m α) = Pure.pure b → a = b

instance : Answers (Except FormulaError) where
  bind answer := bind_ok.mp answer
  pure same := Except.ok.inj same

instance : Answers Guarded where
  bind {α β} x f b answer := by
    rcases x with fault | (error | a)
    · cases answer
    · cases answer
    · exact ⟨a,rfl,answer⟩
  pure same := Except.ok.inj (Except.ok.inj same)

section
variable {m : Type → Type} [Monad m] [Answers m] {α β : Type} {P : α → Prop} {Q : β → Prop} {x : m α}

def Yields (P : α → Prop) (x : m α) : Prop := ∀ a, x = pure a → P a

theorem Yields.done {a : α} (here : P a) : Yields P (pure a : m α) := fun _ same => Answers.pure same ▸ here

theorem Yields.bind {f : α → m β} (first : Yields P x) (rest : ∀ a, P a → Yields Q (f a)) : Yields Q (x >>= f) := by
  intro b answer
  obtain ⟨a,here,there⟩ := Answers.bind answer
  exact rest a (first a here) b there

theorem Yields.mapM [LawfulMonad m] {f : β → m α} {bs : List β} (each : ∀ b ∈ bs, Yields P (f b)) :
    Yields (fun as => ∀ a ∈ as, P a) (bs.mapM f) := by
  induction bs with
  | nil => exact .done (fun _ member => nomatch member)
  | cons b bs ih =>
    rw [List.mapM_cons]
    obtain ⟨here,there⟩ := List.forall_mem_cons.mp each
    exact here.bind fun a first => (ih there).bind fun as rest => .done (List.forall_mem_cons.mpr ⟨first,rest⟩)

theorem Yields.answer {r : Except FormulaError α} (yields : Yields P r) : Yields P (ofFormula r) := by
  intro a same
  cases r with
  | error e => cases same
  | ok b => exact yields a (congrArg Except.ok (Answers.pure (m := Guarded) same))

theorem Yields.refused (e : FormulaError) : Yields P (.error e : Except FormulaError α) := fun _ same => nomatch same

end

namespace Expr
variable {P : Value → Prop} {e : Expr} {es : List Expr}

def Holds (P : Value → Prop) (e : Expr) : Prop := ∀ v, .literal v ∈ e.parts → P v

theorem holds_literal {v : Value} (here : P v) : Holds P (.literal v) := by
  intro w part
  obtain rfl : w = v := by simpa [parts] using part
  exact here

theorem holds_children (inner : ∀ c ∈ e.children, Holds P c) (other : e.isLiteral = false) : Holds P e := by
  intro v part
  rcases mem_parts.mp part with rfl | ⟨c,child,part⟩
  · cases other
  · exact inner c child v part

def HoldsAll (P : Value → Prop) (es : List Expr) : Prop := ∀ e ∈ es, Holds P e

theorem ofOperand_holds {t : Token} (number : t.subkind = .number → ∀ x, Decimal.number? t.text.toList = some x → P (.number x))
    (text : ∀ s, P (.text s)) (truth : ∀ b, P (.boolean b)) (error : ∀ e, P (.error e)) : Yields (Holds P) (ofOperand t) := by
  unfold ofOperand
  split
  · rename_i kind
    split
    · rename_i x found
      exact .done (holds_literal (number kind x found))
    · exact .refused _
  · exact .done (holds_literal (text _))
  · exact .done (holds_literal (truth _))
  · split
    · exact .done (holds_literal (error _))
    · exact .refused _
  · exact .refused _

theorem ofOperator_holds {t : Token} (inner : HoldsAll P es) : Yields (Holds P) (ofOperator t es) := by
  unfold ofOperator
  split
  · split
    · exact .refused _
    · split
      · exact .done (holds_children inner rfl)
      · exact .refused _
  · split
    · exact .refused _
    · split
      · exact .done (holds_children inner rfl)
      · exact .refused _

theorem ofReference_holds (site : Site) (t : Token) : Yields (Holds P) (ofReference site t) := by
  intro e made
  obtain ⟨address,-,last⟩ := bind_ok.mp made
  cases last
  split <;> exact holds_children (fun c child => by cases child) rfl

theorem ofPosition_holds (count : ∀ n, P (.number (Float.ofNat n))) (site : Site) (name : String) (children : List Tree) :
    Yields (Holds P) (ofPosition site name children) := by
  rcases children with _ | ⟨reference,_ | ⟨second,rest⟩⟩
  · exact .done (holds_literal (count _))
  · change Yields _ (if reference.item.kind ≠ .range then _ else _)
    split
    · exact .refused _
    · exact Yields.bind (fun _ _ => trivial) fun r _ => .done (holds_literal (count _))
  · exact .refused _

theorem ofTrees_holds {site : Site} {ts : List Tree} (each : ∀ t ∈ ts, Yields (Holds P) (ofTree site t)) : Yields (HoldsAll P) (ofTrees site ts) := by
  rw [ofTrees_mapM]
  exact .mapM each

theorem rows_holds {ts : List Tree} (here : HoldsAll P es) : ∀ row ∈ List.zipWith rowOf ts es, HoldsAll P row := by
  induction ts generalizing es with
  | nil => exact fun row listed => nomatch listed
  | cons t ts ih =>
    cases es with
    | nil => exact fun row listed => nomatch listed
    | cons e es =>
      obtain ⟨first,rest⟩ := List.forall_mem_cons.mp here
      refine List.forall_mem_cons.mpr ⟨?_,ih rest⟩
      unfold rowOf
      split
      · exact fun x item v part => first v (child_parts (by simpa [children] using item) part)
      · exact List.forall_mem_singleton.mpr first

theorem array_holds {rows : List (List Expr)} (here : ∀ row ∈ rows, HoldsAll P row) : Holds P (.array rows) := by
  refine holds_children (fun c child => ?_) rfl
  obtain ⟨row,listed,item⟩ := List.mem_flatten.mp child
  exact here row listed c item

theorem Form.Over.parts {name : String} (chosen : Over name es e) : e.children = es ∧ e.isLiteral = false := by
  cases chosen with
  | row es => exact ⟨List.append_nil es,rfl⟩
  | _ => exact ⟨rfl,rfl⟩

theorem Form.run_holds {m : Type → Type} [Monad m] [Answers m] {answer : {α : Type} → Except FormulaError α → m α} {name : String} {arity : Nat}
    (answers : ∀ {r : Except FormulaError Expr}, Yields (Holds P) r → Yields (Holds P) (answer r)) {arguments : m (List Expr)}
    {rows : m (List (List Expr))} {position : m Expr} {shape : m (Nat × Option Nat)} (args : Yields (HoldsAll P) arguments)
    (each : Yields (fun rows => ∀ row ∈ rows, HoldsAll P row) rows) (place : Yields (Holds P) position) :
    Yields (Holds P) ((choose name arity).run answer arguments rows position shape) := by
  cases chosen : choose name arity with
  | refused e => exact answers (.refused e)
  | made make =>
    refine args.bind fun es here => answers fun e made => ?_
    obtain ⟨inner,other⟩ := (choose_made chosen made).parts
    exact holds_children (inner ▸ here) other
  | array => exact each.bind fun rows here => .done (array_holds here)
  | position => exact place
  | fit => exact args.bind fun es here => Yields.bind (fun _ _ => trivial) fun shape _ => .done (holds_children here rfl)

theorem ofTree_function_holds {site : Site} {item : Item} {ts : List Tree} (count : ∀ n, P (.number (Float.ofNat n)))
    (kind : item.kind = .function) (each : ∀ t ∈ ts, Yields (Holds P) (ofTree site t)) : Yields (Holds P) (ofTree site (.node item ts)) := by
  have args := ofTrees_holds each
  rw [ofTree_form kind]
  exact Form.run_holds id args (args.bind fun es here => .done (rows_holds here)) (ofPosition_holds count site _ ts)

theorem ofTree_holds {site : Site} {t : Tree} (count : ∀ n, P (.number (Float.ofNat n)))
    (operand : ∀ i ∈ t.items, i.kind = .operand → Yields (Holds P) (ofOperand i.token)) : Yields (Holds P) (ofTree site t) := by
  have smaller {u : Tree} (member : u ∈ t.children) : u.size < t.size := size_child member
  have each : ∀ u ∈ t.children, Yields (Holds P) (ofTree site u) := fun u member =>
    have := smaller member
    ofTree_holds count fun i listed => operand i (items_child member listed)
  obtain ⟨item,children⟩ := t
  have here : item ∈ (node item children).items := List.mem_append_right _ List.mem_cons_self
  cases kind : item.kind with
  | operand =>
    rw [ofTree_operand kind]
    exact operand item here kind
  | range =>
    rw [ofTree_range kind]
    exact ofReference_holds site item.token
  | operator =>
    rw [ofTree_operator kind]
    exact (ofTrees_holds each).bind fun es inner => ofOperator_holds inner
  | generic =>
    rw [ofTree_generic kind]
    exact .refused _
  | function => exact ofTree_function_holds count kind each
  termination_by t.size

end Expr

namespace Arena
variable {P : Value → Prop} {nodes : List Placed} {compile : Nat → Guarded Expr}

theorem row_holds (each : ∀ j, Yields (Holds P) (compile j)) (j : Nat) : Yields (HoldsAll P) (row nodes compile j) := by
  refine Yields.bind (fun _ _ => trivial) fun n _ => ?_
  split
  · exact .mapM fun k _ => each k
  · exact (each j).bind fun e here => .done (List.forall_mem_singleton.mpr here)

theorem position_holds (count : ∀ n, P (.number (Float.ofNat n))) (site : Site) (name : String) (indices : List Nat) :
    Yields (Holds P) (position site name nodes indices) := by
  unfold position
  split
  · exact (ofPosition_holds count site name []).answer
  · exact Yields.bind (fun _ _ => trivial) fun n _ => (ofPosition_holds count site name _).answer
  · exact (Yields.refused _).answer

theorem call_holds (site : Site) (name : String) (arity : Nat) {arguments : Guarded (List Expr)} {rows : Guarded (List (List Expr))}
    {placed : Guarded Expr} (args : Yields (HoldsAll P) arguments) (each : Yields (fun rows => ∀ row ∈ rows, HoldsAll P row) rows)
    (place : Yields (Holds P) placed) : Yields (Holds P) (call site name arity arguments rows placed) := by
  rw [call_form]
  exact Form.run_holds Yields.answer args each place

theorem generate_holds {site : Site} (count : ∀ n, P (.number (Float.ofNat n))) (operand : ∀ t, Yields (Holds P) (ofOperand t)) (depth index : Nat) :
    Yields (Holds P) (generate site nodes depth index) := by
  induction depth generalizing index with
  | zero => exact fun e same => nomatch same
  | succ depth ih =>
    refine Yields.bind (fun _ _ => trivial) fun n _ => ?_
    have args : Yields (HoldsAll P) (n.children.mapM (generate site nodes depth)) := .mapM fun j _ => ih j
    dsimp only
    split
    · exact (operand _).answer
    · exact (ofReference_holds site _).answer
    · exact args.bind fun es inner => (ofOperator_holds inner).answer
    · exact (Yields.refused _).answer
    · exact Yields.bind (fun _ _ => trivial) fun name _ => call_holds site _ _ args (.mapM fun j _ => row_holds ih j)
        (position_holds count site _ _)

end Arena
end Recalc
