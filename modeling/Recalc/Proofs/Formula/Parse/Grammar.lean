import Recalc.Proofs.Formula.Parse.Stacking

namespace Recalc
open ReversePolish

-- Which tokens write a tree, where at least so strongly bound a phrase is asked for. Operators of
-- equal rank group from the left; brackets around a whole phrase are not in the tree.
mutual
inductive Writes : Nat → List Token → Tree → Prop where
  | operand (kind : token.kind = .operand) : Writes l [token] (.node (.ofToken token) [])
  | group (inner : Writes 0 ts t) : Writes l (.groupStart :: (ts ++ [.groupStop])) t
  | bare (name : String) : Writes l [.functionStart name,.functionStop] (.node ⟨⟨.function,.none,name⟩,0⟩ [])
  | call (name : String) (args : WritesAll ts trees) :
      Writes l (.functionStart name :: (ts ++ [.functionStop])) (.node ⟨⟨.function,.none,name⟩,trees.length⟩ trees)
  | negate (low : l ≤ 7) (inner : Writes 8 ts t) : Writes l (.minus :: ts) (.node (.ofToken .minus) [t])
  | percent (low : l ≤ 6) (inner : Writes 6 ts t) : Writes l (ts ++ [.percent]) (.node (.ofToken .percent) [t])
  | between (ranked : rank symbol = some r) (low : l ≤ r) (left : Writes r ls a) (right : Writes (r + 1) rs b) :
      Writes l (ls ++ .between symbol :: rs) (.node (.ofToken (.between symbol)) [a,b])
inductive WritesAll : List Token → List Tree → Prop where
  | last (arg : Writes 0 ts t) : WritesAll ts [t]
  | more (arg : Writes 0 ts t) (rest : WritesAll us trees) : WritesAll (ts ++ .comma :: us) (t :: trees)
end

theorem Writes.weaken (writes : Writes l ts t) (lower : k ≤ l) : Writes k ts t := by
  cases writes with
  | operand kind => exact .operand kind
  | group inner => exact .group inner
  | bare name => exact .bare name
  | call name args => exact .call name args
  | negate low inner => exact .negate (Nat.le_trans lower low) inner
  | percent low inner => exact .percent (Nat.le_trans lower low) inner
  | between ranked low left right => exact .between ranked (Nat.le_trans lower low) left right

theorem Item.operands_operand (kind : t.kind = .operand) : (Item.ofToken t).operands = 0 := by
  by_cases range : t.subkind = .range <;> simp [Item.ofToken,Item.operands,Item.kind,kind,range]

mutual
theorem Writes.piles : Writes l ts t → Tree.Stacks t.items [t]
  | .operand kind => Tree.stacks_node (Item.operands_operand kind) fun _ => rfl
  | .group inner => inner.piles
  | .bare name => Tree.stacks_node rfl fun _ => rfl
  | .call name args => Tree.stacks_node rfl args.piles
  | .negate _ inner => Tree.stacks_node rfl (by simpa [Tree.itemsAll] using inner.piles)
  | .percent _ inner => Tree.stacks_node rfl (by simpa [Tree.itemsAll] using inner.piles)
  | .between _ _ left right => Tree.stacks_node rfl (by simpa [Tree.itemsAll] using left.piles.append right.piles)
theorem WritesAll.piles : WritesAll ts trees → Tree.Stacks (Tree.itemsAll trees) trees
  | .last arg => by simpa [Tree.itemsAll] using arg.piles
  | .more arg rest => by simpa [Tree.itemsAll] using arg.piles.append rest.piles
end

namespace ReversePolish

def called (name : String) : Token := ⟨.function,.none,name⟩
def opening : Token := ⟨.argumentList,.start,"("⟩

namespace Yard
variable {y z : Yard} {l n k : Nat} {ops pending below ts us : List Token} {token : Token} {output list list' : List Item}
  {counts : List Nat} {filled : List Bool}

-- Nothing that is pending has to go before an operator of the rank: what stands on top binds
-- less, or stands for an open bracket.
def Waits (l : Nat) (pending : List Token) : Prop := ∀ token, pending.head? = some token →
  isFunction token = false ∧ (token.isOperator = true → ∃ m, rankOf token = .ok m ∧ m < l)

def Binds (l : Nat) (ops : List Token) : Prop := ∀ op ∈ ops,
  op.isOperator = true ∧ (op.isStart = false ∧ op.isStop = false) ∧ ∃ m, rankOf op = .ok m ∧ l ≤ m

theorem Waits.mono (waits : Waits l pending) (higher : l ≤ n) : Waits n pending := by
  intro token top
  obtain ⟨plain,weaker⟩ := waits token top
  refine ⟨plain,fun operator => ?_⟩
  obtain ⟨m,ranked,less⟩ := weaker operator
  exact ⟨m,ranked,by omega⟩

theorem waits_bracket (plain : isFunction token = false) (bracket : token.isOperator = false) : Waits l (token :: pending) := by
  rintro _ ⟨⟩
  exact ⟨plain,by simp [bracket]⟩

theorem waits_operator (operator : token.isOperator = true) (ranked : rankOf token = .ok n) (less : n < l) :
    Waits l (token :: pending) := by
  rintro _ ⟨⟩
  refine ⟨?_,fun _ => ⟨n,ranked,less⟩⟩
  obtain ⟨kind,subkind,text⟩ := token
  cases kind <;> first | rfl | cases operator

theorem Binds.mono (binds : Binds n ops) (lower : l ≤ n) : Binds l ops := by
  intro op listed
  obtain ⟨operator,inside,m,ranked,strong⟩ := binds op listed
  exact ⟨operator,inside,m,ranked,by omega⟩

theorem binds_nil : Binds l [] := by simp [Binds]

theorem Binds.snoc (binds : Binds l ops) (operator : token.isOperator = true) (inside : token.isStart = false ∧ token.isStop = false)
    (ranked : rankOf token = .ok n) (strong : l ≤ n) : Binds l (ops ++ [token]) := by
  intro op listed
  rcases List.mem_append.mp listed with listed | listed
  · exact binds op listed
  · cases List.mem_singleton.mp listed
    exact ⟨operator,inside,n,ranked,strong⟩

theorem popOperators_binds (binds : Binds n ops) (waits : Waits n pending) (output : List Item) :
    popOperators n (ops ++ pending) output = .ok (pending,(ops.map .ofToken).reverse ++ output) := by
  induction ops generalizing output with
  | nil =>
    cases pending with
    | nil => rfl
    | cons token pending =>
      obtain ⟨-,weaker⟩ := waits token rfl
      cases operator : token.isOperator with
      | false => simp [popOperators,operator]
      | true =>
        obtain ⟨m,ranked,less⟩ := weaker operator
        simp only [List.nil_append,popOperators,operator,if_true,ranked]
        exact if_neg (Nat.not_le.mpr less)
  | cons op ops ih =>
    obtain ⟨operator,-,m,ranked,strong⟩ := binds op (by simp)
    have rest := ih (fun op listed => binds op (by simp [listed])) (.ofToken op :: output)
    simp only [List.cons_append,popOperators,operator,if_true,ranked]
    refine (if_pos strong).trans (rest.trans ?_)
    simp

theorem popToStart_binds (binds : Binds l ops) (bracket : token.isStart = true) (pending : List Token) (output : List Item) :
    popToStart (ops ++ token :: pending) output = (token :: pending,(ops.map .ofToken).reverse ++ output) := by
  induction ops generalizing output with
  | nil => simp [popToStart,bracket]
  | cons op ops ih =>
    obtain ⟨-,⟨inside,-⟩,-⟩ := binds op (by simp)
    have rest := ih (fun op listed => binds op (by simp [listed])) (.ofToken op :: output)
    simp [popToStart,inside,rest]

def Takes (y : Yard) (ts : List Token) (z : Yard) : Prop := (ts.flatMap expand).foldlM accept y = .ok z

theorem Takes.append (first : Takes y ts z) (second : Takes z us x) : Takes y (ts ++ us) x := by
  unfold Takes at *
  rw [List.flatMap_append,List.foldlM_append,first]
  exact second

theorem Takes.cons (first : Takes y [token] z) (second : Takes z us x) : Takes y (token :: us) x := first.append second

theorem takes_operand (kind : token.kind = .operand) (y : Yard) :
    Takes y [token] {y with output := .ofToken token :: y.output,filled := markFilled y.filled} := by
  have single : expand token = [token] := by simp [expand,kind]
  simp only [Takes,List.flatMap_cons,List.flatMap_nil,List.append_nil,single,List.foldlM_cons,accept,kind,if_true]
  rfl

theorem takes_functionStart (y : Yard) (name : String) : Takes y [.functionStart name]
    ⟨y.output,opening :: called name :: y.pending,0 :: y.counts,false :: markFilled y.filled⟩ := rfl

theorem takes_groupStart (y : Yard) : Takes y [.groupStart] {y with pending := .groupStart :: y.pending} := rfl

theorem expand_operator (operator : token.isOperator = true) : expand token = [token] := by
  obtain ⟨kind,subkind,text⟩ := token
  cases kind <;> first | rfl | cases operator

theorem accept_operator (operator : token.isOperator = true) (y : Yard) : y.accept token = do
    let n ← rankOf token
    let (pending,output) ← popOperators n y.pending y.output
    return {y with output := output,pending := token :: pending} := by
  have other : token.kind ≠ .operand ∧ isFunction token = false ∧ token.kind ≠ .separator := by
    obtain ⟨kind,subkind,text⟩ := token
    cases kind <;> simp_all [Token.isOperator,isFunction]
  simp [accept,other,operator]

theorem takes_single (single : expand token = [item]) : Takes y [token] z ↔ y.accept item = .ok z := by
  unfold Takes
  simp only [List.flatMap_cons,List.flatMap_nil,List.append_nil,single,List.foldlM_cons,List.foldlM_nil,bind_pure]

theorem takes_operator (operator : token.isOperator = true) (ranked : rankOf token = .ok n) (binds : Binds n ops)
    (waits : Waits n pending) (output : List Item) (counts : List Nat) (filled : List Bool) :
    Takes ⟨output,ops ++ pending,counts,filled⟩ [token] ⟨(ops.map .ofToken).reverse ++ output,token :: pending,counts,filled⟩ := by
  rw [takes_single (expand_operator operator),accept_operator operator,ranked]
  change popOperators n (ops ++ pending) output >>= _ = _
  rw [popOperators_binds binds waits output]
  rfl

theorem takes_comma (binds : Binds l ops) (value : Bool) (output : List Item) (below : List Token) (n : Nat) (counts : List Nat)
    (filled : List Bool) : Takes ⟨output,ops ++ opening :: below,n :: counts,value :: filled⟩
      [.comma] ⟨(ops.map .ofToken).reverse ++ output,opening :: below,(if value then n + 1 else n) :: counts,false :: filled⟩ := by
  have popped := popToStart_binds binds (show opening.isStart = true from rfl) below output
  change separate ⟨output,ops ++ opening :: below,n :: counts,value :: filled⟩ >>= pure = _
  simp only [separate,popped]
  rfl

theorem takes_functionStop (binds : Binds l ops) (name : String) (value : Bool) (output : List Item) (below : List Token) (n : Nat)
    (counts : List Nat) (filled : List Bool) :
    Takes ⟨output,ops ++ opening :: called name :: below,n :: counts,value :: filled⟩ [.functionStop]
      ⟨⟨called name,n + if value then 1 else 0⟩ :: ((ops.map .ofToken).reverse ++ output),below,counts,filled⟩ := by
  have popped := popToStart_binds binds (show opening.isStart = true from rfl) (called name :: below) output
  change close _ >>= pure = _
  simp only [close,popped]
  rfl

theorem takes_groupStop (binds : Binds l ops) (plain : ∀ token, below.head? = some token → isFunction token = false)
    (output : List Item) (counts : List Nat) (filled : List Bool) :
    Takes ⟨output,ops ++ .groupStart :: below,counts,filled⟩ [.groupStop]
      ⟨(ops.map .ofToken).reverse ++ output,below,counts,filled⟩ := by
  have popped := popToStart_binds binds (show Token.groupStart.isStart = true from rfl) below output
  change close _ >>= pure = _
  simp only [close,popped]
  cases below with
  | nil => rfl
  | cons token below =>
    simp only [plain token rfl]
    rfl

-- What reading a phrase comes to: its items are in order, but for operators that bind at least
-- as strongly as the phrase and still wait for what follows.
def Orders (l : Nat) (y : Yard) (ts : List Token) (list : List Item) : Prop := ∃ o ops,
  Takes y ts ⟨o ++ y.output,ops ++ y.pending,y.counts,markFilled y.filled⟩ ∧ Binds l ops ∧ o.reverse ++ ops.map .ofToken = list

def OrdersAll (ts : List Token) (list : List Item) (size : Nat) : Prop := ∀ output below n counts filled, ∃ o ops k value,
  Takes ⟨output,opening :: below,n :: counts,false :: filled⟩ ts
      ⟨o ++ output,ops ++ opening :: below,k :: counts,value :: filled⟩ ∧
    Binds 0 ops ∧ (k + if value then 1 else 0) = n + size ∧ o.reverse ++ ops.map .ofToken = list

@[simp] theorem markFilled_again (filled : List Bool) : markFilled (markFilled filled) = markFilled filled := by
  cases filled <;> rfl

theorem orders_operand (kind : token.kind = .operand) (y : Yard) : Orders l y [token] [.ofToken token] :=
  ⟨[.ofToken token],[],takes_operand kind y,binds_nil,rfl⟩

theorem orders_group (waits : Waits l y.pending) (inner : Orders 0 {y with pending := .groupStart :: y.pending} ts list) :
    Orders l y (.groupStart :: (ts ++ [.groupStop])) list := by
  obtain ⟨o,ops,takes,binds,listed⟩ := inner
  refine ⟨(ops.map .ofToken).reverse ++ o,[],?_,binds_nil,by simpa using listed⟩
  have plain := fun token top => (waits token top).1
  have closed := takes_groupStop binds plain (o ++ y.output) y.counts (markFilled y.filled)
  simpa using (takes_groupStart y).cons (takes.append closed)

theorem orders_bare (name : String) (y : Yard) :
    Orders l y [.functionStart name,.functionStop] [⟨called name,0⟩] := by
  refine ⟨[⟨called name,0⟩],[],?_,binds_nil,rfl⟩
  have binds0 : Binds 0 [] := binds_nil
  exact (takes_functionStart y name).cons (takes_functionStop binds0 name false y.output y.pending 0 y.counts (markFilled y.filled))

theorem orders_call (name : String) (args : OrdersAll ts list k) (y : Yard) :
    Orders l y (.functionStart name :: (ts ++ [.functionStop])) (list ++ [⟨called name,k⟩]) := by
  obtain ⟨o,ops,m,value,takes,binds,counted,listed⟩ := args y.output (called name :: y.pending) 0 y.counts (markFilled y.filled)
  refine ⟨⟨called name,k⟩ :: ((ops.map .ofToken).reverse ++ o),[],?_,binds_nil,by simp [← listed]⟩
  have closed := takes_functionStop binds name value (o ++ y.output) y.pending m y.counts (markFilled y.filled)
  rw [counted,Nat.zero_add] at closed
  simpa using (takes_functionStart y name).cons (takes.append closed)

theorem orders_negate (low : l ≤ 7) (waits : Waits l y.pending)
    (inner : ∀ z : Yard, Waits 8 z.pending → Orders 8 z ts list) : Orders l y (.minus :: ts) (list ++ [.ofToken .minus]) := by
  have ranked : rankOf .minus = .ok 7 := rfl
  have first := takes_operator rfl ranked binds_nil (waits.mono low) y.output y.counts y.filled
  obtain ⟨o,ops,takes,binds,listed⟩ := inner ⟨y.output,.minus :: y.pending,y.counts,y.filled⟩ (waits_operator rfl ranked (by omega))
  refine ⟨o,ops ++ [.minus],?_,(binds.mono (by omega)).snoc rfl ⟨rfl,rfl⟩ ranked low,by simp [← listed]⟩
  simpa using first.cons takes

theorem orders_percent (low : l ≤ 6) (waits : Waits l y.pending) (inner : Orders 6 y ts list) :
    Orders l y (ts ++ [.percent]) (list ++ [.ofToken .percent]) := by
  have ranked : rankOf .percent = .ok 6 := rfl
  obtain ⟨o,ops,takes,binds,listed⟩ := inner
  have last := takes_operator rfl ranked binds (waits.mono low) (o ++ y.output) y.counts (markFilled y.filled)
  refine ⟨(ops.map .ofToken).reverse ++ o,[.percent],?_,binds_nil.snoc rfl ⟨rfl,rfl⟩ ranked low,by simp [← listed]⟩
  simpa using takes.append last

theorem between_inside (symbol : String) : (Token.between symbol).isStart = false ∧ (Token.between symbol).isStop = false := by
  unfold Token.between Token.isStart Token.isStop
  dsimp only
  split <;> exact ⟨rfl,rfl⟩

theorem orders_between (ranked : rank symbol = some n) (low : l ≤ n) (waits : Waits l y.pending)
    (left : Orders n y ts list) (right : ∀ z : Yard, Waits (n + 1) z.pending → Orders (n + 1) z us list') :
    Orders l y (ts ++ .between symbol :: us) (list ++ list' ++ [.ofToken (.between symbol)]) := by
  have ranked : rankOf (.between symbol) = .ok n := by simp [rankOf,Token.between,ranked]
  obtain ⟨o,ops,takes,binds,listed⟩ := left
  have middle := takes_operator rfl ranked binds (waits.mono low) (o ++ y.output) y.counts (markFilled y.filled)
  obtain ⟨o',ops',takes',binds',listed'⟩ := right ⟨(ops.map .ofToken).reverse ++ (o ++ y.output),.between symbol :: y.pending,
    y.counts,markFilled y.filled⟩ (waits_operator rfl ranked (by omega))
  refine ⟨o' ++ ((ops.map .ofToken).reverse ++ o),ops' ++ [.between symbol],?_,
    (binds'.mono (by omega)).snoc rfl (between_inside symbol) ranked low,by simp [← listed,← listed']⟩
  simpa using takes.append (middle.cons takes')

theorem ordersAll_last (arg : ∀ y : Yard, Waits 0 y.pending → Orders 0 y ts list) : OrdersAll ts list 1 := by
  intro output below n counts filled
  obtain ⟨o,ops,takes,binds,listed⟩ := arg ⟨output,opening :: below,n :: counts,false :: filled⟩ (waits_bracket rfl rfl)
  exact ⟨o,ops,n,true,takes,binds,rfl,listed⟩

theorem ordersAll_more (arg : ∀ y : Yard, Waits 0 y.pending → Orders 0 y ts list) (rest : OrdersAll us list' k) :
    OrdersAll (ts ++ .comma :: us) (list ++ list') (k + 1) := by
  intro output below n counts filled
  obtain ⟨o,ops,takes,binds,listed⟩ := arg ⟨output,opening :: below,n :: counts,false :: filled⟩ (waits_bracket rfl rfl)
  have middle := takes_comma binds true (o ++ output) below n counts filled
  obtain ⟨o',ops',m,value,takes',binds',counted,listed'⟩ := rest ((ops.map .ofToken).reverse ++ (o ++ output)) below (n + 1) counts
    filled
  refine ⟨o' ++ ((ops.map .ofToken).reverse ++ o),ops',m,value,?_,binds',by omega,by simp [← listed,← listed']⟩
  simpa using takes.append (middle.cons takes')

theorem finish_binds (binds : Binds l ops) (output : List Item) : finish ops output = .ok (output.reverse ++ ops.map .ofToken) := by
  induction ops generalizing output with
  | nil => simp [finish]
  | cons op ops ih =>
    obtain ⟨-,⟨start,stop⟩,-⟩ := binds op (by simp)
    have rest := ih (fun op listed => binds op (by simp [listed])) (.ofToken op :: output)
    simp [finish,start,stop,rest]

end Yard
end ReversePolish

open ReversePolish Yard

-- Induction on how the tree is written.
mutual
theorem Writes.orders : Writes l ts t → ∀ y : Yard, Waits l y.pending → Orders l y ts t.items
  | .operand kind, y, _ => orders_operand kind y
  | .group inner, y, waits => orders_group waits (inner.orders _ (waits_bracket rfl rfl))
  | .bare name, y, _ => orders_bare name y
  | .call name args, y, _ => orders_call name args.orders y
  | .negate low inner, y, waits => by
    simpa [Tree.items,Tree.itemsAll] using orders_negate low waits inner.orders
  | .percent low inner, y, waits => by
    simpa [Tree.items,Tree.itemsAll] using orders_percent low waits (inner.orders y (waits.mono low))
  | .between ranked low left right, y, waits => by
    simpa [Tree.items,Tree.itemsAll] using orders_between ranked low waits (left.orders y (waits.mono low)) right.orders
theorem WritesAll.orders : WritesAll ts trees → OrdersAll ts (Tree.itemsAll trees) trees.length
  | .last arg => by simpa [Tree.itemsAll] using ordersAll_last arg.orders
  | .more arg rest => by simpa [Tree.itemsAll] using ordersAll_more arg.orders rest.orders
end

theorem Writes.parse (writes : Writes 0 ts t) : parseTokens ts = .ok t := by
  have empty : Waits 0 Yard.start.pending := by
    rintro _ ⟨⟩
  obtain ⟨o,ops,takes,binds,listed⟩ := writes.orders Yard.start empty
  have ordered : ofTokens ts = .ok t.items := by
    unfold ofTokens
    rw [takes]
    change finish (ops ++ []) (o ++ []) = _
    rw [List.append_nil,List.append_nil,finish_binds binds,listed]
  unfold parseTokens
  rw [ordered]
  change liftParse (Tree.ofItems t.items) = _
  rw [writes.piles.ofItems]
  rfl

end Recalc
