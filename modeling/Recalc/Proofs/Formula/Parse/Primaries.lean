import Recalc.Proofs.Formula.Parse.TokenPlacement

namespace Recalc
open ReversePolish ReversePolish.Yard

structure Operates (t : Token) : Prop where
  operator : t.isOperator = true
  inside : t.isStart = false ∧ t.isStop = false
  ranked : ∃ n, rankOf t = .ok n

-- Tokens by their brackets: what may stand for an operand, such primaries between operators, and what
-- stands between the brackets of a call by its commas.
mutual
inductive Primary where
  | operand (t : Token) (kind : t.kind = .operand)
  | group (inner : Stretch)
  | call (name : String) (slots : Slots)
inductive Stretch where
  | done
  | operator (t : Token) (operates : Operates t) (rest : Stretch)
  | primary (p : Primary) (rest : Stretch)
inductive Slots where
  | last (slot : Stretch)
  | more (slot : Stretch) (rest : Slots)
end

mutual
def Primary.tokens : Primary → List Token
  | .operand t _ => [t]
  | .group inner => .groupStart :: (inner.tokens ++ [.groupStop])
  | .call name slots => .functionStart name :: (slots.tokens ++ [.functionStop])
def Stretch.tokens : Stretch → List Token
  | .done => []
  | .operator t _ rest => t :: rest.tokens
  | .primary p rest => p.tokens ++ rest.tokens
def Slots.tokens : Slots → List Token
  | .last slot => slot.tokens
  | .more slot rest => slot.tokens ++ .comma :: rest.tokens
end

mutual
def Primary.fills : Primary → Bool
  | .operand _ _ => true
  | .group inner => inner.fills
  | .call _ _ => true
def Stretch.fills : Stretch → Bool
  | .done => false
  | .operator _ _ rest => rest.fills
  | .primary p rest => p.fills || rest.fills
end

def Slots.list : Slots → List Stretch
  | .last slot => [slot]
  | .more slot rest => slot :: rest.list

def Slots.given (slots : Slots) : Nat := slots.list.countP Stretch.fills

structure Call where
  name : String
  slots : Slots

def Call.item (call : Call) : Item := ⟨called call.name,call.slots.given⟩

mutual
def Primary.calls : Primary → List Call
  | .operand _ _ => []
  | .group inner => inner.calls
  | .call name slots => slots.calls ++ [⟨name,slots⟩]
def Stretch.calls : Stretch → List Call
  | .done => []
  | .operator _ _ rest => rest.calls
  | .primary p rest => p.calls ++ rest.calls
def Slots.calls : Slots → List Call
  | .last slot => slot.calls
  | .more slot rest => slot.calls ++ rest.calls
end

namespace ReversePolish.Yard
variable {ts us ops ops' pending below : List Token} {o o' output : List Item} {calls calls' : List Call} {fills : Bool} {y z : Yard}

def marked (fills : Bool) (filled : List Bool) : List Bool := if fills then markFilled filled else filled

theorem marked_or (one two : Bool) (filled : List Bool) : marked two (marked one filled) = marked (one || two) filled := by
  cases one <;> cases two <;> simp [marked]

def Apart (pending : List Token) : Prop := ∀ t, pending.head? = some t → isFunction t = false

def Based (pending : List Token) : Prop := ∀ t, pending.head? = some t → t.isOperator = false ∧ isFunction t = false

theorem based_cons (plain : t.isOperator = false) (other : isFunction t = false) : Based (t :: pending) := by
  rintro _ ⟨⟩
  exact ⟨plain,other⟩

theorem isFunction_operator (operator : t.isOperator = true) : isFunction t = false := by
  obtain ⟨kind,subkind,text⟩ := t
  cases kind <;> first | rfl | cases operator

theorem Based.apart (based : Based below) (binds : Binds 0 ops) : Apart (ops ++ below) := by
  intro t top
  cases ops with
  | nil => exact (based t top).2
  | cons op ops =>
    cases top
    exact isFunction_operator (binds t (by simp)).1

structure Holds (o : List Item) (calls : List Call) (fills : Bool) : Prop where
  functions : o.reverse.filter (fun i => i.kind = .function) = calls.map Call.item
  empty : fills = false → ∀ i ∈ o, i.kind = .operator

theorem holds_nil : Holds [] [] false := ⟨rfl,by simp⟩

theorem Holds.append (first : Holds o calls one) (second : Holds o' calls' two) : Holds (o' ++ o) (calls ++ calls') (one || two) := by
  refine ⟨by simp [first.functions,second.functions],fun neither i listed => ?_⟩
  obtain ⟨none,none'⟩ := Bool.or_eq_false_iff.mp neither
  exact (List.mem_append.mp listed).elim (second.empty none' i) (first.empty none i)

theorem kind_operator (operator : t.isOperator = true) : (Item.ofToken t).kind = .operator := by
  obtain ⟨kind,subkind,text⟩ := t
  cases kind <;> first | rfl | cases operator

theorem holds_operators (binds : Binds l ops) : Holds (ops.map .ofToken).reverse [] false := by
  have each : ∀ i ∈ (ops.map Item.ofToken).reverse, i.kind = .operator := by
    intro i listed
    obtain ⟨op,member,made⟩ := List.mem_map.mp (List.mem_reverse.mp listed)
    rw [← made]
    exact kind_operator (binds op member).1
  refine ⟨?_,fun _ => each⟩
  rw [List.map_nil,List.filter_eq_nil_iff]
  intro i listed
  rw [each i (by simpa using listed)]
  decide

-- The primary comes to these items, whatever waits.
def Yields (ts : List Token) (o : List Item) (fills : Bool) : Prop := ∀ y, Apart y.pending →
  Takes y ts ⟨o ++ y.output,y.pending,y.counts,marked fills y.filled⟩

def Leaves (ts ops : List Token) (o : List Item) (ops' : List Token) (fills : Bool) : Prop := ∀ output below counts filled, Based below →
  Takes ⟨output,ops ++ below,counts,filled⟩ ts ⟨o ++ output,ops' ++ below,counts,marked fills filled⟩

def Counts (ts : List Token) (o : List Item) (ops : List Token) (size : Nat) : Prop := ∃ k value, (k + if value then 1 else 0) = size ∧
  ∀ output below n counts filled, Takes ⟨output,opening :: below,n :: counts,false :: filled⟩ ts
    ⟨o ++ output,ops ++ opening :: below,(n + k) :: counts,value :: filled⟩

theorem binds_split (binds : Binds 0 ops) (n : Nat) : ∃ popped left, ops = popped ++ left ∧ Binds n popped ∧ Binds 0 left ∧
    ∀ below, Based below → Waits n (left ++ below) := by
  induction ops with
  | nil =>
    refine ⟨[],[],rfl,binds_nil,binds_nil,fun below based t top => ?_⟩
    obtain ⟨plain,other⟩ := based t top
    exact ⟨other,by simp [plain]⟩
  | cons op ops ih =>
    obtain ⟨operator,inside,m,ranked,-⟩ := binds op (by simp)
    have rest : Binds 0 ops := fun op listed => binds op (by simp [listed])
    by_cases strong : n ≤ m
    · obtain ⟨popped,left,rfl,binds',below,waits⟩ := ih rest
      refine ⟨op :: popped,left,rfl,fun op' listed => ?_,below,waits⟩
      rcases List.mem_cons.mp listed with rfl | listed
      · exact ⟨operator,inside,m,ranked,strong⟩
      · exact binds' op' listed
    · exact ⟨[],op :: ops,rfl,binds_nil,binds,fun below _ => waits_operator operator ranked (by omega)⟩

theorem leaves_operator (operates : Operates t) (binds : Binds 0 ops) :
    ∃ popped left, Binds 0 (t :: left) ∧ Leaves [t] ops (popped.map .ofToken).reverse (t :: left) false ∧ Binds 0 popped := by
  obtain ⟨n,ranked⟩ := operates.ranked
  obtain ⟨popped,left,rfl,strong,rest,waits⟩ := binds_split binds n
  refine ⟨popped,left,fun op listed => ?_,fun output below counts filled based => ?_,strong.mono (Nat.zero_le n)⟩
  · rcases List.mem_cons.mp listed with rfl | listed
    · exact ⟨operates.operator,operates.inside,n,ranked,Nat.zero_le n⟩
    · exact rest op listed
  · simpa [marked] using takes_operator operates.operator ranked strong (waits below based) output counts filled

theorem Leaves.append (first : Leaves ts ops o mid one) (second : Leaves us mid o' ops' two) :
    Leaves (ts ++ us) ops (o' ++ o) ops' (one || two) := by
  intro output below counts filled based
  have both := (first output below counts filled based).append (second _ below counts _ based)
  simpa [marked_or] using both

theorem Yields.leaves (yields : Yields ts o fills) (binds : Binds 0 ops) : Leaves ts ops o ops fills :=
  fun output below counts filled based => yields ⟨output,ops ++ below,counts,filled⟩ (based.apart binds)

theorem yields_operand (kind : t.kind = .operand) : Yields [t] [.ofToken t] true := fun y _ => takes_operand kind y

theorem yields_group (inner : Leaves ts [] o ops fills) (binds : Binds 0 ops) :
    Yields (.groupStart :: (ts ++ [.groupStop])) ((ops.map .ofToken).reverse ++ o) fills := by
  intro y apart
  have opened := inner y.output (.groupStart :: y.pending) y.counts y.filled (based_cons rfl rfl)
  have closed := takes_groupStop binds apart (o ++ y.output) y.counts (marked fills y.filled)
  simpa using (takes_groupStart y).cons (opened.append closed)

theorem yields_call (name : String) (counted : Counts ts o ops size) (binds : Binds 0 ops) :
    Yields (.functionStart name :: (ts ++ [.functionStop])) (⟨called name,size⟩ :: ((ops.map .ofToken).reverse ++ o)) true := by
  obtain ⟨k,value,whole,takes⟩ := counted
  intro y _
  have opened := takes y.output (called name :: y.pending) 0 y.counts (markFilled y.filled)
  have closed := takes_functionStop binds name value (o ++ y.output) y.pending (0 + k) y.counts (markFilled y.filled)
  rw [Nat.zero_add,whole] at closed
  rw [Nat.zero_add] at opened
  simpa [marked] using (takes_functionStart y name).cons (opened.append closed)

theorem counts_last (inner : Leaves ts [] o ops fills) : Counts ts o ops (if fills then 1 else 0) := by
  refine ⟨0,fills,by simp,fun output below n counts filled => ?_⟩
  have takes := inner output (opening :: below) (n :: counts) (false :: filled) (based_cons rfl rfl)
  cases fills <;> exact takes

theorem counts_more (inner : Leaves ts [] o ops fills) (binds : Binds 0 ops) (rest : Counts us o' ops' size) :
    Counts (ts ++ .comma :: us) (o' ++ ((ops.map .ofToken).reverse ++ o)) ops' ((if fills then 1 else 0) + size) := by
  obtain ⟨k,value,whole,takes⟩ := rest
  refine ⟨(if fills then 1 else 0) + k,value,by omega,fun output below n counts filled => ?_⟩
  have slot := inner output (opening :: below) (n :: counts) (false :: filled) (based_cons rfl rfl)
  have comma := takes_comma binds fills (o ++ output) below n counts filled
  have more := takes ((ops.map .ofToken).reverse ++ (o ++ output)) below (if fills then n + 1 else n) counts filled
  have shown : marked fills (false :: filled) = fills :: filled := by cases fills <;> rfl
  rw [shown] at slot
  have all := slot.append (comma.cons more)
  have sum : (if fills then n + 1 else n) + k = n + ((if fills then 1 else 0) + k) := by split <;> omega
  rw [sum] at all
  simpa using all

theorem Holds.call (holds : Holds o calls fills) (call : Call) : Holds (call.item :: o) (calls ++ [call]) true := by
  have function : call.item.kind = .function := rfl
  refine ⟨?_,nofun⟩
  rw [List.reverse_cons,List.filter_append,holds.functions]
  simp [function]

theorem Holds.filled (holds : Holds o calls fills) : Holds o calls true := ⟨holds.functions,nofun⟩

end ReversePolish.Yard

theorem Slots.given_last (slot : Stretch) : (Slots.last slot).given = if slot.fills then 1 else 0 := by
  simp [given,list,List.countP_cons]

theorem Slots.given_more (slot : Stretch) (rest : Slots) : (Slots.more slot rest).given = (if slot.fills then 1 else 0) + rest.given := by
  simp [given,list,List.countP_cons,Nat.add_comm]

-- The yard refuses nothing whose brackets are closed. Induction on the brackets.
mutual
theorem Primary.yields : (p : Primary) → ∃ o, Yields p.tokens o p.fills ∧ Holds o p.calls p.fills
  | .operand t kind => by
    refine ⟨[.ofToken t],yields_operand kind,?_,nofun⟩
    by_cases range : t.subkind = .range <;> simp [Primary.calls,Item.ofToken,Item.kind,kind,range]
  | .group inner => by
    obtain ⟨o,ops,binds,leaves,holds⟩ := inner.leaves binds_nil
    exact ⟨_,yields_group leaves binds,by simpa [Primary.calls,Primary.fills] using holds.append (holds_operators binds)⟩
  | .call name slots => by
    obtain ⟨o,ops,binds,counts,holds⟩ := slots.counts
    exact ⟨_,yields_call name counts binds,by simpa [Primary.calls,Primary.fills,Call.item] using (holds.append (holds_operators binds)).call ⟨name,slots⟩⟩
theorem Stretch.leaves : (x : Stretch) → {ops : List Token} → Binds 0 ops →
    ∃ o ops', Binds 0 ops' ∧ Leaves x.tokens ops o ops' x.fills ∧ Holds o x.calls x.fills
  | .done, ops, binds => ⟨[],ops,binds,fun _ _ _ _ _ => rfl,holds_nil⟩
  | .operator t operates rest, ops, binds => by
    obtain ⟨popped,left,binds',first,strong⟩ := leaves_operator operates binds
    obtain ⟨o,ops',last,leaves,holds⟩ := rest.leaves binds'
    exact ⟨_,ops',last,first.append leaves,by simpa [Stretch.calls,Stretch.fills] using (holds_operators strong).append holds⟩
  | .primary p rest, ops, binds => by
    obtain ⟨o,yields,holds⟩ := p.yields
    obtain ⟨o',ops',last,leaves,holds'⟩ := rest.leaves binds
    exact ⟨_,ops',last,(yields.leaves binds).append leaves,holds.append holds'⟩
theorem Slots.counts : (slots : Slots) → ∃ o ops, Binds 0 ops ∧ Counts slots.tokens o ops slots.given ∧ Holds o slots.calls true
  | .last slot => by
    obtain ⟨o,ops,binds,leaves,holds⟩ := slot.leaves binds_nil
    exact ⟨o,ops,binds,(Slots.given_last slot) ▸ counts_last leaves,holds.filled⟩
  | .more slot rest => by
    obtain ⟨o,ops,binds,leaves,holds⟩ := slot.leaves binds_nil
    obtain ⟨o',ops',binds',counts,holds'⟩ := rest.counts
    refine ⟨_,ops',binds',(Slots.given_more slot rest) ▸ counts_more leaves binds counts,?_⟩
    simpa [Slots.calls] using ((holds.append (holds_operators binds)).append holds').filled
end

end Recalc
