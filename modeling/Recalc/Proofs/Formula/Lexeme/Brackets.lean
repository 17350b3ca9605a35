import Recalc.Proofs.Formula.Lexeme.Transitions
import Recalc.Proofs.Formula.Parse.Grammar

namespace Recalc
open ReversePolish

inductive Lexed : Token → Prop where
  | operand (text : String) (subkind : TokenSubkind) : Lexed (.operand text subkind)
  | functionStart (name : String) : Lexed (.functionStart name)
  | functionStop : Lexed .functionStop
  | groupStart : Lexed .groupStart
  | groupStop : Lexed .groupStop
  | comma : Lexed .comma
  | minus : Lexed .minus
  | percent : Lexed .percent
  | between (ranked : rank symbol = some n) : Lexed (.between symbol)

inductive Bracket where
  | call
  | parentheses
  deriving DecidableEq, Repr

-- The brackets that are open after the token, latest first. Brackets close those of their own
-- kind, and a comma stands right within a call.
def Token.bracket (t : Token) (opened : List Bracket) : Option (List Bracket) :=
  match t.kind, t.subkind, opened with
  | .function, .start, opened => some (.call :: opened)
  | .function, .stop, .call :: opened => some opened
  | .function, .stop, _ => none
  | .subexpression, .start, opened => some (.parentheses :: opened)
  | .subexpression, .stop, .parentheses :: opened => some opened
  | .subexpression, .stop, _ => none
  | .separator, _, .call :: opened => some (.call :: opened)
  | .separator, _, _ => none
  | _, _, opened => some opened

def brackets (opened : List Bracket) : List Token → Option (List Bracket)
  | [] => some opened
  | t :: ts => (t.bracket opened).bind fun opened => brackets opened ts

theorem brackets_append (opened : List Bracket) (ts us : List Token) :
    brackets opened (ts ++ us) = (brackets opened ts).bind fun opened => brackets opened us := by
  induction ts generalizing opened with
  | nil => rfl
  | cons t ts ih =>
    simp only [List.cons_append,brackets]
    cases t.bracket opened with
    | none => rfl
    | some opened => exact ih opened

def Unmatched (ts : List Token) : Prop := ∃ before after, ts = before ++ .groupStop :: after ∧ brackets [] before = some []

def Group.brackets : Group → List Bracket
  | .call => [.call]
  | .parentheses => [.parentheses]
  | .array => [.call,.call]

-- What the lexer keeps: its open groups are the open brackets, unless there was one too many.
structure Scanned.Kept (s : Scanned) : Prop where
  lexed : ∀ t ∈ s.tokens, Lexed t
  opened : brackets [] s.tokens.reverse = some (s.groups.flatMap Group.brackets) ∨ Unmatched s.tokens.reverse

namespace Scanned
variable {s s' : Scanned}

theorem kept_start : start.Kept := ⟨by simp [start],.inl rfl⟩

theorem Kept.token (kept : s.Kept) (lexed : Lexed t) (groups : List Group)
    (follows : t.bracket (s.groups.flatMap Group.brackets) = some (groups.flatMap Group.brackets)) :
    Kept ⟨t :: s.tokens,groups⟩ := by
  refine ⟨fun u listed => ?_,?_⟩
  · rcases List.mem_cons.mp listed with rfl | listed
    · exact lexed
    · exact kept.lexed u listed
  · rw [List.reverse_cons]
    rcases kept.opened with counted | ⟨before,after,split,closed⟩
    · left
      rw [brackets_append,counted]
      simp [brackets,follows]
    · exact .inr ⟨before,after ++ [t],by simp [split],closed⟩

theorem Kept.operand (kept : s.Kept) (text : String) (subkind : TokenSubkind) : (s.push (.operand text subkind)).Kept :=
  kept.token (.operand text subkind) s.groups rfl

theorem Kept.between (kept : s.Kept) (ranked : rank symbol = some n) : (s.push (.between symbol)).Kept :=
  kept.token (.between ranked) s.groups rfl

theorem Kept.openCall (kept : s.Kept) (name : String) : (s.openCall name).Kept :=
  kept.token (.functionStart name) (.call :: s.groups) rfl

theorem Kept.openGroup (kept : s.Kept) : s.openGroup.Kept := kept.token .groupStart (.parentheses :: s.groups) rfl

theorem Kept.openArray (kept : s.Kept) : s.openArray.Kept :=
  (kept.openCall "ARRAY").token (.functionStart "ARRAYROW") (.array :: s.groups) rfl

theorem Kept.close (kept : s.Kept) : s.close.Kept := by
  obtain ⟨tokens,groups⟩ := s
  cases groups with
  | nil =>
    refine ⟨fun t listed => ?_,.inr ?_⟩
    · rcases List.mem_cons.mp listed with rfl | listed
      · exact .groupStop
      · exact kept.lexed t listed
    · rcases kept.opened with counted | ⟨before,after,split,closed⟩
      · exact ⟨tokens.reverse,[],by simp [Scanned.close],counted⟩
      · exact ⟨before,after ++ [.groupStop],by simp [Scanned.close,split],closed⟩
  | cons group groups => cases group with
    | call => exact kept.token .functionStop groups rfl
    | parentheses => exact kept.token .groupStop groups rfl
    | array => exact (kept.token .functionStop (.call :: groups) rfl).token .functionStop groups rfl

theorem Kept.comma (kept : s.Kept) : s.comma.Kept := by
  obtain ⟨tokens,groups⟩ := s
  cases groups with
  | nil => exact kept.between rfl
  | cons group groups => cases group with
    | call => exact kept.token .comma (.call :: groups) rfl
    | parentheses => exact kept.between rfl
    | array => exact kept.token .comma (.array :: groups) rfl

theorem Kept.nextRow (kept : s.Kept) (inside : s.groups.head? = some .array) : s.nextRow.Kept := by
  obtain ⟨tokens,_ | ⟨group,groups⟩⟩ := s
  · cases inside
  · cases inside
    exact ((kept.token .functionStop (.call :: groups) rfl).token .comma (.call :: groups) rfl).token
      (.functionStart "ARRAYROW") (.array :: groups) rfl

theorem Kept.grows (kept : s.Kept) (grows : s.Grows s') : s'.Kept := by
  cases grows with
  | skip => exact kept
  | number text _ => exact kept.operand text .number
  | operand text _ => exact kept.operand text _
  | between ranked => exact kept.between ranked
  | minus => exact kept.token .minus s.groups rfl
  | percent => exact kept.token .percent s.groups rfl
  | openCall name => exact kept.openCall name
  | openGroup => exact kept.openGroup
  | openArray => exact kept.openArray
  | close => exact kept.close
  | comma => exact kept.comma
  | nextRow inside => exact kept.nextRow inside

end Scanned

theorem Lexeme.kept_step {s s' : Scanned} (kept : s.Kept) (stepped : step size s c rest = .ok (s',rest')) : s'.Kept :=
  kept.grows (step_grows stepped)

theorem tokenize_kept (tokenized : tokenize text = .ok ts) :
    (∀ t ∈ ts, Lexed t) ∧ ((∃ groups : List Group, brackets [] ts = some (groups.flatMap Group.brackets)) ∨ Unmatched ts) := by
  obtain ⟨s,kept,rfl⟩ := Lexeme.scanned_keeps Lexeme.kept_step Scanned.kept_start tokenized
  exact ⟨fun t listed => kept.lexed t (List.mem_reverse.mp listed),kept.opened.imp_left fun counted => ⟨s.groups,counted⟩⟩

namespace ReversePolish
namespace Yard
variable {y z : Yard} {n : Nat} {pending left : List Token} {output order : List Item} {t : Token}

structure Opened (pending : List Token) (n : Nat) : Prop where
  starts : pending.countP Token.isStart = n
  operators : ∀ op ∈ pending, op.isOperator = true → op.isStart = false

theorem Opened.top (opened : Opened (t :: pending) n) : Opened pending (if t.isStart then n - 1 else n) := by
  refine ⟨?_,fun op listed => opened.operators op (by simp [listed])⟩
  have starts := opened.starts
  rw [List.countP_cons] at starts
  cases bracket : t.isStart <;> simp [bracket] at starts ⊢ <;> omega

theorem Opened.push (opened : Opened pending n) (plain : t.isOperator = true → t.isStart = false) :
    Opened (t :: pending) (if t.isStart then n + 1 else n) := by
  refine ⟨?_,fun op listed => ?_⟩
  · rw [List.countP_cons,opened.starts]
    split <;> rfl
  · rcases List.mem_cons.mp listed with rfl | listed
    · exact plain
    · exact opened.operators op listed

theorem opened_popToStart (opened : Opened pending n) (output : List Item) :
    Opened (popToStart pending output).1 n ∧ ∀ t left, (popToStart pending output).1 = t :: left → t.isStart = true := by
  induction pending generalizing output with
  | nil => exact ⟨opened,by simp [popToStart]⟩
  | cons t pending ih =>
    unfold popToStart
    cases bracket : t.isStart with
    | true =>
      refine ⟨opened,?_⟩
      rintro _ _ ⟨⟩
      exact bracket
    | false => exact ih (by simpa [bracket] using opened.top) _

theorem opened_popOperators (opened : Opened pending n) (popped : popOperators k pending output = .ok (left,order)) :
    Opened left n := by
  induction pending generalizing output with
  | nil => cases popped; exact opened
  | cons t pending ih =>
    unfold popOperators at popped
    cases operator : t.isOperator with
    | false =>
      simp only [operator] at popped
      cases popped
      exact opened
    | true =>
      simp only [operator,if_true] at popped
      cases ranked : rankOf t with
      | error e => rw [ranked] at popped; cases popped
      | ok m =>
        rw [ranked] at popped
        change (if k ≤ m then popOperators k pending (.ofToken t :: output) else pure (t :: pending,output)) = _ at popped
        have inside := opened.operators t (by simp) operator
        split at popped
        · exact ih (by simpa [inside] using opened.top) popped
        · cases popped
          exact opened

theorem opened_separate (opened : Opened y.pending n) (separated : y.separate = .ok z) : Opened z.pending n := by
  have popped := (opened_popToStart opened y.output).1
  unfold separate at separated
  dsimp only at separated
  split at separated
  · cases separated
  · split at separated
    · cases separated
    · cases separated
      exact popped

theorem opened_close (opened : Opened y.pending n) (closed : y.close = .ok z) : ∃ k, n = k + 1 ∧ Opened z.pending k := by
  obtain ⟨popped,bracket⟩ := opened_popToStart opened y.output
  unfold close at closed
  generalize popToStart y.pending y.output = stopped at popped bracket closed
  obtain ⟨_ | ⟨t,pending⟩,output⟩ := stopped
  · cases closed
  · have start := bracket t pending rfl
    have below := popped.top
    have counted : 0 < n := by
      rw [← popped.starts,List.countP_cons,start]
      simp
    simp only [start,if_true] at below
    refine ⟨n - 1,by omega,?_⟩
    cases pending with
    | nil => cases closed; exact below
    | cons function pending =>
      dsimp only at closed
      cases called : isFunction function with
      | false =>
        simp only [called] at closed
        cases closed
        exact below
      | true =>
        have inside : function.isStart = false := by
          simp only [isFunction,Bool.and_eq_true,beq_iff_eq] at called
          simp [Token.isStart,called.2]
        simp only [called,if_true] at closed
        split at closed
        · cases closed
          simpa [inside] using below.top
        · cases closed

theorem Takes.unique (one : Takes y ts z) (two : Takes y ts x) : z = x := Except.ok.inj (one.symm.trans two)

theorem opened_operator (opened : Opened y.pending n) (operator : t.isOperator = true) (inside : t.isStart = false)
    (takes : Takes y [t] z) : Opened z.pending n := by
  rw [takes_single (expand_operator operator),accept_operator operator] at takes
  cases ranked : rankOf t with
  | error e => rw [ranked] at takes; cases takes
  | ok k =>
    rw [ranked] at takes
    change popOperators k y.pending y.output >>= _ = _ at takes
    cases popped : popOperators k y.pending y.output with
    | error e => rw [popped] at takes; cases takes
    | ok next =>
      rw [popped] at takes
      cases takes
      simpa [inside] using (opened_popOperators opened popped).push fun _ => inside

theorem opened_takes (lexed : Lexed t) (opened : Opened y.pending bs.length) (takes : Takes y [t] z) :
    (∀ bs', t.bracket bs = some bs' → Opened z.pending bs'.length) ∧ ¬ (t = .groupStop ∧ bs = []) := by
  cases lexed with
  | operand text subkind =>
    cases takes.unique (takes_operand rfl y)
    refine ⟨?_,by simp [Token.operand,Token.groupStop]⟩
    rintro _ ⟨⟩
    exact opened
  | functionStart name =>
    cases takes.unique (takes_functionStart y name)
    refine ⟨?_,by simp [Token.functionStart,Token.groupStop]⟩
    rintro _ ⟨⟩
    exact (opened.push fun operator => by cases operator).push fun operator => by cases operator
  | functionStop =>
    have closes : y.close = .ok z := (takes_single (show expand .functionStop = [⟨.argumentList,.stop,")"⟩] from rfl)).mp takes
    obtain ⟨k,counted,closed⟩ := opened_close opened closes
    refine ⟨fun bs' follows => ?_,by simp [Token.functionStop,Token.groupStop]⟩
    obtain _ | ⟨_ | _,bs⟩ := bs <;> cases follows
    cases counted
    exact closed
  | groupStart =>
    cases takes.unique (takes_groupStart y)
    refine ⟨?_,by simp [Token.groupStart,Token.groupStop]⟩
    rintro _ ⟨⟩
    exact opened.push fun operator => by cases operator
  | groupStop =>
    have closes : y.close = .ok z := (takes_single (show expand .groupStop = [.groupStop] from rfl)).mp takes
    obtain ⟨k,counted,closed⟩ := opened_close opened closes
    refine ⟨fun bs' follows => ?_,by rintro ⟨-,rfl⟩; cases counted⟩
    obtain _ | ⟨_ | _,bs⟩ := bs <;> cases follows
    cases counted
    exact closed
  | comma =>
    have separates : y.separate = .ok z := (takes_single (show expand .comma = [.comma] from rfl)).mp takes
    have separated := opened_separate opened separates
    refine ⟨fun bs' follows => ?_,by simp [Token.comma,Token.groupStop]⟩
    obtain _ | ⟨_ | _,bs⟩ := bs <;> cases follows
    exact separated
  | minus =>
    refine ⟨?_,by simp [Token.minus,Token.groupStop]⟩
    rintro _ ⟨⟩
    exact opened_operator opened rfl rfl takes
  | percent =>
    refine ⟨?_,by simp [Token.percent,Token.groupStop]⟩
    rintro _ ⟨⟩
    exact opened_operator opened rfl rfl takes
  | between ranked =>
    refine ⟨?_,by simp [Token.between,Token.groupStop]⟩
    rintro _ ⟨⟩
    exact opened_operator opened rfl (between_inside _).1 takes

theorem Takes.split (ts : List Token) (takes : Takes y (ts ++ us) z) : ∃ x, Takes y ts x ∧ Takes x us z := by
  unfold Takes at takes
  rw [List.flatMap_append,List.foldlM_append] at takes
  cases first : (ts.flatMap expand).foldlM accept y with
  | error e => rw [first] at takes; cases takes
  | ok x => rw [first] at takes; exact ⟨x,first,takes⟩

theorem opened_all (lexed : ∀ t ∈ ts, Lexed t) (opened : Opened y.pending bs.length) (takes : Takes y ts z)
    (told : brackets bs ts = some bs') : Opened z.pending bs'.length := by
  induction ts generalizing y bs with
  | nil =>
    cases takes
    cases told
    exact opened
  | cons t ts ih =>
    obtain ⟨x,first,rest⟩ := Takes.split [t] takes
    unfold brackets at told
    obtain ⟨between,follows,told⟩ := Option.bind_eq_some_iff.mp told
    exact ih (fun u listed => lexed u (by simp [listed])) ((opened_takes (lexed t (by simp)) opened first).1 between follows) rest told

theorem finish_opened (opened : Opened pending n) (finished : finish pending output = .ok order) : n = 0 := by
  rw [← opened.starts]
  clear opened
  induction pending generalizing output with
  | nil => rfl
  | cons t pending ih =>
    unfold finish at finished
    split at finished
    · cases finished
    · rename_i plain
      rw [List.countP_cons,ih finished]
      simp_all

theorem unmatched_refused (lexed : ∀ t ∈ ts, Lexed t) (unmatched : Unmatched ts) : ¬ Takes .start ts y := by
  obtain ⟨before,after,rfl,closed⟩ := unmatched
  intro taken
  obtain ⟨x,first,rest⟩ := Takes.split before taken
  obtain ⟨w,last,-⟩ := Takes.split [.groupStop] rest
  have none : Opened Yard.start.pending ([] : List Bracket).length := ⟨rfl,by simp [Yard.start]⟩
  have stands := opened_all (fun t listed => lexed t (by simp [listed])) none first closed
  exact (opened_takes .groupStop stands last).2 ⟨rfl,rfl⟩

end Yard

-- The brackets of a formula that can be read are closed, each by its own kind.
theorem brackets_closed (tokenized : tokenize text = .ok ts) (ordered : ofTokens ts = .ok list) : brackets [] ts = some [] := by
  obtain ⟨lexed,told⟩ := tokenize_kept tokenized
  unfold ofTokens at ordered
  cases taken : (ts.flatMap expand).foldlM Yard.accept .start with
  | error e => rw [taken] at ordered; cases ordered
  | ok y =>
    rw [taken] at ordered
    have none : Yard.Opened Yard.start.pending ([] : List Bracket).length := ⟨rfl,by simp [Yard.start]⟩
    rcases told with ⟨groups,told⟩ | unmatched
    · have counted := Yard.finish_opened (Yard.opened_all lexed none taken told) ordered
      rw [told,List.length_eq_zero_iff.mp counted]
    · exact absurd taken (Yard.unmatched_refused lexed unmatched)

end ReversePolish
end Recalc
