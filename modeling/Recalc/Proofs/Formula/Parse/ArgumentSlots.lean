import Recalc.Proofs.Formula.Parse.Primaries

namespace Recalc
open ReversePolish ReversePolish.Yard

inductive Ends : List Bracket → List Token → Prop where
  | whole : Ends [] []
  | group (rest : brackets bs ts = some []) : Ends (.parentheses :: bs) (.groupStop :: ts)
  | call (rest : brackets bs ts = some []) : Ends (.call :: bs) (.functionStop :: ts)
  | next (rest : brackets (.call :: bs) ts = some []) : Ends (.call :: bs) (.comma :: ts)

-- Tokens whose brackets get closed begin with a stretch, and within a call with its slots.
structure Cut (ts : List Token) : Prop where
  stretch : ∀ bs, brackets bs ts = some [] → ∃ (x : Stretch) (tail : List Token), ts = x.tokens ++ tail ∧ Ends bs tail
  slots : ∀ bs, brackets (.call :: bs) ts = some [] →
    ∃ (slots : Slots) (rest : List Token), ts = slots.tokens ++ .functionStop :: rest ∧ brackets bs rest = some []

theorem operates_between (ranked : rank symbol = some n) : Operates (.between symbol) :=
  ⟨rfl,between_inside symbol,n,by simp [rankOf,Token.between,ranked]⟩

variable {t : Token} {ts : List Token} {bs : List Bracket}

theorem cut_operator (operates : Operates t) (told : t.bracket bs = some bs) (cut : Cut ts) (closed : brackets bs (t :: ts) = some []) :
    ∃ (x : Stretch) (tail : List Token), t :: ts = x.tokens ++ tail ∧ Ends bs tail := by
  unfold brackets at closed
  rw [told] at closed
  obtain ⟨x,tail,rfl,ends⟩ := cut.stretch bs closed
  exact ⟨.operator t operates x,tail,rfl,ends⟩

theorem cut_stretch (lexed : ∀ u ∈ t :: ts, Lexed u) (shorter : ∀ us, (∀ u ∈ us, Lexed u) → us.length ≤ ts.length → Cut us)
    (closed : brackets bs (t :: ts) = some []) : ∃ (x : Stretch) (tail : List Token), t :: ts = x.tokens ++ tail ∧ Ends bs tail := by
  have rest : ∀ u ∈ ts, Lexed u := fun u listed => lexed u (by simp [listed])
  have cut := shorter ts rest (Nat.le_refl _)
  cases lexed t (by simp) with
  | operand text subkind =>
    obtain ⟨x,tail,rfl,ends⟩ := cut.stretch bs closed
    exact ⟨.primary (.operand (.operand text subkind) rfl) x,tail,rfl,ends⟩
  | minus => exact cut_operator ⟨rfl,⟨rfl,rfl⟩,7,rfl⟩ rfl cut closed
  | percent => exact cut_operator ⟨rfl,⟨rfl,rfl⟩,6,rfl⟩ rfl cut closed
  | between ranked => exact cut_operator (operates_between ranked) rfl cut closed
  | functionStart name =>
    obtain ⟨slots,us,rfl,after⟩ := cut.slots bs closed
    obtain ⟨x,tail,rfl,ends⟩ := (shorter us (fun u listed => rest u (by simp [listed])) (by simp; omega)).stretch bs after
    exact ⟨.primary (.call name slots) x,tail,by simp [Stretch.tokens,Primary.tokens],ends⟩
  | groupStart =>
    obtain ⟨inner,tail,rfl,ends⟩ := cut.stretch (.parentheses :: bs) closed
    cases ends with
    | @group _ us after =>
      obtain ⟨x,tail,rfl,ends⟩ := (shorter us (fun u listed => rest u (by simp [listed])) (by simp; omega)).stretch bs after
      exact ⟨.primary (.group inner) x,tail,by simp [Stretch.tokens,Primary.tokens],ends⟩
  | functionStop =>
    obtain _ | ⟨_ | _,bs⟩ := bs
    · cases closed
    · exact ⟨.done,_,rfl,.call closed⟩
    · cases closed
  | groupStop =>
    obtain _ | ⟨_ | _,bs⟩ := bs
    · cases closed
    · cases closed
    · exact ⟨.done,_,rfl,.group closed⟩
  | comma =>
    obtain _ | ⟨_ | _,bs⟩ := bs
    · cases closed
    · exact ⟨.done,_,rfl,.next closed⟩
    · cases closed

theorem cut (ts : List Token) (lexed : ∀ t ∈ ts, Lexed t) : Cut ts := by
  induction size : ts.length using Nat.strongRecOn generalizing ts with
  | ind n ih =>
    have stretch : ∀ bs, brackets bs ts = some [] → ∃ (x : Stretch) (tail : List Token), ts = x.tokens ++ tail ∧ Ends bs tail := by
      intro bs closed
      cases ts with
      | nil =>
        cases closed
        exact ⟨.done,[],rfl,.whole⟩
      | cons t ts =>
        refine cut_stretch lexed (fun us lexed short => ih us.length ?_ us lexed rfl) closed
        rw [← size,List.length_cons]
        omega
    refine ⟨stretch,fun bs closed => ?_⟩
    obtain ⟨x,tail,rfl,ends⟩ := stretch _ closed
    cases ends with
    | call after => exact ⟨.last x,_,rfl,after⟩
    | @next _ us after =>
      have short : us.length < n := by
        rw [← size]
        simp
        omega
      obtain ⟨slots,rest,rfl,last⟩ := (ih us.length short us (fun u listed => lexed u (by simp [listed])) rfl).slots bs after
      exact ⟨.more x slots,rest,by simp [Slots.tokens],last⟩

theorem stretch_of_brackets (lexed : ∀ t ∈ ts, Lexed t) (closed : brackets [] ts = some []) : ∃ x : Stretch, x.tokens = ts := by
  obtain ⟨x,tail,rfl,ends⟩ := (cut ts lexed).stretch [] closed
  cases ends
  exact ⟨x,(List.append_nil _).symm⟩

theorem parseTokens_of_ordered (ordered : ofTokens ts = .ok list) : parseTokens ts = liftParse (Tree.ofItems list) := by
  unfold parseTokens
  rw [ordered]
  rfl

theorem parseTokens_flat {whole : Tree} (parsed : parseTokens ts = .ok whole) : ofTokens ts = .ok whole.items := by
  obtain ⟨list,ordered⟩ := parseTokens_ordered parsed
  rw [parseTokens_of_ordered ordered] at parsed
  cases made : Tree.ofItems list with
  | error e => rw [made] at parsed; cases parsed
  | ok t =>
    rw [made] at parsed
    cases parsed
    rw [ordered,Tree.ofItems_flat made]

-- How many arguments are written: none where nothing stands between the brackets, else one more
-- than the commas.
def Call.written (call : Call) : Nat :=
  match call.slots with
  | .last .done => 0
  | slots => slots.list.length

theorem Slots.list_done {slots : Slots} (single : slots.list = [.done]) : slots = .last .done := by
  cases slots with
  | last slot =>
    cases single
    rfl
  | more slot rest => cases rest <;> cases single

theorem Call.given_written (call : Call) :
    call.slots.given = call.written ↔ call.slots.list = [.done] ∨ ∀ slot ∈ call.slots.list, slot.fills = true := by
  unfold written Slots.given
  split
  · rename_i bare
    simp [bare,Slots.list,Stretch.fills]
  · rename_i other
    have given : call.slots.list ≠ [.done] := fun single => other (Slots.list_done single)
    simp [List.countP_eq_length,given]

theorem orders_stretch (x : Stretch) (ordered : ofTokens x.tokens = .ok list) :
    list.filter (fun i => i.kind = .function) = x.calls.map Call.item := by
  obtain ⟨o,ops,binds,leaves,holds⟩ := x.leaves binds_nil
  have takes : Takes .start x.tokens ⟨o ++ [],ops ++ [],[],marked x.fills []⟩ := leaves [] [] [] [] (by simp [Based])
  unfold ofTokens at ordered
  rw [takes] at ordered
  change finish (ops ++ []) (o ++ []) = _ at ordered
  rw [List.append_nil,List.append_nil,finish_binds binds] at ordered
  cases ordered
  simpa using (holds.append (holds_operators binds)).functions

-- In a formula that is read the arguments of every call are those of its slots that are not left
-- empty, so they are as many as written just if none is.
theorem arguments_given {formula : String} {whole : Tree} (tokenized : tokenize (stripEquals formula) = .ok ts)
    (parsed : parseFormula formula = .ok whole) :
    (∃ x : Stretch, x.tokens = ts) ∧ ∀ x : Stretch, x.tokens = ts →
      whole.items.filter (fun i => i.kind = .function) = x.calls.map Call.item ∧
      ∀ call ∈ x.calls, call.item.arity = call.written ↔ call.slots.list = [.done] ∨ ∀ slot ∈ call.slots.list, slot.fills = true := by
  rw [parseFormula_at tokenized] at parsed
  have ordered := parseTokens_flat parsed
  refine ⟨stretch_of_brackets (tokenize_kept tokenized).1 (brackets_closed tokenized ordered),?_⟩
  rintro x rfl
  exact ⟨orders_stretch x ordered,fun call _ => call.given_written⟩

theorem arguments_given_nested : ∃ whole, parseFormula "=IF(F(),,SUM(1,(2)))" = .ok whole ∧
    ∃ x : Stretch, whole.items.filter (fun i => i.kind = .function) = x.calls.map Call.item := by
  have told : ((tokenize (stripEquals "=IF(F(),,SUM(1,(2)))")).toOption.isSome && (parseFormula "=IF(F(),,SUM(1,(2)))").toOption.isSome) = true := by
    decide +kernel
  cases tokenized : tokenize (stripEquals "=IF(F(),,SUM(1,(2)))") with
  | error e => simp [tokenized,Except.toOption] at told
  | ok ts =>
    cases parsed : parseFormula "=IF(F(),,SUM(1,(2)))" with
    | error e => simp [parsed,Except.toOption] at told
    | ok whole =>
      obtain ⟨⟨x,written⟩,each⟩ := arguments_given tokenized parsed
      exact ⟨whole,rfl,x,(each x written).1⟩

-- Of two slots the first is empty, and the call has one argument.
theorem arguments_shifted : ∃ (x : Stretch) (call : Call), tokenize (stripEquals "=F(,1)") = .ok x.tokens ∧ x.calls = [call] ∧ call.written = 2 ∧
    (parseFormula "=F(,1)").toOption.map (fun whole => whole.items.filter fun i => i.kind = .function) = some [⟨called "F",1⟩] :=
  ⟨.primary (.call "F" (.more .done (.last (.primary (.operand (.operand "1" .number) rfl) .done)))) .done,_,by decide +kernel,rfl,rfl,
    by decide +kernel⟩

end Recalc
