import Recalc.Proofs.Formula.Lexeme.ReadingOn
import Recalc.Proofs.Formula.Parse.ArgumentSlots
import Recalc.Proofs.Formula.Parse.YardOutput

namespace Recalc
open ReversePolish ReversePolish.Yard

namespace ReversePolish.Yard
variable {y z : Yard} {p q ts pending : List Token} {output base : List Item} {t : Token}

def Parted (q : List Token) : Prop := ∀ u, q.head? = some u → u.begins = false ∧ u.joins = false

theorem accept_sign (lexed : Lexed t) (parted : t.begins = false ∧ t.joins = false) (single : expand t = [u]) (output : List Item)
    (pending : List Token) (counts : List Nat) (filled : List Bool) :
    accept ⟨output,.minus :: pending,counts,filled⟩ u = accept ⟨.ofToken .minus :: output,pending,counts,filled⟩ u := by
  have operator {n : Nat} (operates : u.isOperator = true) (ranked : rankOf u = .ok n) (weak : n ≤ 7) :
      accept ⟨output,.minus :: pending,counts,filled⟩ u = accept ⟨.ofToken .minus :: output,pending,counts,filled⟩ u := by
    rw [accept_operator operates,accept_operator operates,ranked]
    have pops : popOperators n (.minus :: pending) output = popOperators n pending (.ofToken .minus :: output) := by
      simp only [popOperators,show Token.minus.isOperator = true from rfl,if_true,show rankOf .minus = .ok 7 from rfl]
      exact if_pos weak
    exact congrArg (fun popped => popped >>= fun next : List Token × List Item => pure (⟨next.2,u :: next.1,counts,filled⟩ : Yard)) pops
  cases lexed with
  | operand text subkind => cases parted.1
  | functionStart name => cases parted.1
  | groupStart => cases parted.1
  | minus => cases parted.1
  | functionStop =>
    cases single
    rfl
  | groupStop =>
    cases single
    rfl
  | comma =>
    cases single
    rfl
  | percent =>
    cases single
    exact operator rfl rfl (by decide)
  | @between symbol n ranked =>
    cases single
    have weak := (rank_split ranked).2 parted.2
    have ranked : rankOf (.between symbol) = .ok n := by simp [rankOf,Token.between,ranked]
    exact operator rfl ranked (by omega)

theorem expand_single (lexed : Lexed t) (begins : t.begins = false) : ∃ u, expand t = [u] := by
  cases lexed with
  | operand text subkind => cases begins
  | functionStart name => cases begins
  | _ => exact ⟨_,rfl⟩

theorem readOn_sign (lexed : ∀ t ∈ q, Lexed t) (parted : Parted q) (output : List Item) (pending : List Token) (counts : List Nat)
    (filled : List Bool) :
    readOn ⟨output,.minus :: pending,counts,filled⟩ q = readOn ⟨.ofToken .minus :: output,pending,counts,filled⟩ q := by
  cases q with
  | nil => rfl
  | cons t q =>
    have apart := parted t rfl
    obtain ⟨u,single⟩ := expand_single (lexed t (by simp)) apart.1
    unfold readOn
    rw [List.flatMap_cons,single,List.singleton_append,List.foldlM_cons,List.foldlM_cons,
      accept_sign (lexed t (by simp)) apart single]

theorem takes_signs (waits : Waits 7 pending) (n : Nat) (output : List Item) (counts : List Nat) (filled : List Bool) :
    Takes ⟨output,pending,counts,filled⟩ (List.replicate (n + 1) .minus)
      ⟨List.replicate n (.ofToken .minus) ++ output,.minus :: pending,counts,filled⟩ := by
  induction n with
  | zero => exact takes_operator rfl rfl binds_nil waits output counts filled
  | succ n ih =>
    have sign : Binds 7 [Token.minus] := binds_nil.snoc rfl ⟨rfl,rfl⟩ rfl (Nat.le_refl 7)
    have operator : Token.minus.isOperator = true := rfl
    have next := takes_operator operator rfl sign waits (List.replicate n (.ofToken .minus) ++ output) counts filled
    rw [List.replicate_succ']
    simpa [List.replicate_succ] using ih.append next

theorem readOn_signed {list : List Item} (waits : Waits 7 pending) (yields : Yields ts list.reverse true) (lexed : ∀ t ∈ q, Lexed t)
    (parted : Parted q) (n : Nat) (output : List Item) (counts : List Nat) (filled : List Bool) :
    readOn ⟨output,pending,counts,filled⟩ (List.replicate (n + 1) .minus ++ (ts ++ q)) =
      (readOn ⟨[],pending,counts,markFilled filled⟩ q).map fun rest =>
        output.reverse ++ List.replicate n (.ofToken .minus) ++ list ++ .ofToken .minus :: rest := by
  have apart : Apart (.minus :: pending) := by
    rintro _ ⟨⟩
    rfl
  have takes := yields ⟨List.replicate n (.ofToken .minus) ++ output,.minus :: pending,counts,filled⟩ apart
  rw [(takes_signs waits n output counts filled).readOn,takes.readOn,readOn_sign lexed parted]
  have moved := readOn_onto ⟨[],pending,counts,markFilled filled⟩
    (.ofToken .minus :: (list.reverse ++ (List.replicate n (.ofToken .minus) ++ output))) q
  simpa [onto,marked] using moved

theorem waits_separate (opened : Opened y.pending n) (separated : y.separate = .ok z) : Waits l z.pending := by
  obtain ⟨stays,bracket⟩ := opened_popToStart opened y.output
  unfold separate at separated
  dsimp only at separated
  split at separated
  · cases separated
  · split at separated <;> cases separated
    intro t top
    obtain ⟨left,listed⟩ : ∃ left, (popToStart y.pending y.output).1 = t :: left := List.head?_eq_some_iff.mp top
    have start := bracket t left listed
    have plain : t.isOperator = false := by
      refine Bool.eq_false_iff.mpr fun operator => ?_
      rw [stays.operators t (by simp [listed]) operator] at start
      cases start
    refine ⟨?_,by simp [plain]⟩
    simp only [Token.isStart,beq_iff_eq] at start
    simp [isFunction,start]

theorem pending_operator (operator : t.isOperator = true) (takes : Takes y [t] z) : ∃ left, z.pending = t :: left := by
  rw [takes_single (expand_operator operator),accept_operator operator] at takes
  obtain ⟨n,-,rest⟩ := bind_ok.mp takes
  obtain ⟨popped,-,made⟩ := bind_ok.mp rest
  cases made
  exact ⟨_,rfl⟩

theorem waits_after (lexed : ∀ t ∈ p, Lexed t) (told : brackets [] p = some bs) (takes : Takes .start p y)
    (placed : Token.mayFollow p.getLast? .minus = true) : Waits 7 y.pending := by
  rcases List.eq_nil_or_concat p with rfl | ⟨before,last,rfl⟩
  · cases takes
    rintro _ ⟨⟩
  rw [List.concat_eq_append] at lexed told takes placed
  rw [List.getLast?_concat] at placed
  rw [brackets_append] at told
  obtain ⟨inner,first,-⟩ := Option.bind_eq_some_iff.mp told
  obtain ⟨x,earlier,here⟩ := Takes.split before takes
  have begins : Opened Yard.start.pending ([] : List Bracket).length := ⟨rfl,by simp [Yard.start]⟩
  have opened := opened_all (fun t listed => lexed t (by simp [listed])) begins earlier first
  cases lexed last (by simp) with
  | operand text subkind => cases placed
  | functionStop => cases placed
  | groupStop => cases placed
  | percent => cases placed
  | minus => cases placed
  | functionStart name =>
    cases here.unique (takes_functionStart x name)
    exact waits_bracket rfl rfl
  | groupStart =>
    cases here.unique (takes_groupStart x)
    exact waits_bracket rfl rfl
  | comma => exact waits_separate opened ((takes_single (show expand .comma = [.comma] from rfl)).mp here)
  | @between symbol n ranked =>
    have weak : n ≤ 6 := by
      refine (rank_split ranked).2 ?_
      simpa [Token.mayFollow,Token.between,Token.endsOperand,Token.minus,Token.begins] using placed
    have ranked : rankOf (.between symbol) = .ok n := by simp [rankOf,Token.between,ranked]
    obtain ⟨left,waits⟩ := pending_operator rfl here
    rw [waits]
    exact waits_operator rfl ranked (by omega)

end ReversePolish.Yard

namespace Tree
def negated : Nat → Tree → Tree
  | 0, t => t
  | n + 1, t => .node (.ofToken .minus) [negated n t]

theorem items_negated (n : Nat) (t : Tree) : (negated n t).items = t.items ++ List.replicate n (.ofToken .minus) := by
  induction n with
  | zero => simp [negated]
  | succ n ih => simp [negated,items,itemsAll,ih,List.replicate_succ']

theorem pushes_signs (n : Nat) (x : Tree) (stack : List Tree) :
    (List.replicate n (Item.ofToken .minus)).foldlM push (x :: stack) = .ok (negated n x :: stack) := by
  induction n with
  | zero => rfl
  | succ n ih =>
    rw [List.replicate_succ',List.foldlM_append,ih]
    rfl

end Tree

theorem Scans.kept {s s' : Scanned} (scans : Scans size s cs s' cs') (kept : s.Kept) : s'.Kept := by
  induction scans with
  | here => exact kept
  | step stepped more ih => exact ih (Lexeme.kept_step kept stepped)

theorem parseTokens_made {whole : Tree} (parsed : parseTokens ts = .ok whole) : Tree.ofItems whole.items = .ok whole := by
  have ordered := parseTokens_flat parsed
  rw [parseTokens_of_ordered ordered] at parsed
  cases made : Tree.ofItems whole.items with
  | error e => rw [made] at parsed; cases parsed
  | ok t =>
    rw [made] at parsed
    cases parsed
    rfl

theorem operands_operator {i : Item} (operator : i.kind = .operator) : i.operands ≠ 0 := by
  rw [Item.operands,operator]
  dsimp only
  split <;> omega

theorem Primary.yields_items {e : Primary} {t : Tree} (alone : parseTokens e.tokens = .ok t) : Yields e.tokens t.items.reverse true := by
  obtain ⟨o,yields,holds⟩ := e.yields
  have ordered := parseTokens_flat alone
  have takes : Takes .start e.tokens ⟨o ++ [],[],[],marked e.fills []⟩ := yields .start (by simp [Apart,Yard.start])
  unfold ofTokens at ordered
  rw [takes] at ordered
  change finish [] (o ++ []) = _ at ordered
  rw [List.append_nil] at ordered
  have list : o.reverse = t.items := Except.ok.inj ordered
  cases fills : e.fills with
  | true =>
    rw [fills] at yields
    rwa [← list,List.reverse_reverse]
  | false =>
    obtain ⟨i,rest,first,leaf⟩ := Tree.ofItems_head (parseTokens_made alone)
    have member : i ∈ o := List.mem_reverse.mp (by simp [list,first])
    exact absurd leaf (operands_operator (holds.empty fills i member))

-- What stands between the tokens is read between the items, and of the signs before it all but
-- the last go before it.
structure Surrounds (p q : List Token) (a b : List Item) : Prop where
  plain : ∀ (e : Primary) (t : Tree), parseTokens e.tokens = .ok t → ofTokens (p ++ (e.tokens ++ q)) = .ok (a ++ t.items ++ b)
  signed : ∀ (e : Primary) (t : Tree) n, parseTokens e.tokens = .ok t → ofTokens (p ++ (List.replicate (n + 1) .minus ++ (e.tokens ++ q))) =
    .ok (a ++ (List.replicate n (.ofToken .minus) ++ t.items ++ [.ofToken .minus]) ++ b)

theorem surrounds_of_takes {p q : List Token} {y : Yard} {e : Primary} {t : Tree} {list : List Item} (takes : Takes .start p y)
    (waits : Waits 7 y.pending) (lexed : ∀ t ∈ q, Lexed t) (parted : Parted q) (alone : parseTokens e.tokens = .ok t)
    (read : ofTokens (p ++ (e.tokens ++ q)) = .ok list) : ∃ a b, Surrounds p q a b := by
  obtain ⟨output,pending,counts,filled⟩ := y
  have plain {e : Primary} {t : Tree} (alone : parseTokens e.tokens = .ok t) : ofTokens (p ++ (e.tokens ++ q)) =
      (readOn ⟨[],pending,counts,markFilled filled⟩ q).map fun rest => output.reverse ++ t.items ++ rest :=
    (takes.readOn _).trans (readOn_yields waits (Primary.yields_items alone) output counts filled q)
  have here := plain alone
  cases rest : readOn ⟨[],pending,counts,markFilled filled⟩ q with
  | error e =>
    rw [read,rest] at here
    cases here
  | ok b =>
    refine ⟨output.reverse,b,fun e t alone => ?_,fun e t n alone => ?_⟩
    · rw [plain alone,rest]
      rfl
    · refine (takes.readOn _).trans ((readOn_signed waits (Primary.yields_items alone) lexed parted n output counts filled).trans ?_)
      rw [rest]
      simp [Except.map]

namespace Surrounds
variable {p q : List Token} {a b : List Item} {e f : Primary} {t u whole : Tree}

theorem split (surrounds : Surrounds p q a b) (alone : parseTokens e.tokens = .ok t) (read : parseTokens (p ++ (e.tokens ++ q)) = .ok whole) :
    whole.items = a ++ t.items ++ b := Except.ok.inj ((parseTokens_flat read).symm.trans (surrounds.plain e t alone))

theorem stack (surrounds : Surrounds p q a b) (alone : parseTokens e.tokens = .ok t) (read : parseTokens (p ++ (e.tokens ++ q)) = .ok whole) :
    ∃ stack, a.foldlM Tree.push [] = .ok stack := by
  have made := Tree.ofItems_ok.mp (parseTokens_made read)
  rw [surrounds.split alone read,List.append_assoc,List.foldlM_append] at made
  obtain ⟨stack,first,-⟩ := bind_ok.mp made
  exact ⟨stack,first⟩

theorem read_items {list : List Item} (ordered : ofTokens ts = .ok list) (made : Tree.ofItems list = .ok whole) :
    parseTokens ts = .ok whole ∧ whole.items = list := by
  rw [parseTokens_of_ordered ordered,made]
  exact ⟨rfl,Tree.ofItems_flat made⟩

theorem other (surrounds : Surrounds p q a b) (alone : parseTokens e.tokens = .ok t) (read : parseTokens (p ++ (e.tokens ++ q)) = .ok whole)
    (alone' : parseTokens f.tokens = .ok u) : ∃ whole', parseTokens (p ++ (f.tokens ++ q)) = .ok whole' ∧ whole'.items = a ++ u.items ++ b := by
  obtain ⟨stack,before⟩ := surrounds.stack alone read
  have made := parseTokens_made read
  rw [surrounds.split alone read] at made
  have here := Tree.ofItems_stacks (parseTokens_made alone) stack
  have there := Tree.ofItems_stacks (parseTokens_made alone') stack
  obtain ⟨whole',made'⟩ := Tree.ofItems_swap made before here there rfl
  exact ⟨whole',read_items (surrounds.plain f u alone') made'⟩

theorem signs (surrounds : Surrounds p q a b) (alone : parseTokens e.tokens = .ok t) (read : parseTokens (p ++ (e.tokens ++ q)) = .ok whole)
    (n : Nat) (some : n = 0 ∨ a ≠ []) : ∃ signed, parseTokens (p ++ (List.replicate (n + 1) .minus ++ (e.tokens ++ q))) = .ok signed ∧
      signed.items = a ++ (List.replicate n (.ofToken .minus) ++ t.items ++ [.ofToken .minus]) ++ b := by
  obtain ⟨stack,before⟩ := surrounds.stack alone read
  have made := parseTokens_made read
  rw [surrounds.split alone read] at made
  have here := Tree.ofItems_stacks (parseTokens_made alone)
  obtain ⟨stack',signs,same⟩ : ∃ stack', (List.replicate n (Item.ofToken .minus)).foldlM Tree.push stack = .ok stack' ∧
      stack'.length = stack.length := by
    rcases some with rfl | given
    · exact ⟨stack,rfl,rfl⟩
    · obtain ⟨x,below,rfl⟩ := List.exists_cons_of_ne_nil (Tree.pushes_given before given)
      exact ⟨_,Tree.pushes_signs n x below,rfl⟩
  have there : (List.replicate n (Item.ofToken .minus) ++ t.items ++ [Item.ofToken .minus]).foldlM Tree.push stack =
      .ok (Tree.negated 1 t :: stack') := by
    rw [List.foldlM_append,List.foldlM_append,signs]
    change (t.items.foldlM Tree.push stack' >>= fun stack => [Item.ofToken Token.minus].foldlM Tree.push stack) = _
    rw [here stack']
    rfl
  obtain ⟨signed,made'⟩ := Tree.ofItems_swap made before (here stack) there (by simp [same])
  exact ⟨signed,read_items (surrounds.signed e t n alone) made'⟩

theorem refused (surrounds : Surrounds p q [] b) (alone : parseTokens e.tokens = .ok t) (n : Nat) :
    parseTokens (p ++ (List.replicate (n + 2) .minus ++ (e.tokens ++ q))) = .error (.parse (.missingOperand "-")) := by
  rw [parseTokens_of_ordered (surrounds.signed e t (n + 1) alone)]
  rfl

theorem apart (alone : parseTokens e.tokens = .ok t) (n : Nat) :
    a ++ (List.replicate n (.ofToken .minus) ++ t.items ++ [.ofToken .minus]) ++ b = a ++ (Tree.negated (n + 1) t).items ++ b ↔ n = 0 := by
  refine ⟨fun same => ?_,?_⟩
  · obtain ⟨i,rest,first,leaf⟩ := Tree.ofItems_head (parseTokens_made alone)
    rw [List.append_cancel_right_eq,List.append_cancel_left_eq,Tree.items_negated,first] at same
    cases n with
    | zero => rfl
    | succ n =>
      have head : Item.ofToken .minus = i := (List.cons.inj same).1
      rw [← head] at leaf
      cases leaf
  · rintro rfl
    simp [Tree.items_negated]

end Surrounds

theorem Scanned.Kept.told {s : Scanned} {y : Yard} (kept : s.Kept) (takes : Takes .start s.tokens.reverse y) :
    ∃ bs, brackets [] s.tokens.reverse = some bs := by
  rcases kept.opened with counted | unmatched
  · exact ⟨_,counted⟩
  · exact absurd takes (unmatched_refused (fun t listed => kept.lexed t (List.mem_reverse.mp listed)) unmatched)

-- Signs in a row before a primary: one stands for the negation of the primary. Of more, all but the last
-- go to the operand before, or the formula is refused if there is none, so they never stand for a
-- negation that is repeated.
theorem signs_read {before rest : List Char} {s : Scanned} {e : Primary} {q : List Token} {t whole : Tree} (stands : Stands before s)
    (placed : Token.mayFollow s.tokens.head? .minus = true) (parted : Parted q)
    (one : tokenizeChars (before ++ '-' :: rest) = .ok (s.tokens.reverse ++ .minus :: (e.tokens ++ q)))
    (alone : parseTokens e.tokens = .ok t) (read : parseTokens (s.tokens.reverse ++ (e.tokens ++ q)) = .ok whole) :
    ∃ a b, (∀ (f : Primary) (u : Tree), parseTokens f.tokens = .ok u →
        ∃ whole, parseTokens (s.tokens.reverse ++ (f.tokens ++ q)) = .ok whole ∧ whole.items = a ++ u.items ++ b) ∧
      ∀ (formula : String) (n : Nat), (stripEquals formula).toList = before ++ (List.replicate (n + 1) '-' ++ rest) →
        (n = 0 ∨ a ≠ [] → ∃ signed, parseFormula formula = .ok signed ∧
          signed.items = a ++ (List.replicate n (.ofToken .minus) ++ t.items ++ [.ofToken .minus]) ++ b ∧
          (signed.items = a ++ (Tree.negated (n + 1) t).items ++ b ↔ n = 0)) ∧
        (n ≠ 0 → a = [] → parseFormula formula = .error (.parse (.missingOperand "-"))) := by
  have kept := (stands 0 []).kept Scanned.kept_start
  have awaits : s.endsOperand = false := by
    unfold Scanned.endsOperand
    cases head : s.tokens.head? with
    | none => rfl
    | some last =>
      rw [head] at placed
      refine Bool.eq_false_iff.mpr fun ends => ?_
      have ends : last.endsOperand = true := ends
      simp [Token.mayFollow,ends,Token.begins,Token.minus] at placed
  have lexed : ∀ t ∈ q, Lexed t := by
    have tokenized : tokenize (String.ofList (before ++ '-' :: rest)) = .ok (s.tokens.reverse ++ .minus :: (e.tokens ++ q)) := by
      rw [tokenize,String.toList_ofList]
      exact one
    exact fun t listed => (tokenize_kept tokenized).1 t (by simp [listed])
  have ordered := parseTokens_flat read
  obtain ⟨y,takes⟩ : ∃ y, Takes .start s.tokens.reverse y := by
    obtain ⟨z,taken,-⟩ := bind_ok.mp ordered
    obtain ⟨y,takes,-⟩ := Takes.split _ taken
    exact ⟨y,takes⟩
  obtain ⟨bs,told⟩ := kept.told takes
  have waits := waits_after (fun t listed => kept.lexed t (List.mem_reverse.mp listed)) told takes (by rwa [List.getLast?_reverse])
  obtain ⟨a,b,surrounds⟩ := surrounds_of_takes takes waits lexed parted alone ordered
  refine ⟨a,b,fun f u alone' => surrounds.other alone read alone',fun formula n body => ?_⟩
  have tokenized : tokenize (stripEquals formula) = .ok (s.tokens.reverse ++ (List.replicate (n + 1) .minus ++ (e.tokens ++ q))) := by
    rw [tokenize,body]
    exact signs_tokens stands awaits one n
  rw [parseFormula_at tokenized]
  refine ⟨fun some => ?_,fun many bare => ?_⟩
  · obtain ⟨signed,parsed,items⟩ := surrounds.signs alone read n some
    exact ⟨signed,parsed,items,items ▸ Surrounds.apart alone n⟩
  · obtain ⟨n,rfl⟩ := Nat.exists_eq_succ_of_ne_zero many
    rw [bare] at surrounds
    exact surrounds.refused alone n

theorem signs_read_subtracted : ∃ a : List Item, ∀ (formula : String) (n : Nat),
    (stripEquals formula).toList = ['2','-'] ++ (List.replicate (n + 1) '-' ++ ['3']) →
      (n = 0 ∨ a ≠ [] → ∃ signed, parseFormula formula = .ok signed) ∧
      (n ≠ 0 → a = [] → parseFormula formula = .error (.parse (.missingOperand "-"))) := by
  let s : Scanned := ⟨[.between "-",.operand "2" .number],[]⟩
  let e : Primary := .operand (.operand "3" .number) rfl
  have stands : Stands ['2','-'] s := fun size rest => .step (t := ⟨[.operand "2" .number],[]⟩) rfl (.step rfl .here)
  have alone : parseTokens e.tokens = .ok (.node (.ofToken (.operand "3" .number)) []) := rfl
  have one : tokenizeChars (['2','-'] ++ '-' :: ['3']) = .ok (s.tokens.reverse ++ .minus :: (e.tokens ++ [])) := by decide +kernel
  have read : (parseTokens (s.tokens.reverse ++ (e.tokens ++ []))).toOption.isSome = true := by decide +kernel
  cases parsed : parseTokens (s.tokens.reverse ++ (e.tokens ++ [])) with
  | error cause => rw [parsed] at read; cases read
  | ok whole =>
    obtain ⟨a,b,-,signed⟩ := signs_read stands (by decide) (by simp [Parted]) one alone parsed
    refine ⟨a,fun formula n body => ?_⟩
    obtain ⟨reads,refused⟩ := signed formula n body
    exact ⟨fun some => (reads some).imp fun signed read => read.1,refused⟩

-- A sign before a sign is refused at the start, and elsewhere goes to the operand before. After a
-- comma between references even one sign is refused.
theorem signs_misread : (parseFormula "=--1").toOption.isNone = true ∧ (parseFormula "=A1,-B1").toOption.isNone = true ∧
    (parseFormula "=2---3").toOption.map Tree.items = some [.ofToken (.operand "2" .number),.ofToken .minus,
      .ofToken (.operand "3" .number),.ofToken .minus,.ofToken (.between "-")] := by decide +kernel

end Recalc
