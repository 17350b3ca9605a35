import Recalc.Proofs.Formula.Lexeme.Brackets

namespace Recalc
open ReversePolish

namespace Token

def begins (t : Token) : Bool :=
  t.kind == .operand || t.kind == .prefixOp || (t.kind == .function || t.kind == .subexpression) && t.isStart

def joins (t : Token) : Bool := t.kind == .infixOp && (rank t.text).any fun n => 7 ≤ n

-- Which token may come next. A sign is refused where it would take the operator before it for
-- complete, and a reference operator where it would take the operand from a percent sign.
def mayFollow : Option Token → Token → Bool
  | none, t => t.begins
  | some last, t =>
    if last.endsOperand then !t.begins && !(last == .percent && t.joins)
    else last.kind == .function && t == .functionStop || t.begins && !(t == .minus && (last == .minus || last.joins))

end Token

def wellPlaced (last : Option Token) : List Token → Bool
  | [] => last.any Token.endsOperand
  | t :: ts => Token.mayFollow last t && wellPlaced (some t) ts

theorem rank_split (ranked : rank symbol = some n) : n ≤ 8 ∧ ((Token.between symbol).joins = false → n ≤ 6) := by
  have small : n ≤ 8 := by
    unfold rank at ranked
    split at ranked <;> cases ranked <;> omega
  refine ⟨small,fun apart => ?_⟩
  simp [Token.joins,Token.between,ranked] at apart
  omega

-- After the tokens a phrase is expected that binds so strongly. The brackets are open, and the
-- operators before it wait.
inductive Place : List Bracket → List Token → Nat → Prop where
  | start : Place [] [] 0
  | group (outer : Place bs p n) : Place (.parentheses :: bs) (p ++ [.groupStart]) 0
  | first (outer : Place bs p n) (name : String) : Place (.call :: bs) (p ++ [.functionStart name]) 0
  | next (outer : Place bs p n) (name : String) (args : WritesAll ts trees) :
      Place (.call :: bs) (p ++ .functionStart name :: ts ++ [.comma]) 0
  | negate (outer : Place bs p n) (low : n ≤ 7) : Place bs (p ++ [.minus]) 8
  | between (outer : Place bs p n) (ranked : rank symbol = some r) (low : n ≤ r) (left : Writes r ts t) :
      Place bs (p ++ ts ++ [.between symbol]) (r + 1)

structure Complete (bs : List Bracket) (p : List Token) : Prop where
  ends : p.getLast?.any Token.endsOperand = true
  splits : ∃ q n ts t m, Place bs q n ∧ Writes m ts t ∧ n ≤ m ∧ p = q ++ ts ∧ (8 ≤ m ∨ 6 ≤ m ∧ p.getLast? = some .percent)

theorem WritesAll.snoc : WritesAll ts trees → Writes 0 us t → WritesAll (ts ++ .comma :: us) (trees ++ [t])
  | .last first, arg => .more first (.last arg)
  | .more first rest, arg => by simpa using WritesAll.more first (rest.snoc arg)

namespace Place
variable {bs : List Bracket} {p ts : List Token} {n m r : Nat} {t : Tree}

theorem expects (place : Place bs p n) : p.getLast?.any Token.endsOperand = false ∧
    (7 < n → p.getLast?.any (fun last => last == .minus || last.joins) = true) := by
  cases place with
  | start => simp
  | group outer => simp [Token.endsOperand,Token.groupStart,Token.isStop]
  | first outer name => simp [Token.endsOperand,Token.functionStart,Token.isStop]
  | next outer name args =>
    rw [List.getLast?_concat]
    exact ⟨rfl,by omega⟩
  | negate outer low => simp [Token.endsOperand,Token.minus]
  | @between _ _ _ symbol r _ _ outer ranked low left =>
    obtain ⟨-,less⟩ := rank_split ranked
    refine ⟨by simp [Token.endsOperand,Token.between],fun more => ?_⟩
    cases joins : (Token.between symbol).joins with
    | true => simp [joins]
    | false => exact absurd (less joins) (by omega)

-- Operators that bind at least as strongly as the next one have their operands. Induction on
-- what waits.
theorem loosen (place : Place bs p n) (writes : Writes m ts t) (fits : n ≤ m) (lower : r ≤ m) :
    ∃ p' k ts' t', Place bs p' k ∧ k ≤ r ∧ Writes r ts' t' ∧ p' ++ ts' = p ++ ts := by
  induction place generalizing ts t m with
  | start => exact ⟨_,0,ts,t,.start,Nat.zero_le r,writes.weaken lower,rfl⟩
  | group outer => exact ⟨_,0,ts,t,.group outer,Nat.zero_le r,writes.weaken lower,rfl⟩
  | first outer name => exact ⟨_,0,ts,t,.first outer name,Nat.zero_le r,writes.weaken lower,rfl⟩
  | next outer name args => exact ⟨_,0,ts,t,.next outer name args,Nat.zero_le r,writes.weaken lower,rfl⟩
  | negate outer low ih =>
    by_cases stays : 8 ≤ r
    · exact ⟨_,8,ts,t,.negate outer low,stays,writes.weaken lower,rfl⟩
    · obtain ⟨p',k,ts',t',found,less,whole,split⟩ := ih (.negate (Nat.le_refl 7) (writes.weaken fits)) low (by omega)
      exact ⟨p',k,ts',t',found,less,whole,by simp [split]⟩
  | @between bs p n symbol q ls a outer ranked low left ih =>
    by_cases stays : q + 1 ≤ r
    · exact ⟨_,q + 1,ts,t,.between outer ranked low left,stays,writes.weaken lower,rfl⟩
    · obtain ⟨p',k,ts',t',found,less,whole,split⟩ :=
        ih (.between ranked (Nat.le_refl q) left (writes.weaken fits)) low (by omega)
      exact ⟨p',k,ts',t',found,less,whole,by simp [split]⟩

end Place

inductive Within : List Bracket → List Token → Prop where
  | whole (writes : Writes 0 ts t) : Within [] ts
  | group (outer : Place bs q n) (writes : Writes 0 ts t) : Within (.parentheses :: bs) (q ++ .groupStart :: ts)
  | call (outer : Place bs q n) (name : String) (args : WritesAll ts trees) : Within (.call :: bs) (q ++ .functionStart name :: ts)

namespace Complete
variable {bs : List Bracket} {p : List Token} {n r : Nat}

theorem loosen (complete : Complete bs p) (lower : r ≤ 6 ∨ r ≤ 8 ∧ p.getLast? ≠ some .percent) :
    ∃ q k ts t, Place bs q k ∧ k ≤ r ∧ Writes r ts t ∧ q ++ ts = p := by
  obtain ⟨q,n,ts,t,m,place,writes,fits,rfl,strong⟩ := complete.splits
  have below : r ≤ m := by
    rcases strong with strong | ⟨strong,last⟩
    · omega
    · exact lower.elim (fun low => by omega) fun high => absurd last high.2
  exact place.loosen writes fits below

theorem of_writes (place : Place bs q n) (ts : List Token) (writes : ∀ m, Writes m (ts ++ [last]) t) (ends : last.endsOperand = true) :
    Complete bs (q ++ (ts ++ [last])) := by
  refine ⟨by simpa [← List.append_assoc] using ends,q,n,ts ++ [last],t,n + 8,place,writes _,by omega,rfl,.inl (by omega)⟩

theorem within (complete : Complete bs p) : Within bs p := by
  obtain ⟨q,k,ts,t,place,low,writes,rfl⟩ := complete.loosen (r := 0) (.inl (by omega))
  cases Nat.le_zero.mp low
  cases place with
  | start => exact .whole writes
  | group outer => simpa using Within.group outer writes
  | first outer name => simpa using Within.call outer name (.last writes)
  | next outer name args => simpa using Within.call outer name (args.snoc writes)

end Complete

inductive Reading (bs : List Bracket) (p : List Token) : Prop where
  | expects (place : Place bs p n) : Reading bs p
  | complete (complete : Complete bs p) : Reading bs p

namespace Reading
variable {bs bs' : List Bracket} {p : List Token} {t : Token}

theorem place (reading : Reading bs p) (follows : Token.mayFollow p.getLast? t = true) (begins : t.begins = true) :
    ∃ n, Place bs p n ∧ (t = .minus → n ≤ 7) := by
  cases reading with
  | complete complete =>
    have ends := complete.ends
    cases last : p.getLast? with
    | none => simp [last] at ends
    | some last => simp_all [Token.mayFollow]
  | @expects n place =>
    refine ⟨n,place,fun sign => ?_⟩
    obtain ⟨apart,more⟩ := place.expects
    refine Nat.le_of_not_lt fun strong => ?_
    have more := more strong
    cases last : p.getLast? with
    | none => simp [last] at more
    | some last => simp_all [Token.mayFollow,Token.minus,Token.functionStop]

theorem completes (reading : Reading bs p) (follows : Token.mayFollow p.getLast? t = true) (begins : t.begins = false)
    (other : t ≠ .functionStop) : Complete bs p := by
  cases reading with
  | complete complete => exact complete
  | expects place =>
    obtain ⟨apart,-⟩ := place.expects
    cases last : p.getLast? with
    | none => simp [last,Token.mayFollow,begins] at follows
    | some last => simp_all [Token.mayFollow]

-- One more token; the text is by induction.
theorem step (reading : Reading bs p) (lexed : Lexed t) (follows : Token.mayFollow p.getLast? t = true)
    (told : t.bracket bs = some bs') : Reading bs' (p ++ [t]) := by
  cases lexed with
  | operand text subkind =>
    cases told
    obtain ⟨n,place,-⟩ := reading.place follows rfl
    exact .complete (.of_writes place [] (fun m => .operand rfl) rfl)
  | functionStart name =>
    cases told
    obtain ⟨n,place,-⟩ := reading.place follows rfl
    exact .expects (.first place name)
  | groupStart =>
    cases told
    obtain ⟨n,place,-⟩ := reading.place follows rfl
    exact .expects (.group place)
  | minus =>
    cases told
    obtain ⟨n,place,low⟩ := reading.place follows rfl
    exact .expects (.negate place (low rfl))
  | percent =>
    cases told
    obtain ⟨q,k,ts,u,place,low,writes,rfl⟩ := (reading.completes follows rfl (by decide)).loosen (r := 6) (.inl (by omega))
    refine .complete ⟨by simp [Token.endsOperand,Token.percent],q,k,ts ++ [.percent],_,6,place,.percent (Nat.le_refl 6) writes,low,
      by simp,.inr ⟨by omega,by simp⟩⟩
  | @between symbol r ranked =>
    cases told
    have complete := reading.completes follows rfl (by simp [Token.between,Token.functionStop])
    obtain ⟨small,less⟩ := rank_split ranked
    have lower : r ≤ 6 ∨ r ≤ 8 ∧ p.getLast? ≠ some .percent := by
      cases joins : (Token.between symbol).joins with
      | false => exact .inl (less joins)
      | true =>
        refine .inr ⟨small,fun last => ?_⟩
        simp [last,Token.mayFollow,joins,Token.endsOperand,Token.percent] at follows
    obtain ⟨q,k,ts,u,place,low,writes,rfl⟩ := complete.loosen lower
    exact .expects (.between place ranked low writes)
  | comma => cases (reading.completes follows rfl (by decide)).within with
    | whole writes => cases told
    | group outer writes => cases told
    | call outer name args =>
      cases told
      exact .expects (.next outer name args)
  | groupStop => cases (reading.completes follows rfl (by decide)).within with
    | whole writes => cases told
    | call outer name args => cases told
    | @group _ _ _ ts _ outer writes =>
      cases told
      simpa using Reading.complete (.of_writes outer (.groupStart :: ts) (fun m => .group writes) rfl)
  | functionStop =>
    cases reading with
    | complete complete => cases complete.within with
      | whole writes => cases told
      | group outer writes => cases told
      | @call _ _ _ ts _ outer name args =>
        cases told
        simpa using Reading.complete (.of_writes outer (.functionStart name :: ts) (fun m => .call name args) rfl)
    | expects place => cases place with
      | start => cases told
      | group outer => cases told
      | first outer name =>
        cases told
        simpa using Reading.complete (.of_writes outer [.functionStart name] (fun m => .bare name) rfl)
      | next outer name args =>
        rw [List.getLast?_concat] at follows
        cases follows
      | negate outer low =>
        rw [List.getLast?_concat] at follows
        cases follows
      | between outer ranked low left =>
        rw [List.getLast?_concat] at follows
        simp [Token.mayFollow,Token.between,Token.endsOperand,Token.functionStop,Token.begins,Token.isStart] at follows

theorem run (reading : Reading bs p) (lexed : ∀ t ∈ ts, Lexed t) (placed : wellPlaced p.getLast? ts = true)
    (told : brackets bs ts = some []) : ∃ t, Writes 0 (p ++ ts) t := by
  induction ts generalizing bs p with
  | nil =>
    cases told
    have complete : Complete [] p := by
      cases reading with
      | complete complete => exact complete
      | expects place =>
        obtain ⟨apart,-⟩ := place.expects
        simp [wellPlaced,apart] at placed
    cases complete.within with
    | whole writes => exact ⟨_,by simpa using writes⟩
  | cons t ts ih =>
    obtain ⟨follows,placed⟩ := Bool.and_eq_true_iff.mp placed
    obtain ⟨between,here,told⟩ := Option.bind_eq_some_iff.mp told
    have next := reading.step (lexed t (by simp)) follows here
    obtain ⟨u,writes⟩ := ih next (fun t listed => lexed t (by simp [listed])) (by simpa using placed) told
    exact ⟨u,by simpa using writes⟩

end Reading

structure Awaits (l : Nat) (last : Option Token) : Prop where
  apart : last.any Token.endsOperand = false
  strong : last.any (fun last => last == .minus || last.joins) = true → 8 ≤ l

theorem Awaits.mono (awaits : Awaits l last) (higher : l ≤ n) : Awaits n last :=
  ⟨awaits.apart,fun asks => Nat.le_trans (awaits.strong asks) higher⟩

theorem Awaits.mayFollow (awaits : Awaits l last) (begins : t.begins = true) (low : t = .minus → l ≤ 7) :
    Token.mayFollow last t = true := by
  obtain ⟨apart,strong⟩ := awaits
  cases last with
  | none => exact begins
  | some last =>
    have weak : t = .minus → (last == .minus || last.joins) = false := fun sign => by
      have low := low sign
      exact Bool.eq_false_iff.mpr fun asks => absurd (strong asks) (by omega)
    have apart : last.endsOperand = false := apart
    by_cases sign : t = .minus
    · simp [Token.mayFollow,apart,begins,weak sign]
    · simp [Token.mayFollow,apart,begins,sign]

def Alternates (l : Nat) (ts : List Token) : Prop := ∃ last : Token, last.endsOperand = true ∧ (last = .percent → l ≤ 6) ∧
  ∀ before rest, Awaits l before → wellPlaced before (ts ++ rest) = wellPlaced (some last) rest

theorem mayFollow_ends (ends : last.endsOperand = true) (begins : t.begins = false) (apart : last = .percent → t.joins = false) :
    Token.mayFollow (some last) t = true := by
  by_cases cut : last = .percent
  · simp [Token.mayFollow,ends,begins,apart cut]
  · simp [Token.mayFollow,ends,begins,cut]

theorem alternates_operand (kind : t.kind = .operand) : Alternates l [t] := by
  refine ⟨t,by simp [Token.endsOperand,kind],(by rintro rfl; cases kind),fun before rest awaits => ?_⟩
  have follows := awaits.mayFollow (t := t) (by simp [Token.begins,kind]) (by rintro rfl; cases kind)
  simp [wellPlaced,follows]

theorem alternates_bare (name : String) : Alternates l [.functionStart name,.functionStop] := by
  refine ⟨.functionStop,rfl,(by intro cut; cases cut),fun before rest awaits => ?_⟩
  have follows := awaits.mayFollow (t := .functionStart name) rfl (by intro sign; cases sign)
  have closes : Token.mayFollow (some (.functionStart name)) .functionStop = true := rfl
  simp [wellPlaced,follows,closes]

theorem alternates_within (opens : first.begins = true) (sign : first ≠ .minus) (plain : first.endsOperand = false ∧ first.joins = false)
    (closes : last.endsOperand = true) (stops : last.begins = false) (cut : last ≠ .percent ∧ last.joins = false)
    (inner : Alternates 0 ts) : Alternates l (first :: (ts ++ [last])) := by
  obtain ⟨inside,ends,-,stays⟩ := inner
  refine ⟨last,closes,fun percent => absurd percent cut.1,fun before rest awaits => ?_⟩
  have follows := awaits.mayFollow opens fun minus => absurd minus sign
  have ahead := stays (some first) (last :: rest) ⟨plain.1,by simp [sign,plain.2]⟩
  have behind := mayFollow_ends ends stops fun _ => cut.2
  simp [wellPlaced,follows,ahead,behind]

theorem alternates_group (inner : Alternates 0 ts) : Alternates l (.groupStart :: (ts ++ [.groupStop])) :=
  alternates_within rfl (by decide) ⟨rfl,rfl⟩ rfl rfl ⟨by decide,rfl⟩ inner

theorem alternates_call (name : String) (args : Alternates 0 ts) : Alternates l (.functionStart name :: (ts ++ [.functionStop])) :=
  alternates_within rfl (by simp [Token.functionStart,Token.minus]) ⟨rfl,rfl⟩ rfl rfl ⟨by decide,rfl⟩ args

theorem alternates_negate (low : l ≤ 7) (inner : Alternates 8 ts) : Alternates l (.minus :: ts) := by
  obtain ⟨last,ends,cut,stays⟩ := inner
  refine ⟨last,ends,fun percent => by have := cut percent; omega,fun before rest awaits => ?_⟩
  have follows := awaits.mayFollow (t := .minus) rfl fun _ => low
  have ahead := stays (some .minus) rest ⟨rfl,fun _ => Nat.le_refl 8⟩
  simp [wellPlaced,follows,ahead]

theorem alternates_percent (low : l ≤ 6) (inner : Alternates 6 ts) : Alternates l (ts ++ [.percent]) := by
  obtain ⟨last,ends,-,stays⟩ := inner
  refine ⟨.percent,rfl,fun _ => low,fun before rest awaits => ?_⟩
  have ahead := stays before (.percent :: rest) (awaits.mono low)
  have behind : Token.mayFollow (some last) .percent = true := mayFollow_ends ends rfl fun _ => rfl
  simp [wellPlaced,ahead,behind]

theorem alternates_between (ranked : rank symbol = some r) (low : l ≤ r) (left : Alternates r ts) (right : Alternates (r + 1) us) :
    Alternates l (ts ++ .between symbol :: us) := by
  obtain ⟨first,ends,cut,stays⟩ := left
  obtain ⟨last,closes,cut',stays'⟩ := right
  refine ⟨last,closes,fun percent => by have := cut' percent; omega,fun before rest awaits => ?_⟩
  have ahead := stays before (.between symbol :: (us ++ rest)) (awaits.mono low)
  have joins : (Token.between symbol).joins = decide (7 ≤ r) := by simp [Token.joins,Token.between,ranked]
  have behind : Token.mayFollow (some first) (.between symbol) = true := by
    refine mayFollow_ends ends (by simp [Token.begins,Token.between]) fun percent => ?_
    have := cut percent
    simp [joins]
    omega
  have after := stays' (some (.between symbol)) rest ⟨by simp [Token.endsOperand,Token.between],fun asks => ?_⟩
  · simp [wellPlaced,ahead,behind,after]
  · have other : (Token.between symbol == .minus) = false := by simp [Token.between,Token.minus]
    simp [other,joins] at asks
    omega

theorem alternates_more (arg : Alternates 0 ts) (rest : Alternates 0 us) : Alternates 0 (ts ++ .comma :: us) := by
  obtain ⟨first,ends,-,stays⟩ := arg
  obtain ⟨last,closes,-,stays'⟩ := rest
  refine ⟨last,closes,fun _ => by omega,fun before rest awaits => ?_⟩
  have ahead := stays before (.comma :: (us ++ rest)) awaits
  have behind : Token.mayFollow (some first) .comma = true := mayFollow_ends ends rfl fun _ => rfl
  have after := stays' (some .comma) rest ⟨rfl,by decide⟩
  simp [wellPlaced,ahead,behind,after]

mutual
theorem Writes.alternates : Writes l ts t → Alternates l ts
  | .operand kind => alternates_operand kind
  | .group inner => alternates_group inner.alternates
  | .bare name => alternates_bare name
  | .call name args => alternates_call name args.alternates
  | .negate low inner => alternates_negate low inner.alternates
  | .percent low inner => alternates_percent low inner.alternates
  | .between ranked low left right => alternates_between ranked low left.alternates right.alternates
theorem WritesAll.alternates : WritesAll ts trees → Alternates 0 ts
  | .last arg => arg.alternates
  | .more arg rest => alternates_more arg.alternates rest.alternates
end

theorem Writes.wellPlaced (writes : Writes l ts t) : wellPlaced none ts = true := by
  obtain ⟨last,ends,-,stays⟩ := writes.alternates
  simpa [Recalc.wellPlaced,ends] using stays none [] ⟨rfl,by simp⟩

theorem parseFormula_at (tokenized : tokenize (stripEquals formula) = .ok ts) : parseFormula formula = parseTokens ts := by
  unfold parseFormula
  rw [tokenized]
  rfl

theorem parseTokens_ordered (parsed : parseTokens ts = .ok t) : ∃ list, ofTokens ts = .ok list := by
  cases ordered : ofTokens ts with
  | error e => simp only [parseTokens,ordered] at parsed; cases parsed
  | ok list => exact ⟨list,rfl⟩

theorem wellPlaced_writes (tokenized : tokenize text = .ok ts) (placed : wellPlaced none ts = true)
    (closed : brackets [] ts = some []) : ∃ t, Writes 0 ts t := by
  have begun : Reading [] [] := .expects .start
  simpa using begun.run (tokenize_kept tokenized).1 placed closed

-- A formula text whose operands and operators take turns is read if its brackets are closed. The
-- tree of a formula that is read is what its text writes, but for brackets that could be left
-- out, just if its operands and operators take turns.
theorem formula_written (tokenized : tokenize (stripEquals formula) = .ok ts) :
    (wellPlaced none ts = true → brackets [] ts = some [] → ∃ t, parseFormula formula = .ok t) ∧
      ∀ t, parseFormula formula = .ok t → (Writes 0 ts t ↔ wellPlaced none ts = true) := by
  rw [parseFormula_at tokenized]
  refine ⟨fun placed closed => ?_,fun t parsed => ⟨Writes.wellPlaced,fun placed => ?_⟩⟩
  · obtain ⟨t,writes⟩ := wellPlaced_writes tokenized placed closed
    exact ⟨t,writes.parse⟩
  · obtain ⟨list,ordered⟩ := parseTokens_ordered parsed
    obtain ⟨u,writes⟩ := wellPlaced_writes tokenized placed (brackets_closed tokenized ordered)
    cases writes.parse.symm.trans parsed
    exact writes

theorem formula_written_signed : ∃ ts t, tokenize (stripEquals "=-(1+2)%*F(A1:B2,-3)") = .ok ts ∧
    parseFormula "=-(1+2)%*F(A1:B2,-3)" = .ok t ∧ Writes 0 ts t := by
  have told : ((tokenize (stripEquals "=-(1+2)%*F(A1:B2,-3)")).toOption.any fun ts =>
    wellPlaced none ts && brackets [] ts == some []) = true := by decide +kernel
  cases tokenized : tokenize (stripEquals "=-(1+2)%*F(A1:B2,-3)") with
  | error e => simp [tokenized,Except.toOption] at told
  | ok ts =>
    rw [tokenized] at told
    obtain ⟨placed,closed⟩ := Bool.and_eq_true_iff.mp told
    obtain ⟨accepts,reads⟩ := formula_written tokenized
    obtain ⟨t,parsed⟩ := accepts placed (eq_of_beq closed)
    exact ⟨ts,t,rfl,parsed,(reads t parsed).mpr placed⟩

def Misread (formula : String) : Prop := ∃ ts t,
  tokenize (stripEquals formula) = .ok ts ∧ parseFormula formula = .ok t ∧ ¬ Writes 0 ts t

def strays (formula : String) : Bool :=
  ((tokenize (stripEquals formula)).toOption.any fun ts => !wellPlaced none ts) && (parseFormula formula).toOption.isSome

theorem misread_strays (strayed : strays formula = true) : Misread formula := by
  obtain ⟨misplaced,parsed⟩ := Bool.and_eq_true_iff.mp strayed
  cases tokenized : tokenize (stripEquals formula) with
  | error e => simp [tokenized,Except.toOption] at misplaced
  | ok ts =>
    cases read : parseFormula formula with
    | error e => simp [read,Except.toOption] at parsed
    | ok t =>
      refine ⟨ts,t,tokenized,read,fun writes => ?_⟩
      simp [tokenized,Except.toOption,writes.wellPlaced] at misplaced

-- An operator after both of its operands, a sign in the place of another, an argument that is
-- left out, and a percent sign that takes what follows.
theorem formula_misread : Misread "=1\"a\"*" ∧ Misread "=2---3" ∧ Misread "=F(,1)" ∧ Misread "=A1%,B1" :=
  ⟨misread_strays (by decide +kernel),misread_strays (by decide +kernel),misread_strays (by decide +kernel),
    misread_strays (by decide +kernel)⟩

end Recalc
