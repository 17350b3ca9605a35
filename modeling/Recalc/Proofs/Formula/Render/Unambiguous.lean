import Recalc.Proofs.Formula.Render.Rendering

namespace Recalc

theorem intercalate_flatMap {α : Type} (separator : List Char) (text : α → List Char) (x : α) (xs : List α) :
    separator.intercalate ((x :: xs).map text) = text x ++ xs.flatMap fun y => separator ++ text y := by
  induction xs generalizing x with
  | nil => simp
  | cons y ys ih =>
    have rest := ih y
    rw [List.map_cons] at rest
    rw [List.map_cons,List.map_cons,List.intercalate_cons_cons,rest,List.flatMap_cons]
    simp only [List.append_assoc]

theorem items_delimit {α : Type} {separator : List Char} {text : α → List Char} {stop : List Char → Prop} {xs ys : List α}
    {r r' : List Char} (each : ∀ x ∈ xs, ∀ y ∈ ys, ∀ s s', stop s → stop s' → text x ++ s = text y ++ s' → x = y ∧ s = s')
    (between : ∀ s, stop (separator ++ s)) (after : stop r) (after' : stop r')
    (ends : ∀ y ∈ ys, ∀ s, r ≠ separator ++ (text y ++ s)) (ends' : ∀ x ∈ xs, ∀ s, r' ≠ separator ++ (text x ++ s))
    (same : (xs.flatMap fun x => separator ++ text x) ++ r = (ys.flatMap fun y => separator ++ text y) ++ r') : xs = ys ∧ r = r' := by
  have stopped (zs : List α) {s : List Char} (last : stop s) : stop ((zs.flatMap fun z => separator ++ text z) ++ s) := by
    cases zs with
    | nil => exact last
    | cons z zs =>
      rw [List.flatMap_cons,List.append_assoc,List.append_assoc]
      exact between _
  induction xs generalizing ys with
  | nil =>
    cases ys with
    | nil => exact ⟨rfl,same⟩
    | cons y ys =>
      rw [List.flatMap_cons,List.append_assoc,List.append_assoc] at same
      exact absurd same (ends y List.mem_cons_self _)
  | cons x xs ih =>
    cases ys with
    | nil =>
      rw [List.flatMap_cons,List.append_assoc,List.append_assoc] at same
      exact absurd same.symm (ends' x List.mem_cons_self _)
    | cons y ys =>
      rw [List.flatMap_cons,List.flatMap_cons,List.append_assoc,List.append_assoc,List.append_assoc,List.append_assoc] at same
      obtain ⟨rfl,rest⟩ := each x List.mem_cons_self y List.mem_cons_self _ _ (stopped xs after) (stopped ys after') (List.append_cancel_left same)
      obtain ⟨rfl,last⟩ := ih (fun x here y there => each x (List.mem_cons_of_mem _ here) y (List.mem_cons_of_mem _ there))
        (fun y there => ends y (List.mem_cons_of_mem _ there)) (fun x here => ends' x (List.mem_cons_of_mem _ here)) rest
      exact ⟨rfl,last⟩

theorem joined_delimit {α : Type} {separator : List Char} {text : α → List Char} (stop : List Char → Prop) {x y : α} {xs ys : List α}
    {r r' : List Char} (each : ∀ x' ∈ x :: xs, ∀ y' ∈ y :: ys, ∀ s s', stop s → stop s' → text x' ++ s = text y' ++ s' → x' = y' ∧ s = s')
    (between : ∀ s, stop (separator ++ s)) (after : stop r) (after' : stop r')
    (ends : ∀ y' ∈ y :: ys, ∀ s, r ≠ separator ++ (text y' ++ s)) (ends' : ∀ x' ∈ x :: xs, ∀ s, r' ≠ separator ++ (text x' ++ s))
    (same : separator.intercalate ((x :: xs).map text) ++ r = separator.intercalate ((y :: ys).map text) ++ r') : x :: xs = y :: ys ∧ r = r' := by
  refine items_delimit each between after after' ends ends' ?_
  rw [intercalate_flatMap,intercalate_flatMap] at same
  simp only [List.flatMap_cons,List.append_assoc] at same ⊢
  rw [same]

namespace Expr

-- What a part has to be for the text to tell: a number of the kind without a minus sign, no array
-- as a value and no array without rows.
def Fine (kind : Float → Prop) : Expr → Prop
  | .literal (.number x) => kind x ∧ (Value.numberText x).toList.head? ≠ some '-'
  | .literal (.array _) => False
  | .array [] => False
  | _ => True

def Good (kind : Float → Prop) (e : Expr) : Prop := ∀ p ∈ e.parts, p.Fine kind

def Delimited (kind : Float → Prop) (operator : Bool) (a : Expr) : Prop :=
  ∀ b r r', b.Good kind → Stops operator r → Stops operator r' → a.chars operator ++ r = b.chars operator ++ r' → a = b ∧ r = r'

variable {kind kind' : Float → Prop} {operator : Bool} {a b c e : Expr} {r r' : List Char}

theorem Good.child (good : e.Good kind) (child : c ∈ e.children) : c.Good kind :=
  fun p part => good p (child_parts child part)

theorem Good.fine (good : e.Good kind) : e.Fine kind := good e (self_parts e)

theorem text_good (s : String) : (Expr.literal (.text s)).Good kind := by
  intro p part
  obtain rfl : p = .literal (.text s) := by simpa [parts] using part
  trivial

def words : List String := ["blank","true","false"] ++ ErrorValue.all.map ErrorValue.text

def ofWord (text : String) : Option Value :=
  if text = "blank" then some .empty
  else if text = "true" then some (.boolean true)
  else if text = "false" then some (.boolean false)
  else (ErrorValue.parse text).map .error

theorem words_spelled {word : String} (listed : word ∈ words) :
    (∃ c ∈ word.toList.head?, isLeading c = true ∧ c.isDigit = false ∧ c ∉ ['i','N']) ∧ ∀ c ∈ word.toList, isSpelling c = true := by
  have each : words.all (fun w => w.toList.head?.any (fun c => isLeading c && !c.isDigit && decide (c ∉ ['i','N'])) &&
      w.toList.all isSpelling) = true := by decide +kernel
  obtain ⟨head,all⟩ := Bool.and_eq_true_iff.mp (List.all_eq_true.mp each word listed)
  obtain ⟨c,begins,sort⟩ := (Option.any_eq_true _ _).mp head
  exact ⟨⟨c,begins,by simpa [and_assoc] using sort⟩,List.all_eq_true.mp all⟩

theorem literal_cases {v : Value} (fine : (Expr.literal v).Fine kind) (bare : ∀ s, v ≠ .text s) :
    (∃ x, v = .number x ∧ kind x ∧ Figures (renderLiteral v).toList) ∨ ofWord (renderLiteral v) = some v ∧ renderLiteral v ∈ words := by
  cases v with
  | text s => exact absurd rfl (bare s)
  | array rows => cases fine
  | number x => exact .inl ⟨x,rfl,fine.1,(Value.numberText_spelled x).resolve_right fun signed => fine.2 signed.2⟩
  | empty => exact .inr ⟨rfl,by decide⟩
  | boolean b => cases b <;> exact .inr ⟨rfl,by decide⟩
  | error e => cases e <;> exact .inr ⟨rfl,by decide⟩

theorem literal_spelled {v : Value} (fine : (Expr.literal v).Fine kind) (bare : ∀ s, v ≠ .text s) :
    (∃ c ∈ (renderLiteral v).toList.head?, isLeading c = true) ∧ ∀ c ∈ (renderLiteral v).toList, isSpelling c = true := by
  rcases literal_cases fine bare with ⟨x,-,-,figures⟩ | ⟨-,listed⟩
  · have word (c : Char) (is : isWordChar c = true) : isSpelling c = true := by simp [isSpelling,is]
    obtain ⟨c,first,sort⟩ := figures.first
    refine ⟨⟨c,first,?_⟩,fun c member => word c (figures.chars c member)⟩
    have spelled := word c (figures.chars c (List.mem_of_mem_head? first))
    have other : c ≠ 'd' := by
      rintro rfl
      revert sort
      decide
    simp [isLeading,spelled,other]
  · obtain ⟨⟨c,first,leading,-⟩,spelled⟩ := words_spelled listed
    exact ⟨⟨c,first,leading⟩,spelled⟩

theorem literal_inj (apart : ∀ x y, kind x → kind' y → Value.numberText x = Value.numberText y → x = y) {v w : Value}
    (fine : (Expr.literal v).Fine kind) (fine' : (Expr.literal w).Fine kind') (bare : ∀ s, v ≠ .text s) (bare' : ∀ s, w ≠ .text s)
    (same : renderLiteral v = renderLiteral w) : v = w := by
  have differ {text : String} (figures : Figures text.toList) (listed : text ∈ words) : False := by
    obtain ⟨c,first,sort⟩ := figures.first
    obtain ⟨⟨d,head,-,digit,letter⟩,-⟩ := words_spelled listed
    obtain rfl := Option.some.inj ((Option.mem_def.mp first).symm.trans (Option.mem_def.mp head))
    rcases sort with is | is
    · rw [is] at digit
      cases digit
    · exact letter is
  rcases literal_cases fine bare with ⟨x,rfl,here,figures⟩ | ⟨word,listed⟩ <;>
    rcases literal_cases fine' bare' with ⟨y,rfl,there,figures'⟩ | ⟨word',listed'⟩
  · rw [apart x y here there same]
  · exact (differ figures (same ▸ listed')).elim
  · exact (differ figures' (same ▸ listed)).elim
  · exact Option.some.inj (by rw [← word,same,word'])

theorem bare_or_text (v : Value) : (∃ s, v = .text s) ∨ ∀ s, v ≠ .text s := by
  cases v with
  | text s => exact .inl ⟨s,rfl⟩
  | _ => exact .inr fun s same => by cases same

theorem alone_cases (alone : e.isOperator = false) : (∃ v, e = .literal v) ∨ (∃ rows, e = .array rows) ∨ ∃ c, e.asApplication = some c := by
  cases e with
  | literal v => exact .inl ⟨v,rfl⟩
  | array rows => exact .inr (.inl ⟨rows,rfl⟩)
  | unary | binary => cases alone
  | _ => exact .inr (.inr ⟨_,rfl⟩)

def mark : Expr → Option Char
  | .literal (.text _) => some '"'
  | .array _ => some '\x7b'
  | _ => none

theorem mark_some {m : Char} (marked : e.mark = some m) :
    m = '"' ∧ (∃ s, e = .literal (.text s)) ∨ m = '\x7b' ∧ ∃ rows, e = .array rows := by
  unfold mark at marked
  split at marked <;> cases marked
  · exact .inl ⟨rfl,_,rfl⟩
  · exact .inr ⟨rfl,_,rfl⟩

theorem alone_opens (operator : Bool) (alone : e.isOperator = false) (fine : e.Fine kind) : ∃ c s, e.chars operator = c :: s ∧ isLeading c = true ∧
    e.mark = if isSpelling c then none else some c := by
  have begins {cs : List Char} (unmarked : e.mark = none) (opening : ∃ c ∈ cs.head?, isLeading c = true) (spelled : ∀ c ∈ cs, isSpelling c = true)
      (t : List Char) : ∃ c s, cs ++ t = c :: s ∧ isLeading c = true ∧ e.mark = if isSpelling c then none else some c := by
    obtain ⟨c,head,opening⟩ := opening
    obtain ⟨s,rfl⟩ := List.head?_eq_some_iff.mp (Option.mem_def.mp head)
    exact ⟨c,s ++ t,rfl,opening,by rw [unmarked,if_pos (spelled c List.mem_cons_self)]⟩
  rcases alone_cases alone with ⟨v,rfl⟩ | ⟨rows,rfl⟩ | ⟨c,called⟩
  · rcases bare_or_text v with ⟨s,rfl⟩ | bare
    · rw [chars_text]
      exact ⟨'"',_,rfl,by decide,rfl⟩
    · have unmarked : (Expr.literal v).mark = none := by
        cases v with
        | text s => exact absurd rfl (bare s)
        | _ => rfl
      have spelled := literal_spelled fine bare
      rw [← List.append_nil ((Expr.literal v).chars operator)]
      exact begins unmarked spelled.1 spelled.2 []
  · rw [chars_array]
    exact ⟨'\x7b',_,rfl,by decide,rfl⟩
  · have unmarked : e.mark = none := by
      cases e with
      | literal | array => cases called
      | _ => rfl
    rw [chars_call called,Application.chars]
    exact begins unmarked c.head.name_spelled.1 c.head.name_spelled.2 _

def first : Expr → Expr
  | .unary .percent e => e
  | .binary _ l _ => l
  | e => e

def rest : Expr → List Char
  | .unary .percent _ => ['%']
  | .binary op _ r => ' ' :: (op.symbol.toList ++ ' ' :: r.chars true)
  | _ => []

theorem chars_negate (e : Expr) : (Expr.unary .negate e).chars false = '-' :: e.chars true := by
  simp [chars,renderUnder,Expr.grouped]

theorem signed_or_not (e : Expr) : (∃ x, e = .unary .negate x) ∨ ∀ x, e ≠ .unary .negate x := by
  cases e with
  | unary op x =>
    cases op with
    | negate => exact .inl ⟨x,rfl⟩
    | percent => exact .inr fun x same => by cases same
  | _ => exact .inr fun x same => by cases same

theorem positive_cases (positive : ∀ x, e ≠ .unary .negate x) :
    e.isOperator = false ∨ (∃ x, e = .unary .percent x) ∨ ∃ op l r, e = .binary op l r := by
  cases e with
  | unary op x =>
    cases op with
    | negate => exact absurd rfl (positive x)
    | percent => exact .inr (.inl ⟨x,rfl⟩)
  | binary op l r => exact .inr (.inr ⟨op,l,r,rfl⟩)
  | _ => exact .inl rfl

theorem first_alone (alone : e.isOperator = false) : e.first = e ∧ e.rest = [] := by
  cases e with
  | unary | binary => cases alone
  | _ => exact ⟨rfl,rfl⟩

theorem chars_first (positive : ∀ x, e ≠ .unary .negate x) : e.chars false = e.first.chars true ++ e.rest := by
  rcases positive_cases positive with alone | ⟨x,rfl⟩ | ⟨op,l,r,rfl⟩
  · have operand : e.chars true = e.chars false := chars_alone alone
    rw [(first_alone alone).1,(first_alone alone).2,operand,List.append_nil]
  · simp [chars,renderUnder,Expr.grouped,first,rest]
  · simp [chars,renderUnder,Expr.grouped,first,rest]

theorem first_child (operates : e.isOperator = true) (positive : ∀ x, e ≠ .unary .negate x) : e.first ∈ e.children := by
  rcases positive_cases positive with alone | ⟨x,rfl⟩ | ⟨op,l,r,rfl⟩
  · cases operates.symm.trans alone
  · simp [first,children]
  · simp [first,children]

theorem first_good (good : e.Good kind) (positive : ∀ x, e ≠ .unary .negate x) : e.first.Good kind := by
  cases operates : e.isOperator with
  | true => exact good.child (first_child operates positive)
  | false => rwa [(first_alone operates).1]

theorem operand_opens (good : e.Good kind) : ∃ c s, e.chars true = c :: s ∧ (isLeading c = true ∨ c = '(') := by
  cases operates : e.isOperator with
  | true => exact ⟨'(',_,chars_grouped operates,.inr rfl⟩
  | false =>
    obtain ⟨c,s,text,opening,-⟩ := alone_opens true operates good.fine
    exact ⟨c,s,text,.inl opening⟩

theorem opens (good : e.Good kind) : ∃ c s, e.chars false = c :: s ∧ (isLeading c = true ∨ c ∈ ['(','-']) := by
  rcases signed_or_not e with ⟨x,rfl⟩ | positive
  · exact ⟨'-',_,chars_negate x,.inr (by decide)⟩
  · obtain ⟨c,s,text,opening⟩ := operand_opens (first_good good positive)
    refine ⟨c,s ++ e.rest,by rw [chars_first positive,text]; rfl,opening.imp_right ?_⟩
    rintro rfl
    decide

def Closes (r : List Char) : Prop := ∃ c s, r = c :: s ∧ (c ∈ [')',';','\x7d'] ∨ c = ',' ∧ ∃ t, s = ' ' :: 'd' :: t)

theorem Closes.stops (closes : Closes r) : Stops false r := by
  obtain ⟨c,s,rfl,closing⟩ := closes
  have known : ∀ c ∈ [')',';','\x7d'] ++ [','], c ∈ Recalc.stops false := Text.each_of_all (by decide)
  rintro d ⟨⟩
  exact known c (List.mem_append.mpr (closing.imp_right fun comma => by simp [comma.1]))

theorem Closes.unopened (closes : Closes r) (good : e.Good kind) (s : List Char) : r ≠ e.chars false ++ s := by
  rintro rfl
  obtain ⟨c,t,text,opening⟩ := opens good
  obtain ⟨d,u,same,closing⟩ := closes
  have other : ∀ c ∈ [')',';','\x7d'] ++ [','], ¬ (isLeading c = true ∨ c ∈ ['(','-']) :=
    Text.each_of_all (by decide)
  rw [text] at same
  obtain rfl := (List.cons.inj same).1
  exact other c (List.mem_append.mpr (closing.imp_right fun comma => by simp [comma.1])) opening

theorem Closes.unlisted (closes : Closes r) (good : e.Good kind) (s : List Char) : r ≠ [',',' '] ++ (e.chars false ++ s) := by
  rintro rfl
  obtain ⟨c,t,text,opening⟩ := opens good
  obtain ⟨d,u,same,closing⟩ := closes
  obtain ⟨rfl,tail⟩ := List.cons.inj same
  rcases closing with closing | ⟨-,t,rfl⟩
  · revert closing
    decide
  · rw [text] at tail
    obtain rfl := (List.cons.inj (List.cons.inj tail).2).1
    revert opening
    decide

theorem listed_delimits {es es' : List Expr} (inner : ∀ e ∈ es, Delimited kind' false e) (good : ∀ e ∈ es, e.Good kind)
    (good' : ∀ e ∈ es', e.Good kind') (closes : Closes r) (closes' : Closes r') (same : listed es ++ r = listed es' ++ r') :
    es = es' ∧ r = r' := by
  have between (s : List Char) : Stops false ([',',' '] ++ s) := by
    rintro c ⟨⟩
    decide
  cases es with
  | nil =>
    cases es' with
    | nil => exact ⟨rfl,same⟩
    | cons e es =>
      rw [listed,listed,intercalate_flatMap,List.append_assoc] at same
      exact absurd same (closes.unopened (good' e List.mem_cons_self) _)
  | cons e es =>
    cases es' with
    | nil =>
      rw [listed,listed,intercalate_flatMap,List.append_assoc] at same
      exact absurd same.symm (closes'.unopened (good e List.mem_cons_self) _)
    | cons e' es' =>
      exact joined_delimit (Stops false) (fun x here y there s s' => inner x here y s s' (good' y there)) between closes.stops closes'.stops
        (fun y there s => closes.unlisted (good' y there) s) (fun x here s => closes'.unlisted (good x here) s) same

theorem rows_delimit {rows rows' : List (List Expr)} (inner : ∀ e ∈ rows.flatten, Delimited kind' false e) (good : ∀ e ∈ rows.flatten, e.Good kind)
    (good' : ∀ e ∈ rows'.flatten, e.Good kind') (some : rows ≠ []) (some' : rows' ≠ [])
    (same : [';',' '].intercalate (rows.map listed) ++ '\x7d' :: r = [';',' '].intercalate (rows'.map listed) ++ '\x7d' :: r') :
    rows = rows' ∧ r = r' := by
  have inside {table : List (List Expr)} {row : List Expr} {e : Expr} (listed : row ∈ table) (item : e ∈ row) : e ∈ table.flatten :=
    List.mem_flatten.mpr ⟨row,listed,item⟩
  have between (s : List Char) : Closes ([';',' '] ++ s) := ⟨';',_,rfl,.inl (by decide)⟩
  have ends (x y : List Char) : '\x7d' :: x ≠ [';',' '] ++ y := fun same => by cases (List.cons.inj same).1
  obtain ⟨row,rest,rfl⟩ := List.exists_cons_of_ne_nil some
  obtain ⟨row',rest',rfl⟩ := List.exists_cons_of_ne_nil some'
  obtain ⟨table,behind⟩ := joined_delimit Closes (fun x here y there s s' closes closes' => listed_delimits (fun e item => inner e (inside here item))
    (fun e item => good e (inside here item)) (fun e item => good' e (inside there item)) closes closes') between ⟨'\x7d',r,rfl,.inl (by decide)⟩
    ⟨'\x7d',r',rfl,.inl (by decide)⟩ (fun _ _ s => ends _ _) (fun _ _ s => ends _ _) same
  exact ⟨table,(List.cons.inj behind).2⟩

theorem digits_delimit {m n : Nat} (other : ∀ c ∈ r.head?, c.isDigit = false) (other' : ∀ c ∈ r'.head?, c.isDigit = false)
    (same : Nat.toDigits 10 m ++ r = Nat.toDigits 10 n ++ r') : m = n ∧ r = r' := by
  obtain ⟨digits,rest⟩ := run_delimits (Decimal.digits_word m) (Decimal.digits_word n) other other' same
  exact ⟨toDigits_inj (by decide) (by decide) digits,rest⟩

theorem entry_delimits {k k' : Option Nat} (stop : Stops operator r) (stop' : Stops operator r')
    (same : Application.entry k ++ r = Application.entry k' ++ r') : k = k' ∧ r = r' := by
  cases k with
  | none =>
    cases k' with
    | none => exact ⟨rfl,same⟩
    | some index => exact absurd same (stop.operand.other (by decide) _)
  | some index =>
    cases k' with
    | none => exact absurd same.symm (stop'.operand.other (by decide) _)
    | some index' =>
      simp only [Application.entry,List.cons_append,List.append_assoc] at same
      obtain ⟨rfl,rest⟩ := digits_delimit (by simp) (by simp) (List.cons.inj same).2
      exact ⟨rfl,(List.cons.inj rest).2⟩

theorem closing_delimits {c d : Application} (stop : Stops operator r) (stop' : Stops operator r') (same : c.closing ++ r = d.closing ++ r') :
    c.fit = d.fit ∧ r = r' := by
  unfold Application.closing at same
  cases fit : c.fit with
  | none =>
    cases fit' : d.fit with
    | none =>
      rw [fit,fit'] at same
      exact ⟨rfl,List.append_cancel_left same⟩
    | some shape' =>
      rw [fit,fit'] at same
      cases (List.cons.inj same).1
  | some shape =>
    cases fit' : d.fit with
    | none =>
      rw [fit,fit'] at same
      cases (List.cons.inj same).1
    | some shape' =>
      rw [fit,fit'] at same
      simp only [List.append_assoc] at same
      obtain ⟨degree,rest⟩ := digits_delimit (by simp) (by simp) (List.append_cancel_left same)
      obtain ⟨coefficient,last⟩ := entry_delimits stop stop' (List.cons.inj rest).2
      exact ⟨by rw [Prod.ext degree coefficient],last⟩

theorem closing_closes (c : Application) (r : List Char) : Closes (c.closing ++ r) := by
  unfold Application.closing
  split
  · exact ⟨')',r,rfl,.inl (by decide)⟩
  · rw [List.append_assoc]
    exact ⟨',',_,rfl,.inr ⟨rfl,_,rfl⟩⟩

theorem call_good {c : Application} (called : e.asApplication = some c) (good : e.Good kind) : ∀ x ∈ c.args, x.Good kind := by
  intro x listed
  cases e with
  | cell address | range address =>
    cases called
    obtain rfl := List.mem_singleton.mp listed
    exact text_good _
  | literal | unary | binary | array => cases called
  | _ =>
    cases called
    exact good.child listed

theorem spelled_delimits (apart : ∀ x y, kind x → kind' y → Value.numberText x = Value.numberText y → x = y)
    (alone : a.isOperator = false) (alone' : b.isOperator = false) (unmarked : a.mark = none) (unmarked' : b.mark = none)
    (good : a.Good kind) (good' : b.Good kind') (args : ∀ c, a.asApplication = some c → ∀ e ∈ c.args, Delimited kind' false e)
    (stop : Stops true r) (stop' : Stops true r') (same : a.chars true ++ r = b.chars true ++ r') : a = b ∧ r = r' := by
  have bare {v : Value} (unmarked : (Expr.literal v).mark = none) (s : String) : v ≠ .text s := by
    rintro rfl
    cases unmarked
  have name (c : Application) (y : List Char) : ∀ d ∈ ('(' :: y).head?, isSpelling d = false := by
    rintro d ⟨⟩
    decide
  rcases alone_cases alone with ⟨v,rfl⟩ | ⟨rows,rfl⟩ | ⟨c,called⟩
  · have spelled := (literal_spelled good.fine (bare unmarked)).2
    rcases alone_cases alone' with ⟨w,rfl⟩ | ⟨rows,rfl⟩ | ⟨d,called'⟩
    · obtain ⟨word,rest⟩ := run_delimits spelled (literal_spelled good'.fine (bare unmarked')).2 stop.unspelled stop'.unspelled same
      exact ⟨by rw [literal_inj apart good.fine good'.fine (bare unmarked) (bare unmarked') (String.toList_inj.mp word)],rest⟩
    · cases unmarked'
    · rw [chars_call called',Application.chars,List.append_assoc] at same
      exact absurd (run_delimits spelled d.head.name_spelled.2 stop.unspelled (name d _) same).2 (stop.other (by decide) _)
  · cases unmarked
  · rw [chars_call called,Application.chars,List.append_assoc] at same
    rcases alone_cases alone' with ⟨w,rfl⟩ | ⟨rows,rfl⟩ | ⟨d,called'⟩
    · exact absurd (run_delimits c.head.name_spelled.2 (literal_spelled good'.fine (bare unmarked')).2 (name c _) stop'.unspelled same).2.symm
        (stop'.other (by decide) _)
    · cases unmarked'
    · rw [chars_call called',Application.chars,List.append_assoc] at same
      obtain ⟨named,behind⟩ := run_delimits c.head.name_spelled.2 d.head.name_spelled.2 (name c _) (name d _) same
      have inside := (List.cons.inj behind).2
      rw [List.append_eq,List.append_eq,List.append_assoc,List.append_assoc] at inside
      obtain ⟨alike,closing⟩ := listed_delimits (args c called) (call_good called good) (call_good called' good')
        (closing_closes c r) (closing_closes d r') inside
      obtain ⟨fit,rest⟩ := closing_delimits stop stop' closing
      have call : c = d := by
        cases c
        cases d
        cases Head.name_inj (String.toList_inj.mp named)
        cases alike
        cases fit
        rfl
      exact ⟨Option.some.inj (by rw [← asCall_expr called,call,asCall_expr called']),rest⟩

-- A text, an array and what is spelled begin differently.
theorem alone_delimits (apart : ∀ x y, kind x → kind' y → Value.numberText x = Value.numberText y → x = y)
    (alone : a.isOperator = false) (alone' : b.isOperator = false) (good : a.Good kind) (good' : b.Good kind')
    (args : ∀ c, a.asApplication = some c → ∀ e ∈ c.args, Delimited kind' false e) (inner : ∀ e ∈ a.children, Delimited kind' false e)
    (stop : Stops true r) (stop' : Stops true r') (same : a.chars true ++ r = b.chars true ++ r') : a = b ∧ r = r' := by
  have marks : a.mark = b.mark := by
    obtain ⟨c,s,text,-,mark⟩ := alone_opens true alone good.fine
    obtain ⟨d,t,text',-,mark'⟩ := alone_opens true alone' good'.fine
    rw [text,text'] at same
    rw [mark,mark',(List.cons.inj same).1]
  cases unmarked : a.mark with
  | none => exact spelled_delimits apart alone alone' unmarked (marks ▸ unmarked) good good' args stop stop' same
  | some c =>
    rcases mark_some unmarked with ⟨quoted,s,rfl⟩ | ⟨braced,rows,rfl⟩ <;>
      rcases mark_some (marks ▸ unmarked) with ⟨quoted',t,rfl⟩ | ⟨braced',rows',rfl⟩
    · rw [chars_text,chars_text] at same
      obtain ⟨text,rest⟩ := Text.quote_delimits same
      exact ⟨by rw [String.toList_inj.mp text],rest⟩
    · exact absurd (quoted.symm.trans braced') (by decide)
    · exact absurd (quoted'.symm.trans braced) (by decide)
    · rw [chars_array,chars_array] at same
      have some {kind : Float → Prop} {rows : List (List Expr)} (fine : (Expr.array rows).Fine kind) : rows ≠ [] := by
        rintro rfl
        exact fine
      have braced := (List.cons.inj same).2
      rw [List.append_eq,List.append_eq,List.append_assoc,List.append_assoc] at braced
      obtain ⟨table,rest⟩ := rows_delimit inner (fun e child => good.child child) (fun e child => good'.child child)
        (some good.fine) (some good'.fine) braced
      exact ⟨by rw [table],rest⟩

theorem symbol_delimits {op op' : BinaryOp} (same : op.symbol.toList ++ ' ' :: r = op'.symbol.toList ++ ' ' :: r') : op = op' ∧ r = r' := by
  have dark (op : BinaryOp) : ∀ c ∈ op.symbol.toList, (c != ' ') = true := Text.each_of_all (by cases op <;> decide)
  obtain ⟨symbol,rest⟩ := run_delimits (dark op) (dark op') (by simp) (by simp) same
  have alike := (BinaryOp.ofSymbol_symbol op).symm.trans ((congrArg BinaryOp.ofSymbol (String.toList_inj.mp symbol)).trans (BinaryOp.ofSymbol_symbol op'))
  exact ⟨Option.some.inj alike,(List.cons.inj rest).2⟩

theorem operand_delimits (alone : a.isOperator = false → ∀ b r r', b.isOperator = false → b.Good kind' → Stops true r → Stops true r' →
    a.chars true ++ r = b.chars true ++ r' → a = b ∧ r = r') (grouped : a.isOperator = true → Delimited kind' false a)
    (good : a.Good kind) : Delimited kind' true a := by
  have unbracketed {kind : Float → Prop} {e : Expr} (good : e.Good kind) (alone : e.isOperator = false) (x y : List Char) :
      e.chars true ++ x ≠ '(' :: y := by
    obtain ⟨c,s,text,opening,-⟩ := alone_opens true alone good.fine
    rw [text]
    rintro ⟨⟩
    revert opening
    decide
  intro b r r' good' stop stop' same
  cases operates : a.isOperator with
  | false =>
    cases operates' : b.isOperator with
    | false => exact alone operates b r r' operates' good' stop stop' same
    | true =>
      rw [chars_grouped operates'] at same
      exact absurd same (unbracketed good operates _ _)
  | true =>
    rw [chars_grouped operates] at same
    cases operates' : b.isOperator with
    | false => exact absurd same.symm (unbracketed good' operates' _ _)
    | true =>
      rw [chars_grouped operates',List.cons_append,List.cons_append,List.append_assoc,List.append_assoc] at same
      have closed (x : List Char) : Stops false ([')'] ++ x) := by
        rintro c ⟨⟩
        decide
      obtain ⟨alike,rest⟩ := grouped operates b _ _ good' (closed r) (closed r') (List.cons.inj same).2
      exact ⟨alike,(List.cons.inj rest).2⟩

theorem rest_delimits (first : a.first = b.first) (positive : ∀ x, a ≠ .unary .negate x) (positive' : ∀ x, b ≠ .unary .negate x)
    (good' : b.Good kind') (inner : ∀ c ∈ a.children, Delimited kind' true c) (stop : Stops false r) (stop' : Stops false r')
    (same : a.rest ++ r = b.rest ++ r') : a = b ∧ r = r' := by
  rcases positive_cases positive with alone | ⟨x,rfl⟩ | ⟨op,x,y,rfl⟩ <;>
    rcases positive_cases positive' with alone' | ⟨x',rfl⟩ | ⟨op',x',y',rfl⟩
  · rw [(first_alone alone).1,(first_alone alone').1] at first
    rw [(first_alone alone).2,(first_alone alone').2] at same
    exact ⟨first,same⟩
  · rw [(first_alone alone).2] at same
    exact absurd same (stop.other (by decide) _)
  · rw [(first_alone alone).2] at same
    exact absurd same (stop.other (by decide) _)
  · rw [(first_alone alone').2] at same
    exact absurd same.symm (stop'.other (by decide) _)
  · cases first
    exact ⟨rfl,(List.cons.inj same).2⟩
  · cases (List.cons.inj same).1
  · rw [(first_alone alone').2] at same
    exact absurd same.symm (stop'.other (by decide) _)
  · cases (List.cons.inj same).1
  · cases first
    have behind := (List.cons.inj same).2
    rw [List.append_eq,List.append_eq,List.append_assoc,List.append_assoc] at behind
    obtain ⟨rfl,operand⟩ := symbol_delimits behind
    obtain ⟨rfl,last⟩ := inner y (by simp [children]) y' r r' (good'.child (by simp [children])) stop.operand stop'.operand operand
    exact ⟨rfl,last⟩

theorem top_delimits (good : a.Good kind) (inner : ∀ c ∈ a.children, Delimited kind' true c)
    (alone : a.isOperator = false → Delimited kind' true a) : Delimited kind' false a := by
  have unsigned {kind : Float → Prop} {e : Expr} (good : e.Good kind) (positive : ∀ x, e ≠ .unary .negate x) (x y : List Char) :
      e.chars false ++ x ≠ '-' :: y := by
    obtain ⟨c,s,text,opening⟩ := operand_opens (first_good good positive)
    rw [chars_first positive,text]
    rintro ⟨⟩
    revert opening
    decide
  intro b r r' good' stop stop' same
  rcases signed_or_not a with ⟨x,rfl⟩ | positive <;> rcases signed_or_not b with ⟨y,rfl⟩ | positive'
  · rw [chars_negate,chars_negate] at same
    obtain ⟨rfl,rest⟩ := inner x (by simp [children]) y r r' (good'.child (by simp [children])) stop.operand stop'.operand (List.cons.inj same).2
    exact ⟨rfl,rest⟩
  · rw [chars_negate] at same
    exact absurd same.symm (unsigned good' positive' _ _)
  · rw [chars_negate] at same
    exact absurd same (unsigned good positive _ _)
  · have front : Delimited kind' true a.first := by
      cases operates : a.isOperator with
      | true => exact inner _ (first_child operates positive)
      | false =>
        rw [(first_alone operates).1]
        exact alone operates
    have stopped {e : Expr} {x : List Char} (positive : ∀ x, e ≠ .unary .negate x) (stop : Stops false x) : Stops true (e.rest ++ x) := by
      rcases positive_cases positive with alone | ⟨y,rfl⟩ | ⟨op,l,y,rfl⟩
      · rw [(first_alone alone).2]
        exact stop.operand
      · rintro c ⟨⟩
        decide
      · rintro c ⟨⟩
        decide
    rw [chars_first positive,chars_first positive',List.append_assoc,List.append_assoc] at same
    obtain ⟨first,rest⟩ := front b.first _ _ (first_good good' positive') (stopped positive stop) (stopped positive' stop') same
    exact rest_delimits first positive positive' good' inner stop stop' rest

theorem levels_delimit (alone : a.isOperator = false → ∀ b r r', b.isOperator = false → b.Good kind' → Stops true r → Stops true r' →
    a.chars true ++ r = b.chars true ++ r' → a = b ∧ r = r') (inner : ∀ c ∈ a.children, Delimited kind' true c) (good : a.Good kind) :
    ∀ operator, Delimited kind' operator a := by
  have top : Delimited kind' false a := top_delimits good inner fun operates =>
    operand_delimits alone (fun other => absurd (operates.symm.trans other) (by decide)) good
  intro operator
  cases operator with
  | false => exact top
  | true => exact operand_delimits alone (fun _ => top) good

theorem text_delimits (apart : ∀ x y, kind x → kind' y → Value.numberText x = Value.numberText y → x = y) (s : String) (operator : Bool) :
    Delimited kind' operator (.literal (.text s)) := by
  have good : (Expr.literal (.text s)).Good kind := text_good s
  refine levels_delimit (fun alone b r r' alone' good' => ?_) (fun c child => by cases child) good operator
  exact alone_delimits apart alone alone' good good' (fun c called => by cases called) (fun c child => by cases child)

-- Induction on what an expression is made of, for the text it has as an operand and the text it has elsewhere.
theorem delimits (apart : ∀ x y, kind x → kind' y → Value.numberText x = Value.numberText y → x = y) (e : Expr) (good : e.Good kind) :
    ∀ operator, Delimited kind' operator e := by
  induction e using children_induction with
  | step e ih =>
    have inner (c : Expr) (child : c ∈ e.children) (operator : Bool) : Delimited kind' operator c := ih c child (good.child child) operator
    refine levels_delimit (fun alone b r r' alone' good' stop stop' same => ?_) (fun c child => inner c child true) good
    refine alone_delimits apart alone alone' good good' (fun c called x listed => ?_) (fun c child => inner c child false) stop stop' same
    cases e with
    | cell address | range address =>
      cases called
      obtain rfl := List.mem_singleton.mp listed
      exact text_delimits apart _ false
    | literal | unary | binary | array => cases called
    | _ =>
      cases called
      exact inner x listed false

theorem render_inj (apart : ∀ x y, kind x → kind' y → Value.numberText x = Value.numberText y → x = y) (good : a.Good kind) (good' : b.Good kind')
    (same : a.render = b.render) : a = b := by
  have ends : Stops false [] := fun _ head => by cases head
  have texts : a.chars false ++ [] = b.chars false ++ [] := by rw [chars,chars,← render,← render,same]
  exact (delimits apart a good false b [] [] good' ends ends texts).1

end Expr
end Recalc
