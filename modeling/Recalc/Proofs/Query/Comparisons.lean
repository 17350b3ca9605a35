import Recalc.Proofs.Decimal.NumberOrder

namespace Recalc

namespace Text

theorem lowerChar_filled (c : Char) : lowerChar c ≠ [] := by
  unfold lowerChar
  split
  · exact List.cons_ne_nil _ _
  · split <;> exact List.cons_ne_nil _ _

theorem lower_nil {cs : List Char} (void : lower cs = []) : cs = [] := by
  cases cs with
  | nil => rfl
  | cons c rest =>
    have first := (List.append_eq_nil_iff.mp void).1
    split at first
    · cases first
    · exact absurd first (lowerChar_filled c)

end Text

namespace Value

def Comparable : Value → Prop
  | .number n => n.isNaN = false
  | .error _ => False
  | .array _ => False
  | _ => True

def reading (v : Value) : Float := (v.zeroIfBlank.number?).getD 0.0

-- Values of different kinds that count the same or spell the same, and so tie, though they are not equal.
inductive Tied : Value → Value → Prop where
  | counted (b : Bool) (n : Float) (same : (((if b then 1.0 else 0.0) : Float) == n) = true) : Tied (.boolean b) (.number n)
  | spelled (s : String) (v : Value) (filled : s ≠ "") (other : v.zeroIfBlank.isText = false)
      (same : Text.lower s.toList = Text.lower v.zeroIfBlank.toText.toList) : Tied (.text s) v
  | zero (n : Float) (same : (0.0 == n) = true) : Tied (.text "") (.number n)
  | untrue : Tied (.text "") (.boolean false)
  | swap (tied : Tied r l) : Tied l r

variable {l r v : Value}

theorem Comparable.reads (comparable : v.Comparable) (plain : v.zeroIfBlank.isText = false) :
    v.zeroIfBlank.toNumber = .ok v.reading ∧ v.reading.isNaN = false := by
  cases v with
  | empty => exact ⟨rfl,by decide⟩
  | boolean b => cases b <;> exact ⟨rfl,by decide⟩
  | number n => exact ⟨rfl,comparable⟩
  | text s =>
    by_cases blank : s = ""
    · subst blank
      exact ⟨rfl,by decide⟩
    · simp [zeroIfBlank,isBlank,blank,isText] at plain
  | error e => cases comparable
  | array rows => cases comparable

def comparedTexts (l r : Value) : Ordering :=
  Text.order (Text.lower l.zeroIfBlank.toText.toList) (Text.lower r.zeroIfBlank.toText.toList)

theorem compare_texts (text : l.zeroIfBlank.isText = true ∨ r.zeroIfBlank.isText = true) : l.compare r = .ok (comparedTexts l r) := if_pos text

theorem compare_numbers (left : l.Comparable) (right : r.Comparable) (plain : ¬ (l.zeroIfBlank.isText = true ∨ r.zeroIfBlank.isText = true)) :
    ∃ o, compareNumbers l.reading r.reading = some o ∧ l.compare r = .ok o := by
  obtain ⟨plainLeft,plainRight⟩ := not_or.mp plain
  obtain ⟨readLeft,numberLeft⟩ := left.reads (Bool.eq_false_iff.mpr plainLeft)
  obtain ⟨readRight,numberRight⟩ := right.reads (Bool.eq_false_iff.mpr plainRight)
  obtain ⟨o,compared⟩ := compareNumbers_total numberLeft numberRight
  refine ⟨o,compared,?_⟩
  unfold compare
  simp only [if_neg plain,readLeft,readRight,bind,Except.bind,compared]
  rfl

theorem compare_total (left : l.Comparable) (right : r.Comparable) : ∃ o, l.compare r = .ok o ∧ r.compare l = .ok o.swap := by
  by_cases text : l.zeroIfBlank.isText = true ∨ r.zeroIfBlank.isText = true
  · refine ⟨_,compare_texts text,?_⟩
    rw [compare_texts text.symm,comparedTexts,comparedTexts,Text.order_swap]
  · obtain ⟨o,compared,found⟩ := compare_numbers left right text
    obtain ⟨o',compared',found'⟩ := compare_numbers right left fun text' => text text'.symm
    rw [← compareNumbers_swap,compared] at compared'
    cases compared'
    exact ⟨o,found,found'⟩

theorem compare_swap (left : l.Comparable) (right : r.Comparable) (ties : l.compare r = .ok .eq) : r.compare l = .ok .eq := by
  obtain ⟨o,found,found'⟩ := compare_total left right
  rw [ties] at found
  cases found
  exact found'

theorem ties_iff (left : l.Comparable) (right : r.Comparable) : l.compare r = .ok .eq ↔
    if l.zeroIfBlank.isText = true ∨ r.zeroIfBlank.isText = true then
      Text.lower l.zeroIfBlank.toText.toList = Text.lower r.zeroIfBlank.toText.toList
    else (l.reading == r.reading) = true := by
  split
  · rename_i text
    rw [compare_texts text]
    refine ⟨fun ties => Text.order_eq (Except.ok.inj ties),fun same => ?_⟩
    rw [comparedTexts,same,Text.order_refl]
  · rename_i plain
    obtain ⟨o,compared,found⟩ := compare_numbers left right plain
    rw [found,← compareNumbers_eq,compared]
    simp

theorem equal_comm (l r : Value) : l.equal r = r.equal l := by
  cases l <;> cases r <;> try rfl
  · exact BEq.comm
  · exact numbers_comm _ _
  · exact BEq.comm
  · exact BEq.comm

theorem blank_text {s : String} (left : (text "").equal (text s) = true) : s = "" := by
  have void : Text.lower s.toList = [] := (beq_iff_eq.mp left).symm
  rw [← String.toList_inj,Text.lower_nil void]
  rfl

theorem text_kept {s : String} (filled : s ≠ "") : (text s).zeroIfBlank = text s := by simp [zeroIfBlank,isBlank,filled]

theorem equal_ties (left : l.Comparable) (right : r.Comparable) (same : l.equal r = true) : l.compare r = .ok .eq := by
  refine (ties_iff left right).mpr ?_
  cases l with
  | error e => cases left
  | array rows => cases left
  | empty =>
    cases r with
    | error e => cases right
    | array rows => cases right
    | empty => decide
    | boolean b => cases b <;> [decide; cases same]
    | number n => exact (numbers_comm 0.0 n).trans same
    | text t =>
      cases beq_iff_eq.mp same
      decide
  | boolean b =>
    cases r with
    | empty => cases b <;> [decide; cases same]
    | boolean c =>
      cases beq_iff_eq.mp same
      cases b <;> decide
    | _ => cases same
  | number n =>
    cases r with
    | empty => exact same
    | number m => exact same
    | _ => cases same
  | text s =>
    cases r with
    | empty =>
      cases beq_iff_eq.mp same
      decide
    | text t =>
      by_cases blank : s = ""
      · subst blank
        cases blank_text same
        decide
      · have filled : t ≠ "" := by
          rintro rfl
          exact blank (blank_text ((equal_comm _ _).trans same))
        rw [text_kept blank,text_kept filled,if_pos (.inl rfl)]
        exact beq_iff_eq.mp same
    | _ => cases same

theorem Tied.ties (tied : Tied l r) (left : l.Comparable) (right : r.Comparable) : l.compare r = .ok .eq ∧ l.equal r = false := by
  induction tied with
  | counted b n same =>
    refine ⟨(ties_iff left right).mpr ?_,rfl⟩
    cases b <;> exact same
  | spelled s v filled other same =>
    refine ⟨(ties_iff left right).mpr ?_,?_⟩
    · rw [text_kept filled,if_pos (.inl rfl)]
      exact same
    · cases v with
      | empty => simpa [equal,equalsBlank] using filled
      | text t =>
        by_cases blank : t = ""
        · subst blank
          exact beq_eq_false_iff_ne.mpr fun void => absurd (same.symm.trans void) (by decide +kernel)
        · simp [zeroIfBlank,isBlank,blank,isText] at other
      | _ => rfl
  | zero n same => exact ⟨(ties_iff left right).mpr same,rfl⟩
  | untrue => exact ⟨(ties_iff left right).mpr (by decide),rfl⟩
  | swap tied ih =>
    obtain ⟨ties,unequal⟩ := ih right left
    exact ⟨compare_swap right left ties,(equal_comm _ _).trans unequal⟩

theorem tied_text {s : String} (filled : s ≠ "") (left : (text s).Comparable) (right : r.Comparable)
    (ties : (text s).compare r = .ok .eq) (unequal : (text s).equal r = false) : Tied (text s) r := by
  have same := (ties_iff left right).mp ties
  rw [text_kept filled,if_pos (.inl rfl)] at same
  refine .spelled s r filled (Bool.eq_false_iff.mpr fun spells => ?_) same
  cases r with
  | text t =>
    by_cases blank : t = ""
    · subst blank
      cases spells
    · rw [text_kept blank] at same
      exact beq_eq_false_iff_ne.mp unequal same
  | empty => cases spells
  | _ => cases spells

theorem tied_blank (right : r.Comparable) (ties : (text "").compare r = .ok .eq) (unequal : (text "").equal r = false) :
    Tied (text "") r := by
  cases r with
  | empty => cases unequal
  | boolean b => cases b with
    | false => exact .untrue
    | true => exact absurd ((ties_iff (l := text "") trivial right).mp ties) (by decide)
  | number n => exact .zero n ((ties_iff (l := text "") trivial right).mp ties)
  | text t =>
    by_cases blank : t = ""
    · subst blank
      cases unequal
    · exact .swap (tied_text blank right trivial (compare_swap trivial right ties) ((equal_comm _ _).trans unequal))
  | error e => cases right
  | array rows => cases right

theorem tied_filled (left : l.Comparable) (right : r.Comparable) (text : l.isText = true)
    (ties : l.compare r = .ok .eq) (unequal : l.equal r = false) : Tied l r := by
  cases l with
  | text s =>
    by_cases blank : s = ""
    · subst blank
      exact tied_blank right ties unequal
    · exact tied_text blank left right ties unequal
  | _ => cases text

theorem tied_counted (left : l.Comparable) (right : r.Comparable) (plain : l.isText = false ∧ r.isText = false)
    (ties : l.compare r = .ok .eq) (unequal : l.equal r = false) : Tied l r := by
  have same := (ties_iff left right).mp ties
  cases l with
  | text s => cases plain.1
  | error e => cases left
  | array rows => cases left
  | empty =>
    cases r with
    | text t => cases plain.2
    | error e => cases right
    | array rows => cases right
    | empty => cases unequal
    | boolean b => cases b <;> [cases unequal; exact absurd same (by decide)]
    | number n => exact absurd ((numbers_comm n 0.0).trans same) (Bool.eq_false_iff.mp unequal)
  | boolean b =>
    cases r with
    | text t => cases plain.2
    | error e => cases right
    | array rows => cases right
    | empty => cases b <;> [cases unequal; exact absurd same (by decide)]
    | boolean c =>
      cases b <;> cases c
      · cases unequal
      · exact absurd same (by decide)
      · exact absurd same (by decide)
      · cases unequal
    | number n => exact .counted b n same
  | number n =>
    cases r with
    | text t => cases plain.2
    | error e => cases right
    | array rows => cases right
    | empty => exact absurd same (Bool.eq_false_iff.mp unequal)
    | boolean b => exact .swap (.counted b n ((numbers_comm _ _).trans same))
    | number n => exact absurd same (Bool.eq_false_iff.mp unequal)

theorem tied_iff (left : l.Comparable) (right : r.Comparable) : Tied l r ↔ l.compare r = .ok .eq ∧ l.equal r = false := by
  refine ⟨fun tied => tied.ties left right,fun ⟨ties,unequal⟩ => ?_⟩
  cases first : l.isText with
  | true => exact tied_filled left right first ties unequal
  | false =>
    cases second : r.isText with
    | true => exact .swap (tied_filled right left second (compare_swap left right ties) ((equal_comm r l).trans unequal))
    | false => exact tied_counted left right ⟨first,second⟩ ties unequal

end Value

namespace BinaryOp
variable {l r : Value} {op : BinaryOp} {o : Ordering}

def comparisons : List BinaryOp := [.equal,.notEqual,.less,.lessEqual,.greater,.greaterEqual]

def answer (op : BinaryOp) (equal : Bool) (o : Ordering) : Bool :=
  match op with
  | .equal => equal
  | .notEqual => !equal
  | .less => o == .lt
  | .lessEqual => o != .gt
  | .greater => o == .gt
  | .greaterEqual => o != .lt
  | _ => false

def Holds (op : BinaryOp) (l r : Value) : Prop := op.apply l r = .boolean true

theorem apply_compared (left : l.Comparable) (right : r.Comparable) (found : l.compare r = .ok o) (member : op ∈ comparisons) :
    op.apply l r = .boolean (op.answer (l.equal r) o) := by
  have plain {v : Value} (comparable : v.Comparable) : v.error? = none := by
    cases v with
    | error e => cases comparable
    | _ => rfl
  have compared (test : Ordering → Bool) : comparison test l r = .boolean (test o) := by rw [comparison,found]
  unfold apply
  rw [plain left,plain right]
  simp only [comparisons,List.mem_cons,List.not_mem_nil,or_false] at member
  rcases member with rfl | rfl | rfl | rfl | rfl | rfl <;> exact compared _

theorem holds_compared (left : l.Comparable) (right : r.Comparable) (found : l.compare r = .ok o) (member : op ∈ comparisons) :
    op.Holds l r ↔ op.answer (l.equal r) o = true := by
  rw [Holds,apply_compared left right found member,Value.boolean.injEq]

end BinaryOp

def ExactlyOne (p q r : Prop) : Prop := (p ∧ ¬ q ∧ ¬ r) ∨ (¬ p ∧ q ∧ ¬ r) ∨ (¬ p ∧ ¬ q ∧ r)

open BinaryOp

-- The comparisons answer by truth values and agree with each other, unless values of different kinds tie:
-- then none of less, equal and greater holds, though both less or equal and greater or equal do.
theorem comparisons_cohere {l r : Value} (left : l.Comparable) (right : r.Comparable) :
    (∀ op ∈ comparisons, op.apply l r = .boolean true ∨ op.apply l r = .boolean false) ∧
      (notEqual.Holds l r ↔ ¬ equal.Holds l r) ∧ (less.Holds l r ↔ greater.Holds r l) ∧
      (¬ l.Tied r → ExactlyOne (less.Holds l r) (equal.Holds l r) (greater.Holds l r) ∧
        (lessEqual.Holds l r ↔ less.Holds l r ∨ equal.Holds l r) ∧ (greaterEqual.Holds l r ↔ greater.Holds l r ∨ equal.Holds l r)) ∧
      (l.Tied r → ¬ less.Holds l r ∧ ¬ equal.Holds l r ∧ ¬ greater.Holds l r ∧ lessEqual.Holds l r ∧ greaterEqual.Holds l r) := by
  obtain ⟨o,found,turned⟩ := Value.compare_total left right
  have ties : l.Tied r ↔ o = .eq ∧ l.equal r = false := by
    rw [Value.tied_iff left right,found,Except.ok.injEq]
  have equals : l.equal r = true → o = .eq := fun same => Except.ok.inj (found.symm.trans (Value.equal_ties left right same))
  refine ⟨fun op member => ?_,?_⟩
  · rw [apply_compared left right found member]
    cases op.answer (l.equal r) o <;> simp
  · have holds (op : BinaryOp) (member : op ∈ comparisons) := holds_compared left right found member
    rw [holds_compared right left turned (by decide),holds .equal (by decide),holds .notEqual (by decide),holds .less (by decide),
      holds .lessEqual (by decide),holds .greater (by decide),holds .greaterEqual (by decide),ties]
    generalize l.equal r = e at equals
    generalize r.equal l = e'
    revert equals
    cases o <;> cases e <;> cases e' <;> simp [answer,ExactlyOne]

theorem comparisons_cohere_mixed : ¬ (Value.number 2.0).Tied (.text "10") ∧
    ExactlyOne (less.Holds (.number 2.0) (.text "10")) (equal.Holds (.number 2.0) (.text "10")) (greater.Holds (.number 2.0) (.text "10")) := by
  have left : (Value.number 2.0).Comparable := show (2.0 : Float).isNaN = false by decide
  have right : (Value.text "10").Comparable := trivial
  have found : (Value.number 2.0).compare (.text "10") = .ok .gt := by decide +kernel
  have apart : ¬ (Value.number 2.0).Tied (.text "10") := by
    rw [Value.tied_iff left right,found]
    exact nofun
  obtain ⟨-,-,-,coherent,-⟩ := comparisons_cohere left right
  exact ⟨apart,(coherent apart).1⟩

theorem comparisons_apart : (Value.number 1.0).Comparable ∧ (Value.text "1").Comparable ∧
    ¬ ExactlyOne (less.Holds (.number 1.0) (.text "1")) (equal.Holds (.number 1.0) (.text "1")) (greater.Holds (.number 1.0) (.text "1")) := by
  have left : (Value.number 1.0).Comparable := show (1.0 : Float).isNaN = false by decide
  have right : (Value.text "1").Comparable := trivial
  have found : (Value.number 1.0).compare (.text "1") = .ok .eq := by decide +kernel
  refine ⟨left,right,?_⟩
  rw [holds_compared left right found (by decide),holds_compared left right found (by decide),holds_compared left right found (by decide)]
  simp [answer,ExactlyOne,Value.equal]

end Recalc
