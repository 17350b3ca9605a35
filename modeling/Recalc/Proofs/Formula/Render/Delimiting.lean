import Recalc.Formula.Expr
import Recalc.Proofs.Text.Splitting

namespace Recalc

theorem run_delimits {sort : Char → Bool} {w w' r r' : List Char} (all : ∀ c ∈ w, sort c = true) (all' : ∀ c ∈ w', sort c = true)
    (other : ∀ c ∈ r.head?, sort c = false) (other' : ∀ c ∈ r'.head?, sort c = false) (same : w ++ r = w' ++ r') : w = w' ∧ r = r' := by
  have ends {x y : List Char} (others : ∀ c ∈ x.head?, sort c = false) (c : Char) (is : sort c = true) : x ≠ c :: y := by
    rintro rfl
    simp [is] at others
  induction w generalizing w' with
  | nil =>
    cases w' with
    | nil => exact ⟨rfl,same⟩
    | cons d w' => exact absurd same (ends other d (all' d List.mem_cons_self))
  | cons c w ih =>
    cases w' with
    | nil => exact absurd same.symm (ends other' c (all c List.mem_cons_self))
    | cons d w' =>
      obtain ⟨rfl,rest⟩ := List.cons.inj same
      obtain ⟨rfl,after⟩ := ih (fun x listed => all x (List.mem_cons_of_mem _ listed)) (fun x listed => all' x (List.mem_cons_of_mem _ listed)) rest
      exact ⟨rfl,after⟩

theorem digitChar_inj {b m n : Nat} (few : b ≤ 16) (left : m < b) (right : n < b) (same : m.digitChar = n.digitChar) : m = n := by
  have all : ∀ i < 16, ∀ j < 16, Nat.digitChar i = Nat.digitChar j → i = j := by decide
  exact all m (by omega) n (by omega) same

theorem toDigits_inj {b m n : Nat} (base : 1 < b) (few : b ≤ 16) (same : Nat.toDigits b m = Nat.toDigits b n) : m = n := by
  induction m using Nat.strongRecOn generalizing n with
  | _ m ih =>
    rw [Nat.toDigits_eq_if base,Nat.toDigits_eq_if (n := n) base] at same
    have longer {k : Nat} {c d : Char} : [c] ≠ Nat.toDigits b k ++ [d] := by
      intro one
      have length := congrArg List.length one
      simp [Nat.toDigits_ne_nil] at length
    split at same <;> split at same
    · rename_i small small'
      exact digitChar_inj few small small' (List.cons.inj same).1
    · exact absurd same longer
    · exact absurd same.symm longer
    · rename_i large large'
      obtain ⟨front,last⟩ := List.append_inj' same rfl
      have high := ih (m / b) (Nat.div_lt_self (by omega) base) front
      have low := digitChar_inj few (Nat.mod_lt m (by omega)) (Nat.mod_lt n (by omega)) (List.cons.inj last).1
      rw [← Nat.div_add_mod m b,← Nat.div_add_mod n b,high,low]

theorem toDigits_free {b n : Nat} {mark : Char} (base : 1 < b) (few : b ≤ 16) (other : ∀ i < 16, Nat.digitChar i ≠ mark) :
    mark ∉ Nat.toDigits b n := by
  induction n using Nat.strongRecOn with
  | _ n ih =>
    rw [Nat.toDigits_eq_if base]
    split
    · rename_i small
      simpa using (other n (by omega)).symm
    · have low := Nat.mod_lt n (show 0 < b by omega)
      simpa using ⟨ih (n / b) (Nat.div_lt_self (by omega) base),(other (n % b) (by omega)).symm⟩

namespace Text
variable {c d : Char} {cs ds r s x y : List Char}

def marks : List (Char × Char) := [('"','"'),('\\','\\'),('\n','n'),('\r','r'),('\t','t'),('\x00','0')]

theorem escape_cases (c : Char) : (∃ mark, (c,mark) ∈ marks ∧ escape c = ['\\',mark]) ∨
    escape c = '\\' :: 'u' :: '\x7b' :: (Nat.toDigits 16 c.toNat ++ ['\x7d']) ∨ c ≠ '"' ∧ c ≠ '\\' ∧ escape c = [c] := by
  unfold escape
  split
  case h_7 quote slash line carriage tab null =>
    split
    · exact .inr (.inl rfl)
    · exact .inr (.inr ⟨fun same => quote same,fun same => slash same,rfl⟩)
  all_goals exact .inl ⟨_,by decide,rfl⟩

-- No escape is the beginning of another, and none begins like the end of the text.
theorem escape_delimits (same : escape c ++ x = escape d ++ y) : c = d ∧ x = y := by
  have apart : ∀ p ∈ marks, ∀ q ∈ marks, p.2 = q.2 → p.1 = q.1 := by decide
  have numbered : ∀ p ∈ marks, p.2 ≠ 'u' := by decide
  rcases escape_cases c with ⟨mark,listed,spelled⟩ | spelled | ⟨-,slash,spelled⟩ <;>
    rcases escape_cases d with ⟨mark',listed',spelled'⟩ | spelled' | ⟨-,slash',spelled'⟩ <;>
    rw [spelled,spelled'] at same
  · obtain ⟨alike,rest⟩ : mark = mark' ∧ x = y := by simpa using same
    exact ⟨apart _ listed _ listed' alike,rest⟩
  · exact absurd (by simpa using (List.cons.inj (List.cons.inj same).2).1) (numbered _ listed)
  · exact absurd (List.cons.inj same).1.symm slash'
  · exact absurd (by simpa using (List.cons.inj (List.cons.inj same).2).1.symm) (numbered _ listed')
  · have free (n : Nat) : ∀ e ∈ Nat.toDigits 16 n, (e != '\x7d') = true := by
      intro e member
      have absent : '\x7d' ∉ Nat.toDigits 16 n := toDigits_free (by decide) (by decide) (by decide)
      simpa using fun here : e = '\x7d' => absent (here ▸ member)
    have tails : Nat.toDigits 16 c.toNat ++ '\x7d' :: x = Nat.toDigits 16 d.toNat ++ '\x7d' :: y := by simpa using same
    obtain ⟨digits,rest⟩ := run_delimits (free _) (free _) (by simp) (by simp) tails
    exact ⟨Char.toNat_inj.mp (toDigits_inj (by decide) (by decide) digits),(List.cons.inj rest).2⟩
  · exact absurd (List.cons.inj same).1.symm slash'
  · exact absurd (List.cons.inj same).1 slash
  · exact absurd (List.cons.inj same).1 slash
  · obtain ⟨alike,rest⟩ := List.cons.inj same
    exact ⟨alike,rest⟩

theorem escape_quote : escape c ++ x ≠ '"' :: y := by
  intro same
  rcases escape_cases c with ⟨mark,-,spelled⟩ | spelled | ⟨quote,-,spelled⟩ <;> rw [spelled] at same
  · cases (List.cons.inj same).1
  · cases (List.cons.inj same).1
  · exact quote (List.cons.inj same).1

theorem quote_delimits (same : quoteChars cs ++ r = quoteChars ds ++ s) : cs = ds ∧ r = s := by
  have inner : cs.flatMap escape ++ '"' :: r = ds.flatMap escape ++ '"' :: s := by simpa [quoteChars] using same
  clear same
  induction cs generalizing ds with
  | nil =>
    cases ds with
    | nil => exact ⟨rfl,(List.cons.inj inner).2⟩
    | cons d ds =>
      rw [List.flatMap_cons,List.append_assoc] at inner
      exact absurd inner.symm escape_quote
  | cons c cs ih =>
    cases ds with
    | nil =>
      rw [List.flatMap_cons,List.append_assoc] at inner
      exact absurd inner escape_quote
    | cons d ds =>
      rw [List.flatMap_cons,List.flatMap_cons,List.append_assoc,List.append_assoc] at inner
      obtain ⟨rfl,rest⟩ := escape_delimits inner
      obtain ⟨rfl,after⟩ := ih rest
      exact ⟨rfl,after⟩

end Text
def isWordChar (c : Char) : Bool := c.isAlphanum || c == '.' || c == '_'

theorem wordChar_digit {c : Char} (digit : c.isDigit = true) : isWordChar c = true := by
  simp [isWordChar,Char.isAlphanum,digit]

namespace Decimal

theorem digits_word (n : Nat) : ∀ c ∈ Nat.toDigits 10 n, c.isDigit = true :=
  fun _ member => Nat.isDigit_of_mem_toDigits (by decide) (by decide) member

end Decimal

structure Figures (cs : List Char) : Prop where
  first : ∃ c ∈ cs.head?, c.isDigit = true ∨ c ∈ ['i','N']
  chars : ∀ c ∈ cs, isWordChar c = true

theorem Figures.digits (n : Nat) : Figures (Nat.toDigits 10 n) := by
  obtain ⟨c,cs,made⟩ := List.exists_cons_of_ne_nil (Nat.toDigits_ne_nil (b := 10) (n := n))
  exact ⟨⟨c,by simp [made],.inl (Decimal.digits_word n c (by simp [made]))⟩,fun x member => wordChar_digit (Decimal.digits_word n x member)⟩

namespace Decimal

def Binary.negative : Binary → Bool
  | .nan => false
  | .infinite negative => negative
  | .finite negative _ _ => negative

theorem plain_figures (d : Digits) : Figures d.plain := by
  have word {cs : List Char} {n : Nat} (digits : ∀ c ∈ cs, c ∈ Nat.toDigits 10 n ∨ c = '0' ∨ c = '.') : ∀ c ∈ cs, isWordChar c = true := by
    intro c member
    rcases digits c member with written | rfl | rfl
    · exact wordChar_digit (digits_word n c written)
    · decide
    · decide
  have written := Figures.digits d.digits
  have zeros (n : Nat) : ∀ c ∈ zeros n, c = '0' := fun c member => (List.mem_replicate.mp member).2
  unfold Digits.plain
  dsimp only
  split
  · split
    · exact written
    · obtain ⟨c,here,digit⟩ := written.first
      refine ⟨⟨c,by simp [List.head?_append,Option.mem_def.mp here],digit⟩,word (n := d.digits) fun x member => ?_⟩
      exact (List.mem_append.mp member).imp_right fun more => .inl (zeros _ x more)
  · split
    · refine ⟨⟨'0',by simp,.inl (by decide)⟩,word (n := d.digits) fun x member => ?_⟩
      simp only [List.cons_append,List.nil_append,List.mem_cons,List.mem_append] at member
      rcases member with rfl | rfl | more | text
      · simp
      · simp
      · simp [zeros _ x more]
      · exact .inl text
    · rename_i long
      obtain ⟨c,cs,made⟩ := List.exists_cons_of_ne_nil (Nat.toDigits_ne_nil (b := 10) (n := d.digits))
      obtain ⟨k,some⟩ : ∃ k, (Nat.toDigits 10 d.digits).length - (-d.exponent).toNat = k + 1 :=
        Nat.exists_eq_succ_of_ne_zero (by omega)
      refine ⟨⟨c,by rw [some,made]; simp,.inl (digits_word d.digits c (by simp [made]))⟩,word (n := d.digits) fun x member => ?_⟩
      rcases List.mem_append.mp member with front | rest
      · exact .inl (List.mem_of_mem_take front)
      · rcases List.mem_cons.mp rest with rfl | back
        · simp
        · exact .inl (List.mem_of_mem_drop back)

theorem display_spelled (x : Float) : Figures (display x).toList ∨
    (Binary.ofFloat x).negative = true ∧ (display x).toList.head? = some '-' := by
  unfold display
  cases Binary.ofFloat x with
  | nan => exact .inl ⟨⟨'N',by decide,.inr (by decide)⟩,Text.each_of_all (by decide)⟩
  | infinite negative =>
    cases negative with
    | true => exact .inr ⟨rfl,by decide⟩
    | false => exact .inl ⟨⟨'i',by decide,.inr (by decide)⟩,Text.each_of_all (by decide)⟩
  | finite negative mantissa exponent =>
    cases negative with
    | true => exact .inr ⟨rfl,by simp⟩
    | false => exact .inl (by simpa using plain_figures (shortest mantissa exponent))

theorem toInt_spelled (x : Float) : Figures (toString (toInt x)).toList ∨
    (Binary.ofFloat x).negative = true ∧ (toString (toInt x)).toList.head? = some '-' := by
  have plain (n : Nat) : (toString (n : Int)).toList = Nat.toDigits 10 n := by
    change (Nat.repr n).toList = _
    simp [Nat.repr_eq_ofList_toDigits]
  have signed {n : Nat} : Figures (toString (-(n : Int))).toList ∨ (toString (-(n : Int))).toList.head? = some '-' := by
    cases n with
    | zero => exact .inl (plain 0 ▸ Figures.digits 0)
    | succ n =>
      change _ ∨ ("-" ++ Nat.repr (n + 1)).toList.head? = some '-'
      exact .inr (by simp)
  unfold toInt
  cases Binary.ofFloat x with
  | nan => exact .inl (plain 0 ▸ Figures.digits 0)
  | infinite negative =>
    cases negative with
    | true => exact signed.imp_right fun minus => ⟨rfl,minus⟩
    | false => exact .inl (plain _ ▸ Figures.digits _)
  | finite negative mantissa exponent =>
    cases negative with
    | true => exact signed.imp_right fun minus => ⟨rfl,minus⟩
    | false => exact .inl (plain _ ▸ Figures.digits _)

end Decimal

theorem Value.numberText_spelled (x : Float) : Figures (numberText x).toList ∨
    (Decimal.Binary.ofFloat x).negative = true ∧ (numberText x).toList.head? = some '-' := by
  unfold numberText
  split
  · exact Decimal.toInt_spelled x
  · exact Decimal.display_spelled x

end Recalc
