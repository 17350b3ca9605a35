import Recalc.Text.Blank
import Recalc.Text.Case

namespace Recalc.Text
variable {c d : Char} {cs ds before : List Char}

theorem toLower_cases (c : Char) : c.toLower = c ∧ ¬ (65 ≤ c.toNat ∧ c.toNat ≤ 90) ∨
    (65 ≤ c.toNat ∧ c.toNat ≤ 90) ∧ c.toLower.toNat = c.toNat + 32 := by
  unfold Char.toLower
  split
  · rename_i upper
    have first : 65 ≤ c.toNat := upper.1
    have last : c.toNat ≤ 90 := upper.2
    refine .inr ⟨⟨first,last⟩,?_⟩
    change (c.val + 32).toNat = c.toNat + 32
    rw [UInt32.toNat_add]
    exact Nat.mod_eq_of_lt (by change c.toNat + 32 < _; omega)
  · rename_i other
    exact .inl ⟨rfl,other⟩

theorem toUpper_cases (c : Char) : c.toUpper = c ∧ ¬ (97 ≤ c.toNat ∧ c.toNat ≤ 122) ∨ (97 ≤ c.toNat ∧ c.toNat ≤ 122) ∧ c.toUpper.toNat + 32 = c.toNat := by
  unfold Char.toUpper
  split
  · rename_i small
    have first : 97 ≤ c.toNat := small.1
    have last : c.toNat ≤ 122 := small.2
    refine .inr ⟨⟨first,last⟩,?_⟩
    change (c.val + ('A'.val - 'a'.val)).toNat + 32 = c.toNat
    have back : ('A'.val - 'a'.val).toNat = 2 ^ 32 - 32 := by decide
    rw [UInt32.toNat_add,back]
    change (c.toNat + _) % _ + 32 = c.toNat
    omega
  · rename_i other
    exact .inl ⟨rfl,other⟩

theorem toLower_toUpper (c : Char) : c.toUpper.toLower = c.toLower := by
  rcases toUpper_cases c with ⟨same,-⟩ | ⟨small,raised⟩
  · rw [same]
  · rw [← Char.toNat_inj]
    rcases toLower_cases c with ⟨same,-⟩ | ⟨upper,-⟩
    · rcases toLower_cases c.toUpper with ⟨-,high⟩ | ⟨-,lowered⟩
      · omega
      · rw [lowered,same,raised]
    · omega

theorem toUpper_toLower (c : Char) : c.toLower.toUpper = c.toUpper := by
  rcases toLower_cases c with ⟨same,-⟩ | ⟨upper,lowered⟩
  · rw [same]
  · rw [← Char.toNat_inj]
    rcases toUpper_cases c with ⟨same,-⟩ | ⟨small,-⟩
    · rcases toUpper_cases c.toLower with ⟨-,high⟩ | ⟨-,raised⟩
      · omega
      · rw [same]
        omega
    · omega

theorem toLower_mark (mark : ¬ (97 ≤ d.toNat ∧ d.toNat ≤ 122)) (small : ¬ (65 ≤ d.toNat ∧ d.toNat ≤ 90)) : c.toLower = d ↔ c = d := by
  rcases toLower_cases c with ⟨same,-⟩ | ⟨upper,lowered⟩
  · rw [same]
  · constructor
    · rintro rfl
      omega
    · rintro rfl
      exact absurd upper small

theorem isDigit_toLower (c : Char) : c.toLower.isDigit = c.isDigit := by
  rcases toLower_cases c with ⟨same,-⟩ | ⟨upper,lowered⟩
  · rw [same]
  · have digits : '0'.toNat = 48 ∧ '9'.toNat = 57 := by decide
    rw [Bool.eq_iff_iff,Char.isDigit_iff_toNat,Char.isDigit_iff_toNat]
    omega

theorem isBlank_toLower (c : Char) : isBlank c.toLower = isBlank c := by
  rcases toLower_cases c with ⟨same,-⟩ | ⟨upper,lowered⟩
  · rw [same]
  · rw [Bool.eq_iff_iff]
    simp only [isBlank,lowered,Bool.or_eq_true,Bool.and_eq_true,decide_eq_true_eq]
    omega

theorem dropWhile_lower {p : Char → Bool} (blind : ∀ c, p c.toLower = p c) (cs : List Char) :
    (cs.map Char.toLower).dropWhile p = (cs.dropWhile p).map Char.toLower := by
  rw [List.dropWhile_map]
  congr 2
  exact funext blind

theorem trimBy_lower {p : Char → Bool} (blind : ∀ c, p c.toLower = p c) (cs : List Char) :
    trimBy p (cs.map Char.toLower) = (trimBy p cs).map Char.toLower := by
  unfold trimBy
  rw [dropWhile_lower blind,← List.map_reverse,dropWhile_lower blind,List.map_reverse]

def Basic (d : Char) : Prop := d.toNat < 0x80 ∧ d ≠ 'k'

instance : DecidablePred Basic := fun d => inferInstanceAs (Decidable (d.toNat < 0x80 ∧ d ≠ 'k'))

-- But for the capitals below and one further k, all is lowered to characters above.
theorem runs_apart : ∀ run ∈ CaseTable.lowerRuns, run = (0x41,0x5A,0x1,0x61) ∨ run = (0x212A,0x212A,0x1,0x6B) ∨
    0x80 ≤ run.2.2.2 ∧ (run.2.2.2 + (run.2.1 - run.1) < 0xD800 ∨ 0xDFFF < run.2.2.2 ∧ run.2.2.2 + (run.2.1 - run.1) < 0x110000) := by
  decide +kernel

theorem toNat_ofNat {n : Nat} (valid : n.isValidChar) : (Char.ofNat n).toNat = n := by
  rw [Char.ofNat,dif_pos valid]
  rfl

theorem tabulatedLower_apart {n m : Nat} (above : 0x80 ≤ n) (found : tabulatedLower n = some m) : ¬ Basic (Char.ofNat m) := by
  unfold tabulatedLower at found
  obtain ⟨⟨first,last,stride,lowered⟩,listed,rfl⟩ := Option.map_eq_some_iff.mp found
  have inside := List.find?_some listed
  simp only [Bool.and_eq_true,decide_eq_true_eq] at inside
  rcases runs_apart _ (List.mem_of_find?_eq_some listed) with same | same | ⟨high,valid⟩
  · cases same
    omega
  · cases same
    obtain rfl : n = 0x212A := by omega
    exact fun basic => basic.2 rfl
  · dsimp only at high valid ⊢
    rintro ⟨low,-⟩
    rw [toNat_ofNat (by unfold Nat.isValidChar; omega)] at low
    omega

theorem lowerChar_cases (c : Char) : lowerChar c = [c.toLower] ∨
    (∃ d ∈ lowerChar c, ¬ Basic d) ∧ ∀ d ∈ lowerChar c, Basic d → d = 'i' := by
  unfold lowerChar
  split
  · exact .inl rfl
  · rename_i high
    split
    · exact .inr ⟨⟨Char.ofNat 0x307,by simp,fun basic => absurd basic.1 (by decide)⟩,by simp [Basic]⟩
    · have foreign : ¬ Basic ((tabulatedLower c.toNat).elim c Char.ofNat) := by
        cases found : tabulatedLower c.toNat with
        | none => exact fun basic => high basic.1
        | some m => exact tabulatedLower_apart (Nat.not_lt.mp high) found
      exact .inr ⟨⟨_,List.mem_singleton.mpr rfl,foreign⟩,fun d member basic => absurd (List.mem_singleton.mp member ▸ basic) foreign⟩

theorem lowerFrom_cons (before : List Char) (c : Char) (cs : List Char) :
    ∃ first, lowerFrom before (c :: cs) = first ++ lowerFrom (c :: before) cs ∧
      (first = [c.toLower] ∨ (∃ d ∈ first, ¬ Basic d) ∧ ∀ d ∈ first, Basic d → d = 'i') := by
  refine ⟨_,rfl,?_⟩
  split
  · have foreign (closes : Bool) : ¬ Basic (Char.ofNat (if closes then 0x3C2 else 0x3C3)) := by
      cases closes <;> exact fun basic => absurd basic.1 (by decide)
    refine .inr ⟨⟨_,List.mem_singleton.mpr rfl,foreign _⟩,fun d member basic => ?_⟩
    exact absurd (List.mem_singleton.mp member ▸ basic) (foreign _)
  · exact lowerChar_cases c

theorem lower_basic (basic : ∀ d ∈ lower cs, Basic d) : lower cs = cs.map Char.toLower := by
  suffices ∀ before, (∀ d ∈ lowerFrom before cs, Basic d) → lowerFrom before cs = cs.map Char.toLower from this [] basic
  clear basic
  induction cs with
  | nil => exact fun _ _ => rfl
  | cons c cs ih =>
    intro before basic
    obtain ⟨first,split,own | ⟨⟨d,member,foreign⟩,-⟩⟩ := lowerFrom_cons before c cs
    · rw [split] at basic ⊢
      rw [own,ih (c :: before) fun d member => basic d (List.mem_append_right _ member)]
      rfl
    · exact absurd (basic d (split ▸ List.mem_append_left _ member)) foreign

theorem mem_lower (member : d ∈ lower cs) (basic : Basic d) (other : d ≠ 'i') : d ∈ cs.map Char.toLower := by
  suffices ∀ before, d ∈ lowerFrom before cs → d ∈ cs.map Char.toLower from this [] member
  clear member
  induction cs with
  | nil => exact fun _ member => member
  | cons c cs ih =>
    intro before member
    obtain ⟨first,split,cases⟩ := lowerFrom_cons before c cs
    rw [split] at member
    rcases List.mem_append.mp member with here | later
    · rcases cases with own | ⟨-,i⟩
      · rw [own] at here
        exact List.mem_cons.mpr (.inl (List.mem_singleton.mp here))
      · exact absurd (i d here basic) other
    · exact List.mem_cons_of_mem _ (ih _ later)

theorem lower_ascii (ascii : ∀ c ∈ cs, c.toNat < 0x80) : lower cs = cs.map Char.toLower := by
  suffices ∀ before, lowerFrom before cs = cs.map Char.toLower from this []
  induction cs with
  | nil => exact fun _ => rfl
  | cons c cs ih =>
    intro before
    obtain ⟨here,others⟩ := List.forall_mem_cons.mp ascii
    rw [lowerFrom,if_neg (by omega),lowerChar,if_pos here,ih others]
    rfl

theorem lower_same (ascii : ∀ c ∈ cs, Basic c.toLower) (same : lower ds = lower cs) : ds.map Char.toLower = cs.map Char.toLower := by
  have low : ∀ c ∈ cs, c.toNat < 0x80 := by
    intro c member
    have basic := (ascii c member).1
    rcases toLower_cases c with ⟨same,-⟩ | ⟨upper,-⟩
    · rwa [same] at basic
    · omega
  have plain := lower_ascii low
  rw [← plain,← same]
  refine (lower_basic fun d member => ?_).symm
  rw [same,plain] at member
  obtain ⟨c,listed,rfl⟩ := List.mem_map.mp member
  exact ascii c listed

end Recalc.Text
