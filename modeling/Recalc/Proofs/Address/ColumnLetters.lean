import Mathlib.Tactic.Ring
import Recalc.Proofs.Address.Spelling

namespace Recalc

theorem isAlpha_toUpper (c : Char) : c.toUpper.isUpper = c.isAlpha := by
  have lower : ∀ k : Fin 26, (Char.ofNat (97 + k)).toUpper.isUpper = true := by decide
  cases alpha : c.isAlpha with
  | true =>
    rcases (Bool.or_eq_true _ _).mp alpha with upper | small
    · rw [Column.toUpper_upper upper,upper]
    · obtain ⟨first,last⟩ := (Bool.and_eq_true _ _).mp small
      have low : 97 ≤ c.toNat := UInt32.le_iff_toNat_le.mp (of_decide_eq_true first)
      have high : c.toNat ≤ 122 := UInt32.le_iff_toNat_le.mp (of_decide_eq_true last)
      have found := lower ⟨c.toNat - 97,by omega⟩
      rwa [Nat.add_sub_cancel' low,Char.ofNat_toNat] at found
  | false =>
    obtain ⟨upper,small⟩ := Bool.or_eq_false_iff.mp alpha
    have outside : ¬ ('a'.val ≤ c.val ∧ c.val ≤ 'z'.val) := fun ⟨first,last⟩ =>
      Bool.false_ne_true (small.symm.trans ((Bool.and_eq_true _ _).mpr ⟨decide_eq_true first,decide_eq_true last⟩))
    unfold Char.toUpper
    rw [dif_neg outside,upper]

namespace Column
variable {c : Char} {cs tail : List Char} {text : String} {n : Nat}

def worth : List Char → Nat
  | [] => 0
  | c :: cs => letterValue c * 26 ^ cs.length + worth cs

theorem foldl_worth (cs : List Char) (n : Nat) :
    cs.foldl (fun n c => n * 26 + letterValue c) n = n * 26 ^ cs.length + worth cs := by
  induction cs generalizing n with
  | nil => simp [worth]
  | cons c cs ih =>
    rw [List.foldl_cons,ih,worth,List.length_cons]
    ring

theorem value_worth (cs : List Char) : value cs = worth cs := by
  rw [value,foldl_worth,Nat.zero_mul,Nat.zero_add]

theorem letter_letterValue (upper : c.isUpper = true) : letter (letterValue c - 1) = c := by
  have low : 65 ≤ c.toNat := (isUpper_bounds upper).1
  change Char.ofNat (65 + (c.toNat - 65 + 1 - 1)) = c
  rw [Nat.add_sub_cancel,Nat.add_sub_cancel' low,Char.ofNat_toNat]

theorem value_snoc (cs : List Char) (c : Char) : value (cs ++ [c]) = value cs * 26 + letterValue c := by
  simp [value]

-- By induction from the end of the word, where the number gives its letters away first.
theorem lettersOnto_value {steps : Nat} (upper : ∀ c ∈ cs, c.isUpper = true) (enough : value cs ≤ steps) :
    lettersOnto steps (value cs) tail = cs ++ tail := by
  induction cs using List.reverseRecOn generalizing steps tail with
  | nil => cases steps <;> rfl
  | append_singleton cs c ih =>
    have last : c.isUpper = true := upper c (by simp)
    have bounds := letterValue_upper last
    rw [value_snoc] at enough ⊢
    obtain ⟨steps,rfl⟩ : ∃ k, steps = k + 1 := ⟨steps - 1,by omega⟩
    have rest : (value cs * 26 + letterValue c - 1) / 26 = value cs := by omega
    have digit : (value cs * 26 + letterValue c - 1) % 26 = letterValue c - 1 := by omega
    rw [lettersOnto,if_neg (by omega),rest,digit,letter_letterValue last,
      ih (fun d member => upper d (by simp [member])) (by omega),List.append_assoc,List.singleton_append]

theorem letters_value (upper : ∀ c ∈ cs, c.isUpper = true) : letters (value cs) = String.ofList cs := by
  rw [letters,lettersOnto_value upper (Nat.le_refl _),List.append_nil]

def word (text : String) : List Char := (text.toList.filter (· ≠ '$')).map Char.toUpper

structure Worded (text : String) : Prop where
  some : word text ≠ []
  letters : ∀ c ∈ text.toList, c ≠ '$' → c.isAlpha = true

instance (text : String) : Decidable (Worded text) :=
  decidable_of_iff (word text ≠ [] ∧ text.toList.all (fun c => c = '$' || c.isAlpha) = true) (by
    simp only [List.all_eq_true,Bool.or_eq_true,decide_eq_true_eq,or_iff_not_imp_left]
    exact ⟨fun known => ⟨known.1,known.2⟩,fun worded => ⟨worded.some,worded.letters⟩⟩)

theorem word_ne_nil : word text ≠ [] ↔ text.toList.filter (· ≠ '$') ≠ [] := by simp [word]

theorem Worded.raised (worded : Worded text) : ∀ c ∈ text.toList.filter (· ≠ '$'), c.toUpper.isUpper = true := by
  intro c member
  obtain ⟨listed,other⟩ := List.mem_filter.mp member
  rw [isAlpha_toUpper]
  exact worded.letters c listed (by simpa using other)

theorem Worded.upper (worded : Worded text) : ∀ c ∈ word text, c.isUpper = true := by
  intro c member
  obtain ⟨d,listed,rfl⟩ := List.mem_map.mp member
  exact worded.raised d listed

theorem Worded.ofLetters_iff (worded : Worded text) : ofLetters text = .ok n ↔ worth (word text) = n ∧ n < limit := by
  rw [Column.ofLetters_iff,← value_worth]
  exact ⟨fun known => known.2.2,fun known => ⟨word_ne_nil.mp worded.some,worded.raised,known⟩⟩

theorem ofLetters_cases (some : word text ≠ []) : (∃ n, ofLetters text = .ok n) ∨ ofLetters text = .error (.invalidAddress text) := by
  unfold ofLetters
  dsimp only
  rw [if_neg (word_ne_nil.mp some)]
  cases (text.toList.filter (· ≠ '$')).foldlM append 0 with
  | some total => exact .inl ⟨_,rfl⟩
  | none => exact .inr rfl

theorem ofLetters_refused (some : word text ≠ []) (never : ∀ n, ofLetters text ≠ .ok n) :
    ofLetters text = .error (.invalidAddress text) := by
  rcases ofLetters_cases some with ⟨n,read⟩ | refused
  · exact absurd read (never n)
  · exact refused

theorem toLetters_positive (positive : 1 ≤ n) : toLetters n = .ok (letters n) := if_neg (by omega)

theorem ofLetters_letters (positive : 1 ≤ n) (fits : n < limit) : ofLetters (letters n) = .ok n := by
  have read := (ofLetters_upper (letters_ne_nil positive) letters_upper).mpr ⟨value_letters n,fits⟩
  rwa [String.ofList_toList] at read

theorem Worded.worth_pos (worded : Worded text) : 1 ≤ worth (word text) := by
  obtain ⟨c,cs,written⟩ := List.exists_cons_of_ne_nil worded.some
  have first := (letterValue_upper (worded.upper c (written ▸ List.mem_cons_self))).1
  rw [written,worth]
  exact Nat.le_add_right_of_le (Nat.mul_pos first (Nat.pow_pos (by decide)))

theorem Worded.toLetters (worded : Worded text) : Column.toLetters (worth (word text)) = .ok (String.ofList (word text)) := by
  rw [toLetters_positive worded.worth_pos,← value_worth,letters_value worded.upper]

theorem ofLetters_unlettered (unlettered : ∀ c ∈ text.toList, c.isAlpha = false) : ofLetters text =
    .error (if text.toList.all (· = '$') then .emptyColumn else .invalidAddress text) := by
  split
  · rename_i marks
    have empty : text.toList.filter (· ≠ '$') = [] := by simpa using marks
    unfold ofLetters
    dsimp only
    rw [if_pos empty]
  · rename_i other
    have some : word text ≠ [] := word_ne_nil.mpr (by simpa using other)
    refine ofLetters_refused some fun n read => ?_
    obtain ⟨found,upper,-⟩ := Column.ofLetters_iff.mp read
    obtain ⟨c,cs,written⟩ := List.exists_cons_of_ne_nil found
    have member : c ∈ text.toList.filter (· ≠ '$') := written ▸ List.mem_cons_self
    have letter := upper c member
    rw [isAlpha_toUpper,unlettered c (List.mem_filter.mp member).1] at letter
    cases letter

-- Letters and numbers of columns are inverse to each other as far as 32 bits reach, and beyond
-- them there is no number.
theorem letters_inverse :
    (∀ n, 1 ≤ n → n < limit → ∃ text, toLetters n = .ok text ∧ ofLetters text = .ok n) ∧
    (∀ text, Worded text →
      (worth (word text) < limit → ofLetters text = .ok (worth (word text)) ∧
        toLetters (worth (word text)) = .ok (String.ofList (word text))) ∧
      (limit ≤ worth (word text) → ofLetters text = .error (.invalidAddress text))) ∧
    toLetters 0 = .error (.invalidColumnNumber 0) ∧
    ∀ text, (∀ c ∈ text.toList, c.isAlpha = false) → ofLetters text =
      .error (if text.toList.all (· = '$') then .emptyColumn else .invalidAddress text) := by
  refine ⟨fun n positive fits => ⟨letters n,toLetters_positive positive,ofLetters_letters positive fits⟩,
    fun text worded => ⟨fun fits => ⟨worded.ofLetters_iff.mpr ⟨rfl,fits⟩,worded.toLetters⟩,fun beyond => ?_⟩,rfl,
    fun text unlettered => ofLetters_unlettered unlettered⟩
  refine ofLetters_refused worded.some fun n read => ?_
  obtain ⟨same,fits⟩ := worded.ofLetters_iff.mp read
  omega

theorem letters_inverse_last :
    (∃ text, toLetters 4294967295 = .ok text ∧ ofLetters text = .ok 4294967295) ∧
    (Worded "$mwL$qkwu" ∧ worth (word "$mwL$qkwu") < limit ∧ ofLetters "$mwL$qkwu" = .ok 4294967295 ∧
      toLetters 4294967295 = .ok "MWLQKWU") ∧
    (Worded "MWLQKWV" ∧ limit ≤ worth (word "MWLQKWV") ∧ ofLetters "MWLQKWV" = .error (.invalidAddress "MWLQKWV")) ∧
    ofLetters "$1" = .error (.invalidAddress "$1") := by
  obtain ⟨numbers,words,-,others⟩ := letters_inverse
  have last : Worded "$mwL$qkwu" := by decide
  have next : Worded "MWLQKWV" := by decide
  have fits : worth (word "$mwL$qkwu") < limit := by decide
  have beyond : limit ≤ worth (word "MWLQKWV") := by decide
  have read := (words _ last).1 fits
  exact ⟨numbers _ (by decide) (by decide),⟨last,fits,read⟩,⟨next,beyond,(words _ next).2 beyond⟩,
    (others "$1" (by simp)).trans rfl⟩

end Column
end Recalc
