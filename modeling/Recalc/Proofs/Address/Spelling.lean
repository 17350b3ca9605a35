import Recalc.Address.Rect
import Recalc.Proofs.Text.Splitting

namespace Recalc

section
variable {ε α β : Type} {x : Except ε α} {b : β}

theorem bind_ok {f : α → Except ε β} : x >>= f = .ok b ↔ ∃ a, x = .ok a ∧ f a = .ok b := by
  cases x with
  | error e => simp [bind,Except.bind]
  | ok a => simp [bind,Except.bind]

theorem map_ok {f : α → β} : f <$> x = .ok b ↔ ∃ a, x = .ok a ∧ f a = b := by
  cases x with
  | error e => simp [Functor.map,Except.map]
  | ok a => simp [Functor.map,Except.map]

end

namespace Column

theorem letter_facts (below : n < 26) : letterValue (letter n) = n + 1 ∧ (letter n).isUpper = true :=
  (by decide : ∀ k : Fin 26, letterValue (letter k) = k + 1 ∧ (letter k).isUpper = true) ⟨n,below⟩

theorem lettersOnto_upper (upper : ∀ c ∈ tail, c.isUpper = true) :
    ∀ c ∈ lettersOnto steps n tail, c.isUpper = true := by
  induction steps generalizing n tail with
  | zero => exact upper
  | succ steps ih =>
    simp only [lettersOnto]
    split
    · exact upper
    · refine ih fun c member => ?_
      rcases List.mem_cons.mp member with rfl | member
      · exact (letter_facts (Nat.mod_lt _ (by decide))).2
      · exact upper c member

theorem lettersOnto_ne_nil (some : tail ≠ []) : lettersOnto steps n tail ≠ [] := by
  induction steps generalizing n tail with
  | zero => exact some
  | succ steps ih =>
    simp only [lettersOnto]
    split
    · exact some
    · exact ih (by simp)

theorem letters_upper : ∀ c ∈ (letters n).toList, c.isUpper = true := by
  rw [letters,String.toList_ofList]
  exact lettersOnto_upper (by simp)

theorem letters_ne_nil (positive : 1 ≤ n) : (letters n).toList ≠ [] := by
  rw [letters,String.toList_ofList]
  cases n with
  | zero => omega
  | succ n =>
    simp only [lettersOnto,Nat.succ_ne_zero,if_false]
    exact lettersOnto_ne_nil (by simp)

theorem value_lettersOnto (enough : n ≤ steps) : (lettersOnto steps n tail).foldl (fun n c => n * 26 + letterValue c) 0 =
    tail.foldl (fun n c => n * 26 + letterValue c) n := by
  induction steps generalizing n tail with
  | zero =>
    have none : n = 0 := by omega
    simp [lettersOnto,none]
  | succ steps ih =>
    simp only [lettersOnto]
    split
    · simp [*]
    · rw [ih (by omega),List.foldl_cons,(letter_facts (Nat.mod_lt _ (by decide))).1]
      congr 1
      omega

theorem value_letters (n : Nat) : value (letters n).toList = n := by
  rw [letters,String.toList_ofList]
  exact value_lettersOnto (Nat.le_refl n)

theorem isUpper_bounds {c : Char} (upper : c.isUpper = true) : 65 ≤ c.val.toNat ∧ c.val.toNat ≤ 90 := by
  have within : 'A'.val ≤ c.val ∧ c.val ≤ 'Z'.val := of_decide_eq_true upper
  exact ⟨UInt32.le_iff_toNat_le.mp within.1,UInt32.le_iff_toNat_le.mp within.2⟩

theorem toUpper_upper {c : Char} (upper : c.isUpper = true) : c.toUpper = c := by
  have above : ¬ (c.val ≥ 'a'.val ∧ c.val ≤ 'z'.val) := by
    rintro ⟨low,-⟩
    have low : 97 ≤ c.val.toNat := UInt32.le_iff_toNat_le.mp low
    have high := (isUpper_bounds upper).2
    omega
  unfold Char.toUpper
  rw [dif_neg above]

theorem le_foldl (cs : List Char) (n : Nat) : n ≤ cs.foldl (fun n c => n * 26 + letterValue c) n := by
  induction cs generalizing n with
  | nil => simp
  | cons c cs ih =>
    have := ih (n * 26 + letterValue c)
    simp only [List.foldl_cons]
    omega

theorem letterValue_upper {c : Char} (upper : c.isUpper = true) : 1 ≤ letterValue c ∧ letterValue c ≤ 26 := by
  have bounds := isUpper_bounds upper
  change 1 ≤ c.val.toNat - 65 + 1 ∧ c.val.toNat - 65 + 1 ≤ 26
  omega

theorem times_iff {a b c : UInt32} : times a b = some c ↔ c.toNat = a.toNat * b.toNat := by
  have below : c.toNat < limit := c.toNat_lt
  unfold times
  split
  · rename_i fits
    have exact : (a * b).toNat = a.toNat * b.toNat := by rw [UInt32.toNat_mul]; exact Nat.mod_eq_of_lt fits
    rw [Option.some.injEq,← UInt32.toNat_inj,exact,eq_comm]
  · rename_i beyond
    exact iff_of_false (by simp) fun same => beyond (same ▸ below)

theorem plus_iff {a b c : UInt32} : plus a b = some c ↔ c.toNat = a.toNat + b.toNat := by
  have below : c.toNat < limit := c.toNat_lt
  unfold plus
  split
  · rename_i fits
    have exact : (a + b).toNat = a.toNat + b.toNat := by rw [UInt32.toNat_add]; exact Nat.mod_eq_of_lt fits
    rw [Option.some.injEq,← UInt32.toNat_inj,exact,eq_comm]
  · rename_i beyond
    exact iff_of_false (by simp) fun same => beyond (same ▸ below)

theorem append_iff {a b : UInt32} : append a c = some b ↔ c.toUpper.isUpper = true ∧ b.toNat = a.toNat * 26 + letterValue c.toUpper := by
  unfold append
  split
  · rename_i upper
    have letter : (UInt32.ofNat (letterValue c.toUpper)).toNat = letterValue c.toUpper := by
      have small := (letterValue_upper upper).2
      exact Nat.mod_eq_of_lt (by omega)
    have unit : (26 : UInt32).toNat = 26 := rfl
    simp only [Option.bind_eq_bind,Option.bind_eq_some_iff,times_iff,plus_iff,letter,unit,upper,true_and]
    refine ⟨fun ⟨shifted,times,plus⟩ => by rw [plus,times],fun total => ?_⟩
    have fits : a.toNat * 26 < limit := Nat.lt_of_le_of_lt (Nat.le_add_right _ _) (total ▸ b.toNat_lt)
    exact ⟨UInt32.ofNat (a.toNat * 26),Nat.mod_eq_of_lt fits,by rw [total]; congr 1; exact (Nat.mod_eq_of_lt fits).symm⟩
  · rename_i other
    simp [other]

-- By induction on the letters. A total that fits at the end has fitted all the way.
theorem foldlM_append {cs : List Char} {a b : UInt32} : cs.foldlM append a = some b ↔ (∀ c ∈ cs, c.toUpper.isUpper = true) ∧
    b.toNat = (cs.map Char.toUpper).foldl (fun n c => n * 26 + letterValue c) a.toNat := by
  induction cs generalizing a with
  | nil =>
    change some a = some b ↔ (∀ c ∈ [], _) ∧ b.toNat = a.toNat
    rw [Option.some.injEq,UInt32.toNat_inj]
    exact ⟨fun same => ⟨by simp,same.symm⟩,fun known => known.2.symm⟩
  | cons c cs ih =>
    simp only [List.foldlM_cons,Option.bind_eq_bind,Option.bind_eq_some_iff,append_iff,ih,List.map_cons,List.foldl_cons,
      List.forall_mem_cons]
    constructor
    · intro ⟨next,⟨upper,step⟩,rest,total⟩
      exact ⟨⟨upper,rest⟩,by rw [total,step]⟩
    · intro ⟨⟨upper,rest⟩,total⟩
      have fits : a.toNat * 26 + letterValue c.toUpper < limit :=
        Nat.lt_of_le_of_lt (le_foldl _ _) (total ▸ b.toNat_lt)
      have kept : (UInt32.ofNat (a.toNat * 26 + letterValue c.toUpper)).toNat = _ := Nat.mod_eq_of_lt fits
      exact ⟨_,⟨upper,kept⟩,rest,by rw [total,kept]⟩

theorem ofLetters_iff : ofLetters text = .ok n ↔ text.toList.filter (· ≠ '$') ≠ [] ∧
    (∀ c ∈ text.toList.filter (· ≠ '$'), c.toUpper.isUpper = true) ∧
    value ((text.toList.filter (· ≠ '$')).map Char.toUpper) = n ∧ n < limit := by
  unfold ofLetters
  generalize text.toList.filter (· ≠ '$') = cs
  dsimp only
  split
  · simp [*]
  · rename_i some
    cases read : cs.foldlM append 0 with
    | some total =>
      obtain ⟨upper,exact⟩ := foldlM_append.mp read
      have same : value (cs.map Char.toUpper) = total.toNat := exact.symm
      simp only [Except.ok.injEq,same]
      exact ⟨fun here => ⟨some,upper,here,here ▸ total.toNat_lt⟩,fun known => known.2.2.1⟩
    | none =>
      refine iff_of_false (by simp) fun ⟨_,upper,same,below⟩ => ?_
      have kept : (UInt32.ofNat n).toNat = n := Nat.mod_eq_of_lt below
      have found : cs.foldlM append 0 = .some (UInt32.ofNat n) := foldlM_append.mpr ⟨upper,kept.trans same.symm⟩
      rw [read] at found
      cases found

theorem ofLetters_upper (some : cs ≠ []) (upper : ∀ c ∈ cs, c.isUpper = true) :
    ofLetters (String.ofList cs) = .ok n ↔ value cs = n ∧ n < limit := by
  have unmarked : (String.ofList cs).toList.filter (· ≠ '$') = cs := by
    rw [String.toList_ofList,List.filter_eq_self]
    intro c member
    have known := upper c member
    simpa using fun same : c = '$' => by simp [same] at known
  have kept : cs.map Char.toUpper = cs := (List.map_congr_left fun c member => toUpper_upper (upper c member)).trans (List.map_id _)
  have raised : ∀ c ∈ cs, c.toUpper.isUpper = true := fun c member => by rw [toUpper_upper (upper c member)]; exact upper c member
  rw [ofLetters_iff,unmarked,kept]
  exact ⟨fun known => known.2.2,fun known => ⟨some,raised,known⟩⟩

theorem ofLetters_bounds (made : ofLetters text = .ok n) : 1 ≤ n ∧ n < limit := by
  obtain ⟨some,upper,same,below⟩ := ofLetters_iff.mp made
  refine ⟨?_,below⟩
  obtain ⟨c,cs,written⟩ := List.exists_cons_of_ne_nil some
  have more := le_foldl (cs.map Char.toUpper) (letterValue c.toUpper)
  have first := (letterValue_upper (upper c (written ▸ List.mem_cons_self))).1
  rw [written] at same
  simp only [value,List.map_cons,List.foldl_cons,Nat.zero_mul,Nat.zero_add] at same
  omega

end Column

namespace Decimal

theorem digitsValue_toDigits (n : Nat) : digitsValue (Nat.toDigits 10 n) = n := by
  have read := Nat.ofDigitChars_ten_toDigits (n := n)
  rw [Nat.ofDigitChars_eq_foldl] at read
  simpa only [digitsValue,digitValue,Nat.mul_comm] using read

end Decimal

-- A sheet without the quotes around it.
def bare (sheet : String) : String := String.ofList (Text.trimBy (· = '\'') sheet.toList)

theorem bare_bare (sheet : String) : bare (bare sheet) = bare sheet := by simp [bare,Text.trimBy_trimBy]

theorem mem_bare (other : c ≠ '\'') : c ∈ (bare sheet).toList ↔ c ∈ sheet.toList := by
  rw [bare,String.toList_ofList]
  exact ⟨Text.mem_trimBy,fun member => Text.mem_trimBy_of_mem member (by simpa using other)⟩

theorem splitSheet_none (absent : '!' ∉ text.toList) : splitSheet text = (none,text) := by
  simp [splitSheet,Text.splitLast_none absent]

theorem splitSheet_append (named : sheet ≠ "") (absent : '!' ∉ rest.toList) :
    splitSheet (sheet ++ "!" ++ rest) = (some (bare sheet),rest) := by
  have joined : (sheet ++ "!" ++ rest).toList = sheet.toList ++ '!' :: rest.toList := by simp
  have some : sheet.toList ≠ [] := by simpa using named
  simp [splitSheet,joined,Text.splitLast_append absent,some,bare]

theorem splitSheet_cases (text : String) : splitSheet text = (none,text) ∨
    ∃ sheet rest, text = sheet ++ "!" ++ rest ∧ sheet ≠ "" ∧ '!' ∉ rest.toList ∧ splitSheet text = (some (bare sheet),rest) := by
  unfold splitSheet
  cases split : Text.splitLast '!' text.toList with
  | none => exact .inl rfl
  | some pair =>
    obtain ⟨sheet,rest⟩ := pair
    obtain ⟨joined,absent⟩ := Text.splitLast_joins split
    simp only
    split
    · exact .inl rfl
    · rename_i some
      refine .inr ⟨String.ofList sheet,String.ofList rest,?_,by simpa using some,by simpa using absent,?_⟩
      · rw [← String.toList_inj]
        simpa using joined
      · simp [bare]

theorem splitSheet_some (split : splitSheet text = (some name,rest)) :
    ∃ sheet, text = sheet ++ "!" ++ rest ∧ sheet ≠ "" ∧ '!' ∉ rest.toList ∧ name = bare sheet := by
  rcases splitSheet_cases text with whole | ⟨sheet,after,joined,named,absent,parts⟩
  · cases whole.symm.trans split
  · cases parts.symm.trans split
    exact ⟨sheet,joined,named,absent,rfl⟩

theorem splitSheet_mem (split : splitSheet text = (some name,rest)) (other : mark ≠ '\'') (inside : mark ∈ name.toList) :
    mark ∈ text.toList := by
  obtain ⟨sheet,rfl,-,-,rfl⟩ := splitSheet_some split
  simp [(mem_bare other).mp inside]

theorem splitSheet_bare (text sheet : String) : bare ((splitSheet text).1.getD sheet) = (splitSheet text).1.getD (bare sheet) := by
  cases split : splitSheet text with
  | mk on rest => cases on with
    | none => rfl
    | some name =>
      obtain ⟨sheet,-,-,-,rfl⟩ := splitSheet_some split
      exact bare_bare sheet

theorem splitRange_on (split : splitRange text = some parts) : parts.sheet = (splitSheet text).1 := by
  obtain ⟨pair,-,made⟩ := Option.map_eq_some_iff.mp split
  exact made ▸ rfl

theorem splitRange_sheet (split : splitRange text = some parts) (on : parts.sheet = some name) : bare name = name := by
  have named : splitSheet text = (some name,(splitSheet text).2) := Prod.ext ((splitRange_on split).symm.trans on) rfl
  obtain ⟨sheet,-,-,-,rfl⟩ := splitSheet_some named
  exact bare_bare sheet

theorem a1_chars {cell : CellRef} (member : c ∈ cell.a1.toList) : c.isUpper = true ∨ c.isDigit = true := by
  simp only [CellRef.a1,String.toList_append,List.mem_append,Nat.toString_eq_ofList_toDigits,String.toList_ofList] at member
  rcases member with letter | digit
  · exact .inl (Column.letters_upper c letter)
  · exact .inr (Nat.isDigit_of_mem_toDigits (by decide) (by decide) digit)

theorem a1_free {cell : CellRef} (letter : mark.isUpper = false) (digit : mark.isDigit = false) : mark ∉ cell.a1.toList := by
  intro member
  rcases a1_chars member with upper | number
  · simp [letter] at upper
  · simp [digit] at number

theorem splitSheet_cell {cell : CellRef} (named : cell.sheet ≠ "") : splitSheet cell.text = (some (bare cell.sheet),cell.a1) :=
  splitSheet_append named (a1_free (by decide) (by decide))

theorem rowNumber_bounds (read : rowNumber digits = some n) : 1 ≤ n ∧ n < Column.limit := by
  unfold rowNumber at read
  simp only at read
  split at read
  · cases read
    assumption
  · cases read

namespace Address

structure Bounded (a : Address) : Prop where
  column : 1 ≤ a.column ∧ a.column < Column.limit
  row : ∀ row, a.row = some row → 1 ≤ row ∧ row < Column.limit

theorem parse_ok (parsed : parse text = .ok a) : a.sheet = (splitSheet text).1 ∧ a.Bounded := by
  unfold parse at parsed
  generalize splitSheet text = pair at parsed ⊢
  obtain ⟨sheet,rest⟩ := pair
  simp only at parsed
  generalize List.map Char.toUpper _ = cleaned at parsed
  split at parsed
  · obtain ⟨column,named,parsed⟩ := bind_ok.mp parsed
    cases parsed
    exact ⟨rfl,Column.ofLetters_bounds named,by simp⟩
  · split at parsed
    · obtain ⟨column,named,parsed⟩ := bind_ok.mp parsed
      split at parsed
      · rename_i row found
        cases parsed
        refine ⟨rfl,Column.ofLetters_bounds named,?_⟩
        rintro _ ⟨⟩
        exact rowNumber_bounds found
      · cases parsed
    · split at parsed
      · cases parsed
      · split at parsed
        · rename_i column row first second
          cases parsed
          refine ⟨rfl,rowNumber_bounds first,?_⟩
          rintro _ ⟨⟩
          exact rowNumber_bounds second
        · cases parsed

end Address

theorem isDigit_bounds {c : Char} (digit : c.isDigit = true) : 48 ≤ c.val.toNat ∧ c.val.toNat ≤ 57 := by
  obtain ⟨low,high⟩ := (Bool.and_eq_true _ _).mp digit
  exact ⟨UInt32.le_iff_toNat_le.mp (of_decide_eq_true low),UInt32.le_iff_toNat_le.mp (of_decide_eq_true high)⟩

theorem isUpper_digit {c : Char} (digit : c.isDigit = true) : c.isUpper = false := by
  cases upper : c.isUpper with
  | false => rfl
  | true =>
    have letter := Column.isUpper_bounds upper
    have bounds := isDigit_bounds digit
    omega

theorem takeWhile_letters {cs ds : List Char} (upper : ∀ c ∈ cs, c.isUpper = true) (digits : ∀ c ∈ ds, c.isDigit = true) :
    (cs ++ ds).takeWhile Char.isUpper = cs ∧ (cs ++ ds).dropWhile Char.isUpper = ds := by
  rw [List.takeWhile_append_of_pos upper,List.dropWhile_append_of_pos upper]
  cases ds with
  | nil => simp
  | cons d ds =>
    have lower : d.isUpper = false := isUpper_digit (digits d (by simp))
    simp [lower]

structure CellRef.Bounded (cell : CellRef) : Prop where
  column : 1 ≤ cell.column ∧ cell.column < Column.limit
  row : 1 ≤ cell.row ∧ cell.row < Column.limit

theorem Address.parse_a1 {cell : CellRef} {sheet : Option String} (bounded : cell.Bounded)
    (split : splitSheet text = (sheet,cell.a1)) :
    Address.parse text = .ok ⟨sheet,cell.column,some cell.row⟩ := by
  have digits : ∀ c ∈ Nat.toDigits 10 cell.row, c.isDigit = true := fun c member =>
    Nat.isDigit_of_mem_toDigits (by decide) (by decide) member
  have written : cell.a1.toList = (Column.letters cell.column).toList ++ Nat.toDigits 10 cell.row := by
    simp [CellRef.a1]
  have cleaned : (cell.a1.toList.filter fun c => c ≠ '$' ∧ c ≠ ' ').map Char.toUpper = cell.a1.toList := by
    rw [List.filter_eq_self.mpr]
    · refine (List.map_congr_left fun c member => ?_).trans (List.map_id _)
      rcases a1_chars member with upper | digit
      · exact Column.toUpper_upper upper
      · unfold Char.toUpper
        rw [dif_neg]
        · rfl
        · simp only [Char.isDigit,ge_iff_le,Bool.and_eq_true,decide_eq_true_eq,UInt32.le_iff_toNat_le] at digit
          rintro ⟨low,-⟩
          have low : 97 ≤ c.val.toNat := UInt32.le_iff_toNat_le.mp low
          have high : c.val.toNat ≤ 57 := digit.2
          omega
    · intro c member
      have kept {mark : Char} (letter : mark.isUpper = false) (digit : mark.isDigit = false) : c ≠ mark := by
        rintro rfl
        exact a1_free letter digit member
      simpa using ⟨kept (by decide) (by decide),kept (by decide) (by decide)⟩
  obtain ⟨taken,dropped⟩ := takeWhile_letters (Column.letters_upper (n := cell.column)) digits
  have some : (Column.letters cell.column).toList ≠ [] := Column.letters_ne_nil bounded.column.1
  have column : Column.ofLetters (Column.letters cell.column) = .ok cell.column := by
    have made := (Column.ofLetters_upper some Column.letters_upper).mpr ⟨Column.value_letters cell.column,bounded.column.2⟩
    rwa [String.ofList_toList] at made
  have row : rowNumber (Nat.toDigits 10 cell.row) = .some cell.row := by
    simp [rowNumber,Decimal.digitsValue_toDigits,bounded.row]
  unfold parse
  rw [split]
  simp only
  rw [cleaned,written,taken,dropped]
  have more : Nat.toDigits 10 cell.row ≠ [] := Nat.toDigits_ne_nil
  have all : allDigits (Nat.toDigits 10 cell.row) = true := by simpa [allDigits,more] using digits
  rw [if_neg (by simp [more]),if_pos ⟨some,all⟩,String.ofList_toList,column]
  simp only [bind,Except.bind,row]
  rfl

theorem CellRef.parse_text {cell : CellRef} (bounded : cell.Bounded) (named : bare cell.sheet ≠ "") (sheet : String) :
    CellRef.parse cell.text sheet = .ok {cell with sheet := bare cell.sheet} := by
  have some : cell.sheet ≠ "" := by
    intro none
    simp [none,bare,Text.trimBy] at named
  have parsed := Address.parse_a1 bounded (splitSheet_cell some)
  simp [CellRef.parse,parsed,bind,Except.bind,named,pure,Except.pure]

theorem CellRef.parse_own {cell : CellRef} (bounded : cell.Bounded) (named : cell.sheet ≠ "") (bared : bare cell.sheet = cell.sheet)
    (sheet : String) : CellRef.parse cell.text sheet = .ok cell := by
  rw [CellRef.parse_text bounded (by rwa [bared]) sheet,bared]

theorem CellRef.parse_ok {text sheet : String} (parsed : CellRef.parse text sheet = .ok cell) :
    cell.Bounded ∧ cell.sheet = (splitSheet text).1.getD sheet ∧ cell.sheet ≠ "" := by
  obtain ⟨a,read,rest⟩ := bind_ok.mp parsed
  obtain ⟨same,bounded⟩ := Address.parse_ok read
  split at rest
  · cases rest
  · rename_i row found
    simp only at rest
    split at rest
    · cases rest
    · rename_i named
      cases rest
      exact ⟨⟨bounded.column,bounded.row row found⟩,by rw [same],named⟩

theorem CellRef.text_inj {cell other : CellRef} (same : cell.text = other.text) : cell = other := by
  have parts (c : CellRef) : Text.splitLast '!' c.text.toList = some (c.sheet.toList,c.a1.toList) := by
    have joined : c.text.toList = c.sheet.toList ++ '!' :: c.a1.toList := by simp [CellRef.text]
    rw [joined,Text.splitLast_append (a1_free (by decide) (by decide))]
  have split := parts cell
  rw [same,parts other,Option.some.injEq,Prod.mk.injEq] at split
  have digits (c : CellRef) : ∀ d ∈ Nat.toDigits 10 c.row, d.isDigit = true := fun d member =>
    Nat.isDigit_of_mem_toDigits (by decide) (by decide) member
  have written (c : CellRef) : c.a1.toList = (Column.letters c.column).toList ++ Nat.toDigits 10 c.row := by simp [CellRef.a1]
  have taken (c : CellRef) := takeWhile_letters (Column.letters_upper (n := c.column)) (digits c)
  have letters : (Column.letters cell.column).toList = (Column.letters other.column).toList := by
    rw [← (taken cell).1,← (taken other).1,← written,← written,split.2]
  have numbers : Nat.toDigits 10 cell.row = Nat.toDigits 10 other.row := by
    rw [← (taken cell).2,← (taken other).2,← written,← written,split.2]
  have columns : cell.column = other.column := by
    rw [← Column.value_letters cell.column,letters,Column.value_letters]
  have rows : cell.row = other.row := by
    rw [← Decimal.digitsValue_toDigits cell.row,numbers,Decimal.digitsValue_toDigits]
  have sheets : cell.sheet = other.sheet := String.toList_inj.mp split.1.symm
  cases cell
  cases other
  simp_all

namespace Rect

structure Bounded (r : Rect) : Prop where
  column : 1 ≤ r.firstColumn ∧ r.firstColumn ≤ r.lastColumn ∧ r.lastColumn < Column.limit
  row : 1 ≤ r.firstRow ∧ r.firstRow ≤ r.lastRow ∧ r.lastRow < Column.limit

theorem bounded_ofCell {cell : CellRef} (bounded : cell.Bounded) : (ofCell cell).Bounded :=
  ⟨⟨bounded.column.1,Nat.le_refl _,bounded.column.2⟩,⟨bounded.row.1,Nat.le_refl _,bounded.row.2⟩⟩

theorem parse_ok {text sheet : String} (parsed : parse text sheet = .ok r) :
    r.Bounded ∧ r.sheet = (splitSheet text).1.getD sheet ∧ r.sheet ≠ "" := by
  unfold parse at parsed
  split at parsed
  · obtain ⟨cell,read,made⟩ := bind_ok.mp parsed
    cases made
    obtain ⟨bounded,same,named⟩ := CellRef.parse_ok read
    exact ⟨bounded_ofCell bounded,same,named⟩
  · rename_i parts split
    obtain ⟨first,start,parsed⟩ := bind_ok.mp parsed
    obtain ⟨last,stop,parsed⟩ := bind_ok.mp parsed
    have left := (Address.parse_ok start).2
    have right := (Address.parse_ok stop).2
    have sheet := splitRange_on split
    split at parsed
    · rename_i firstRow lastRow top bottom
      split at parsed
      · cases parsed
      · rename_i ordered
        simp only at parsed
        split at parsed
        · cases parsed
        · rename_i named
          cases parsed
          have high := left.row _ top
          have low := right.row _ bottom
          have width := left.column
          have reach := right.column
          refine ⟨⟨?_,?_⟩,by rw [← sheet]; rfl,named⟩
          · simp only [ofCorners]
            omega
          · simp only [ofCorners]
            omega
    · cases parsed

def stop (r : Rect) : CellRef := ⟨r.sheet,r.lastColumn,r.lastRow⟩

theorem bounded_start {r : Rect} (bounded : r.Bounded) : r.start.Bounded := by
  obtain ⟨column,row⟩ := bounded
  exact ⟨by simp only [start]; omega,by simp only [start]; omega⟩

theorem bounded_stop {r : Rect} (bounded : r.Bounded) : r.stop.Bounded := by
  obtain ⟨column,row⟩ := bounded
  exact ⟨by simp only [stop]; omega,by simp only [stop]; omega⟩

theorem a1_spelled (r : Rect) : r.a1.toList = r.start.a1.toList ++ ':' :: r.stop.a1.toList := by
  simp [a1,stop]

theorem a1_free {r : Rect} (letter : mark.isUpper = false) (digit : mark.isDigit = false) (other : mark ≠ ':') :
    mark ∉ r.a1.toList := by
  simp [a1_spelled,Recalc.a1_free letter digit,other]

theorem splitSheet_text {r : Rect} (named : r.sheet ≠ "") : splitSheet r.text = (some (bare r.sheet),r.a1) :=
  splitSheet_append named (a1_free (by decide) (by decide) (by decide))

theorem parse_corners {text sheet : String} {first last : CellRef} {on : Option String} (left : first.Bounded) (right : last.Bounded)
    (split : splitRange text = some ⟨on,first.a1,last.a1⟩) (ordered : first.column ≤ last.column)
    (named : on.getD sheet ≠ "") :
    parse text sheet = .ok (ofCorners (on.getD sheet) first.column first.row last.column last.row) := by
  have start := Address.parse_a1 left (splitSheet_none (Recalc.a1_free (by decide) (by decide)))
  have stop := Address.parse_a1 right (splitSheet_none (Recalc.a1_free (by decide) (by decide)))
  unfold parse
  rw [split]
  simp only [start,stop,bind,Except.bind,Nat.not_lt.mpr ordered,if_false,named]
  rfl

theorem parse_text {r : Rect} (bounded : r.Bounded) (named : bare r.sheet ≠ "") (sheet : String) :
    parse r.text sheet = .ok {r with sheet := bare r.sheet} := by
  have some : r.sheet ≠ "" := by
    intro none
    simp [none,bare,Text.trimBy] at named
  have split : splitRange r.text = .some ⟨.some (bare r.sheet),r.start.a1,r.stop.a1⟩ := by
    have colon : ':' ∉ r.start.a1.toList := Recalc.a1_free (by decide) (by decide)
    simp [splitRange,splitSheet_text some,a1_spelled,Text.splitFirst_append colon]
  obtain ⟨column,row⟩ := bounded
  rw [parse_corners (bounded_start ⟨column,row⟩) (bounded_stop ⟨column,row⟩) split column.2.1 named]
  simp only [ofCorners,start,stop,Option.getD_some]
  rw [Nat.min_eq_left row.2.1,Nat.max_eq_right row.2.1]

theorem parse_own {r : Rect} (bounded : r.Bounded) (named : r.sheet ≠ "") (bared : bare r.sheet = r.sheet) (sheet : String) :
    parse r.text sheet = .ok r := by
  rw [parse_text bounded (by rwa [bared]) sheet,bared]

end Rect
end Recalc
