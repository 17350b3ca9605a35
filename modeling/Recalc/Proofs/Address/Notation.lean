import Recalc.Proofs.Address.Spelling

namespace Recalc

def condensed (cs : List Char) : List Char := (cs.filter fun c => c ≠ '$' ∧ c ≠ ' ').map Char.toUpper

def Numbered (digits : List Char) (n : Nat) : Prop :=
  (digits ≠ [] ∧ ∀ c ∈ digits, c.isDigit = true) ∧ Decimal.digitsValue digits = n ∧ 1 ≤ n ∧ n < Column.limit

def Lettered (letters : List Char) (n : Nat) : Prop :=
  (letters ≠ [] ∧ ∀ c ∈ letters, c.isUpper = true) ∧ Column.value letters = n ∧ n < Column.limit

-- The spellings of a position: letters and a row, or both as numbers with a mark before each, in
-- brackets or not.
inductive Spells : List Char → Position → Prop where
  | letters (column : Lettered cs n) (row : Numbered ds m) : Spells (cs ++ ds) ⟨n,m⟩
  | numbers (row : Numbered ds m) (column : Numbered es n) : Spells ('R' :: (ds ++ 'C' :: es)) ⟨n,m⟩
  | brackets (row : Numbered ds m) (column : Numbered es n) :
      Spells ('R' :: '[' :: (ds ++ ']' :: 'C' :: '[' :: (es ++ [']']))) ⟨n,m⟩

section
variable {cs ds es rest : List Char} {p : Position}

theorem allDigits_iff : allDigits ds = true ↔ ds ≠ [] ∧ ∀ c ∈ ds, c.isDigit = true := by simp [allDigits]

theorem numbered_iff : Numbered ds n ↔ allDigits ds = true ∧ rowNumber ds = some n := by
  rw [allDigits_iff]
  unfold Numbered rowNumber
  simp only
  constructor
  · intro ⟨digits,value,bounds⟩
    exact ⟨digits,by rw [value,if_pos bounds]⟩
  · intro ⟨digits,read⟩
    split at read
    · rename_i bounds
      cases read
      exact ⟨digits,rfl,bounds⟩
    · cases read

theorem lettered_iff : Lettered cs n ↔ (cs ≠ [] ∧ ∀ c ∈ cs, c.isUpper = true) ∧ Column.ofLetters (String.ofList cs) = .ok n := by
  constructor
  · intro ⟨letters,value⟩
    exact ⟨letters,(Column.ofLetters_upper letters.1 letters.2).mpr value⟩
  · intro ⟨letters,read⟩
    exact ⟨letters,(Column.ofLetters_upper letters.1 letters.2).mp read⟩

theorem digit_free (digits : ∀ c ∈ ds, c.isDigit = true) (other : mark.isDigit = false) : mark ∉ ds := by
  intro member
  rw [digits mark member] at other
  cases other

theorem rowColumn_iff : rowColumn cs = some (ds,es) ↔ (allDigits ds = true ∧ allDigits es = true) ∧
    (cs = 'R' :: (ds ++ 'C' :: es) ∨ cs = 'R' :: '[' :: (ds ++ ']' :: 'C' :: '[' :: (es ++ [']']))) := by
  constructor
  · intro read
    unfold rowColumn at read
    split at read
    · obtain ⟨⟨row,rest⟩,first,read⟩ := Option.bind_eq_some_iff.mp read
      simp only at read
      split at read
      · obtain ⟨⟨column,rest⟩,second,read⟩ := Option.bind_eq_some_iff.mp read
        simp only at read
        split at read
        · rename_i digits
          cases read
          obtain ⟨joined,-⟩ := Text.splitFirst_joins first
          obtain ⟨joined',-⟩ := Text.splitFirst_joins second
          refine ⟨⟨digits.1,digits.2.1⟩,.inr ?_⟩
          rw [joined,joined',digits.2.2]
        · cases read
      · cases read
    · obtain ⟨⟨row,column⟩,split,read⟩ := Option.bind_eq_some_iff.mp read
      simp only at read
      split at read
      · rename_i digits
        cases read
        obtain ⟨joined,-⟩ := Text.splitFirst_joins split
        exact ⟨digits,.inl (by rw [joined])⟩
      · cases read
    · cases read
  · intro ⟨⟨rows,columns⟩,spelled⟩
    obtain ⟨given,digits⟩ := allDigits_iff.mp rows
    obtain ⟨-,digits'⟩ := allDigits_iff.mp columns
    rcases spelled with spelled | spelled
    · obtain ⟨d,more,written⟩ := List.exists_cons_of_ne_nil given
      have other : d ≠ '[' := by
        intro same
        exact digit_free digits (show '['.isDigit = false from rfl) (by simp [written,same])
      have split : Text.splitFirst 'C' (ds ++ 'C' :: es) = some (ds,es) := Text.splitFirst_append (digit_free digits rfl)
      subst spelled
      unfold rowColumn
      split
      · rename_i same
        rw [written] at same
        exact absurd (List.cons.inj (List.cons.inj same).2).1 other
      · rename_i rest _ same
        cases same
        simp [split,rows,columns]
      · rename_i bracket number
        exact absurd rfl (number _)
    · have first : Text.splitFirst ']' (ds ++ ']' :: 'C' :: '[' :: (es ++ [']'])) = some (ds,'C' :: '[' :: (es ++ [']'])) :=
        Text.splitFirst_append (digit_free digits rfl)
      have second : Text.splitFirst ']' (es ++ [']']) = some (es,[]) := Text.splitFirst_append (digit_free digits' rfl)
      subst spelled
      simp [rowColumn,first,second,rows,columns]

theorem Spells.chars (spells : Spells cs p) (member : c ∈ cs) : c.isUpper = true ∨ c.isDigit = true ∨ c ∈ ['[',']'] := by
  cases spells with
  | letters column row =>
    rcases List.mem_append.mp member with letter | digit
    · exact .inl (column.1.2 c letter)
    · exact .inr (.inl (row.1.2 c digit))
  | numbers row column =>
    rcases List.mem_cons.mp member with same | member
    · exact .inl (by rw [same]; rfl)
    · rcases List.mem_append.mp member with digit | member
      · exact .inr (.inl (row.1.2 c digit))
      · rcases List.mem_cons.mp member with same | digit
        · exact .inl (by rw [same]; rfl)
        · exact .inr (.inl (column.1.2 c digit))
  | brackets row column =>
    simp only [List.mem_cons,List.mem_append,List.not_mem_nil,or_false] at member
    rcases member with same | same | digit | same | same | same | digit | same
    · exact .inl (by rw [same]; rfl)
    · exact .inr (.inr (by simp [same]))
    · exact .inr (.inl (row.1.2 c digit))
    · exact .inr (.inr (by simp [same]))
    · exact .inl (by rw [same]; rfl)
    · exact .inr (.inr (by simp [same]))
    · exact .inr (.inl (column.1.2 c digit))
    · exact .inr (.inr (by simp [same]))

theorem condensed_mem (member : c ∈ cs) (kept : c ≠ '$' ∧ c ≠ ' ') : c.toUpper ∈ condensed cs :=
  List.mem_map_of_mem (List.mem_filter.mpr ⟨member,by simpa using kept⟩)

theorem Spells.free (spells : Spells (condensed cs) p) (mark : Char) (listed : mark ∈ [':',';','!']) : mark ∉ cs := by
  have plain : ∀ mark ∈ [':',';','!'], (mark ≠ '$' ∧ mark ≠ ' ') ∧ mark.toUpper.isUpper = false ∧ mark.toUpper.isDigit = false ∧
      mark.toUpper ∉ ['[',']'] := Text.each_of_all (by decide)
  intro member
  obtain ⟨kept,letter,digit,bracket⟩ := plain mark listed
  rcases spells.chars (condensed_mem member kept) with upper | number | within
  · rw [letter] at upper
    cases upper
  · rw [digit] at number
    cases number
  · exact bracket within

theorem Spells.given (spells : Spells cs p) : cs ≠ [] := by
  cases spells with
  | letters column row => simp [column.1.1]
  | numbers row column => simp
  | brackets row column => simp

theorem Spells.bounds (spells : Spells cs p) :
    (1 ≤ p.column ∧ p.column < Column.limit) ∧ 1 ≤ p.row ∧ p.row < Column.limit := by
  cases spells with
  | letters column row => exact ⟨Column.ofLetters_bounds (lettered_iff.mp column).2,row.2.2⟩
  | numbers row column => exact ⟨column.2.2,row.2.2⟩
  | brackets row column => exact ⟨column.2.2,row.2.2⟩

theorem rowColumn_marked (read : rowColumn cs = some (ds,es)) :
    cs.dropWhile Char.isUpper ≠ [] ∧ allDigits (cs.dropWhile Char.isUpper) = false := by
  obtain ⟨⟨rows,-⟩,spelled⟩ := rowColumn_iff.mp read
  obtain ⟨given,digits⟩ := allDigits_iff.mp rows
  rcases spelled with spelled | spelled
  · obtain ⟨d,more,written⟩ := List.exists_cons_of_ne_nil given
    have digit : d.isUpper = false := isUpper_digit (digits d (by simp [written]))
    subst spelled
    simp [written,digit,allDigits]
  · subst spelled
    simp [allDigits]

theorem spells_iff : Spells cs p ↔ (∃ ls ds, cs = ls ++ ds ∧ Lettered ls p.column ∧ Numbered ds p.row) ∨
    ∃ ds es, rowColumn cs = some (ds,es) ∧ Numbered ds p.row ∧ Numbered es p.column := by
  constructor
  · intro spells
    cases spells with
    | letters column row => exact .inl ⟨_,_,rfl,column,row⟩
    | numbers row column =>
      exact .inr ⟨_,_,rowColumn_iff.mpr ⟨⟨(numbered_iff.mp row).1,(numbered_iff.mp column).1⟩,.inl rfl⟩,row,column⟩
    | brackets row column =>
      exact .inr ⟨_,_,rowColumn_iff.mpr ⟨⟨(numbered_iff.mp row).1,(numbered_iff.mp column).1⟩,.inr rfl⟩,row,column⟩
  · intro either
    rcases either with ⟨ls,ds,joined,column,row⟩ | ⟨ds,es,read,row,column⟩
    · rw [joined]
      exact .letters column row
    · rcases (rowColumn_iff.mp read).2 with spelled | spelled
      · rw [spelled]
        exact .numbers row column
      · rw [spelled]
        exact .brackets row column

-- What is taken for a cell is spelled as one, and the other way round.
theorem Address.parse_spells {text : String} {sheet : Option String} {rest : String} (split : splitSheet text = (sheet,rest)) :
    Address.parse text = .ok ⟨sheet,p.column,some p.row⟩ ↔ Spells (condensed rest.toList) p := by
  unfold Address.parse condensed
  rw [split,spells_iff]
  simp only
  generalize List.map Char.toUpper _ = cs
  have joined : cs.takeWhile Char.isUpper ++ cs.dropWhile Char.isUpper = cs := List.takeWhile_append_dropWhile
  constructor
  · intro parsed
    split at parsed
    · obtain ⟨column,-,parsed⟩ := bind_ok.mp parsed
      cases parsed
    · split at parsed
      · rename_i letters
        obtain ⟨column,named,parsed⟩ := bind_ok.mp parsed
        split at parsed
        · rename_i row found
          cases p
          cases parsed
          have upper : ∀ c ∈ cs.takeWhile Char.isUpper, c.isUpper = true := fun c member => List.mem_takeWhile_imp member
          exact .inl ⟨_,_,joined.symm,lettered_iff.mpr ⟨⟨letters.1,upper⟩,named⟩,numbered_iff.mpr ⟨letters.2,found⟩⟩
        · cases parsed
      · split at parsed
        · cases parsed
        · rename_i rows columns read
          obtain ⟨⟨first,second⟩,-⟩ := rowColumn_iff.mp read
          split at parsed
          · rename_i column row found found'
            cases p
            cases parsed
            exact .inr ⟨_,_,read,numbered_iff.mpr ⟨first,found'⟩,numbered_iff.mpr ⟨second,found⟩⟩
          · cases parsed
  · intro spells
    rcases spells with ⟨ls,ds,written,column,row⟩ | ⟨ds,es,read,row,column⟩
    · obtain ⟨letters,named⟩ := lettered_iff.mp column
      obtain ⟨digits,found⟩ := numbered_iff.mp row
      obtain ⟨taken,dropped⟩ := takeWhile_letters letters.2 row.1.2
      rw [written,taken,dropped,if_neg (fun none => row.1.1 none.2),if_pos ⟨letters.1,digits⟩,named]
      simp [bind,Except.bind,found,pure,Except.pure]
    · obtain ⟨more,mixed⟩ := rowColumn_marked read
      have other : ¬ (cs.takeWhile Char.isUpper ≠ [] ∧ allDigits (cs.dropWhile Char.isUpper) = true) := by simp [mixed]
      rw [if_neg (fun none => more none.2),if_neg other,read]
      simp [(numbered_iff.mp row).2,(numbered_iff.mp column).2]

end
end Recalc
