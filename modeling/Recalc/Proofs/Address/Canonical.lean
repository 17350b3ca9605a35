import Recalc.Proofs.Address.Spelling

namespace Recalc

def Plain (name : String) : Prop := ':' ∉ name.toList ∧ ';' ∉ name.toList

instance (name : String) : Decidable (Plain name) := inferInstanceAs (Decidable (_ ∧ _))

theorem plain_bare {name : String} : Plain (bare name) ↔ Plain name := by
  unfold Plain
  rw [mem_bare (by decide),mem_bare (by decide)]

theorem mapM_ok {ε α β : Type} {f : α → Except ε β} {as : List α} {bs : List β} (done : as.mapM f = .ok bs) :
    bs.length = as.length ∧ ∀ b ∈ bs, ∃ a ∈ as, f a = .ok b := by
  induction as generalizing bs with
  | nil =>
    cases done
    exact ⟨rfl,by simp⟩
  | cons a as ih =>
    rw [List.mapM_cons] at done
    obtain ⟨b,first,done⟩ := bind_ok.mp done
    obtain ⟨rest,further,done⟩ := bind_ok.mp done
    cases done
    obtain ⟨long,each⟩ := ih further
    refine ⟨by simp [long],fun c listed => ?_⟩
    rcases List.mem_cons.mp listed with rfl | listed
    · exact ⟨a,by simp,first⟩
    · obtain ⟨d,member,made⟩ := each c listed
      exact ⟨d,by simp [member],made⟩

theorem mem_cell {cell : CellRef} (letter : mark.isUpper = false) (digit : mark.isDigit = false) :
    mark ∈ cell.text.toList ↔ mark ∈ cell.sheet.toList ∨ mark = '!' := by
  have absent : mark ∉ cell.a1.toList := a1_free letter digit
  simp [CellRef.text,absent]

theorem colon_cell {cell : CellRef} : ':' ∈ cell.text.toList ↔ ':' ∈ cell.sheet.toList := by
  simp [mem_cell]

theorem colon_rect (r : Rect) : ':' ∈ r.text.toList := by simp [Rect.text,Rect.a1_spelled]

theorem semicolon_rect {r : Rect} : ';' ∈ r.text.toList ↔ ';' ∈ r.sheet.toList := by
  have absent : ';' ∉ r.a1.toList := Rect.a1_free (by decide) (by decide) (by decide)
  simp [Rect.text,absent]

theorem isRange_false (absent : ':' ∉ text.toList) : isRange text = false := by
  simp [isRange,Text.splitFirst_none absent]

theorem isRange_append {sheet : String} (plain : Plain sheet) (named : sheet ≠ "") (colon : ':' ∈ rest.toList) :
    isRange (sheet ++ rest) = true := by
  obtain ⟨c,cs,spelled⟩ : ∃ c cs, sheet.toList = c :: cs := List.exists_cons_of_ne_nil (by simpa using named)
  have other : c ≠ ':' := by
    rintro rfl
    exact plain.1 (by simp [spelled])
  have spelled : (sheet ++ rest).toList = c :: (cs ++ rest.toList) := by simp [spelled]
  unfold isRange
  rw [spelled,Text.splitFirst,if_neg other]
  cases split : Text.splitFirst ':' (cs ++ rest.toList) with
  | none => exact absurd colon fun member => (Text.splitFirst_eq_none.mp split) (by simp [member])
  | some pair => simp

theorem isRange_rect {r : Rect} (plain : Plain r.sheet) (named : r.sheet ≠ "") : isRange r.text = true := by
  have colon : ':' ∈ ("!" ++ r.a1).toList := by simp [Rect.a1_spelled]
  have made := isRange_append plain named colon
  rwa [← String.append_assoc] at made

theorem splitRange_none (absent : ':' ∉ text.toList) : splitRange text = none := by
  have none : ':' ∉ (splitSheet text).2.toList := by
    rcases splitSheet_cases text with split | ⟨sheet,rest,joined,-,-,split⟩
    · rwa [split]
    · rw [split]
      subst joined
      exact fun member => absent (by simp [member])
  simp [splitRange,Text.splitFirst_none none]

theorem CellRef.parse_sheet {text sheet other : String} (one : CellRef.parse text sheet = .ok c)
    (two : CellRef.parse text other = .ok d) : d = {c with sheet := d.sheet} := by
  obtain ⟨a,read,one⟩ := bind_ok.mp one
  obtain ⟨b,again,two⟩ := bind_ok.mp two
  cases read.symm.trans again
  split at one
  · cases one
  · rename_i row found
    simp only [found] at one two
    split at one
    · cases one
    · split at two
      · cases two
      · cases one
        cases two
        rfl

theorem Rect.parse_sheet {text sheet other : String} {r r' : Rect} (one : Rect.parse text sheet = .ok r)
    (two : Rect.parse text other = .ok r') : r' = {r with sheet := r'.sheet} := by
  unfold Rect.parse at one two
  cases split : splitRange text with
  | none =>
    simp only [split] at one two
    obtain ⟨c,read,made⟩ := bind_ok.mp one
    obtain ⟨d,again,done⟩ := bind_ok.mp two
    cases made
    cases done
    rw [CellRef.parse_sheet read again]
    rfl
  | some parts =>
    simp only [split] at one two
    obtain ⟨first,start,one⟩ := bind_ok.mp one
    obtain ⟨last,stop,one⟩ := bind_ok.mp one
    obtain ⟨_,again,two⟩ := bind_ok.mp two
    cases start.symm.trans again
    obtain ⟨_,again,two⟩ := bind_ok.mp two
    cases stop.symm.trans again
    split at one
    · rename_i firstRow lastRow top bottom
      simp only [top,bottom] at two
      split at one
      · cases one
      · split at one
        · cases one
        · split at two
          · cases two
          · split at two
            · cases two
            · cases one
              cases two
              rfl
    · cases one

structure Clamped (text : String) : Prop where
  unmarked : '$' ∉ text.toList
  single : ∀ sheet, Plain ((splitSheet text).1.getD sheet) → ';' ∈ text.toList → ':' ∉ text.toList

theorem clampRange_cases (clamps : clampRange raw extents = .ok text) :
    splitRange (Text.without '$' raw) = none ∧ text = Text.without '$' raw ∨
      ∃ parts, ∃ corners : Rect, splitRange (Text.without '$' raw) = some parts ∧ text = parts.sheet.elim "" (· ++ "!") ++ corners.a1 := by
  unfold clampRange at clamps
  cases split : splitRange (Text.without '$' raw) with
  | none =>
    simp only [split] at clamps
    cases clamps
    exact .inl ⟨rfl,rfl⟩
  | some parts =>
    simp only [split] at clamps
    obtain ⟨first,-,clamps⟩ := bind_ok.mp clamps
    obtain ⟨last,-,clamps⟩ := bind_ok.mp clamps
    split at clamps
    · cases clamps
    · cases clamps
      refine .inr ⟨parts,⟨"",min first.column (max extents.columns 1),first.row.elim 1 (min · (max extents.rows 1)),
        min last.column (max extents.columns 1),last.row.elim (max extents.rows 1) (min · (max extents.rows 1))⟩,rfl,?_⟩
      cases parts.sheet with
      | none => exact (String.empty_append).symm
      | some name => rfl

theorem clamped_clampRange (clamps : clampRange raw extents = .ok text) : Clamped text := by
  have markers : '$' ∉ (Text.without '$' raw).toList := fun member => (Text.mem_without.mp member).2 rfl
  have cases := clampRange_cases clamps
  generalize Text.without '$' raw = t at cases markers
  rcases cases with ⟨split,rfl⟩ | ⟨parts,corners,split,rfl⟩
  · have absent : ':' ∉ (splitSheet text).2.toList := Text.splitFirst_eq_none.mp (by simpa [splitRange] using split)
    refine ⟨markers,fun sheet plain semicolon colon => ?_⟩
    rcases splitSheet_cases text with whole | ⟨name,rest,joined,-,-,parts⟩
    · rw [whole] at absent
      exact absent colon
    · rw [parts] at absent plain
      have plain : Plain name := plain_bare.mp plain
      subst joined
      simp only [String.toList_append,List.mem_append] at colon
      rcases colon with (colon | colon) | colon
      · exact plain.1 colon
      · simp at colon
      · exact absent colon
  · have dollar : '$' ∉ corners.a1.toList := Rect.a1_free (by decide) (by decide) (by decide)
    have semi : ';' ∉ corners.a1.toList := Rect.a1_free (by decide) (by decide) (by decide)
    cases on : parts.sheet with
    | none => exact ⟨by simp [dollar],fun _ _ semicolon => absurd semicolon (by simp [semi])⟩
    | some name =>
      have named : splitSheet t = (some name,(splitSheet t).2) := Prod.ext ((splitRange_on split).symm.trans on) rfl
      have unmarked : '$' ∉ name.toList := fun member => markers (splitSheet_mem named (by decide) member)
      refine ⟨by simp [unmarked,dollar],fun other plain semicolon => ?_⟩
      have inside : ';' ∈ name.toList := by simpa [semi] using semicolon
      have some : name ≠ "" := by
        rintro rfl
        simp at inside
      rw [Option.elim_some,splitSheet_append some (Rect.a1_free (by decide) (by decide) (by decide))] at plain
      exact absurd inside (plain_bare.mp plain).2

theorem canonicalize_single {text sheet : String} (single : ';' ∉ text.toList) (made : canonicalize text sheet = .ok k) :
    canonicalPart text sheet = .ok k := by
  obtain ⟨parts,each,made⟩ := bind_ok.mp made
  rw [Text.splitEach_single single,List.mapM_cons,List.mapM_nil] at each
  obtain ⟨part,first,each⟩ := bind_ok.mp each
  cases each
  cases made
  simpa using first

theorem canonicalPart_ok {text sheet : String} (made : canonicalPart text sheet = .ok k) :
    (isRange text = true ∧ ∃ r, Rect.parse text sheet = .ok r ∧ k = r.text) ∨
      (isRange text = false ∧ ∃ c, CellRef.parse text sheet = .ok c ∧ k = c.text) := by
  unfold canonicalPart at made
  split at made
  · rename_i ranged
    obtain ⟨r,parsed,rfl⟩ := map_ok.mp made
    exact .inl ⟨ranged,r,parsed,rfl⟩
  · rename_i single
    obtain ⟨c,parsed,rfl⟩ := map_ok.mp made
    exact .inr ⟨by simpa using single,c,parsed,rfl⟩

theorem absent_intercalate {parts : List String} (other : mark ≠ ';') (absent : ∀ part ∈ parts, mark ∉ part.toList) :
    mark ∉ (String.intercalate ";" parts).toList := by
  induction parts with
  | nil => simp
  | cons part parts ih =>
    have rest := ih fun p listed => absent p (by simp [listed])
    cases parts with
    | nil => simpa using absent part (by simp)
    | cons next parts =>
      rw [String.intercalate_cons_cons,String.toList_append,String.toList_append]
      simp only [List.mem_append,not_or]
      exact ⟨⟨absent part (by simp),by simpa using other⟩,rest⟩

-- Of several cells joined, all but the last one's position stands before the last `!`.
theorem intercalate_cells {part next : String} {parts : List String}
    (cells : ∀ p ∈ part :: next :: parts, ∃ c : CellRef, p = c.text) :
    ∃ sheet rest, String.intercalate ";" (part :: next :: parts) = sheet ++ "!" ++ rest ∧
      ';' ∈ sheet.toList ∧ '!' ∉ rest.toList := by
  induction parts generalizing part next with
  | nil =>
    obtain ⟨c,rfl⟩ := cells next (by simp)
    refine ⟨part ++ ";" ++ c.sheet,c.a1,?_,by simp,a1_free (by decide) (by decide)⟩
    simp [CellRef.text,String.intercalate_cons_cons,String.append_assoc]
  | cons further parts ih =>
    obtain ⟨sheet,rest,joined,semicolon,absent⟩ := ih fun p listed => cells p (List.mem_cons_of_mem part listed)
    refine ⟨part ++ ";" ++ sheet,rest,?_,by simp,absent⟩
    rw [String.intercalate_cons_cons,joined]
    simp [String.append_assoc]

theorem canonicalize_many {text sheet : String} (plain : Plain sheet) (many : ';' ∈ text.toList) (colon : ':' ∉ text.toList)
    (made : canonicalize text sheet = .ok k) :
    ':' ∉ k.toList ∧ ∃ name rest, splitSheet k = (some name,rest) ∧ ';' ∈ name.toList := by
  obtain ⟨parts,each,made⟩ := bind_ok.mp made
  cases made
  obtain ⟨long,each⟩ := mapM_ok each
  have cells : ∀ part ∈ parts, ∃ c : CellRef, part = c.text ∧ ':' ∉ c.sheet.toList := by
    intro part listed
    obtain ⟨piece,member,made⟩ := each part listed
    have free : ':' ∉ (String.ofList piece).toList := by
      rw [String.toList_ofList]
      exact fun inside => colon (Text.mem_pieces member inside)
    rcases canonicalPart_ok made with ⟨ranged,-⟩ | ⟨-,c,parsed,rfl⟩
    · simp [isRange_false free] at ranged
    · refine ⟨c,rfl,?_⟩
      rw [(CellRef.parse_ok parsed).2.1]
      rcases splitSheet_cases (String.ofList piece) with whole | ⟨name,rest,-,-,-,split⟩
      · rw [whole]
        exact plain.1
      · rw [split]
        exact fun inside => free (splitSheet_mem split (by decide) inside)
  refine ⟨absent_intercalate (by decide) fun part listed => ?_,?_⟩
  · obtain ⟨c,rfl,free⟩ := cells part listed
    rwa [colon_cell]
  · obtain ⟨first,second,others,pieces⟩ := Text.splitEach_many many
    rw [pieces] at long
    match parts,long with
    | part :: next :: parts,_ =>
      obtain ⟨name,rest,joined,semicolon,absent⟩ := intercalate_cells fun p listed =>
        (cells p listed).imp fun c known => known.1
      have some : name ≠ "" := by
        rintro rfl
        simp at semicolon
      exact ⟨bare name,rest,by rw [joined,splitSheet_append some absent],(mem_bare (by decide)).mpr semicolon⟩

-- How a formula spells a reference that stands on a sheet, beside the canonical spelling it
-- is wired up under and the rectangle read off that.
inductive Spelled (site text canonical : String) (r : Rect) : Prop where
  | range (ranged : isRange canonical = true) (plain : Plain r.sheet) (bared : bare r.sheet = r.sheet)
      (kept : ∀ e, canonicalize text site = .ok e → e = r.text)
  | cell (c : CellRef) (single : isRange canonical = false) (alone : r = .ofCell c) (plain : Plain c.sheet)
      (parsed : ∀ other, Rect.parse canonical other = .ok r) (kept : ∀ e, canonicalize text site = .ok e → e = c.text)
  | list (single : isRange canonical = false) (colon : ':' ∉ r.sheet.toList) (semicolon : ';' ∈ r.sheet.toList)

section
variable {text sheet target canonical : String} {r : Rect} (clamped : Clamped text)
  (on : target = (splitSheet text).1.getD sheet) (plain : Plain target)
  (made : canonicalize text target = .ok canonical) (parsed : Rect.parse canonical target = .ok r)
include clamped on plain made parsed

theorem spelled_list (many : ';' ∈ text.toList) : Spelled (bare sheet) text canonical r := by
  obtain ⟨free,name,rest,split,semicolon⟩ := canonicalize_many plain many (clamped.single sheet (on ▸ plain) many) made
  unfold Rect.parse at parsed
  rw [splitRange_none free] at parsed
  obtain ⟨c,read,alone⟩ := bind_ok.mp parsed
  cases alone
  have taken : c.sheet = name := by rw [(CellRef.parse_ok read).2.1,split,Option.getD_some]
  refine .list (isRange_false free) ?_ ?_
  · rw [Rect.ofCell,taken]
    exact fun inside => free (splitSheet_mem split (by decide) inside)
  · rw [Rect.ofCell,taken]
    exact semicolon

omit clamped plain made parsed in
theorem target_again : (splitSheet text).1.getD target = target := by
  rw [on]
  cases (splitSheet text).1 <;> rfl

omit clamped in
theorem spelled_range (single : ';' ∉ text.toList) (ranged : isRange text = true) {r' : Rect} (read : Rect.parse text target = .ok r')
    (spells : canonical = r'.text) : Spelled (bare sheet) text canonical r := by
  cases spells
  obtain ⟨bounded,alike,here⟩ := Rect.parse_ok read
  rw [target_again on] at alike
  have named : bare r'.sheet ≠ "" := by
    obtain ⟨-,same,some⟩ := Rect.parse_ok parsed
    rw [Rect.splitSheet_text here,Option.getD_some] at same
    rwa [same] at some
  cases parsed.symm.trans (Rect.parse_text bounded named target)
  refine .range (isRange_rect (alike ▸ plain) here) ?_ (bare_bare _) fun e kept => ?_
  · rw [alike]
    exact plain_bare.mpr plain
  · rcases canonicalPart_ok (canonicalize_single single kept) with ⟨-,other,again,rfl⟩ | ⟨alone,-⟩
    · have sheets := (Rect.parse_ok again).2.1
      rw [Rect.parse_sheet read again,sheets,← splitSheet_bare,← on,alike]
    · simp [ranged] at alone

omit clamped in
theorem spelled_cell (single : ';' ∉ text.toList) (alone : isRange text = false) {c : CellRef} (read : CellRef.parse text target = .ok c)
    (spells : canonical = c.text) : Spelled (bare sheet) text canonical r := by
  cases spells
  obtain ⟨bounded,alike,here⟩ := CellRef.parse_ok read
  rw [target_again on] at alike
  have named : bare c.sheet ≠ "" := by
    obtain ⟨-,same,some⟩ := Rect.parse_ok parsed
    rw [splitSheet_cell here,Option.getD_some] at same
    rwa [same] at some
  have absent : ':' ∉ c.text.toList := by
    rw [colon_cell,alike]
    exact plain.1
  have parses (other : String) : Rect.parse c.text other = .ok (.ofCell {c with sheet := bare c.sheet}) := by
    unfold Rect.parse
    rw [splitRange_none absent,CellRef.parse_text bounded named other]
    rfl
  cases parsed.symm.trans (parses target)
  refine .cell _ (isRange_false absent) rfl ?_ parses fun e kept => ?_
  · rw [alike]
    exact plain_bare.mpr plain
  · rcases canonicalPart_ok (canonicalize_single single kept) with ⟨ranged,-⟩ | ⟨-,d,other,rfl⟩
    · simp [alone] at ranged
    · have sheets := (CellRef.parse_ok other).2.1
      rw [CellRef.parse_sheet read other,sheets,← splitSheet_bare,← on,alike]

theorem spelled : Spelled (bare sheet) text canonical r := by
  by_cases many : ';' ∈ text.toList
  · exact spelled_list clamped on plain made parsed many
  · rcases canonicalPart_ok (canonicalize_single many made) with ⟨ranged,r',read,spells⟩ | ⟨single,c,read,spells⟩
    · exact spelled_range on plain made parsed many ranged read spells
    · exact spelled_cell on plain made parsed many single read spells

end
end Recalc
