import Mathlib.Data.List.DropRight
import Recalc.Text.Blank
import Recalc.Text.Search

namespace Recalc.Text
variable {mark : Char} {cs before after : List Char}

theorem splitLast_none (absent : mark ∉ cs) : splitLast mark cs = none := by
  induction cs with
  | nil => rfl
  | cons c rest ih =>
    simp only [List.mem_cons,not_or] at absent
    simp [splitLast,ih absent.2,Ne.symm absent.1]

theorem splitLast_append (absent : mark ∉ after) : splitLast mark (before ++ mark :: after) = some (before,after) := by
  induction before with
  | nil => simp [splitLast,splitLast_none absent]
  | cons c before ih => simp [splitLast,ih]

theorem splitFirst_none (absent : mark ∉ cs) : splitFirst mark cs = none := by
  induction cs with
  | nil => rfl
  | cons c rest ih =>
    simp only [List.mem_cons,not_or] at absent
    simp [splitFirst,ih absent.2,Ne.symm absent.1]

theorem splitFirst_append (absent : mark ∉ before) : splitFirst mark (before ++ mark :: after) = some (before,after) := by
  induction before with
  | nil => simp [splitFirst]
  | cons c before ih =>
    simp only [List.mem_cons,not_or] at absent
    simp [splitFirst,ih absent.2,Ne.symm absent.1]

theorem splitFirst_eq_none : splitFirst mark cs = none ↔ mark ∉ cs := by
  refine ⟨fun none member => ?_,splitFirst_none⟩
  induction cs with
  | nil => cases member
  | cons c rest ih =>
    simp only [splitFirst] at none
    split at none
    · cases none
    · rename_i other
      exact ih (by simpa using none) ((List.mem_cons.mp member).resolve_left fun same => other same.symm)

theorem splitEach_cons (mark : Char) (cs : List Char) : ∃ piece pieces, splitEach mark cs = piece :: pieces := by
  induction cs with
  | nil => exact ⟨[],[],rfl⟩
  | cons c rest ih =>
    obtain ⟨piece,pieces,split⟩ := ih
    simp only [splitEach,split]
    split
    · exact ⟨_,_,rfl⟩
    · exact ⟨_,_,rfl⟩

theorem splitEach_single (absent : mark ∉ cs) : splitEach mark cs = [cs] := by
  induction cs with
  | nil => rfl
  | cons c rest ih =>
    simp only [List.mem_cons,not_or] at absent
    simp [splitEach,ih absent.2,Ne.symm absent.1]

theorem splitEach_append (absent : mark ∉ before) :
    splitEach mark (before ++ mark :: after) = before :: splitEach mark after := by
  induction before with
  | nil =>
    obtain ⟨piece,pieces,split⟩ := splitEach_cons mark after
    simp [splitEach,split]
  | cons c before ih =>
    simp only [List.mem_cons,not_or] at absent
    simp [splitEach,ih absent.2,Ne.symm absent.1]

theorem splitEach_intercalate {pieces : List (List Char)} (some : pieces ≠ []) (absent : ∀ piece ∈ pieces, mark ∉ piece) :
    splitEach mark ([mark].intercalate pieces) = pieces := by
  induction pieces with
  | nil => exact absurd rfl some
  | cons piece pieces ih =>
    cases pieces with
    | nil => simpa [List.intercalate] using splitEach_single (absent piece (by simp))
    | cons next pieces =>
      have rest := ih (by simp) fun other member => absent other (by simp [member])
      have joined : [mark].intercalate (piece :: next :: pieces) =
          piece ++ mark :: [mark].intercalate (next :: pieces) := by simp [List.intercalate]
      rw [joined,splitEach_append (absent piece (by simp)),rest]

theorem mem_pieces (listed : piece ∈ splitEach mark cs) (member : c ∈ piece) : c ∈ cs := by
  induction cs generalizing piece with
  | nil => simp_all [splitEach]
  | cons d rest ih =>
    obtain ⟨first,pieces,split⟩ := splitEach_cons mark rest
    simp only [splitEach,split] at listed
    split at listed
    · rcases List.mem_cons.mp listed with rfl | listed
      · cases member
      · exact List.mem_cons_of_mem _ (ih (split ▸ listed) member)
    · rcases List.mem_cons.mp listed with rfl | listed
      · rcases List.mem_cons.mp member with rfl | member
        · simp
        · exact List.mem_cons_of_mem _ (ih (split ▸ List.mem_cons_self) member)
      · exact List.mem_cons_of_mem _ (ih (split ▸ List.mem_cons_of_mem _ listed) member)

theorem splitEach_many (member : mark ∈ cs) : ∃ first second rest, splitEach mark cs = first :: second :: rest := by
  obtain ⟨before,after,rfl⟩ : ∃ before after, cs = before ++ mark :: after := List.append_of_mem member
  clear member
  induction before with
  | nil =>
    obtain ⟨piece,pieces,split⟩ := splitEach_cons mark after
    exact ⟨[],piece,pieces,by simp [splitEach,split]⟩
  | cons c before ih =>
    obtain ⟨first,second,rest,split⟩ := ih
    by_cases same : c = mark
    · exact ⟨[],first,second :: rest,by simp [splitEach,split,same]⟩
    · exact ⟨c :: first,second,rest,by simp [splitEach,split,same]⟩

-- Each character listed is looked at, and not every character there is.
theorem each_of_all {p : Char → Prop} [DecidablePred p] (all : cs.all (fun c => decide (p c)) = true) : ∀ c ∈ cs, p c := by
  intro c member
  simpa using List.all_eq_true.mp all c member

theorem takeWhile_parted {p : Char → Bool} (inside : ∀ c ∈ before, p c = true) (parts : ∀ c, after.head? = some c → p c = false) :
    (before ++ after).takeWhile p = before := by
  rw [List.takeWhile_append_of_pos inside]
  cases after with
  | nil => simp
  | cons c after => simp [parts c rfl]

theorem dropWhile_parted {p : Char → Bool} (inside : ∀ c ∈ before, p c = true) (parts : ∀ c, after.head? = some c → p c = false) :
    (before ++ after).dropWhile p = after := by
  rw [List.dropWhile_append_of_pos inside]
  cases after with
  | nil => rfl
  | cons c after => simp [parts c rfl]

theorem trimBy_around {p : Char → Bool} (outside : ∀ c ∈ before ++ after, p c = true) (given : cs ≠ [])
    (first : ∀ c, cs.head? = some c → p c = false) (last : ∀ c, cs.getLast? = some c → p c = false) :
    trimBy p (before ++ (cs ++ after)) = cs := by
  have start : (before ++ (cs ++ after)).dropWhile p = cs ++ after := by
    refine dropWhile_parted (fun c member => outside c (by simp [member])) fun c head => ?_
    rw [List.head?_append_of_ne_nil _ given] at head
    exact first c head
  have stop : (after.reverse ++ cs.reverse).dropWhile p = cs.reverse := by
    refine dropWhile_parted (fun c member => outside c (by simp at member; simp [member])) fun c head => ?_
    exact last c (by rwa [List.head?_reverse] at head)
  rw [trimBy,start,List.reverse_append,stop,List.reverse_reverse]

theorem trimBy_rdropWhile (p : Char → Bool) (cs : List Char) : trimBy p cs = (cs.dropWhile p).rdropWhile p := rfl

theorem mem_trimBy {p : Char → Bool} (member : c ∈ trimBy p cs) : c ∈ cs := by
  rw [trimBy_rdropWhile] at member
  exact (List.dropWhile_suffix p).subset ((List.rdropWhile_prefix p _).subset member)

theorem mem_dropWhile {p : Char → Bool} (member : c ∈ cs) (keeps : p c = false) : c ∈ cs.dropWhile p := by
  induction cs with
  | nil => cases member
  | cons d rest ih =>
    by_cases drops : p d = true
    · rw [List.dropWhile_cons_of_pos drops]
      rcases List.mem_cons.mp member with rfl | member
      · simp [keeps] at drops
      · exact ih member
    · rwa [List.dropWhile_cons_of_neg drops]

theorem mem_trimBy_of_mem {p : Char → Bool} (member : c ∈ cs) (keeps : p c = false) : c ∈ trimBy p cs := by
  unfold trimBy
  rw [List.mem_reverse]
  exact mem_dropWhile (List.mem_reverse.mpr (mem_dropWhile member keeps)) keeps

theorem rdropWhile_cons (p : Char → Bool) (c : Char) (cs : List Char) :
    (c :: cs).rdropWhile p = if p c = true ∧ cs.rdropWhile p = [] then [] else c :: cs.rdropWhile p := by
  unfold List.rdropWhile
  rw [List.reverse_cons,List.dropWhile_append]
  by_cases void : cs.reverse.dropWhile p = []
  · cases drops : p c <;> simp [void,drops]
  · simp [void]

theorem trimBy_mark {p : Char → Bool} (keeps : p mark = false) (cs : List Char) : trimBy p (mark :: cs) = mark :: cs.rdropWhile p := by
  rw [trimBy_rdropWhile,List.dropWhile_cons_of_neg (Bool.eq_false_iff.mp keeps),rdropWhile_cons,if_neg (by simp [keeps])]

theorem trimBy_drop {p : Char → Bool} (drops : p c = true) (cs : List Char) : trimBy p (c :: cs) = trimBy p cs := by
  rw [trimBy,List.dropWhile_cons_of_pos drops,trimBy]

theorem trimBy_rest (p : Char → Bool) (cs : List Char) : trimBy p (cs.rdropWhile p) = trimBy p cs := by
  induction cs with
  | nil => rfl
  | cons c cs ih =>
    rw [rdropWhile_cons]
    split
    · rename_i void
      rw [trimBy_drop void.1,← ih,void.2]
    · cases drops : p c with
      | false => rw [trimBy_mark drops,trimBy_mark drops,List.rdropWhile_idempotent]
      | true => rw [trimBy_drop drops,trimBy_drop drops,ih]

theorem trimBy_trimBy (p : Char → Bool) (cs : List Char) : trimBy p (trimBy p cs) = trimBy p cs := by
  have start := List.dropWhile_idempotent p cs
  rw [trimBy_rdropWhile p cs,trimBy_rest,trimBy_rdropWhile,start]

theorem without_absent (absent : mark ∉ s.toList) : without mark s = s := by
  unfold without
  rw [List.filter_eq_self.mpr,String.ofList_toList]
  intro c member
  simpa using fun same : c = mark => absent (same ▸ member)

theorem mem_without {c mark : Char} {s : String} : c ∈ (without mark s).toList ↔ c ∈ s.toList ∧ c ≠ mark := by
  simp [without]

end Recalc.Text
