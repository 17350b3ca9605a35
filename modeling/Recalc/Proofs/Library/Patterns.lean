import Mathlib.Data.List.Infix
import Recalc.Library.Criterion

namespace Recalc.Piece

def Fits : List Piece → List Char → Prop
  | [], cs => cs = []
  | .many :: ps, cs => ∃ rest, rest <:+ cs ∧ Fits ps rest
  | p :: ps, cs => ∃ c rest, cs = c :: rest ∧ p.takes c = true ∧ Fits ps rest

def Runless (ps : List Piece) : Prop := Piece.many ∉ ps

variable {p : Piece} {ps more : List Piece} {c : Char} {cs rest later : List Char}

theorem fits_many : Fits (.many :: ps) cs ↔ ∃ rest, rest <:+ cs ∧ Fits ps rest := Iff.rfl

theorem fits_cons (plain : p ≠ .many) : Fits (p :: ps) cs ↔ ∃ c rest, cs = c :: rest ∧ p.takes c = true ∧ Fits ps rest := by
  cases p with
  | many => exact absurd rfl plain
  | char d => rfl
  | one => rfl

theorem fits_empty : Fits ps [] ↔ ps.all (· == .many) = true := by
  induction ps with
  | nil => simp [Fits]
  | cons p ps ih =>
    cases p with
    | many => simp [fits_many,ih]
    | char d => simp [fits_cons]
    | one => simp [fits_cons]

theorem Runless.head (plain : Runless (p :: ps)) : p ≠ .many := fun same => plain (same ▸ List.mem_cons_self)

theorem Runless.tail (plain : Runless (p :: ps)) : Runless ps := fun member => plain (List.mem_cons_of_mem _ member)

theorem matchStart_cons : matchStart (p :: ps) cs = some rest ↔ ∃ c cs', cs = c :: cs' ∧ p.takes c = true ∧ matchStart ps cs' = some rest := by
  cases cs with
  | nil => simp [matchStart]
  | cons c cs => simp [matchStart]

theorem matchStart_taken (found : matchStart ps cs = some rest) : ∃ taken, cs = taken ++ rest ∧ taken.length = ps.length := by
  induction ps generalizing cs with
  | nil =>
    cases found
    exact ⟨[],rfl,rfl⟩
  | cons p ps ih =>
    obtain ⟨c,cs,rfl,-,found⟩ := matchStart_cons.mp found
    obtain ⟨taken,rfl,long⟩ := ih found
    exact ⟨c :: taken,rfl,congrArg (· + 1) long⟩

theorem matchStart_append (found : matchStart ps cs = some rest) : matchStart (ps ++ more) cs = matchStart more rest := by
  induction ps generalizing cs with
  | nil =>
    cases found
    rfl
  | cons p ps ih =>
    obtain ⟨c,cs,rfl,takes,found⟩ := matchStart_cons.mp found
    rw [List.cons_append,matchStart,if_pos takes,ih found]

theorem fits_stretch (plain : Runless ps) : Fits (ps ++ more) cs ↔ ∃ rest, matchStart ps cs = some rest ∧ Fits more rest := by
  induction ps generalizing cs with
  | nil => simp [matchStart]
  | cons p ps ih =>
    rw [List.cons_append,fits_cons plain.head]
    constructor
    · rintro ⟨c,cs,rfl,takes,fits⟩
      obtain ⟨rest,found,fits⟩ := (ih plain.tail).mp fits
      exact ⟨rest,matchStart_cons.mpr ⟨c,cs,rfl,takes,found⟩,fits⟩
    · rintro ⟨rest,found,fits⟩
      obtain ⟨c,cs,rfl,takes,found⟩ := matchStart_cons.mp found
      exact ⟨c,cs,rfl,takes,(ih plain.tail).mpr ⟨rest,found,fits⟩⟩

theorem Fits.longer (fits : Fits (.many :: ps) rest) (suffix : rest <:+ cs) : Fits (.many :: ps) cs := by
  obtain ⟨last,within,fits⟩ := fits
  exact ⟨last,within.trans suffix,fits⟩

theorem fits_skip (not : ¬ Fits ps (c :: cs)) : Fits (.many :: ps) (c :: cs) ↔ Fits (.many :: ps) cs := by
  constructor
  · rintro ⟨rest,suffix,fits⟩
    rcases List.suffix_cons_iff.mp suffix with rfl | suffix
    · exact absurd fits not
    · exact ⟨rest,suffix,fits⟩
  · exact fun fits => fits.longer (List.suffix_cons c cs)

-- Where a stretch is found at once, looking for it further on leaves no more of the text.
theorem fits_found (plain : Runless ps) (found : matchStart ps cs = some rest) (fits : Fits (.many :: (ps ++ more)) cs) :
    ∃ later, later <:+ rest ∧ Fits more later := by
  obtain ⟨start,suffix,fits⟩ := fits
  obtain ⟨later,there,ends⟩ := (fits_stretch plain).mp fits
  obtain ⟨here,same,long⟩ := matchStart_taken found
  obtain ⟨taken,rfl,long'⟩ := matchStart_taken there
  refine ⟨later,?_,ends⟩
  have further := suffix.length_le
  refine List.suffix_of_suffix_length_le ((List.suffix_append taken later).trans suffix) (same ▸ List.suffix_append here rest) ?_
  simp only [same,List.length_append] at further
  omega

-- A run need not be tried again once the stretch after it is found and another run follows.
theorem fits_next (plain : Runless ps) (found : matchStart ps cs = some rest) :
    Fits (.many :: (ps ++ .many :: more)) cs ↔ Fits (.many :: more) rest := by
  constructor
  · intro fits
    obtain ⟨later,suffix,fits⟩ := fits_found plain found fits
    exact fits.longer suffix
  · exact fun fits => ⟨cs,List.suffix_rfl,(fits_stretch plain).mpr ⟨rest,found,fits⟩⟩

theorem fits_leftmost (plain : Runless ps) :
    Fits (.many :: (ps ++ .many :: more)) cs ↔ ∃ rest, matchLeftmost ps cs = some rest ∧ Fits (.many :: more) rest := by
  induction cs with
  | nil =>
    rw [matchLeftmost,← fits_stretch plain,fits_many]
    simp
  | cons c cs ih =>
    unfold matchLeftmost
    split
    · rename_i rest found
      rw [fits_next plain found]
      simp
    · rename_i none
      rw [← ih]
      refine fits_skip fun fits => ?_
      obtain ⟨rest,found,-⟩ := (fits_stretch plain).mp fits
      rw [none] at found
      cases found

theorem matchEnd_iff (plain : Runless ps) : matchEnd ps cs = true ↔ Fits (.many :: ps) cs := by
  have stretch (cs : List Char) : Fits ps cs ↔ matchStart ps cs = some [] := by
    rw [← List.append_nil ps,fits_stretch plain,List.append_nil]
    simp [Fits]
  rw [matchEnd,Bool.and_eq_true,decide_eq_true_iff,beq_iff_eq,← stretch]
  constructor
  · rintro ⟨-,fits⟩
    exact ⟨_,List.drop_suffix _ _,fits⟩
  · rintro ⟨rest,⟨before,rfl⟩,fits⟩
    obtain ⟨taken,rfl,long⟩ := matchStart_taken ((stretch rest).mp fits)
    have place : (before ++ (taken ++ [])).length - ps.length = before.length := by simp [long]
    rw [place,List.drop_left]
    exact ⟨by simp [long],fits⟩

def joined (runs : List (List Piece)) : List Piece := runs.flatMap (.many :: ·)

theorem splitRuns_joined (ps : List Piece) : (splitRuns ps).1 ++ joined (splitRuns ps).2 = ps := by
  induction ps with
  | nil => rfl
  | cons p ps ih => cases p <;> simpa [splitRuns,joined] using ih

theorem splitRuns_plain (ps : List Piece) : Runless (splitRuns ps).1 ∧ ∀ run ∈ (splitRuns ps).2, Runless run := by
  induction ps with
  | nil => simp [splitRuns,Runless]
  | cons p ps ih =>
    obtain ⟨first,runs⟩ := ih
    cases p with
    | many => exact ⟨by simp [splitRuns,Runless],List.forall_mem_cons.mpr ⟨first,runs⟩⟩
    | char d => exact ⟨by simpa [splitRuns,Runless] using first,runs⟩
    | one => exact ⟨by simpa [splitRuns,Runless] using first,runs⟩

theorem matchRuns_iff {runs : List (List Piece)} (plain : ∀ run ∈ runs, Runless run) : matchRuns runs cs = true ↔ Fits (joined runs) cs := by
  induction runs generalizing cs with
  | nil => simp [matchRuns,joined,Fits]
  | cons run runs ih =>
    obtain ⟨here,others⟩ := List.forall_mem_cons.mp plain
    cases runs with
    | nil =>
      rw [matchRuns,matchEnd_iff here]
      simp [joined]
    | cons next runs =>
      have shape : joined (run :: next :: runs) = .many :: (run ++ .many :: (next ++ joined runs)) := by simp [joined]
      have follows : joined (next :: runs) = .many :: (next ++ joined runs) := by simp [joined]
      rw [shape,fits_leftmost here,← follows]
      simp only [matchRuns]
      cases matchLeftmost run cs with
      | none => simp
      | some rest => simp [ih others]

theorem matchAll_iff (ps : List Piece) (cs : List Char) : matchAll ps cs = true ↔ Fits ps cs := by
  obtain ⟨first,runs⟩ := splitRuns_plain ps
  conv => rhs; rw [← splitRuns_joined ps]
  rw [fits_stretch first,matchAll]
  dsimp only
  cases matchStart (splitRuns ps).1 cs with
  | none => simp
  | some rest => simp [matchRuns_iff runs]

end Recalc.Piece
