import Mathlib.Algebra.Group.Nat.Defs
import Recalc.Proofs.Library.Patterns

namespace Recalc

-- What a pattern says, mark by mark: `~` makes what follows it plain and is plain at the end,
-- `?` is one character, `*` any of them, and every other character is itself.
inductive Matches : List Char → List Char → Prop where
  | nil : Matches [] []
  | escaped (c : Char) (rest : Matches pattern text) : Matches ('~' :: c :: pattern) (c :: text)
  | tilde : Matches ['~'] ['~']
  | one (c : Char) (rest : Matches pattern text) : Matches ('?' :: pattern) (c :: text)
  | many (run : List Char) (rest : Matches pattern text) : Matches ('*' :: pattern) (run ++ text)
  | itself (c : Char) (plain : c ∉ ['~','?','*']) (rest : Matches pattern text) : Matches (c :: pattern) (c :: text)

namespace Piece
variable {pattern text : List Char}

theorem parse_itself {c : Char} (plain : c ∉ ['~','?','*']) : parse (c :: pattern) = .char c :: parse pattern := by
  simp only [List.mem_cons,List.not_mem_nil,or_false,not_or] at plain
  obtain ⟨tilde,one,many⟩ := plain
  rw [parse]
  · exact fun d rest same _ => tilde same
  · exact fun same _ => tilde same
  · exact one
  · exact many

theorem fits_parse : Fits (parse pattern) text ↔ Matches pattern text := by
  constructor
  · intro fits
    fun_induction parse pattern generalizing text with
    | case1 =>
      cases fits
      exact .nil
    | case2 c pattern ih =>
      obtain ⟨d,rest,rfl,same,fits⟩ := fits
      cases beq_iff_eq.mp same
      exact .escaped c (ih fits)
    | case3 =>
      obtain ⟨d,rest,rfl,same,fits⟩ := fits
      cases beq_iff_eq.mp same
      cases fits
      exact .tilde
    | case4 pattern ih =>
      obtain ⟨d,rest,rfl,-,fits⟩ := fits
      exact .one d (ih fits)
    | case5 pattern ih =>
      obtain ⟨rest,⟨run,rfl⟩,fits⟩ := fits
      exact .many run (ih fits)
    | case6 c pattern other lone one many ih =>
      obtain ⟨d,rest,rfl,same,fits⟩ := fits
      cases beq_iff_eq.mp same
      have tilde : c ≠ '~' := fun same => by
        cases pattern with
        | nil => exact lone same rfl
        | cons d rest => exact other d rest same rfl
      exact .itself c (by simpa using ⟨tilde,one,many⟩) (ih fits)
  · intro means
    induction means with
    | nil => rfl
    | escaped c rest ih => exact ⟨c,_,rfl,beq_self_eq_true c,ih⟩
    | tilde => exact ⟨'~',[],rfl,rfl,rfl⟩
    | one c rest ih => exact ⟨c,_,rfl,rfl,ih⟩
    | many run rest ih => exact ⟨_,List.suffix_append run _,ih⟩
    | itself c plain rest ih =>
      rw [parse_itself plain]
      exact ⟨c,_,rfl,beq_self_eq_true c,ih⟩

end Piece

theorem wildcard_iff {pattern text : List Char} : wildcard pattern text = true ↔ Matches pattern text :=
  (Piece.matchAll_iff _ _).trans Piece.fits_parse

structure Seek where
  piece : Nat
  place : Nat
  held : Option (Nat × Nat)

inductive Turn where
  | goes (s : Seek)
  | answers (found : Bool)
  | outside

namespace Seek
open Piece

def start : Seek := ⟨0,0,none⟩

def resume (s : Seek) : Turn :=
  match s.held with
  | some (run,reach) => .goes ⟨run + 1,reach + 1,some (run,reach + 1)⟩
  | none => .answers false

def turn (ps : List Piece) (cs : List Char) (s : Seek) : Turn :=
  match cs[s.place]? with
  | some c =>
    match ps[s.piece]? with
    | some .many => .goes ⟨s.piece + 1,s.place,some (s.piece,s.place)⟩
    | some p => if p.takes c then .goes ⟨s.piece + 1,s.place + 1,s.held⟩ else s.resume
    | none => s.resume
  | none => if s.piece ≤ ps.length then .answers ((ps.drop s.piece).all (· == .many)) else .outside

def turns (ps : List Piece) (cs : List Char) : Nat → Seek → Turn
  | 0, s => .goes s
  | k + 1, s => match s.turn ps cs with
    | .goes s => turns ps cs k s
    | t => t

variable {ps : List Piece} {cs : List Char} {s t : Seek}

-- What every turn keeps. The question is the same for what is left; after a run, for the run
-- and what follows it, and the stretch up to the present piece is found right where the run ends.
inductive Sound (ps : List Piece) (cs : List Char) : Seek → Prop where
  | first {piece place : Nat} (within : piece ≤ ps.length ∧ place ≤ cs.length)
      (same : Fits ps cs ↔ Fits (ps.drop piece) (cs.drop place)) : Sound ps cs ⟨piece,place,none⟩
  | later {piece place run reach : Nat} {stretch : List Piece} (within : piece ≤ ps.length ∧ place ≤ cs.length)
      (behind : run < piece ∧ reach ≤ place) (plain : Runless stretch) (follows : ps.drop (run + 1) = stretch ++ ps.drop piece)
      (found : matchStart stretch (cs.drop reach) = some (cs.drop place))
      (same : Fits ps cs ↔ Fits (.many :: ps.drop (run + 1)) (cs.drop reach)) : Sound ps cs ⟨piece,place,some (run,reach)⟩

def left (ps : List Piece) (cs : List Char) (s : Seek) : Nat :=
  let (passed,reach) := s.held.elim (0,0) fun (run,reach) => (run + 1,reach)
  (ps.length - passed) + (cs.length - reach) * (cs.length + 1) + (cs.length - s.place)

theorem Sound.within (sound : Sound ps cs s) : s.piece ≤ ps.length ∧ s.place ≤ cs.length := by
  cases sound with
  | first within => exact within
  | later within => exact within

theorem sound_start : Sound ps cs start := .first ⟨Nat.zero_le _,Nat.zero_le _⟩ Iff.rfl

theorem drop_next {α : Type} {n : Nat} {a : α} {l : List α} (found : l[n]? = some a) : n < l.length ∧ l.drop n = a :: l.drop (n + 1) := by
  obtain ⟨inside,rfl⟩ := List.getElem?_eq_some_iff.mp found
  exact ⟨inside,List.drop_eq_getElem_cons inside⟩

namespace Sound
variable {c : Char} {p : Piece} (sound : Sound ps cs s)
include sound

theorem run (here : ps[s.piece]? = some .many) : Sound ps cs ⟨s.piece + 1,s.place,some (s.piece,s.place)⟩ := by
  obtain ⟨inside,next⟩ := drop_next here
  cases sound with
  | first within same =>
    exact .later ⟨inside,within.2⟩ ⟨Nat.lt_succ_self _,Nat.le_refl _⟩ List.not_mem_nil rfl rfl (next ▸ same)
  | later within behind plain follows found same =>
    refine .later ⟨inside,within.2⟩ ⟨Nat.lt_succ_self _,Nat.le_refl _⟩ List.not_mem_nil rfl rfl (same.trans ?_)
    rw [follows,next]
    exact fits_next plain found

theorem take (there : cs[s.place]? = some c) (here : ps[s.piece]? = some p) (takes : p.takes c = true) :
    Sound ps cs ⟨s.piece + 1,s.place + 1,s.held⟩ := by
  obtain ⟨inside,next⟩ := drop_next here
  obtain ⟨before,ahead⟩ := drop_next there
  have single : p ≠ .many := by
    rintro rfl
    cases takes
  cases sound with
  | first within same =>
    refine .first ⟨inside,before⟩ (same.trans ?_)
    rw [next,ahead,fits_cons single]
    simp [takes]
  | @later piece place run reach stretch within behind plain follows found same =>
    have plain' : Runless (stretch ++ [p]) := by simpa [Runless] using ⟨plain,single.symm⟩
    have found' : matchStart (stretch ++ [p]) (cs.drop reach) = some (cs.drop (place + 1)) := by
      rw [matchStart_append found,ahead,matchStart,if_pos takes]
      rfl
    exact .later ⟨inside,before⟩ ⟨Nat.lt_succ_of_lt behind.1,Nat.le_succ_of_le behind.2⟩ plain' (by rw [follows,next]; simp) found' same

theorem resume (there : cs[s.place]? = some c) (miss : ¬ Fits (ps.drop s.piece) (cs.drop s.place)) :
    (s.held = none → ¬ Fits ps cs) ∧
      ∀ run reach, s.held = some (run,reach) → Sound ps cs ⟨run + 1,reach + 1,some (run,reach + 1)⟩ := by
  obtain ⟨before,-⟩ := drop_next there
  cases sound with
  | first within same => exact ⟨fun _ fits => miss (same.mp fits),nofun⟩
  | @later piece place run reach stretch within behind plain follows found same =>
    refine ⟨nofun,fun _ _ held => ?_⟩
    cases held
    have inside : reach < cs.length := Nat.lt_of_le_of_lt behind.2 before
    have runs : run + 1 ≤ ps.length := Nat.le_trans behind.1 within.1
    refine .later ⟨runs,inside⟩ ⟨Nat.lt_succ_self _,Nat.le_refl _⟩ List.not_mem_nil rfl rfl (same.trans ?_)
    rw [List.drop_eq_getElem_cons inside]
    refine fits_skip fun fits => ?_
    rw [← List.drop_eq_getElem_cons inside,follows] at fits
    obtain ⟨rest,again,fits⟩ := (fits_stretch plain).mp fits
    cases found.symm.trans again
    exact miss fits

theorem finish (done : cs.drop s.place = []) : (ps.drop s.piece).all (· == .many) = true ↔ Fits ps cs := by
  rw [← fits_empty]
  cases sound with
  | first within same => rw [same,done]
  | @later piece place run reach stretch within behind plain follows found same =>
    rw [done] at found
    rw [same,follows]
    constructor
    · exact fun fits => ⟨cs.drop reach,List.suffix_rfl,(fits_stretch plain).mpr ⟨[],found,fits⟩⟩
    · intro fits
      obtain ⟨later,suffix,fits⟩ := fits_found plain found fits
      rwa [List.suffix_nil.mp suffix] at fits

theorem left_eq : ∃ passed reach, passed ≤ s.piece ∧ reach ≤ s.place ∧ (∀ run far, s.held = some (run,far) → passed = run + 1 ∧ reach = far) ∧
    s.left ps cs = (ps.length - passed) + (cs.length - reach) * (cs.length + 1) + (cs.length - s.place) := by
  cases sound with
  | first within same => exact ⟨0,0,Nat.zero_le _,Nat.zero_le _,nofun,rfl⟩
  | later within behind plain follows found same =>
    refine ⟨_,_,behind.1,behind.2,fun _ _ held => ?_,rfl⟩
    cases held
    exact ⟨rfl,rfl⟩

end Sound

end Seek

def Turn.Right (ps : List Piece) (cs : List Char) (left : Nat) : Turn → Prop
  | .goes s => s.Sound ps cs ∧ s.left ps cs < left
  | .answers found => found = true ↔ Piece.Fits ps cs
  | .outside => False

namespace Seek
open Piece
variable {ps : List Piece} {cs : List Char} {s : Seek}

theorem Sound.resumes (sound : Sound ps cs s) (there : cs[s.place]? = some c) (miss : ¬ Fits (ps.drop s.piece) (cs.drop s.place)) :
    s.resume.Right ps cs (s.left ps cs) := by
  obtain ⟨passed,reach,behind,upto,kept,size⟩ := sound.left_eq
  obtain ⟨none,some⟩ := sound.resume there miss
  have inside := (drop_next there).1
  unfold Seek.resume
  split
  · rename_i run far held
    obtain ⟨rfl,rfl⟩ := kept run far held
    refine ⟨some run reach held,?_⟩
    obtain ⟨more,enough⟩ : ∃ more, cs.length - reach = more + 1 ∧ cs.length - (reach + 1) = more := ⟨cs.length - (reach + 1),by omega,rfl⟩
    rw [size,enough.1]
    simp only [left,Option.elim,enough.2,Nat.succ_mul]
    omega
  · rename_i held
    exact ⟨nofun,fun fits => absurd fits (none held)⟩

theorem Sound.turn (sound : Sound ps cs s) : (s.turn ps cs).Right ps cs (s.left ps cs) := by
  obtain ⟨passed,reach,behind,upto,kept,size⟩ := sound.left_eq
  unfold Seek.turn
  split
  · rename_i c there
    obtain ⟨before,ahead⟩ := drop_next there
    split
    · rename_i here
      obtain ⟨inside,-⟩ := drop_next here
      refine ⟨sound.run here,?_⟩
      have nearer := Nat.mul_le_mul_right (cs.length + 1) (Nat.sub_le_sub_left upto cs.length)
      rw [size]
      simp only [left,Option.elim]
      omega
    · rename_i p single here
      split
      · rename_i takes
        refine ⟨sound.take there here takes,?_⟩
        have same : left ps cs ⟨s.piece + 1,s.place + 1,s.held⟩ + (cs.length - s.place) = s.left ps cs + (cs.length - (s.place + 1)) := by
          simp only [left]
          omega
        omega
      · rename_i differs
        refine sound.resumes there fun fits => ?_
        rw [(drop_next here).2,ahead,fits_cons single] at fits
        obtain ⟨d,rest,same,takes,-⟩ := fits
        cases same
        exact differs takes
    · rename_i ended
      refine sound.resumes there fun fits => ?_
      rw [List.drop_eq_nil_of_le (List.getElem?_eq_none_iff.mp ended),ahead] at fits
      cases fits
  · rename_i ended
    rw [if_pos sound.within.1]
    exact sound.finish (List.drop_eq_nil_of_le (List.getElem?_eq_none_iff.mp ended))

theorem Sound.turns (sound : Sound ps cs s) (enough : s.left ps cs < k) :
    ∃ found, s.turns ps cs k = .answers found ∧ (found = true ↔ Fits ps cs) := by
  induction k generalizing s with
  | zero => omega
  | succ k ih =>
    have right := sound.turn
    unfold Seek.turns
    cases next : s.turn ps cs with
    | goes t =>
      rw [next] at right
      exact ih right.1 (Nat.lt_of_lt_of_le right.2 (Nat.le_of_lt_succ enough))
    | answers found =>
      rw [next] at right
      exact ⟨found,rfl,right⟩
    | outside =>
      rw [next] at right
      exact right.elim

end Seek

-- A wildcard pattern matches just what it says, mark by mark. A search that goes through pattern and
-- text by positions, and goes back to no run but the last one, comes to the same answer; it always comes
-- to one, and never leaves the pattern.
theorem wildcard_exact (pattern text : List Char) : (wildcard pattern text = true ↔ Matches pattern text) ∧
    Seek.start.turns (Piece.parse pattern) text ((Piece.parse pattern).length + (text.length + 1) ^ 2) =
      .answers (wildcard pattern text) := by
  refine ⟨wildcard_iff,?_⟩
  have enough : Seek.start.left (Piece.parse pattern) text < (Piece.parse pattern).length + (text.length + 1) ^ 2 := by
    have square : (text.length + 1) ^ 2 = text.length * (text.length + 1) + (text.length + 1) := by rw [Nat.pow_two,Nat.succ_mul]
    simp only [Seek.left,Seek.start,Option.elim,Nat.sub_zero]
    omega
  obtain ⟨found,ends,right⟩ := Seek.sound_start.turns enough
  rw [ends,Bool.eq_iff_iff.mpr (right.trans (Piece.matchAll_iff _ _).symm)]
  rfl

end Recalc
