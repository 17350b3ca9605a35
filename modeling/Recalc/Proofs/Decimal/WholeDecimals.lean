import Recalc.Decimal.Scaled
import Recalc.Proofs.Decimal.Counts

namespace Recalc
open Float.Model
open UnpackedFloat (Sign)

section
variable {n : Nat} (some : 0 < n) (exact : n < countLimit)
include some exact

theorem negated_parts : numberParts (-Float.ofNat n) =
    .finite .negative (n * 2 ^ (52 - n.log2)) (n.log2 - 52) (Nat.mul_pos some (Nat.two_pow_pos _)) := by
  have small := count_size some exact
  change (pack (UnpackedFloat.neg (numberParts (Float.ofNat n)))).unpack = _
  rw [counted_parts some exact]
  exact pack_full (filled_size some exact) (by omega) (by omega)

end

namespace Decimal
variable {n p d : Nat}

theorem ofFloat_ofInt (n : Int) (some : n ≠ 0) (exact : n.natAbs < countLimit) : Binary.ofFloat (Float.ofInt n) =
    .finite (decide (n < 0)) (n.natAbs * 2 ^ (52 - n.natAbs.log2)) (n.natAbs.log2 - 52) := by
  rw [ofFloat_parts]
  cases n with
  | ofNat k =>
    have positive : 0 < k := Nat.pos_of_ne_zero fun none => some (by rw [none]; rfl)
    change Binary.ofParts (numberParts (Float.ofNat k)) = _
    rw [counted_parts positive exact]
    rfl
  | negSucc k =>
    change Binary.ofParts (numberParts (-Float.ofNat (k + 1))) = _
    rw [negated_parts (Nat.succ_pos k) exact,decide_eq_true (Int.negSucc_lt_zero k)]
    rfl

section
variable (size : n.log2 ≤ 52)
include size

theorem gridScale_whole (p : Nat) : gridScale (n.log2 - 52) p = 10 ^ p * (4 * 2 ^ (52 - n.log2)) := by
  have shift : (2 - ((n.log2 : Int) - 52)).toNat = 2 + (52 - n.log2) := by omega
  unfold gridScale
  rw [shift,Int.toNat_natCast,Nat.pow_eq,Nat.pow_eq,Nat.pow_add]

theorem unitScale_whole (p : Nat) : unitScale (n.log2 - 52) p = 1 := by
  have none : ((n.log2 : Int) - 52 - 2).toNat = 0 := by omega
  have down : (-(p : Int)).toNat = 0 := by omega
  unfold unitScale
  rw [none,down]

-- The numbers that round to a whole number reach less than a quarter of the grid on either side of it.
theorem reaches_whole (p d : Nat) : (Interval.around (n * 2 ^ (52 - n.log2)) (n.log2 - 52)).reaches (n.log2 - 52) p d = true ↔
    d * 10 ^ p = n := by
  have unit : 0 < 2 ^ (52 - n.log2) := Nat.two_pow_pos _
  have gap : (if n * 2 ^ (52 - n.log2) = Nat.pow 2 52 ∧ (n.log2 : Int) - 52 > -1074 then 1 else 2) = 1 ∨
      (if n * 2 ^ (52 - n.log2) = Nat.pow 2 52 ∧ (n.log2 : Int) - 52 > -1074 then 1 else 2) = 2 := by
    split <;> simp
  have scaled : d * (10 ^ p * (4 * 2 ^ (52 - n.log2))) = 4 * (d * 10 ^ p * 2 ^ (52 - n.log2)) := by
    rw [← Nat.mul_assoc,Nat.mul_left_comm]
  unfold Interval.reaches Interval.around
  dsimp only
  rw [gridScale_whole size,unitScale_whole size,Nat.mul_one,Nat.mul_one,scaled]
  generalize (if n * 2 ^ (52 - n.log2) = Nat.pow 2 52 ∧ (n.log2 : Int) - 52 > -1074 then 1 else 2) = gap at gap ⊢
  generalize d * 10 ^ p = a
  generalize 2 ^ (52 - n.log2) = u at unit ⊢
  have below : a < n → a * u + u ≤ n * u := fun less => by rw [← Nat.succ_mul]; exact Nat.mul_le_mul_right u less
  have above : n < a → n * u + u ≤ a * u := fun more => by rw [← Nat.succ_mul]; exact Nat.mul_le_mul_right u more
  have same : a = n → a * u = n * u := fun same => by rw [same]
  have some : 0 < n → 0 < n * u := fun some => Nat.mul_pos some unit
  generalize n * u = w at *
  generalize a * u = v at *
  split
  · simp only [Bool.and_eq_true,decide_eq_true_eq]
    omega
  · rename_i odd
    rw [beq_iff_eq] at odd
    simp only [Bool.and_eq_true,decide_eq_true_eq]
    omega

theorem onGrid_whole (p : Nat) : onGrid (n * 2 ^ (52 - n.log2)) (n.log2 - 52) p =
    if 10 ^ p ∣ n then some (n / 10 ^ p) else none := by
  have reaches := reaches_whole size p
  have value : (Interval.around (n * 2 ^ (52 - n.log2)) (n.log2 - 52)).value * unitScale (n.log2 - 52) p /
      gridScale (n.log2 - 52) p = n / 10 ^ p := by
    have unit : 0 < 4 * 2 ^ (52 - n.log2) := Nat.mul_pos (by decide) (Nat.two_pow_pos _)
    have filled : (Interval.around (n * 2 ^ (52 - n.log2)) (n.log2 - 52)).value = n * (4 * 2 ^ (52 - n.log2)) := Nat.mul_left_comm 4 n _
    rw [filled,unitScale_whole size,gridScale_whole size,Nat.mul_one,Nat.mul_div_mul_right _ _ unit]
  have down : n / 10 ^ p * 10 ^ p = n ↔ 10 ^ p ∣ n := ⟨fun same => ⟨n / 10 ^ p,by rw [Nat.mul_comm]; exact same.symm⟩,Nat.div_mul_cancel⟩
  have up : (n / 10 ^ p + 1) * 10 ^ p ≠ n := by
    have beyond := Nat.lt_mul_div_succ n (Nat.pow_pos (a := 10) (n := p) (by decide))
    rw [Nat.mul_comm]
    omega
  unfold onGrid
  dsimp only
  rw [value]
  have upFits := Bool.eq_false_iff.mpr (mt (reaches (n / 10 ^ p + 1)).mp up)
  rw [upFits]
  by_cases whole : 10 ^ p ∣ n
  · rw [(reaches (n / 10 ^ p)).mpr (down.mpr whole),if_pos whole]
    rfl
  · rw [Bool.eq_false_iff.mpr (mt (reaches (n / 10 ^ p)).mp (mt down.mp whole)),if_neg whole]
    rfl

end

theorem guess_bounds : ∀ l : Fin 53, 0 ≤ Int.fdiv ((l : Int) * 30103) 100000 ∧ Int.fdiv ((l : Int) * 30103) 100000 ≤ 15 ∧
    2 ^ (l.val + 1) ≤ 10 ^ (Int.fdiv ((l : Int) * 30103) 100000 + 2).toNat := by decide

theorem magnitude_whole (some : 0 < n) (size : n.log2 ≤ 52) :
    1 ≤ magnitude (n * 2 ^ (52 - n.log2)) (n.log2 - 52) ∧ magnitude (n * 2 ^ (52 - n.log2)) (n.log2 - 52) ≤ 17 := by
  have filled : (n * 2 ^ (52 - n.log2)).log2 = 52 := by
    rw [log2_shifted (Nat.pos_iff_ne_zero.mp some)]
    omega
  obtain ⟨low,high,enough⟩ := guess_bounds ⟨n.log2,by omega⟩
  dsimp only at low high enough
  unfold magnitude
  dsimp only
  rw [filled,show ((52 : Nat) : Int) + (n.log2 - 52) = n.log2 by omega]
  have raised : ((n.log2 : Int) - 52).toNat = 0 := by omega
  have lowered : (-((n.log2 : Int) - 52)).toNat = 52 - n.log2 := by omega
  generalize Int.fdiv ((n.log2 : Int) * 30103) 100000 = guess at *
  have unit : 0 < 2 ^ (52 - n.log2) := Nat.two_pow_pos _
  rw [raised,lowered]
  simp only [Nat.pow_eq,Nat.pow_zero,Nat.mul_one]
  generalize seen : List.find? _ _ = found
  cases found with
  | some top =>
    obtain ⟨above,-⟩ := List.find?_eq_some_iff_append.mp seen
    have listed := List.mem_of_find?_eq_some seen
    simp only [List.mem_cons,List.not_mem_nil,or_false] at listed
    have above := of_decide_eq_true above
    refine ⟨?_,by rw [Option.getD_some]; omega⟩
    by_contra less
    have none : top.toNat = 0 := by simp at less; omega
    rw [none,Nat.pow_zero,Nat.one_mul] at above
    have whole : 2 ^ (52 - n.log2) ≤ n * 2 ^ (52 - n.log2) * 10 ^ (-top).toNat :=
      Nat.le_trans (Nat.le_mul_of_pos_left _ some) (Nat.le_mul_of_pos_right _ (Nat.pow_pos (by decide)))
    omega
  | none =>
    have last := List.find?_eq_none.mp seen (guess + 2) (by simp)
    have below : (-(guess + 2)).toNat = 0 := by omega
    rw [below,Nat.pow_zero,Nat.mul_one,decide_eq_true_eq,Nat.mul_lt_mul_right unit] at last
    exact absurd (Nat.lt_of_lt_of_le Nat.lt_log2_self enough) last

-- The first place with a number on its grid is not below the point, for there is one at the point.
theorem found_whole (top : Nat) (some : 1 ≤ top) (few : top ≤ 17) (size : n.log2 ≤ 52) : ∃ p : Nat, 10 ^ p ∣ n ∧
    ((List.range 17).findSome? fun k => (onGrid (n * 2 ^ (52 - n.log2)) (n.log2 - 52) ((top : Int) - (k + 1 : Nat))).map
      fun d => (⟨d,(top : Int) - (k + 1 : Nat)⟩ : Digits)) = .some ⟨n / 10 ^ p,p⟩ := by
  generalize made : (fun k => (onGrid (n * 2 ^ (52 - n.log2)) (n.log2 - 52) ((top : Int) - (k + 1 : Nat))).map
    fun d => (⟨d,(top : Int) - (k + 1 : Nat)⟩ : Digits)) = f
  have above {k : Nat} (early : k < top) : f k = if 10 ^ (top - 1 - k) ∣ n then
      .some ⟨n / 10 ^ (top - 1 - k),(top - 1 - k : Nat)⟩ else none := by
    have place : (top : Int) - (k + 1 : Nat) = (top - 1 - k : Nat) := by omega
    rw [← made]
    dsimp only
    rw [place,onGrid_whole size]
    split <;> rfl
  have point : f (top - 1) ≠ none := by simp [above (show top - 1 < top by omega)]
  cases seen : (List.range 17).findSome? f with
  | none => exact absurd (List.findSome?_eq_none_iff.mp seen (top - 1) (List.mem_range.mpr (by omega))) point
  | some r =>
    obtain ⟨before,k,after,split,hit,missed⟩ := List.findSome?_eq_some_iff.mp seen
    -- What lies before the place in the list are the places above it.
    rw [List.range_eq_range',List.range'_eq_append_iff] at split
    obtain ⟨i,-,rfl,rest⟩ := split
    obtain ⟨first,-⟩ := List.range'_eq_cons_iff.mp rest.symm
    have early : k < top := by
      by_contra late
      exact point (missed (top - 1) (List.mem_range'_1.mpr (by omega)))
    rw [above early] at hit
    split at hit
    · rename_i whole
      exact ⟨top - 1 - k,whole,hit.symm⟩
    · cases hit

theorem dropZeros_whole (steps : Nat) (d : Digits) (whole : 0 ≤ d.exponent) : 0 ≤ (dropZeros steps d).exponent ∧
    (dropZeros steps d).digits * 10 ^ (dropZeros steps d).exponent.toNat = d.digits * 10 ^ d.exponent.toNat := by
  induction steps generalizing d with
  | zero => exact ⟨whole,rfl⟩
  | succ steps ih =>
    unfold dropZeros
    split
    · rename_i zero
      obtain ⟨still,same⟩ := ih ⟨d.digits / 10,d.exponent + 1⟩ (by dsimp only; omega)
      refine ⟨still,same.trans ?_⟩
      have next : (d.exponent + 1).toNat = d.exponent.toNat + 1 := by omega
      dsimp only
      rw [next,Nat.pow_succ,Nat.mul_comm _ 10,← Nat.mul_assoc,Nat.div_mul_cancel (Nat.dvd_of_mod_eq_zero zero.1)]
    · exact ⟨whole,rfl⟩

theorem shortest_whole (some : 0 < n) (size : n.log2 ≤ 52) :
    0 ≤ (shortest (n * 2 ^ (52 - n.log2)) (n.log2 - 52)).exponent ∧
    (shortest (n * 2 ^ (52 - n.log2)) (n.log2 - 52)).digits *
      10 ^ (shortest (n * 2 ^ (52 - n.log2)) (n.log2 - 52)).exponent.toNat = n := by
  obtain ⟨low,high⟩ := magnitude_whole some size
  obtain ⟨top,taken⟩ := Int.eq_ofNat_of_zero_le (by omega : 0 ≤ magnitude (n * 2 ^ (52 - n.log2)) (n.log2 - 52))
  obtain ⟨p,whole,found⟩ := found_whole top (by omega) (by omega) size
  have filled : n * 2 ^ (52 - n.log2) ≠ 0 := Nat.pos_iff_ne_zero.mp (Nat.mul_pos some (Nat.two_pow_pos _))
  unfold shortest
  rw [if_neg filled]
  dsimp only
  rw [taken,found,Option.getD_some]
  obtain ⟨still,same⟩ := dropZeros_whole 20 ⟨n / 10 ^ p,p⟩ (Int.natCast_nonneg p)
  exact ⟨still,same.trans (by rw [Int.toNat_natCast]; exact Nat.div_mul_cancel whole)⟩

theorem scaled_whole (n : Int) (exact : n.natAbs < countLimit) :
    Scaled.ofFloat (Float.ofInt n) = some ⟨decide (n < 0),n.natAbs,0⟩ := by
  by_cases none : n = 0
  · subst none
    decide
  · have some : 0 < n.natAbs := Int.natAbs_pos.mpr none
    obtain ⟨whole,same⟩ := shortest_whole some (count_size some exact)
    unfold Scaled.ofFloat
    rw [ofFloat_ofInt n none exact]
    dsimp only
    rw [if_pos whole,Nat.pow_eq,same,if_pos (Nat.lt_trans exact (by decide))]

end Decimal
end Recalc
