import Recalc.Decimal.Binary
import Recalc.Proofs.Decimal.NumberLine

namespace Recalc
open Float.Model
open UnpackedFloat (Sign ExtendedMantissa packComponents shiftToTargetExponent roundWithAccuracy)

namespace Decimal

def Binary.ofParts : UnpackedFloat → Binary
  | .notANumber => .nan
  | .infinity s => .infinite (s == .negative)
  | .zero s => .finite (s == .negative) 0 (-1074)
  | .finite s m e _ => .finite (s == .negative) m e

section
variable (b : BitVec Format.binary64.numBits)

theorem mantissa_bits : (UnpackedFloat.unpackMantissa b).toNat = b.toNat % Nat.pow 2 52 := by
  simp [UnpackedFloat.unpackMantissa]

theorem exponent_bits : (UnpackedFloat.unpackExponent b).toNat = b.toNat / Nat.pow 2 52 % 2048 := by
  simp [UnpackedFloat.unpackExponent,Nat.shiftRight_eq_div_pow]

theorem sign_bits : (Sign.ofBitVec (UnpackedFloat.unpackSign b) == .negative) = (b.toNat / Nat.pow 2 63 % 2 == 1) := by
  have bit : (UnpackedFloat.unpackSign b).toNat = b.toNat / Nat.pow 2 63 % 2 := by
    simp [UnpackedFloat.unpackSign,Nat.shiftRight_eq_div_pow]
  unfold Sign.ofBitVec
  rw [← bit]
  split
  · rename_i positive
    rw [positive]
    rfl
  · rename_i negative
    have one : (UnpackedFloat.unpackSign b).toNat = 1 := by
      have below := (UnpackedFloat.unpackSign b).isLt
      have some : (UnpackedFloat.unpackSign b).toNat ≠ 0 := fun none => negative (BitVec.eq_of_toNat_eq none)
      omega
    rw [one]
    rfl

theorem filled_bits {width : Nat} (m : BitVec width) : (BitVec.ofNat 1 1 ++ m).toNat = m.toNat + Nat.pow 2 width := by
  rw [BitVec.toNat_append,← Nat.shiftLeft_add_eq_or_of_lt m.isLt]
  simp [Nat.shiftLeft_eq,Nat.add_comm]

theorem ofParts_unpack : Binary.ofParts (UnpackedFloat.unpack .binary64 b) =
    let negative := b.toNat / Nat.pow 2 63 % 2 == 1
    let exponent : Nat := b.toNat / Nat.pow 2 52 % 2048
    let fraction : Nat := b.toNat % Nat.pow 2 52
    if exponent = 2047 then if fraction = 0 then .infinite negative else .nan
    else if exponent = 0 then .finite negative fraction (-1074)
    else .finite negative (fraction + Nat.pow 2 52) ((exponent : Int) - 1075) := by
  have full : UnpackedFloat.unpackExponent b = -BitVec.ofNat _ 1 ↔ (UnpackedFloat.unpackExponent b).toNat = 2047 := BitVec.toNat_inj.symm
  have least : UnpackedFloat.unpackExponent b = BitVec.ofNat _ 0 ↔ (UnpackedFloat.unpackExponent b).toNat = 0 := BitVec.toNat_inj.symm
  have void : UnpackedFloat.unpackMantissa b = BitVec.ofNat _ 0 ↔ (UnpackedFloat.unpackMantissa b).toNat = 0 := BitVec.toNat_inj.symm
  rw [← mantissa_bits,← exponent_bits,← sign_bits]
  unfold UnpackedFloat.unpack
  dsimp only
  split
  · rename_i most
    rw [if_pos (full.mp most)]
    split
    · rename_i zero
      rw [if_pos (void.mp zero)]
      rfl
    · rename_i some
      rw [if_neg (mt void.mpr some)]
      rfl
  · rename_i less
    rw [if_neg (mt full.mpr less)]
    split
    · rename_i zero
      rw [if_pos (least.mp zero)]
      split
      · rename_i none
        rw [void.mp none]
        rfl
      · simp only [Binary.ofParts,least.mp zero]
        rfl
    · rename_i more
      rw [if_neg (mt least.mpr more)]
      simp only [Binary.ofParts]
      rw [filled_bits]
      rfl

end

theorem ofFloat_parts (x : Float) : Binary.ofFloat x = Binary.ofParts (numberParts x) := (ofParts_unpack x.toModel.toBits.toBitVec).symm

end Decimal

section
variable {s : Sign} {m : Nat} {e : Int}

theorem sign_packed {spec : Format} {c : BitVec spec.exponentBits} {f : BitVec spec.mantissaBitsWithoutImplicit} :
    Sign.ofBitVec (UnpackedFloat.unpackSign (packComponents spec s c f)) = s := by
  have bit : UnpackedFloat.unpackSign (packComponents spec s c f) = s.toBitVec := by
    ext i small
    obtain rfl : i = 0 := by omega
    simp [UnpackedFloat.unpackSign,packComponents,BitVec.getLsbD_eq_getElem,BitVec.getLsbD_append,BitVec.getElem_append]
  rw [bit]
  cases s <;> rfl

theorem pack_full {positive : 0 < m} (size : m.log2 = 52) (low : -1074 ≤ e) (high : e ≤ 971) :
    (pack (.finite s m e positive)).unpack = .finite s m e positive := by
  change UnpackedFloat.unpack .binary64 (UnpackedFloat.pack .binary64 _) = _
  have bias : (e + Format.binary64.exponentBias + Format.binary64.mantissaBitsWithoutImplicit).toNat = (e + 1075).toNat := by
    rw [Int.add_assoc]
    rfl
  have below : (e + 1075).toNat < 2047 := by omega
  have above : 0 < (e + 1075).toNat := by omega
  unfold UnpackedFloat.pack
  dsimp only
  rw [bias,if_neg (by change ¬ 2048 ≤ _; omega),if_pos (by rw [size]; rfl)]
  have exponent : (BitVec.ofNat 11 (e + 1075).toNat).toNat = (e + 1075).toNat := Nat.mod_eq_of_lt (by omega)
  have mantissa : (BitVec.ofNat 1 1 ++ BitVec.ofNat 52 m).toNat = m := by
    have least := Nat.log2_self_le (Nat.pos_iff_ne_zero.mp positive)
    have most := Nat.lt_log2_self (n := m)
    rw [size] at least most
    rw [Decimal.filled_bits,BitVec.toNat_ofNat]
    change m % 2 ^ 52 + 2 ^ 52 = m
    omega
  have ordinary (c : BitVec 11) (same : BitVec.ofNat 11 (e + 1075).toNat = c) : c.toNat = (e + 1075).toNat := by rw [← same,exponent]
  unfold UnpackedFloat.unpack
  simp only [UnpackedFloat.unpackExponent_packComponents,UnpackedFloat.unpackMantissa_packComponents,sign_packed]
  rw [if_neg fun full => absurd (ordinary _ full) (by change ¬ 2047 = _; omega),
    if_neg fun least => absurd (ordinary _ least) (by change ¬ 0 = _; omega)]
  have offset : ((Format.binary64.exponentBias : Nat) : Int) + ((52 : Nat) : Int) = 1075 := rfl
  have back : ((e + 1075).toNat : Int) - 1075 = e := by omega
  simp only [mantissa,exponent,offset,back]

theorem target_eq (total : Int) : Format.binary64.targetExponent total = max (total - 53) (-1074) := rfl

theorem shifted_out (m k : Nat) : k.repeat ExtendedMantissa.shiftRightOne ⟨m * 2 ^ k,false,false⟩ = ⟨m,false,false⟩ := by
  induction k generalizing m with
  | zero => simp [Nat.repeat]
  | succ k ih =>
    change ExtendedMantissa.shiftRightOne (k.repeat ExtendedMantissa.shiftRightOne ⟨m * 2 ^ (k + 1),false,false⟩) = _
    rw [Nat.pow_succ,Nat.mul_comm (2 ^ k),← Nat.mul_assoc,ih]
    simp [ExtendedMantissa.shiftRightOne]

theorem log2_shifted (some : m ≠ 0) (k : Nat) : (m * 2 ^ k).log2 = m.log2 + k := by
  induction k with
  | zero => simp
  | succ k ih =>
    have filled : m * 2 ^ k ≠ 0 := Nat.mul_ne_zero some (Nat.pos_iff_ne_zero.mp (Nat.two_pow_pos k))
    rw [Nat.pow_succ,← Nat.mul_assoc,Nat.mul_comm _ 2,Nat.log2_two_mul filled,ih]
    rfl

theorem shift_full (positive : 0 < m) (size : m.log2 = 52) (low : -1074 ≤ e) (k : Nat) :
    shiftToTargetExponent .binary64 (m * 2 ^ k) (e - k) .exact = (⟨m,false,false⟩,e) := by
  have target : Format.binary64.targetExponent (totalExponent (m * 2 ^ k) (e - k)) = e := by
    rw [totalExponent,log2_shifted (Nat.pos_iff_ne_zero.mp positive),size,target_eq]
    omega
  have shift : (e - (e - k)).toNat = k := by omega
  have back : e - k + k = e := by omega
  unfold shiftToTargetExponent
  dsimp only
  rw [target]
  unfold UnpackedFloat.shiftToExponent
  dsimp only
  rw [shift,back]
  exact congrArg (·,e) (shifted_out m k)

theorem round_full (positive : 0 < m) (size : m.log2 = 52) (low : -1074 ≤ e) (k : Nat) :
    roundWithAccuracy .binary64 s (m * 2 ^ k) (e - k) .exact = .finite s m e positive := by
  have again := shift_full positive size low 0
  simp only [Nat.pow_zero,Nat.mul_one,Int.ofNat_zero,Int.sub_zero] at again
  have kept : ExtendedMantissa.roundedMantissa ⟨m,false,false⟩ = m := rfl
  unfold roundWithAccuracy
  rw [shift_full positive size low k]
  dsimp only
  rw [kept,again]
  exact dif_neg (Nat.pos_iff_ne_zero.mp positive)

end

-- Up to here a double counts one by one.
def countLimit : Nat := 2 ^ 53

def countParts (n : Nat) (some : 0 < n) : UnpackedFloat :=
  .finite .positive (n * 2 ^ (52 - n.log2)) (n.log2 - 52) (Nat.mul_pos some (Nat.two_pow_pos _))

section
variable {n : Nat} (some : 0 < n) (exact : n < countLimit)
include some exact

theorem count_size : n.log2 ≤ 52 :=
  Nat.le_of_lt_succ ((Nat.log2_lt (Nat.pos_iff_ne_zero.mp some)).mpr exact)

theorem filled_size : (n * 2 ^ (52 - n.log2)).log2 = 52 := by
  rw [log2_shifted (Nat.pos_iff_ne_zero.mp some)]
  exact Nat.add_sub_cancel' (count_size some exact)

theorem count_packed : (pack (countParts n some)).unpack = countParts n some := by
  have small := count_size some exact
  exact pack_full (filled_size some exact) (by omega) (by omega)

theorem count_round (k : Nat) : roundWithAccuracy .binary64 .positive (n * 2 ^ (52 - n.log2) * 2 ^ k) (n.log2 - 52 - k) .exact =
    countParts n some :=
  round_full _ (filled_size some exact) (by omega) k

theorem integer_parts : UnpackedFloat.ofNat .binary64 n = countParts n some := by
  have small := count_size some exact
  have above : compare (n : Int) 0 = .gt := Int.compare_eq_gt.mpr (Int.natCast_pos.mpr some)
  have target : Format.binary64.targetExponent (totalExponent n 0) = n.log2 - 52 := by
    rw [totalExponent,target_eq]
    omega
  have shift : (0 - ((n.log2 : Int) - 52)).toNat = 52 - n.log2 := by omega
  have down : (0 : Int) - ((52 - n.log2 : Nat) : Int) = n.log2 - 52 := by omega
  change UnpackedFloat.normalize .binary64 (n : Int) 0 .positive = _
  unfold UnpackedFloat.normalize
  rw [above]
  dsimp only
  unfold UnpackedFloat.round UnpackedFloat.decreaseExponent
  dsimp only
  rw [Int.toNat_natCast,target,shift,down,Nat.shiftLeft_eq]
  simpa using count_round some exact 0

-- The product with 1 that a literal is made by changes nothing.
theorem counted_parts : numberParts (Float.ofNat n) = countParts n some := by
  have integer : numberParts n.toUInt64.toFloat = countParts n some := by
    have kept : n.toUInt64.toNat = n := Nat.mod_eq_of_lt (Nat.lt_trans exact (by decide))
    change (pack (UnpackedFloat.ofNat .binary64 n.toUInt64.toNat)).unpack = _
    rw [kept,integer_parts some exact,count_packed some exact]
  have one : numberParts (Float.exactlyRepresentablePowersOfTen[0]) = .finite .positive (2 ^ 52) (-52) (by decide) := by rfl
  have product : Float.ofNat n = n.toUInt64.toFloat * Float.exactlyRepresentablePowersOfTen[0] := dif_pos ⟨exact,Nat.zero_le _⟩
  rw [product]
  change (pack (UnpackedFloat.mul .binary64 (numberParts _) (numberParts _))).unpack = _
  rw [integer,one]
  change (pack (roundWithAccuracy .binary64 .positive _ (n.log2 - 52 - (52 : Nat)) .exact)).unpack = _
  rw [count_round some exact,count_packed some exact]

theorem counted_number : (Float.ofNat n).isFinite = true := by
  change (numberParts (Float.ofNat n)).isFinite = true
  rw [counted_parts some exact]
  rfl

theorem counted_back : Decimal.toCount (Float.ofNat n) = n := by
  have small := count_size some exact
  unfold Decimal.toCount Decimal.toInt
  rw [Decimal.ofFloat_parts,counted_parts some exact]
  change Int.toNat (Decimal.wholeMagnitude _ _ : Int) = n
  rw [Int.toNat_natCast]
  unfold Decimal.wholeMagnitude
  split
  · rename_i whole
    have last : n.log2 = 52 := by omega
    simp [last]
  · have down : (-((n.log2 : Int) - 52)).toNat = 52 - n.log2 := by omega
    rw [down]
    exact Nat.mul_div_cancel n (Nat.two_pow_pos _)

theorem counted_above : ¬ Float.ofNat n ≤ -1.0 := by
  have number := finite_number (counted_number some exact)
  have other : (-1.0 : Float).isNaN = false := by decide
  have parts : numberParts (-1.0) = .finite .negative (2 ^ 52) (-52) (by decide) := by rfl
  rw [atMost_line number other,counted_parts some exact,parts]
  exact Bool.eq_false_iff.mp rfl

end

theorem Decimal.ofFloat_full {x : Float} {s : Bool} {m : Nat} {e : Int} (parts : Binary.ofFloat x = .finite s m e) :
    e = -1074 ∨ 2 ^ 52 ≤ m := by
  unfold Binary.ofFloat at parts
  dsimp only at parts
  split at parts
  · split at parts <;> cases parts
  · split at parts
    · cases parts
      exact .inl rfl
    · cases parts
      exact .inr (Nat.le_add_left _ _)

theorem counts_one {x : Float} (finite : x.isFinite = true) (one : 1.0 ≤ x) : 1 ≤ Decimal.toCount x := by
  have unit : numberParts 1.0 = .finite .positive (2 ^ 52) (-52) (by decide) := by rfl
  have first : (1.0 : Float).isNaN = false := by decide
  rw [atMost_line first (finite_number finite),unit] at one
  change (numberParts x).isFinite = true at finite
  have parts := Decimal.ofFloat_parts x
  unfold Decimal.toCount Decimal.toInt
  rw [parts]
  cases shown : numberParts x with
  | finite s m e positive =>
    rw [shown] at one parts
    have full := Decimal.ofFloat_full parts
    cases s with
    | negative => cases one
    | positive =>
      change ((compare (-52) e).then (compare ((2 ^ 52 : Nat) : Int) (m : Int))).isLE = true at one
      change 1 ≤ Int.toNat (Decimal.wholeMagnitude m e : Int)
      rw [Int.toNat_natCast]
      have least : -52 ≤ e := Int.compare_ne_gt.mp fun more => by simp [more] at one
      have filled : 2 ^ 52 ≤ m := full.resolve_left (by omega)
      unfold Decimal.wholeMagnitude
      split
      · exact Nat.mul_pos positive (Nat.two_pow_pos _)
      · exact (Nat.one_le_div_iff (Nat.two_pow_pos _)).mpr (Nat.le_trans (Nat.pow_le_pow_right (by decide) (by omega)) filled)
  | zero s =>
    rw [shown] at one
    cases s <;> cases one
  | _ =>
    rw [shown] at finite
    cases finite

end Recalc
