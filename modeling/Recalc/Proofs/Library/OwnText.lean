import Recalc.Proofs.Library.Criteria
import Recalc.Proofs.Library.Wildcards

namespace Recalc

namespace Criterion

-- A text that a criterion takes as it stands: no sign before it, no mark of a pattern in it,
-- and not the name of a truth value or of an error value.
structure Ordinary (t : String) : Prop where
  filled : t ≠ ""
  trimmed : Text.trim t = t
  unmarked : ∀ c ∈ t.toList, c ∉ ['~','?','*']
  unsigned : ∀ sign ∈ ['<','>','='], t.toList.head? ≠ some sign
  unnamed : ∀ name ∈ "TRUE" :: "FALSE" :: ErrorValue.all.map ErrorValue.text, Text.sameIgnoringAsciiCase t name = false

theorem strip_unsigned {cs : List Char} (unsigned : ∀ sign ∈ ['<','>','='], cs.head? ≠ some sign) :
    Comparator.strip cs = (.equal,cs) := by
  unfold Comparator.strip
  split <;> first
    | rfl
    | exact absurd rfl (unsigned _ (by decide))

namespace Ordinary
variable {t : String} (ordinary : Ordinary t)
include ordinary

theorem kept : Text.trimBy Text.isBlank t.toList = t.toList := by
  conv => rhs; rw [← ordinary.trimmed]
  rw [Text.trim,String.toList_ofList]

theorem operand : parse t = (wanted t.toList).under .equal t.toList := by
  refine parse_wanted ?_
  rw [ordinary.kept]
  exact strip_unsigned ordinary.unsigned

theorem spelling (none : Decimal.number? t.toList = none) : wanted t.toList = .spelling := by
  have filled : t.toList ≠ [] := fun void => ordinary.filled (String.toList_eq_nil_iff.mp void)
  have noError : ErrorValue.parse t = Option.none := by
    refine Option.eq_none_iff_forall_ne_some.mpr fun e found => ?_
    have spells := ErrorValue.parse_spells found
    rw [ordinary.kept] at spells
    have named := ordinary.unnamed e.text (by simpa using .inr (.inr ⟨e,ErrorValue.mem_all e,rfl⟩))
    rw [Text.sameIgnoringAsciiCase,Text.asciiLower,Text.asciiLower,spells,beq_self_eq_true] at named
    cases named
  rw [wanted,if_neg filled,ordinary.kept,none,Option.elim_none,String.ofList_toList,worded,noError,
    ordinary.unnamed "TRUE" (by simp),ordinary.unnamed "FALSE" (by simp)]
  rfl

theorem plain : ∀ c ∈ Text.lower t.toList, c ∉ ['~','?','*'] := by
  intro c member mark
  have marks : ∀ c ∈ ['~','?','*'], Text.Basic c ∧ c ≠ 'i' ∧
      ¬ (97 ≤ c.toNat ∧ c.toNat ≤ 122) ∧ ¬ (65 ≤ c.toNat ∧ c.toNat ≤ 90) := Text.each_of_all (by decide)
  obtain ⟨basic,other,small,capital⟩ := marks c mark
  obtain ⟨d,original,lowered⟩ := List.mem_map.mp (Text.mem_lower member basic other)
  cases (Text.toLower_mark small capital).mp lowered
  exact ordinary.unmarked _ original mark

end Ordinary

end Criterion

theorem matches_itself {cs : List Char} (plain : ∀ c ∈ cs, c ∉ ['~','?','*']) : Matches cs cs := by
  induction cs with
  | nil => exact .nil
  | cons c cs ih =>
    obtain ⟨here,others⟩ := List.forall_mem_cons.mp plain
    exact .itself c here (ih others)

theorem Decimal.number?_recased {cs ds : List Char} {n : Float} (found : number? cs = some n)
    (trimmed : Text.trimBy Text.isBlank cs = cs) (same : Text.lower ds = Text.lower cs) :
    number? (Text.trimBy Text.isBlank ds) = some n := by
  have letters := Text.lower_same (number?_basic found) same
  rw [← number?_lower,← Text.trimBy_lower Text.isBlank_toLower,letters,Text.trimBy_lower Text.isBlank_toLower,trimmed,
    number?_lower,found]

-- An ordinary text as a criterion matches itself in any case, unless it spells what is no number: that is
-- equal to nothing.
theorem own_text {s t : String} (ordinary : Criterion.Ordinary t) (same : Text.lowercase s = Text.lowercase t) :
    (Criterion.ofValue (.text t)).holds (.text s) = true ↔ Text.asciiLower t ∉ ["nan","+nan","-nan"] := by
  have lowered : Text.lower s.toList = Text.lower t.toList := String.ofList_injective same
  have nan : Text.asciiLower t ∈ ["nan","+nan","-nan"] ↔ ∃ n, Decimal.number? t.toList = some n ∧ n.isNaN = true := by
    rw [Decimal.number?_nan]
    exact List.mem_map_of_injective (l := [Decimal.notANumber,'+' :: Decimal.notANumber,'-' :: Decimal.notANumber])
      fun _ _ => String.ofList_injective
  change (Criterion.parse t).holds (.text s) = true ↔ _
  rw [ordinary.operand,nan]
  cases read : Decimal.number? t.toList with
  | some n =>
    rw [Criterion.wanted_number.mpr ((congrArg Decimal.number? ordinary.kept).trans read)]
    change (Decimal.number? (Text.trimBy Text.isBlank s.toList)).any (· == n) = true ↔ _
    rw [Decimal.number?_recased read ordinary.kept lowered]
    simp [self_equal]
  | none =>
    rw [ordinary.spelling read]
    change wildcard (Text.lower t.toList) (Text.lower s.toList) = true ↔ _
    rw [lowered,wildcard_iff]
    simp [matches_itself ordinary.plain]

theorem own_text_recased : (Criterion.ofValue (.text "Apple")).holds (.text "APPLE") = true := by
  have ordinary : Criterion.Ordinary "Apple" := ⟨by decide,by decide,Text.each_of_all (by decide),Text.each_of_all (by decide),by decide⟩
  exact (own_text ordinary (by decide +kernel)).mpr (by decide)

theorem own_text_missed : Criterion.Ordinary "nan" ∧ (Criterion.ofValue (.text "nan")).holds (.text "nan") = false :=
  ⟨⟨by decide,by decide,Text.each_of_all (by decide),Text.each_of_all (by decide),by decide⟩,by decide⟩

end Recalc
