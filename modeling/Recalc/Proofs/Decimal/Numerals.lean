import Recalc.Proofs.Decimal.NotANumber
import Recalc.Proofs.Text.Lowercase
import Recalc.Proofs.Text.Splitting

namespace Recalc.Decimal
open Text (Basic)
variable {c : Char} {cs rest : List Char} {n : Float}

theorem toLower_digit (digit : c.isDigit = true) : c.toLower = c := by
  have digits : '0'.toNat = 48 ∧ '9'.toNat = 57 := by decide
  have bounds := Char.isDigit_iff_toNat.mp digit
  rcases Text.toLower_cases c with ⟨same,-⟩ | ⟨upper,-⟩
  · exact same
  · omega

theorem digits_lower (digits : ∀ c ∈ cs, c.isDigit = true) : cs.map Char.toLower = cs :=
  (List.map_congr_left fun c member => toLower_digit (digits c member)).trans (List.map_id _)

theorem toLower_power (c : Char) : (c.toLower = 'e' ∨ c.toLower = 'E') ↔ (c = 'e' ∨ c = 'E') := by
  have codes : 'e'.toNat = 101 ∧ 'E'.toNat = 69 := by decide
  rcases Text.toLower_cases c with ⟨same,-⟩ | ⟨upper,lowered⟩
  · rw [same]
  · simp only [← Char.toNat_inj,lowered]
    omega

theorem takeWhile_lower (cs : List Char) : (cs.map Char.toLower).takeWhile Char.isDigit = cs.takeWhile Char.isDigit := by
  have blind : Char.isDigit ∘ Char.toLower = Char.isDigit := funext Text.isDigit_toLower
  rw [List.takeWhile_map,blind]
  exact digits_lower (List.all_eq_true.mp List.all_takeWhile)

theorem splitSign_other (minus : c ≠ '-') (plus : c ≠ '+') : splitSign (c :: rest) = (false,c :: rest) := by
  unfold splitSign
  split
  · rename_i same
    cases same
    exact absurd rfl minus
  · rename_i same
    cases same
    exact absurd rfl plus
  · rfl

theorem splitSign_lower (cs : List Char) : splitSign (cs.map Char.toLower) = ((splitSign cs).1,(splitSign cs).2.map Char.toLower) := by
  cases cs with
  | nil => rfl
  | cons c rest =>
    by_cases minus : c = '-'
    · subst minus
      rfl
    · by_cases plus : c = '+'
      · subst plus
        rfl
      · rw [splitSign_other minus plus,List.map_cons,splitSign_other]
        · exact mt (Text.toLower_mark (by decide) (by decide)).mp minus
        · exact mt (Text.toLower_mark (by decide) (by decide)).mp plus

theorem exponentOf_lower (cs : List Char) : exponentOf (cs.map Char.toLower) = exponentOf cs := by
  cases cs with
  | nil => rfl
  | cons mark rest =>
    have blind : Char.isDigit ∘ Char.toLower = Char.isDigit := funext Text.isDigit_toLower
    unfold exponentOf
    simp only [List.map_cons,toLower_power,splitSign_lower,List.all_map,blind,ne_eq,List.map_eq_nil_iff]
    split
    · split
      · rename_i digits
        rw [digits_lower (List.all_eq_true.mp digits.2)]
      · rfl
    · rfl

def fraction : List Char → List Char × List Char
  | '.' :: rest => (rest.takeWhile Char.isDigit,rest.dropWhile Char.isDigit)
  | rest => ([],rest)

theorem unsigned_parts (cs : List Char) : unsigned cs =
    let whole := cs.takeWhile Char.isDigit
    let (decimals,rest) := fraction (cs.dropWhile Char.isDigit)
    if whole = [] ∧ decimals = [] then none
    else (exponentOf rest).map fun exponent => nearest (digitsValue (whole ++ decimals)) (exponent - decimals.length) := rfl

theorem fraction_other (point : c ≠ '.') : fraction (c :: rest) = ([],c :: rest) := by
  unfold fraction
  split
  · rename_i same
    cases same
    exact absurd rfl point
  · rfl

theorem fraction_lower (cs : List Char) : fraction (cs.map Char.toLower) = ((fraction cs).1,(fraction cs).2.map Char.toLower) := by
  cases cs with
  | nil => rfl
  | cons c rest =>
    by_cases point : c = '.'
    · subst point
      exact Prod.ext (takeWhile_lower rest) (Text.dropWhile_lower Text.isDigit_toLower rest)
    · rw [fraction_other point,List.map_cons,fraction_other]
      exact mt (Text.toLower_mark (by decide) (by decide)).mp point

theorem unsigned_lower (cs : List Char) : unsigned (cs.map Char.toLower) = unsigned cs := by
  simp only [unsigned_parts,takeWhile_lower,Text.dropWhile_lower Text.isDigit_toLower,fraction_lower,exponentOf_lower]

theorem number?_lower (cs : List Char) : number? (cs.map Char.toLower) = number? cs := by
  have twice : Char.toLower ∘ Char.toLower = Char.toLower := by
    funext c
    rcases Text.toLower_cases c with ⟨same,-⟩ | ⟨upper,lowered⟩
    · simp only [Function.comp,same]
    · rcases Text.toLower_cases c.toLower with ⟨same,-⟩ | ⟨upper',-⟩
      · exact same
      · omega
  unfold number?
  simp only [splitSign_lower,List.map_map,twice,unsigned_lower]

theorem basic_digit (digit : c.isDigit = true) : Basic c.toLower := by
  have digits : '0'.toNat = 48 ∧ '9'.toNat = 57 := by decide
  have bounds := Char.isDigit_iff_toNat.mp digit
  rw [toLower_digit digit]
  refine ⟨by omega,?_⟩
  rintro rfl
  exact absurd bounds (by decide)

theorem basic_power (power : c = 'e' ∨ c = 'E') : Basic c.toLower := by
  rcases power with rfl | rfl <;> exact ⟨by decide,by decide⟩

theorem splitSign_basic (basic : ∀ c ∈ (splitSign cs).2, Basic c.toLower) : ∀ c ∈ cs, Basic c.toLower := by
  unfold splitSign at basic
  split at basic
  · exact List.forall_mem_cons.mpr ⟨⟨by decide,by decide⟩,basic⟩
  · exact List.forall_mem_cons.mpr ⟨⟨by decide,by decide⟩,basic⟩
  · exact basic

theorem exponentOf_basic {e : Int} (found : exponentOf cs = some e) : ∀ c ∈ cs, Basic c.toLower := by
  cases cs with
  | nil => exact nofun
  | cons mark rest =>
    change (if mark = 'e' ∨ mark = 'E' then _ else none) = some e at found
    by_cases power : mark = 'e' ∨ mark = 'E'
    · rw [if_pos power] at found
      refine List.forall_mem_cons.mpr ⟨basic_power power,splitSign_basic fun c member => basic_digit ?_⟩
      by_cases digits : (splitSign rest).2 ≠ [] ∧ (splitSign rest).2.all Char.isDigit = true
      · exact List.all_eq_true.mp digits.2 c member
      · exact absurd (found.symm.trans (if_neg digits)) nofun
    · rw [if_neg power] at found
      cases found

theorem fraction_basic (basic : ∀ c ∈ (fraction cs).2, Basic c.toLower) : ∀ c ∈ cs, Basic c.toLower := by
  unfold fraction at basic
  split at basic
  · rename_i rest
    refine List.forall_mem_cons.mpr ⟨⟨by decide,by decide⟩,?_⟩
    rw [← List.takeWhile_append_dropWhile (p := Char.isDigit) (l := rest)]
    exact List.forall_mem_append.mpr ⟨fun c member => basic_digit (List.all_eq_true.mp List.all_takeWhile c member),basic⟩
  · exact basic

theorem unsigned_basic (found : unsigned cs = some n) : ∀ c ∈ cs, Basic c.toLower := by
  rw [unsigned_parts] at found
  dsimp only at found
  split at found
  · cases found
  · obtain ⟨e,read,-⟩ := Option.map_eq_some_iff.mp found
    have rest := fraction_basic (exponentOf_basic read)
    rw [← List.takeWhile_append_dropWhile (p := Char.isDigit) (l := cs)]
    exact List.forall_mem_append.mpr ⟨fun c member => basic_digit (List.all_eq_true.mp List.all_takeWhile c member),rest⟩

theorem unsigned_number (found : unsigned cs = some n) : n.isNaN = false := by
  rw [unsigned_parts] at found
  dsimp only at found
  split at found
  · cases found
  · obtain ⟨e,-,rfl⟩ := Option.map_eq_some_iff.mp found
    exact nearest_number _ _

def unmarked (body : List Char) : Option Float :=
  match String.ofList (body.map Char.toLower) with
  | "inf" => some (1.0 / 0.0)
  | "infinity" => some (1.0 / 0.0)
  | "nan" => some (0.0 / 0.0)
  | _ => unsigned body

theorem number?_parts (cs : List Char) :
    number? cs = (unmarked (splitSign cs).2).map fun x => if (splitSign cs).1 then -x else x := rfl

def notANumber : List Char := ['n','a','n']

theorem word_lower {word : String} (same : String.ofList (cs.map Char.toLower) = word) : cs.map Char.toLower = word.toList := by
  rw [← same,String.toList_ofList]

theorem word_basic {word : String} (same : String.ofList (cs.map Char.toLower) = word) (basic : ∀ c ∈ word.toList, Basic c) :
    ∀ c ∈ cs, Basic c.toLower :=
  fun _ member => basic _ (word_lower same ▸ List.mem_map_of_mem member)

theorem unmarked_basic (found : unmarked cs = some n) : ∀ c ∈ cs, Basic c.toLower := by
  unfold unmarked at found
  split at found
  · exact word_basic ‹_› (Text.each_of_all (by decide))
  · exact word_basic ‹_› (Text.each_of_all (by decide))
  · exact word_basic ‹_› (Text.each_of_all (by decide))
  · exact unsigned_basic found

theorem unmarked_nan (found : unmarked cs = some n) (nan : n.isNaN = true) : cs.map Char.toLower = notANumber := by
  unfold unmarked at found
  split at found
  · cases found
    exact absurd nan (by decide)
  · cases found
    exact absurd nan (by decide)
  · exact word_lower ‹_›
  · rw [unsigned_number found] at nan
    cases nan

theorem number?_basic (found : number? cs = some n) : ∀ c ∈ cs, Basic c.toLower := by
  rw [number?_parts] at found
  obtain ⟨x,read,-⟩ := Option.map_eq_some_iff.mp found
  exact splitSign_basic (unmarked_basic read)

theorem splitSign_cases (cs : List Char) : cs = '-' :: (splitSign cs).2 ∨ cs = '+' :: (splitSign cs).2 ∨ cs = (splitSign cs).2 := by
  unfold splitSign
  split
  · exact .inl rfl
  · exact .inr (.inl rfl)
  · exact .inr (.inr rfl)

-- Not-a-number is read just where it is spelled out, with or without a sign.
theorem number?_nan : (∃ n, number? cs = some n ∧ n.isNaN = true) ↔
    cs.map Char.toLower ∈ [notANumber,'+' :: notANumber,'-' :: notANumber] := by
  constructor
  · rintro ⟨n,found,nan⟩
    rw [number?_parts] at found
    obtain ⟨x,read,rfl⟩ := Option.map_eq_some_iff.mp found
    have spelled : (splitSign cs).2.map Char.toLower = notANumber := by
      refine unmarked_nan read ?_
      cases number : x.isNaN with
      | true => rfl
      | false =>
        split at nan
        · exact (neg_number x number).symm.trans nan
        · exact number.symm.trans nan
    rcases splitSign_cases cs with sign | sign | sign
    · rw [sign,List.map_cons,spelled]
      decide
    · rw [sign,List.map_cons,spelled]
      decide
    · rw [sign,spelled]
      decide
  · intro spelled
    rw [← number?_lower]
    simp only [List.mem_cons,List.not_mem_nil,or_false] at spelled
    rcases spelled with same | same | same
    all_goals
      rw [same]
      exact ⟨_,rfl,by decide⟩

end Recalc.Decimal
