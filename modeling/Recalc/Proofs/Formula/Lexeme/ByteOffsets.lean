import Recalc.Proofs.Formula.Compile.Guards
import Recalc.Proofs.Text.Lowercase

namespace Recalc.Lexeme

variable {cs before after : List Char} {offset : Nat} {name : String}

theorem bytes_after (cs : List Char) (n : Nat) : cs.foldl (fun size c => size + c.utf8Size) n = n + bytes cs := by
  induction cs generalizing n with
  | nil => rfl
  | cons c cs ih =>
    rw [bytes,List.foldl_cons,List.foldl_cons,ih,ih]
    omega

@[simp] theorem bytes_cons (c : Char) (cs : List Char) : bytes (c :: cs) = c.utf8Size + bytes cs := by
  rw [bytes,List.foldl_cons,bytes_after,Nat.zero_add]

theorem length_le_bytes (cs : List Char) : cs.length ≤ bytes cs := by
  induction cs with
  | nil => simp
  | cons c cs ih =>
    have takes := c.utf8Size_pos
    simp only [bytes_cons,List.length_cons]
    omega

def Divides (offset : Nat) (cs : List Char) : Prop := ∃ before after, cs = before ++ after ∧ bytes before = offset

theorem splitBytes_some : splitBytes offset cs = some (before,after) ↔ cs = before ++ after ∧ bytes before = offset := by
  induction cs generalizing offset before after with
  | nil => cases offset <;> cases before <;> simp [splitBytes,bytes]
  | cons c cs ih =>
    have takes := c.utf8Size_pos
    cases offset with
    | zero =>
      cases before with
      | nil => simp [splitBytes,bytes,eq_comm]
      | cons d ds =>
        have takes := d.utf8Size_pos
        simp [splitBytes]
        omega
    | succ offset =>
      cases before with
      | nil => simp [splitBytes,bytes]
      | cons d ds =>
        simp only [splitBytes,bytes_cons,List.cons_append,List.cons.injEq]
        split
        · simp only [Option.map_eq_some_iff,Prod.exists,ih,Prod.mk.injEq,List.cons.injEq]
          constructor
          · rintro ⟨_,_,⟨rfl,size⟩,⟨rfl,rfl⟩,rfl⟩
            exact ⟨⟨rfl,rfl⟩,by omega⟩
          · rintro ⟨⟨rfl,rfl⟩,size⟩
            exact ⟨_,_,⟨rfl,by omega⟩,⟨rfl,rfl⟩,rfl⟩
        · simp only [reduceCtorEq,false_iff]
          rintro ⟨⟨rfl,-⟩,size⟩
          omega

theorem divides_iff : Divides offset cs ↔ (splitBytes offset cs).isSome := by
  constructor
  · rintro ⟨before,after,whole,here⟩
    rw [splitBytes_some.mpr ⟨whole,here⟩]
    rfl
  · intro found
    obtain ⟨halves,split⟩ := Option.isSome_iff_exists.mp found
    exact ⟨_,_,splitBytes_some.mp split⟩

instance : Decidable (Divides offset cs) := decidable_of_iff _ divides_iff.symm

theorem bytes_ones (small : ∀ c ∈ cs, c.utf8Size = 1) : bytes cs = cs.length := by
  induction cs with
  | nil => rfl
  | cons c cs ih =>
    obtain ⟨one,rest⟩ := List.forall_mem_cons.mp small
    rw [bytes_cons,one,ih rest,List.length_cons,Nat.add_comm]

theorem bytes_marker (marked : cs.map Char.toLower = functionMarker) : bytes cs = cs.length := by
  refine bytes_ones fun c member => ?_
  have inside : c.toLower ∈ functionMarker := marked ▸ List.mem_map_of_mem member
  have ascii : functionMarker.all (·.toNat ≤ 127) = true := by decide
  have lowered : c.toLower.toNat ≤ 127 := by simpa using List.all_eq_true.mp ascii _ inside
  rw [Char.utf8Size_eq_one_iff]
  change c.toNat ≤ 127
  rcases Text.toLower_cases c with ⟨same,-⟩ | ⟨upper,-⟩
  · rwa [same] at lowered
  · omega

-- Names that end before the marker would, or where a character starts right after it.
def Cuttable (name : String) : Prop := bytes functionMarker < bytes name.toList → Divides (bytes functionMarker) name.toList

instance : Decidable (Cuttable name) := inferInstanceAs (Decidable (_ → _))

theorem marked_split (longer : bytes functionMarker < bytes cs) (split : splitBytes (bytes functionMarker) cs = some (before,after)) :
    before.map Char.toLower = functionMarker ↔
      functionMarker.length < cs.length ∧ (cs.take functionMarker.length).map Char.toLower = functionMarker := by
  obtain ⟨rfl,size⟩ := splitBytes_some.mp split
  constructor
  · intro marked
    have length : before.length = functionMarker.length := by rw [←marked,List.length_map]
    have rest : after ≠ [] := by
      rintro rfl
      simp [size] at longer
    have more := List.length_pos_iff.mpr rest
    refine ⟨by rw [List.length_append]; omega,?_⟩
    rwa [←length,List.take_left]
  · rintro ⟨more,marked⟩
    have length : ((before ++ after).take functionMarker.length).length = functionMarker.length := by
      rw [List.length_take]
      omega
    have short := splitBytes_some.mpr ⟨(List.take_append_drop functionMarker.length (before ++ after)).symm,
      (bytes_marker marked).trans length⟩
    rw [show functionMarker.length = bytes functionMarker from rfl,split,Option.some.injEq,Prod.mk.injEq] at short
    rw [short.1]
    exact marked

theorem cutFunctionMarker_cuttable (cuttable : Cuttable name) : cutFunctionMarker name = pure (stripFunctionMarker name) := by
  rw [cutFunctionMarker,stripFunctionMarker]
  by_cases longer : bytes functionMarker < bytes name.toList
  · obtain ⟨before,after,whole,here⟩ := cuttable longer
    have split : splitBytes (bytes functionMarker) name.toList = some (before,after) := splitBytes_some.mpr ⟨whole,here⟩
    simp only [longer,if_true,split,marked_split longer split]
    split
    · rename_i marked
      have length : before.length = functionMarker.length := by
        rw [←(marked_split longer split).mpr marked,List.length_map]
      rw [whole,←length,List.drop_left]
    · rfl
  · have short := length_le_bytes name.toList
    have size : bytes functionMarker = functionMarker.length := rfl
    rw [if_neg longer,if_neg (by omega)]

theorem cutFunctionMarker_divided (divided : ¬ Cuttable name) : cutFunctionMarker name = Guarded.fault (.cut 6) := by
  rw [Cuttable,Classical.not_imp] at divided
  obtain ⟨longer,inside⟩ := divided
  have split : splitBytes (bytes functionMarker) name.toList = none := by
    simpa [divides_iff] using inside
  simp only [cutFunctionMarker,longer,if_true,split]
  rfl

end Recalc.Lexeme
