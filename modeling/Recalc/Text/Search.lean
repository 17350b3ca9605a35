namespace Recalc.Text

def splitLast (mark : Char) : List Char → Option (List Char × List Char)
  | [] => none
  | c :: rest => match splitLast mark rest with
    | some (before,after) => some (c :: before,after)
    | none => if c = mark then some ([],rest) else none

def splitFirst (mark : Char) : List Char → Option (List Char × List Char)
  | [] => none
  | c :: rest =>
    if c = mark then some ([],rest)
    else (splitFirst mark rest).map fun (before,after) => (c :: before,after)

def splitEach (mark : Char) : List Char → List (List Char)
  | [] => [[]]
  | c :: rest => match splitEach mark rest with
    | [] => [[c]]
    | piece :: pieces => if c = mark then [] :: piece :: pieces else (c :: piece) :: pieces

def without (mark : Char) (s : String) : String := String.ofList (s.toList.filter (· ≠ mark))

-- Occurrences are found from the left and do not overlap; `skip` characters still belong
-- to the occurrence just replaced.
def replaceFrom (old new : List Char) : Nat → List Char → List Char
  | _, [] => []
  | skip + 1, _ :: rest => replaceFrom old new skip rest
  | 0, c :: rest =>
    if old.isPrefixOf (c :: rest) then new ++ replaceFrom old new (old.length - 1) rest
    else c :: replaceFrom old new 0 rest

def replaceAll (old new text : List Char) : List Char := replaceFrom old new 0 text

def replaceNth (old new : List Char) : Nat → Nat → List Char → List Char
  | _, _, [] => []
  | left, skip + 1, c :: rest => c :: replaceNth old new left skip rest
  | left, 0, c :: rest =>
    if old.isPrefixOf (c :: rest) then
      if left = 1 then new ++ rest.drop (old.length - 1)
      else c :: replaceNth old new (left - 1) (old.length - 1) rest
    else c :: replaceNth old new left 0 rest

theorem splitLast_joins {mark : Char} {cs before after : List Char}
    (split : splitLast mark cs = some (before,after)) :
    cs = before ++ mark :: after ∧ mark ∉ after := by
  induction cs generalizing before after with
  | nil => simp [splitLast] at split
  | cons c rest ih =>
    unfold splitLast at split
    cases found : splitLast mark rest with
    | some pair =>
      simp only [found] at split
      cases Option.some.inj split
      obtain ⟨joined,absent⟩ := ih found
      exact ⟨by rw [joined]; rfl,absent⟩
    | none =>
      simp only [found] at split
      split at split
      · rename_i same
        cases Option.some.inj split
        refine ⟨by rw [same]; rfl,?_⟩
        clear ih split
        induction rest with
        | nil => simp
        | cons d rest ih =>
          unfold splitLast at found
          cases deeper : splitLast mark rest with
          | some pair => simp [deeper] at found
          | none =>
            simp only [deeper] at found
            split at found
            · cases found
            · rename_i other
              simp only [List.mem_cons,not_or]
              exact ⟨fun equal => other equal.symm,ih deeper⟩
      · cases split

theorem splitFirst_joins {mark : Char} {cs before after : List Char}
    (split : splitFirst mark cs = some (before,after)) :
    cs = before ++ mark :: after ∧ mark ∉ before := by
  induction cs generalizing before after with
  | nil => simp [splitFirst] at split
  | cons c rest ih =>
    unfold splitFirst at split
    split at split
    · rename_i same
      cases Option.some.inj split
      exact ⟨by rw [same]; rfl,by simp⟩
    · rename_i other
      cases found : splitFirst mark rest with
      | none => simp [found] at split
      | some pair =>
        simp only [found,Option.map_some] at split
        cases Option.some.inj split
        obtain ⟨joined,absent⟩ := ih found
        exact ⟨by rw [joined]; rfl,by simp [absent,Ne.symm other]⟩

end Recalc.Text
