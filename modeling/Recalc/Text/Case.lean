import Recalc.Text.CaseTable

namespace Recalc.Text

def asciiUpper (s : String) : String := String.ofList (s.toList.map Char.toUpper)
def asciiLower (s : String) : String := String.ofList (s.toList.map Char.toLower)

def sameIgnoringAsciiCase (a b : String) : Bool := asciiLower a == asciiLower b

def within (table : List (Nat × Nat)) (c : Char) : Bool :=
  table.any fun (first,last) => first ≤ c.toNat && c.toNat ≤ last

def isCased (c : Char) : Bool := within CaseTable.cased c
def isIgnorable (c : Char) : Bool := within CaseTable.ignorable c

def tabulatedLower (n : Nat) : Option Nat :=
  (CaseTable.lowerRuns.find? fun (first,last,stride,_) =>
    first ≤ n && n ≤ last && (n - first) % stride == 0).map fun (first,_,_,lowered) => lowered + (n - first)

def lowerChar (c : Char) : List Char :=
  if c.toNat < 0x80 then [c.toLower]
  else if c.toNat = 0x130 then ['i',Char.ofNat 0x307]
  else [(tabulatedLower c.toNat).elim c Char.ofNat]

def reachesCased (cs : List Char) : Bool :=
  match cs.dropWhile isIgnorable with
  | [] => false
  | c :: _ => isCased c

-- A capital sigma closes a word when a letter stands before it and none after it;
-- what may stand inside a word is passed over on both sides. `before` is reversed.
def lowerFrom (before : List Char) : List Char → List Char
  | [] => []
  | c :: rest =>
    let lowered := if c.toNat = 0x3A3 then
        [Char.ofNat (if reachesCased before && !reachesCased rest then 0x3C2 else 0x3C3)]
      else lowerChar c
    lowered ++ lowerFrom (c :: before) rest

def lower (cs : List Char) : List Char := lowerFrom [] cs

def lowercase (s : String) : String := String.ofList (lower s.toList)

def order : List Char → List Char → Ordering
  | [], [] => .eq
  | [], _ :: _ => .lt
  | _ :: _, [] => .gt
  | a :: as, b :: bs => if a.toNat < b.toNat then .lt else if b.toNat < a.toNat then .gt else order as bs

theorem order_refl (cs : List Char) : order cs cs = .eq := by
  induction cs with
  | nil => rfl
  | cons c rest ih => simp [order,ih]

theorem order_eq {as bs : List Char} (equal : order as bs = .eq) : as = bs := by
  induction as generalizing bs with
  | nil => cases bs with
    | nil => rfl
    | cons b bs => simp [order] at equal
  | cons a as ih => cases bs with
    | nil => simp [order] at equal
    | cons b bs =>
      simp only [order] at equal
      split at equal
      · cases equal
      · split at equal
        · cases equal
        · have same : a = b := Char.toNat_inj.mp (by omega)
          rw [same,ih equal]

theorem order_swap (as bs : List Char) : (order as bs).swap = order bs as := by
  induction as generalizing bs with
  | nil => cases bs <;> rfl
  | cons a as ih => cases bs with
    | nil => rfl
    | cons b bs =>
      simp only [order]
      by_cases less : a.toNat < b.toNat
      · simp [less,show ¬ b.toNat < a.toNat by omega]
      · by_cases more : b.toNat < a.toNat
        · simp [less,more]
        · simp [less,more,ih]

end Recalc.Text
