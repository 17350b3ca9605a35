import Recalc.Address.Error

namespace Recalc.Column

def limit : Nat := Nat.pow 2 32

-- Bijective base 26: A is 1, Z is 26, AA is 27.
def letterValue (c : Char) : Nat := c.toNat - 'A'.toNat + 1
def letter (n : Nat) : Char := Char.ofNat ('A'.toNat + n)

def value (cs : List Char) : Nat := cs.foldl (fun n c => n * 26 + letterValue c) 0

def lettersOnto : Nat → Nat → List Char → List Char
  | 0, _, tail => tail
  | steps + 1, n, tail =>
    if n = 0 then tail else lettersOnto steps ((n - 1) / 26) (letter ((n - 1) % 26) :: tail)

def letters (n : Nat) : String := String.ofList (lettersOnto n n [])

def times (a b : UInt32) : Option UInt32 := if a.toNat * b.toNat < limit then some (a * b) else none
def plus (a b : UInt32) : Option UInt32 := if a.toNat + b.toNat < limit then some (a + b) else none

def append (total : UInt32) (c : Char) : Option UInt32 :=
  if c.toUpper.isUpper then do plus (← times total 26) (UInt32.ofNat (letterValue c.toUpper)) else none

def ofLetters (text : String) : Except ReferenceError Nat :=
  let cs := text.toList.filter (· ≠ '$')
  if cs = [] then .error .emptyColumn
  else match cs.foldlM append 0 with
    | some total => .ok total.toNat
    | none => .error (.invalidAddress text)

def toLetters (n : Nat) : Except ReferenceError String :=
  if n = 0 then .error (.invalidColumnNumber n) else .ok (letters n)

end Recalc.Column
