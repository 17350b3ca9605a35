import Recalc.Proofs.Formula.Lexeme.Scanning

namespace Recalc
open Lexeme Atom

-- A formula as it is written but for the blanks, each literal the way it is spelled. Brackets stand
-- wherever they were set, needed or not.
inductive Wording where
  | number (n : Numeral)
  | text (content : String)
  | truth (value : Bool)
  | reference (r : PlainReference)
  | onSheet (sheet : String) (rest : ReferenceRest)
  | binary (op : BinaryOp) (left right : Wording)
  | negate (e : Wording)
  | percent (e : Wording)
  | group (e : Wording)
  | call (name : Word) (args : List Wording)
  | array (first : List Wording) (more : List (List Wording))

namespace Wording

mutual
def tokens : Wording → List Token
  | number n => [.operand (String.ofList n.chars) .number]
  | text content => [.operand content .text]
  | truth value => [.operand (truthText value) .logical]
  | reference r => [.operand r.text .range]
  | onSheet sheet rest => [.operand (String.ofList (sheetChars sheet rest)) .range]
  | binary op left right => left.tokens ++ .between op.symbol :: right.tokens
  | negate e => .minus :: e.tokens
  | percent e => e.tokens ++ [.percent]
  | group e => .groupStart :: (e.tokens ++ [.groupStop])
  | call name args => .functionStart (stripFunctionMarker name.text) :: (tokensAll args ++ [.functionStop])
  | array first more =>
    .functionStart "ARRAY" :: .functionStart "ARRAYROW" :: (tokensAll first ++ .functionStop :: (tokensRows more ++ [.functionStop]))
def tokensAll : List Wording → List Token
  | [] => []
  | [arg] => arg.tokens
  | arg :: next :: args => arg.tokens ++ .comma :: tokensAll (next :: args)
def tokensRows : List (List Wording) → List Token
  | [] => []
  | row :: rows => .comma :: .functionStart "ARRAYROW" :: (tokensAll row ++ .functionStop :: tokensRows rows)
end

mutual
def atoms : Wording → List Atom
  | number n => [.number n]
  | text content => [.text content]
  | truth value => [.truth value]
  | reference r => [.reference r]
  | onSheet sheet rest => [.onSheet sheet rest]
  | binary op left right => left.atoms ++ .between op :: right.atoms
  | negate e => .minus :: e.atoms
  | percent e => e.atoms ++ [.percent]
  | group e => .groupStart :: (e.atoms ++ [.stop])
  | call name args => .callStart name :: (atomsAll args ++ [.stop])
  | array first more => .arrayStart :: (atomsAll first ++ (atomsRows more ++ [.arrayStop]))
def atomsAll : List Wording → List Atom
  | [] => []
  | [arg] => arg.atoms
  | arg :: next :: args => arg.atoms ++ .comma :: atomsAll (next :: args)
def atomsRows : List (List Wording) → List Atom
  | [] => []
  | row :: rows => .semicolon :: (atomsAll row ++ atomsRows rows)
end

def print (w : Wording) (gap : Nat → Blanks) : String := String.ofList (spread gap w.atoms)

end Wording

namespace Scanned
variable {s : Scanned}

def onto (s : Scanned) (ts : List Token) : Scanned := {s with tokens := ts.reverse ++ s.tokens}

theorem comma_inside (inside : s.groups.head? = some .call ∨ s.groups.head? = some .array) : s.comma = s.push .comma := by
  obtain ⟨tokens,_ | ⟨group,groups⟩⟩ := s
  · rcases inside with call | array
    · cases call
    · cases array
  · cases group with
    | call => rfl
    | array => rfl
    | parentheses =>
      rcases inside with call | array
      · cases call
      · cases array

theorem endsOperand_onto (s : Scanned) (ts : List Token) (t : Token) : (s.onto (ts ++ [t])).endsOperand = t.endsOperand := by
  simp [onto,endsOperand]

end Scanned

namespace Wording
variable {s : Scanned}

theorem ends : (w : Wording) → ∀ s : Scanned, (s.onto w.tokens).endsOperand = true
  | number _, _ => rfl
  | text _, _ => rfl
  | truth _, _ => rfl
  | reference _, _ => rfl
  | onSheet _ _, _ => rfl
  | binary op left right, s => by
    have last := right.ends ((s.onto left.tokens).push (.between op.symbol))
    simpa [tokens,Scanned.onto,Scanned.push] using last
  | negate e, s => by
    have last := e.ends (s.push .minus)
    simpa [tokens,Scanned.onto,Scanned.push] using last
  | percent e, s => s.endsOperand_onto e.tokens .percent
  | group e, s => s.endsOperand_onto (.groupStart :: e.tokens) .groupStop
  | call name args, s => s.endsOperand_onto (_ :: tokensAll args) .functionStop
  | array first more, s => by
    have last := s.endsOperand_onto (.functionStart "ARRAY" :: .functionStart "ARRAYROW" :: (tokensAll first ++
      .functionStop :: tokensRows more)) .functionStop
    simpa [tokens,Token.functionStop,Token.endsOperand,Token.isStop] using last

-- Wherever an operand may stand, the atoms are read as the tokens, and the groups that were open
-- before are open again. Induction on how the formula is written.
mutual
theorem leads : (w : Wording) → ∀ s : Scanned, s.endsOperand = false → Leads s w.atoms (s.onto w.tokens)
  | number _, _, operand => .next operand .done
  | text _, _, operand => .next operand .done
  | truth _, _, operand => .next operand .done
  | reference _, _, operand => .next operand .done
  | onSheet _ _, _, operand => .next operand .done
  | binary op left right, s, operand => by
    have second := right.leads ((s.onto left.tokens).push (.between op.symbol)) rfl
    have both := (left.leads s operand).append (.next (p := .between op) (left.ends s) second)
    simpa [atoms,tokens,Scanned.onto,Scanned.push] using both
  | negate e, s, operand => by
    have inner := e.leads (s.push .minus) rfl
    have whole := Leads.next (p := .minus) operand inner
    simpa [atoms,tokens,Scanned.onto,Scanned.push] using whole
  | percent e, s, operand => by
    have whole := (e.leads s operand).append (.next (p := .percent) (e.ends s) .done)
    simpa [atoms,tokens,Scanned.onto,Scanned.push,scan] using whole
  | group e, s, operand => by
    have inner := e.leads s.openGroup rfl
    have whole := Leads.next (p := .groupStart) operand (inner.append (.next (p := .stop) trivial .done))
    simpa [atoms,tokens,Scanned.onto,Scanned.openGroup,Scanned.close,scan] using whole
  | call name args, s, operand => by
    have inner := leadsAll args (s.openCall (stripFunctionMarker name.text)) rfl (.inl rfl)
    have whole := Leads.next (p := .callStart name) operand (inner.append (.next (p := .stop) trivial .done))
    simpa [atoms,tokens,Scanned.onto,Scanned.openCall,Scanned.close,scan] using whole
  | array first more, s, operand => by
    have row := leadsAll first s.openArray rfl (.inr rfl)
    have rows := leadsRows more (s.openArray.onto (tokensAll first)).tokens s.groups
    have whole := Leads.next (p := .arrayStart) operand (row.append rows)
    simpa [atoms,tokens,Scanned.onto,Scanned.openArray,scan] using whole
theorem leadsAll : (args : List Wording) → ∀ s : Scanned, s.endsOperand = false →
    s.groups.head? = some .call ∨ s.groups.head? = some .array → Leads s (atomsAll args) (s.onto (tokensAll args))
  | [], _, _, _ => .done
  | [arg], s, operand, _ => arg.leads s operand
  | arg :: next :: args, s, operand, inside => by
    have separated : (s.onto arg.tokens).comma = (s.onto arg.tokens).push .comma := Scanned.comma_inside inside
    have rest := leadsAll (next :: args) ((s.onto arg.tokens).push .comma) rfl inside
    rw [← separated] at rest
    have both := (arg.leads s operand).append (.next (p := .comma) trivial rest)
    rw [separated] at both
    simpa [atomsAll,tokensAll,Scanned.onto,Scanned.push] using both
theorem leadsRows : (rows : List (List Wording)) → ∀ tokens groups, Leads ⟨tokens,.array :: groups⟩ (atomsRows rows ++ [.arrayStop])
    ⟨(.functionStop :: (tokensRows rows ++ [.functionStop])).reverse ++ tokens,groups⟩
  | [], tokens, groups => .next trivial .done
  | row :: rows, tokens, groups => by
    have entries := leadsAll row (Scanned.nextRow ⟨tokens,.array :: groups⟩) rfl (.inr rfl)
    have rest := leadsRows rows ((Scanned.nextRow ⟨tokens,.array :: groups⟩).onto (tokensAll row)).tokens groups
    have whole := Leads.next (s := ⟨tokens,.array :: groups⟩) (p := .semicolon) rfl (entries.append rest)
    simpa [atomsRows,tokensRows,Scanned.onto,Scanned.nextRow,scan] using whole
end

end Wording

-- Whatever blanks stand between the atoms, a formula is read as what it was written for.
theorem tokenize_print (w : Wording) (gap : Nat → Blanks) : tokenize (w.print gap) = .ok w.tokens := by
  unfold Wording.print
  rw [tokenize_spread (w.leads .start rfl) gap]
  change Except.ok (w.tokens.reverse ++ []).reverse = _
  rw [List.append_nil,List.reverse_reverse]

end Recalc
