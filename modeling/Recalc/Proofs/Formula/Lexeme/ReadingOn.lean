import Recalc.Proofs.Formula.Lexeme.Actions

namespace Recalc
open Lexeme

inductive Scans (size : Nat) : Scanned → List Char → Scanned → List Char → Prop where
  | here : Scans size s cs s cs
  | step (stepped : step size s c rest = .ok (t,left)) (more : Scans size t left s' cs') : Scans size s (c :: rest) s' cs'

variable {s s' t : Scanned} {cs cs' rest before : List Char} {size : Nat}

theorem Scans.trans (first : Scans size s cs s' cs') (second : Scans size s' cs' t rest) : Scans size s cs t rest := by
  induction first with
  | here => exact second
  | step stepped more ih => exact .step stepped (ih second)

theorem Scans.run (scans : Scans size s cs s' cs') (enough : cs.length ≤ steps) :
    ∃ left, cs'.length ≤ left ∧ run size steps s cs = run size left s' cs' := by
  induction scans generalizing steps with
  | here => exact ⟨steps,enough,rfl⟩
  | step stepped more ih =>
    cases steps with
    | zero => cases enough
    | succ steps =>
      obtain ⟨act,-,lexes⟩ := lexes_step stepped
      obtain ⟨left,spare,same⟩ := ih (Nat.le_trans lexes.shorter.length_le (Nat.le_of_succ_le_succ enough))
      refine ⟨left,spare,?_⟩
      rw [Lexeme.run,stepped]
      exact same

theorem tokenizeChars_scans (scans : ∀ size, Scans size .start cs s cs') : ∃ size left, cs'.length ≤ left ∧
    tokenizeChars cs = (Lexeme.run size left s cs').map fun t => t.tokens.reverse := by
  obtain ⟨left,enough,same⟩ := (scans (bytes cs)).run (Nat.le_refl _)
  refine ⟨bytes cs,left,enough,?_⟩
  unfold tokenizeChars
  rw [same]
  rfl

def Scanned.over (s : Scanned) (base : List Token) : Scanned := ⟨s.tokens ++ base,s.groups⟩

theorem Act.on_over (act : Act) (s : Scanned) (base : List Token) : act.on (s.over base) = (act.on s).over base := by
  obtain ⟨tokens,groups⟩ := s
  cases act with
  | close => obtain _ | ⟨_ | _ | _,groups⟩ := groups <;> rfl
  | comma => obtain _ | ⟨_ | _ | _,groups⟩ := groups <;> rfl
  | _ => rfl

theorem endsOperand_over {base base' : List Token} (same : base.head?.any Token.endsOperand = base'.head?.any Token.endsOperand) :
    (s.over base').endsOperand = (s.over base).endsOperand := by
  obtain ⟨_ | ⟨token,tokens⟩,groups⟩ := s
  · exact same.symm
  · rfl

-- Of the tokens before, reading on depends only on whether they end an operand. Induction on the text.
theorem run_over {base base' : List Token} (same : base.head?.any Token.endsOperand = base'.head?.any Token.endsOperand)
    (enough : cs.length ≤ steps) (ran : run size steps (s.over base) cs = .ok t) :
    ∃ s' : Scanned, t = s'.over base ∧ ∀ size' steps', cs.length ≤ steps' → run size' steps' (s.over base') cs = .ok (s'.over base') := by
  induction steps generalizing s cs with
  | zero =>
    cases List.length_eq_zero_iff.mp (Nat.le_zero.mp enough)
    cases ran
    refine ⟨s,rfl,fun size' steps' _ => ?_⟩
    cases steps' <;> rfl
  | succ steps ih =>
    cases cs with
    | nil =>
      cases ran
      refine ⟨s,rfl,fun size' steps' _ => ?_⟩
      cases steps' <;> rfl
    | cons c rest =>
      rw [run] at ran
      cases stepped : step size (s.over base) c rest with
      | error e => rw [stepped] at ran; cases ran
      | ok next =>
        obtain ⟨mid,left⟩ := next
        obtain ⟨act,rfl,lexes⟩ := lexes_step stepped
        rw [stepped,Act.on_over] at ran
        have shorter := lexes.shorter.length_le
        obtain ⟨s',made,again⟩ := ih (Nat.le_trans shorter (Nat.le_of_succ_le_succ enough)) ran
        refine ⟨s',made,fun size' steps' enough' => ?_⟩
        cases steps' with
        | zero => cases enough'
        | succ steps' =>
          rw [run,lexes.again size' (s.over base') (endsOperand_over same) rfl,Act.on_over]
          exact again size' steps' (Nat.le_trans shorter (Nat.le_of_succ_le_succ enough'))

def Stands (before : List Char) (s : Scanned) : Prop := ∀ size rest, Scans size .start (before ++ '-' :: rest) s ('-' :: rest)

def Scanned.signed (s : Scanned) (n : Nat) : Scanned := ⟨List.replicate n .minus ++ s.tokens,s.groups⟩

theorem scans_signs (size : Nat) (awaits : s.endsOperand = false) (n : Nat) (rest : List Char) :
    Scans size s (List.replicate n '-' ++ rest) (s.signed n) rest := by
  induction n generalizing s with
  | zero => exact .here
  | succ n ih =>
    have stepped : step size s '-' (List.replicate n '-' ++ rest) = .ok (s.push .minus,List.replicate n '-' ++ rest) := by
      change Except.ok (s.push (if s.endsOperand = true then .between "-" else .minus),_) = _
      rw [awaits]
      rfl
    have more := ih (s := s.push .minus) rfl
    have tokens : (s.push .minus).signed n = s.signed (n + 1) := by
      simp [Scanned.signed,Scanned.push,List.replicate_succ']
    rw [tokens] at more
    exact .step stepped more

theorem tokenizeChars_signs (stands : Stands before s) (awaits : s.endsOperand = false) (n : Nat) (rest : List Char) :
    ∃ size left, rest.length ≤ left ∧ tokenizeChars (before ++ (List.replicate (n + 1) '-' ++ rest)) =
      (run size left (Scanned.over ⟨[],s.groups⟩ (List.replicate (n + 1) .minus ++ s.tokens)) rest).map fun t => t.tokens.reverse := by
  exact tokenizeChars_scans fun size => (stands size (List.replicate n '-' ++ rest)).trans (scans_signs size awaits (n + 1) rest)

theorem signs_tokens {us : List Token} (stands : Stands before s) (awaits : s.endsOperand = false)
    (one : tokenizeChars (before ++ '-' :: rest) = .ok (s.tokens.reverse ++ .minus :: us)) (n : Nat) :
    tokenizeChars (before ++ (List.replicate (n + 1) '-' ++ rest)) = .ok (s.tokens.reverse ++ (List.replicate (n + 1) .minus ++ us)) := by
  have one : tokenizeChars (before ++ (List.replicate (0 + 1) '-' ++ rest)) = .ok (s.tokens.reverse ++ .minus :: us) := one
  obtain ⟨size,left,enough,same⟩ := tokenizeChars_signs stands awaits 0 rest
  obtain ⟨size',left',enough',same'⟩ := tokenizeChars_signs stands awaits n rest
  rw [same] at one
  rw [same']
  cases ran : run size left (Scanned.over ⟨[],s.groups⟩ (List.replicate (0 + 1) .minus ++ s.tokens)) rest with
  | error e => rw [ran] at one; cases one
  | ok t =>
    rw [ran] at one
    have signs : (List.replicate (0 + 1) Token.minus ++ s.tokens).head?.any Token.endsOperand =
        (List.replicate (n + 1) Token.minus ++ s.tokens).head?.any Token.endsOperand := rfl
    obtain ⟨s',rfl,again⟩ := run_over signs enough ran
    rw [again _ _ enough']
    have tokens := Except.ok.inj one
    simp only [Scanned.over,List.reverse_append,List.append_assoc] at tokens
    have after : s'.tokens.reverse = us := by simpa using tokens
    simp [Except.map,Scanned.over,after]

end Recalc
