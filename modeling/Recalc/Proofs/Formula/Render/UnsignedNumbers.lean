import Recalc.Proofs.Build.Built
import Recalc.Proofs.Decimal.Positives
import Recalc.Proofs.Formula.Compile.Literals
import Recalc.Proofs.Formula.Lexeme.Transitions
import Recalc.Proofs.Formula.Render.Unambiguous

namespace Recalc

def Token.Unsigned (t : Token) : Prop := t.subkind = .number → t.text.toList.head? ≠ some '-'

theorem Token.unsigned_other {t : Token} (other : t.subkind ≠ .number) : t.Unsigned := fun number => absurd number other

theorem Token.unsigned_between (symbol : String) : (Token.between symbol).Unsigned := by
  refine unsigned_other ?_
  unfold between
  dsimp only
  split <;> simp

namespace Scanned
variable {s s' : Scanned} {t : Token}

def Unsigned (s : Scanned) : Prop := ∀ t ∈ s.tokens, t.Unsigned

theorem Unsigned.push (unsigned : s.Unsigned) (here : t.Unsigned) : (s.push t).Unsigned := List.forall_mem_cons.mpr ⟨here,unsigned⟩

theorem Unsigned.other (unsigned : s.Unsigned) (other : t.subkind ≠ .number) : (s.push t).Unsigned := unsigned.push (Token.unsigned_other other)

theorem Unsigned.between (unsigned : s.Unsigned) (symbol : String) : (s.push (.between symbol)).Unsigned :=
  unsigned.push (Token.unsigned_between symbol)

theorem Unsigned.openCall (unsigned : s.Unsigned) (name : String) : (s.openCall name).Unsigned :=
  unsigned.other (by simp [Token.functionStart])

theorem Unsigned.close (unsigned : s.Unsigned) : s.close.Unsigned := by
  unfold Scanned.close
  split
  · exact unsigned.other (by decide)
  · exact (unsigned.other (by decide)).other (by decide)
  · exact unsigned.other (by decide)
  · exact unsigned.other (by decide)

theorem Unsigned.comma (unsigned : s.Unsigned) : s.comma.Unsigned := by
  unfold Scanned.comma
  split
  · exact unsigned.other (by decide)
  · exact unsigned.other (by decide)
  · exact unsigned.between ","

theorem Unsigned.grows (unsigned : s.Unsigned) (grows : s.Grows s') : s'.Unsigned := by
  cases grows with
  | skip => exact unsigned
  | number text plain => exact unsigned.push fun _ => plain
  | operand text other => exact unsigned.other other
  | between ranked => exact unsigned.between _
  | minus => exact unsigned.other (by decide)
  | percent => exact unsigned.other (by decide)
  | openCall name => exact unsigned.openCall name
  | openGroup => exact unsigned.other (by decide)
  | openArray => exact (unsigned.openCall _).openCall _
  | close => exact unsigned.close
  | comma => exact unsigned.comma
  | nextRow inside => exact ((unsigned.other (by decide)).other (by decide)).openCall _

end Scanned

theorem tokenize_unsigned {text : String} {tokens : List Token} (lexed : tokenize text = .ok tokens) : ∀ t ∈ tokens, t.Unsigned := by
  have start : Scanned.start.Unsigned := fun t listed => nomatch listed
  obtain ⟨s,unsigned,rfl⟩ := Lexeme.scanned_keeps (fun kept stepped => Scanned.Unsigned.grows kept (Lexeme.step_grows stepped)) start lexed
  exact fun t listed => unsigned t (List.mem_reverse.mp listed)

theorem items_unsigned {text : String} {tokens : List Token} {items after : List Item} {extents : Item → Except ReferenceError Extents}
    (lexed : tokenize text = .ok tokens) (ordered : ReversePolish.ofTokens tokens = .ok items) (clamps : clampItems extents items = .ok after) :
    ∀ i ∈ after, i.kind = .operand → i.token.Unsigned := by
  intro i listed operand
  obtain ⟨j,before,clamped⟩ := (mapM_ok clamps).2 i listed
  split at clamped
  · rename_i range
    obtain ⟨e,-,rest⟩ := bind_ok.mp clamped
    obtain ⟨text,-,last⟩ := bind_ok.mp rest
    cases last
    change j.kind = .operand at operand
    cases range.symm.trans operand
  · cases clamped
    obtain ⟨t,given,expanded⟩ := List.mem_flatMap.mp (ReversePolish.ofTokens_given ordered _ before)
    unfold ReversePolish.expand at expanded
    split at expanded
    · have kinds : ∀ u ∈ [(⟨.function,.none,t.text⟩ : Token),⟨.argumentList,.start,"("⟩], u.subkind ≠ .number := by simp
      exact Token.unsigned_other (kinds _ expanded)
    · split at expanded
      · exact Token.unsigned_other (by simp [List.mem_singleton.mp expanded])
      · rw [List.mem_singleton.mp expanded]
        exact tokenize_unsigned lexed t given

namespace Expr

def Unsigned (e : Expr) : Prop := ∀ x, .literal (.number x) ∈ e.parts → (Value.numberText x).toList.head? ≠ some '-'

theorem ofTree_unsigned {site : Site} {t : Tree} {e : Expr} (items : ∀ i ∈ t.items, i.kind = .operand → i.token.Unsigned)
    (made : ofTree site t = .ok e) : e.Unsigned := by
  have holds : Holds (fun v => ∀ x, v = .number x → (Value.numberText x).toList.head? ≠ some '-') e := by
    refine ofTree_holds (fun n x same => ?_) (fun i listed operand => ofOperand_holds (fun number x found y same => ?_) ?_ ?_ ?_) e made
    · cases same
      exact positive_spelled (count_positive n)
    · cases same
      exact positive_spelled (Decimal.number?_positive found (items i listed operand number))
    all_goals exact fun _ x same => nomatch same
  exact fun x part => holds (.number x) part x rfl

-- A formula has no signs but its operators.
theorem compile_unsigned {formula : String} {site : Site} {e : Expr} (made : compile formula site = .ok e) : e.Unsigned := by
  obtain ⟨tokens,lexed,rest⟩ := bind_ok.mp made
  obtain ⟨items,ordered,rest⟩ := bind_ok.mp rest
  obtain ⟨after,clamps,rest⟩ := bind_ok.mp rest
  obtain ⟨t,read,made⟩ := bind_ok.mp rest
  refine ofTree_unsigned ?_ made
  rw [Tree.ofItems_flat (Build.parse_ok read)]
  exact items_unsigned (Build.parse_ok lexed) ordered (Build.reference_ok clamps)

end Expr
end Recalc
