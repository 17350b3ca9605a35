import Recalc.Proofs.Build.StoredFormulas
import Recalc.Proofs.Formula.Render.UnsignedNumbers

namespace Recalc
namespace Expr

open Guarded

variable {a b e : Expr}

def Written (e : Expr) : Prop := ∃ formula site, compile formula site = .ok e

-- What any elements compile to, or the text of a formula.
def Compiled (e : Expr) : Prop := e.Written ∨ ∃ (arena : Arena) (site : Site), arena.compile site = pure e

theorem Compiled.bare (compiled : e.Compiled) : Holds (fun v => v.isArray = false) e := by
  have operand (t : Token) : Yields (Holds fun v => v.isArray = false) (ofOperand t) :=
    ofOperand_holds (fun _ _ _ => rfl) (fun _ => rfl) (fun _ => rfl) (fun _ => rfl)
  rcases compiled with ⟨formula,site,made⟩ | ⟨arena,site,made⟩
  · obtain ⟨tokens,-,rest⟩ := bind_ok.mp made
    obtain ⟨items,-,rest⟩ := bind_ok.mp rest
    obtain ⟨after,-,rest⟩ := bind_ok.mp rest
    obtain ⟨t,-,made⟩ := bind_ok.mp rest
    exact ofTree_holds (fun _ => rfl) (fun i _ _ => operand i.token) e made
  · exact Arena.generate_holds (fun _ => rfl) operand _ _ e made

theorem Compiled.good (compiled : e.Compiled) (rows : .array [] ∉ e.parts) (unsigned : e.Unsigned) :
    e.Good fun x => .literal (.number x) ∈ e.parts := by
  intro p part
  unfold Fine
  split
  · exact ⟨part,unsigned _ part⟩
  · cases compiled.bare _ part
  · exact rows part
  · trivial

section
variable {number : Float}

def besides : Site := ⟨⟨"S",1,1⟩,none⟩

theorem ofOperand_number {text : String} (found : Decimal.number? text.toList = some number) :
    ofOperand (.operand text .number) = .ok (.literal (.number number)) := by
  simp only [ofOperand,Token.operand,found]

theorem ofTree_number {text : String} (found : Decimal.number? text.toList = some number) (site : Site) :
    ofTree site (.node (.ofToken (.operand text .number)) []) = .ok (.literal (.number number)) :=
  (ofTree_operand rfl).trans (ofOperand_number found)

theorem ofTree_operation (t : Token) (kind : (Item.ofToken t).kind = .operator) (site : Site) (ts : List Tree) :
    ofTree site (.node (.ofToken t) ts) = ofTrees site ts >>= ofOperator t := ofTree_operator kind

def noted (number : Float) : Expr := .unary .percent (.unary .negate (.binary .concat (.literal (.number number)) (.cell "S!A1")))

theorem compile_noted (formula : String) (found : Decimal.number? "5".toList = some number) (read : formulaItems formula =
    .ok [.ofToken (.operand "5" .number),.ofToken (.operand "A1" .range),.ofToken (.between "&"),.ofToken .minus,.ofToken .percent]) :
    compile formula besides = .ok (noted number) := by
  have reference : ofTree besides (.node (.ofToken (.operand "A1" .range)) []) = .ok (.cell "S!A1") := rfl
  rw [compile_items read rfl rfl]
  change ofTree besides (.node (.ofToken .percent) [.node (.ofToken .minus) [.node (.ofToken (.between "&"))
    [.node (.ofToken (.operand "5" .number)) [],.node (.ofToken (.operand "A1" .range)) []]]]) = _
  simp only [ofTree_operation .percent rfl,ofTree_operation .minus rfl,ofTree_operation (.between "&") rfl,ofTrees,ofTree_number found,reference]
  rfl

end

-- The text of an expression tells the expression.
theorem render_compiled (compiled : a.Compiled) (compiled' : b.Compiled) (rows : .array [] ∉ a.parts ++ b.parts)
    (unsigned : ∀ e ∈ [a,b], e.Unsigned ∨ e.Written)
    (apart : ∀ x y, .literal (.number x) ∈ a.parts → .literal (.number y) ∈ b.parts → Value.numberText x = Value.numberText y → x = y)
    (same : a.render = b.render) : a = b := by
  have plain (e : Expr) (one : e ∈ [a,b]) : e.Unsigned := by
    rcases unsigned e one with plain | ⟨formula,site,made⟩
    · exact plain
    · exact compile_unsigned made
  rw [List.mem_append,not_or] at rows
  exact render_inj apart (compiled.good rows.1 (plain a (by simp))) (compiled'.good rows.2 (plain b (by simp))) same

theorem render_compiled_bracketed : ∃ a b, compile "=-(5&A1)%" besides = .ok a ∧ compile "=(-((5)&(A1)))%" besides = .ok b ∧
    a.render = "(-(5 & eval_cell(\"S!A1\")))%" ∧ a = b := by
  obtain ⟨x,found,spelled⟩ : ∃ x, Decimal.number? "5".toList = some x ∧ Value.numberText x = "5" := by
    have five : ((Decimal.number? "5".toList).map Value.numberText) = some "5" := by decide +kernel
    exact Option.map_eq_some_iff.mp five
  have made := compile_noted "=-(5&A1)%" found rfl
  have made' := compile_noted "=(-((5)&(A1)))%" found rfl
  have written : (noted x).Written := ⟨_,_,made⟩
  have written' : (noted x).Written := ⟨_,_,made'⟩
  have only (y : Float) (part : .literal (.number y) ∈ (noted x).parts) : y = x := by simpa [noted,parts] using part
  refine ⟨_,_,made,made',?_,render_compiled (.inl written) (.inl written') (by simp [noted,parts]) (fun e one => .inr ?_)
    (fun y z here there _ => (only y here).trans (only z there).symm) rfl⟩
  · simp only [noted,render,renderUnder,renderLiteral,Value.toText,spelled]
    decide +kernel
  · rcases List.mem_pair.mp one with rfl | rfl
    · exact written
    · exact written'

-- A number that is written with a minus sign in its token looks like the negative of one that is not.
theorem render_signed_alike : ∃ a b, Arena.compileTokens [.operand "-5" .number] besides = pure a ∧ compile "=-5" besides = .ok b ∧
    .array [] ∉ a.parts ++ b.parts ∧ (∀ x, .literal (.number x) ∈ a.parts ++ b.parts → x ≠ -0.0) ∧
    (∀ x y, .literal (.number x) ∈ a.parts ++ b.parts → .literal (.number y) ∈ a.parts ++ b.parts →
      Value.numberText x = Value.numberText y → x = y) ∧ a.render = b.render ∧ a ≠ b := by
  obtain ⟨x,found,spelled⟩ : ∃ x, Decimal.number? "-5".toList = some x ∧ Value.numberText x = "-5" := by
    have signed : ((Decimal.number? "-5".toList).map Value.numberText) = some "-5" := by decide +kernel
    exact Option.map_eq_some_iff.mp signed
  obtain ⟨y,found',spelled'⟩ : ∃ y, Decimal.number? "5".toList = some y ∧ Value.numberText y = "5" := by
    have five : ((Decimal.number? "5".toList).map Value.numberText) = some "5" := by decide +kernel
    exact Option.map_eq_some_iff.mp five
  have zero : Value.numberText (-0.0) = "0" := by decide +kernel
  have literal : Arena.compileTokens [.operand "-5" .number] besides = pure (.literal (.number x)) := by
    have ordered : ReversePolish.ofTokens [.operand "-5" .number] = .ok [.ofToken (.operand "-5" .number)] := rfl
    have tree : Tree.ofItems [.ofToken (.operand "-5" .number)] = .ok (.node (.ofToken (.operand "-5" .number)) []) := rfl
    rw [Arena.compileTokens,ordered,ofFormula_ok,pure_bind,Arena.build_placed,tree]
    change Arena.generate besides [⟨.ofToken (.operand "-5" .number),0,none,[]⟩] 1 0 = _
    rw [Arena.generate,element_some rfl,pure_bind]
    change ofFormula (ofOperand (.operand "-5" .number)) = _
    rw [ofOperand_number found,ofFormula_ok]
  have negated : compile "=-5" besides = .ok (.unary .negate (.literal (.number y))) := by
    have read : formulaItems "=-5" = .ok [.ofToken (.operand "5" .number),.ofToken .minus] := rfl
    rw [compile_items read rfl rfl]
    change ofTree besides (.node (.ofToken .minus) [.node (.ofToken (.operand "5" .number)) []]) = _
    simp only [ofTree_operation .minus rfl,ofTrees,ofTree_number found']
    rfl
  have only (z : Float) (part : .literal (.number z) ∈ (Expr.literal (.number x)).parts ++ (Expr.unary .negate (.literal (.number y))).parts) :
      z = x ∨ z = y := by simpa [parts] using part
  have apart : ("-5" : String) ≠ "5" ∧ ("-5" : String) ≠ "0" ∧ ("5" : String) ≠ "0" := by decide
  refine ⟨_,_,literal,negated,by simp [parts],fun z part => ?_,fun z w one two same => ?_,?_,by simp⟩
  · rintro rfl
    rcases only _ part with rfl | rfl
    · exact apart.2.1 (spelled.symm.trans zero)
    · exact apart.2.2 (spelled'.symm.trans zero)
  · rcases only z one with rfl | rfl <;> rcases only w two with rfl | rfl
    · rfl
    · exact absurd (spelled.symm.trans (same.trans spelled')) apart.1
    · exact absurd (spelled.symm.trans (same.symm.trans spelled')) apart.1
    · rfl
  · simp only [render,renderUnder,renderLiteral,Value.toText,spelled,spelled']
    decide +kernel

end Expr
end Recalc
