import Mathlib.Data.List.Basic
import Recalc.Formula.Expr
import Recalc.Proofs.Formula.Parse.ArenaTrees
import Recalc.Proofs.Formula.Parse.Grammar
import Recalc.Proofs.Formula.Parse.Numbering

namespace Recalc
open ReversePolish

def BinaryOp.rank (op : BinaryOp) : Nat := (ReversePolish.rank op.symbol).getD 0

theorem BinaryOp.rank_symbol (op : BinaryOp) : ReversePolish.rank op.symbol = some op.rank := by cases op <;> rfl

inductive Phrase where
  | operand (text : String) (subkind : TokenSubkind)
  | binary (op : BinaryOp) (left right : Phrase)
  | negate (e : Phrase)
  | percent (e : Phrase)
  | call (name : String) (args : List Phrase)

namespace Phrase

def rank : Phrase → Nat
  | operand _ _ => 9
  | binary op _ _ => op.rank
  | negate _ => 7
  | percent _ => 6
  | call _ _ => 9

def bracket (needed : Bool) (ts : List Token) : List Token := if needed then .groupStart :: (ts ++ [.groupStop]) else ts

-- Brackets stand where the ranks would have the operators grouped otherwise, and around a sign
-- after a sign.
mutual
def tokens : Phrase → List Token
  | operand text subkind => [.operand text subkind]
  | binary op left right =>
    bracket (left.rank < op.rank) left.tokens ++ .between op.symbol :: bracket (right.rank ≤ op.rank) right.tokens
  | negate e => .minus :: bracket (e.rank ≤ 7) e.tokens
  | percent e => bracket (e.rank < 6) e.tokens ++ [.percent]
  | call name args => .functionStart name :: (tokensAll args ++ [.functionStop])
def tokensAll : List Phrase → List Token
  | [] => []
  | [arg] => arg.tokens
  | arg :: next :: args => arg.tokens ++ .comma :: tokensAll (next :: args)
end

mutual
def tree : Phrase → Tree
  | operand text subkind => .node ⟨.operand text subkind,0⟩ []
  | binary op left right => .node ⟨.between op.symbol,0⟩ [left.tree,right.tree]
  | negate e => .node ⟨.minus,0⟩ [e.tree]
  | percent e => .node ⟨.percent,0⟩ [e.tree]
  | call name args => .node ⟨⟨.function,.none,name⟩,args.length⟩ (trees args)
def trees : List Phrase → List Tree
  | [] => []
  | arg :: args => arg.tree :: trees args
end

-- The phrase stands among the elements of a formula with its root at the index: operands count
-- from 1, arguments from 0, and a function knows how many it takes.
inductive Stands (nodes : List Tree.Placed) : Nat → Nat → Option Nat → Phrase → Prop where
  | operand (there : nodes[i]? = some ⟨⟨.operand text subkind,0⟩,position,parent,[]⟩) :
      Stands nodes i position parent (.operand text subkind)
  | binary (there : nodes[i]? = some ⟨⟨.between op.symbol,0⟩,position,parent,[l,r]⟩) (first : Stands nodes l 1 (some i) left)
      (second : Stands nodes r 2 (some i) right) : Stands nodes i position parent (.binary op left right)
  | negate (there : nodes[i]? = some ⟨⟨.minus,0⟩,position,parent,[j]⟩) (first : Stands nodes j 1 (some i) e) :
      Stands nodes i position parent (.negate e)
  | percent (there : nodes[i]? = some ⟨⟨.percent,0⟩,position,parent,[j]⟩) (first : Stands nodes j 1 (some i) e) :
      Stands nodes i position parent (.percent e)
  | call (there : nodes[i]? = some ⟨⟨⟨.function,.none,name⟩,args.length⟩,position,parent,indices⟩)
      (size : indices.length = args.length)
      (each : ∀ k j arg, indices[k]? = some j → args[k]? = some arg → Stands nodes j k (some i) arg) :
      Stands nodes i position parent (.call name args)

@[simp] theorem length_trees (args : List Phrase) : (trees args).length = args.length := by
  induction args with
  | nil => rfl
  | cons arg args ih => simp [trees,ih]

@[simp] theorem getElem_trees (args : List Phrase) (k : Nat) : (trees args)[k]? = args[k]?.map tree := by
  induction args generalizing k with
  | nil => rfl
  | cons arg args ih => cases k <;> simp [trees,ih]

theorem writes_bracket (writes : Writes l ts t) (enough : needed = false → n ≤ l) : Writes n (bracket needed ts) t := by
  cases needed with
  | true => exact .group (writes.weaken (Nat.zero_le l))
  | false => exact writes.weaken (enough rfl)

mutual
theorem writes : (e : Phrase) → Writes e.rank e.tokens e.tree
  | operand text subkind => .operand rfl
  | binary op left right =>
    .between op.rank_symbol (Nat.le_refl _)
      (writes_bracket left.writes fun strong => Nat.le_of_not_lt (of_decide_eq_false strong))
      (writes_bracket right.writes fun strong => Nat.lt_of_not_le (of_decide_eq_false strong))
  | negate e => .negate (Nat.le_refl _) (writes_bracket e.writes fun strong => Nat.lt_of_not_le (of_decide_eq_false strong))
  | percent e => .percent (Nat.le_refl _) (writes_bracket e.writes fun strong => Nat.le_of_not_lt (of_decide_eq_false strong))
  | call name [] => .bare name
  | call name (arg :: args) => by
    have calls := Writes.call (l := 9) name (writesAll (arg :: args) (by simp))
    rwa [length_trees] at calls
theorem writesAll : (args : List Phrase) → args ≠ [] → WritesAll (tokensAll args) (trees args)
  | [], given => absurd rfl given
  | [arg], _ => .last (arg.writes.weaken (Nat.zero_le _))
  | arg :: next :: args, _ => .more (arg.writes.weaken (Nat.zero_le _)) (writesAll (next :: args) (by simp))
end

mutual
theorem stands : (e : Phrase) → Tree.Laid nodes i position parent e.tree → Stands nodes i position parent e
  | operand text subkind, .node there size _ => .operand (by rwa [List.length_eq_zero_iff.mp size] at there)
  | binary op left right, .node there size each => by
    obtain ⟨l,r,rfl⟩ := List.length_eq_two.mp size
    exact .binary there (left.stands (each 0 l left.tree rfl rfl)) (right.stands (each 1 r right.tree rfl rfl))
  | negate e, .node there size each => by
    obtain ⟨j,rfl⟩ := List.length_eq_one_iff.mp size
    exact .negate there (e.stands (each 0 j e.tree rfl rfl))
  | percent e, .node there size each => by
    obtain ⟨j,rfl⟩ := List.length_eq_one_iff.mp size
    exact .percent there (e.stands (each 0 j e.tree rfl rfl))
  | call name args, .node there size each => by
    refine .call there (size.trans (length_trees args)) fun k j arg index listed => ?_
    refine standsAll args k arg listed ?_
    have laid := each k j arg.tree index (by simp [listed])
    rwa [show Item.firstPosition ⟨⟨.function,.none,name⟩,args.length⟩ = 0 from rfl,Nat.zero_add] at laid
theorem standsAll : (args : List Phrase) → ∀ (k : Nat) (arg : Phrase), args[k]? = some arg →
    Tree.Laid nodes i position parent arg.tree → Stands nodes i position parent arg
  | [], _, _, listed, _ => by cases listed
  | first :: _, 0, _, rfl, laid => first.stands laid
  | _ :: args, k + 1, arg, listed, laid => standsAll args k arg (by simpa using listed) laid
end

end Phrase

-- A phrase with no more brackets than its operators need is read as what it says, and its
-- elements are numbered accordingly.
theorem phrase_read (e : Phrase) :
    parseTokens e.tokens = .ok e.tree ∧ e.Stands e.tree.placed (e.tree.placed.length - 1) 0 none ∧
    ∃ items arena, ReversePolish.ofTokens e.tokens = .ok items ∧ Arena.build items = pure arena ∧ arena.nodes = e.tree.placed ∧
      e.Stands arena.nodes arena.root 0 none := by
  have parsed : parseTokens e.tokens = .ok e.tree := (e.writes.weaken (Nat.zero_le _)).parse
  have stands := e.stands e.tree.laid_placed
  refine ⟨parsed,stands,?_⟩
  obtain ⟨items,order,made⟩ := bind_ok.mp parsed
  refine ⟨items,⟨e.tree.placed,e.tree.placed.length - 1⟩,order,?_,rfl,stands⟩
  rw [Arena.build_placed,made,Tree.length_placed]
  rfl

example : (Phrase.negate (.binary .power (.negate (.operand "2" .number)) (.percent (.call "PI" [])))).tokens.map Token.text =
    ["-","(","-","2","^","PI",")","%",")"] := by decide

end Recalc
