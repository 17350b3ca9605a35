import Recalc.Library.Apply
import Recalc.Proofs.Library.Criteria

namespace Recalc

namespace Criterion

def tail (t : String) : List Char := t.toList.rdropWhile Text.isBlank

def spelled (s : String) : Option Float := Decimal.number? (Text.trimBy Text.isBlank s.toList)

-- `=` takes a text that spells the number for it, and an error value for the one named.
def overlap (t : String) : Value → Bool
  | .text s => (spelled t).any fun n => (spelled s).any (· == n)
  | .error e => ErrorValue.parse t == some e
  | _ => false

-- Nothing equals what is no number, and to `<>` the name of an error value is a pattern.
def gap (t : String) : Value → Bool
  | .number m => (spelled t).any fun n => m.isNaN || n.isNaN
  | .text s => (ErrorValue.parse t).isSome && wildcard (Text.lower (tail t)) (Text.lower s.toList)
  | _ => false

variable {t : String} {c : Comparator}

theorem parse_equal (t : String) : parse ("=" ++ t) = (wanted (tail t)).under .equal (tail t) := by
  refine parse_wanted ?_
  rw [String.toList_append]
  change Comparator.strip (Text.trimBy Text.isBlank ('=' :: t.toList)) = _
  rw [Text.trimBy_mark (by decide)]
  rfl

theorem parse_notEqual (t : String) : parse ("<>" ++ t) = (wanted (tail t)).under .notEqual (tail t) := by
  refine parse_wanted ?_
  rw [String.toList_append]
  change Comparator.strip (Text.trimBy Text.isBlank ('<' :: '>' :: t.toList)) = _
  rw [Text.trimBy_mark (by decide),Text.rdropWhile_cons,if_neg (fun blank => absurd blank.1 (by decide))]
  rfl

theorem spelled_wanted {n : Float} : spelled t = some n ↔ wanted (tail t) = .number n := by
  rw [wanted_number,tail,Text.trimBy_rest]
  rfl

theorem named_wanted {e : ErrorValue} : ErrorValue.parse t = some e ↔ wanted (tail t) = .error e := by
  rw [wanted_error,ErrorValue.parse,ErrorValue.parse,Text.trim,Text.trim,String.toList_ofList,tail,Text.trimBy_rest]

theorem spelled_none (other : ∀ n, wanted (tail t) ≠ .number n) : spelled t = none :=
  Option.eq_none_iff_forall_ne_some.mpr fun n found => other n (spelled_wanted.mp found)

theorem named_none (other : ∀ e, wanted (tail t) ≠ .error e) : ErrorValue.parse t = none :=
  Option.eq_none_iff_forall_ne_some.mpr fun e found => other e (named_wanted.mp found)

def Stand (equal different : Criterion) (v : Value) (both neither : Bool) : Prop :=
  (equal.holds v && different.holds v) = both ∧ (!equal.holds v && !different.holds v) = neither

theorem stand_opposite {w : Wanted} (plain : ∀ n, w ≠ .number n) (unnamed : ∀ e, w ≠ .error e) (operand : List Char) (v : Value) :
    Stand (w.under .equal operand) (w.under .notEqual operand) v false false := by
  have opposite : (w.under .notEqual operand).holds v = !(w.under .equal operand).holds v := by
    cases w with
    | number n => exact absurd rfl (plain n)
    | error e => exact absurd rfl (unnamed e)
    | nothing => cases blank : v.isBlank <;> simp [Wanted.under,holds,blank]
    | boolean b => cases v <;> rfl
    | spelling => cases v <;> rfl
  rw [Stand,opposite]
  simp

theorem stand_number (spells : spelled t = some n) (unnamed : ErrorValue.parse t = none) (v : Value) :
    Stand (.number .equal n) (.number .notEqual n) v (overlap t v) (gap t v) := by
  cases v with
  | number m =>
    have once : overlap t (.number m) = false := rfl
    have missed : gap t (.number m) = (m.isNaN || n.isNaN) := by rw [gap,spells,Option.any_some]
    rw [Stand,once,missed]
    cases compared : Value.compareNumbers m n with
    | none =>
      rw [Bool.or_eq_true_iff.mpr (compareNumbers_none.mp compared)]
      simp [holds,compared]
    | some o =>
      have number : (m.isNaN || n.isNaN) = false := by
        refine Bool.eq_false_iff.mpr fun nan => ?_
        rw [compareNumbers_none.mpr (Bool.or_eq_true_iff.mp nan)] at compared
        cases compared
      rw [number]
      cases o <;> simp [holds,compared,Comparator.test]
  | text s =>
    have equals : (number .equal n).holds (.text s) = (spelled s).any (· == n) := rfl
    have differs : (number .notEqual n).holds (.text s) = true := rfl
    rw [Stand,equals,differs,overlap,gap,spells,unnamed]
    simp
  | error e => simp [Stand,holds,overlap,gap,unnamed]
  | _ => exact ⟨rfl,rfl⟩

theorem stand_error (plain : spelled t = none) (named : ErrorValue.parse t = some e) (v : Value) :
    Stand (.error e) (.text .notEqual (Text.lower (tail t))) v (overlap t v) (gap t v) := by
  cases v with
  | number m => simp [Stand,holds,overlap,gap,plain,Value.error?]
  | text s => simp [Stand,holds,overlap,gap,plain,named,Value.error?]
  | error e' => simp [Stand,holds,overlap,gap,named,Value.error?,BEq.comm]
  | _ => exact ⟨rfl,rfl⟩

theorem stand_text (t : String) (v : Value) : Stand (ofValue (.text ("=" ++ t))) (ofValue (.text ("<>" ++ t))) v (overlap t v) (gap t v) := by
  change Stand (parse ("=" ++ t)) (parse ("<>" ++ t)) v _ _
  rw [parse_equal,parse_notEqual]
  by_cases number : ∃ n, wanted (tail t) = .number n
  · obtain ⟨n,asks⟩ := number
    have unnamed : ErrorValue.parse t = none := named_none fun e named => by simp [asks] at named
    rw [asks]
    exact stand_number (spelled_wanted.mpr asks) unnamed v
  have plain := not_exists.mp number
  by_cases name : ∃ e, wanted (tail t) = .error e
  · obtain ⟨e,asks⟩ := name
    rw [asks]
    exact stand_error (spelled_none plain) (named_wanted.mpr asks) v
  have unnamed := not_exists.mp name
  have none : overlap t v = false ∧ gap t v = false := by
    cases v <;> simp [overlap,gap,spelled_none plain,named_none unnamed]
  rw [none.1,none.2]
  exact stand_opposite plain unnamed (tail t) v

end Criterion

theorem counted_twice {α : Type} {p q both neither : α → Bool} (passes : ∀ a, (p a && q a) = both a ∧ (!p a && !q a) = neither a) (items : List α) :
    (items.filter p).length + (items.filter q).length + (items.filter neither).length = items.length + (items.filter both).length := by
  induction items with
  | nil => rfl
  | cons a items ih =>
    obtain ⟨left,right⟩ := passes a
    simp only [List.filter_cons,← left,← right,List.length_cons]
    cases p a <;> cases q a <;> simp <;> omega

theorem settle_lift {α : Type} (q : Query α) (f : α → Value) :
    Work.settle (ExceptT.bind (ExceptT.lift q) fun a => pure (f a)) = q.bind fun a => .done (f a) := by
  induction q with
  | done a => rfl
  | cell bare address next ih => exact congrArg (Query.cell bare address) (funext ih)
  | range address next ih => exact congrArg (Query.range address) (funext ih)

theorem countIf_text (o : Operand) (s : String) : Library.apply .countIf [o,.value (.text s)] =
    o.flatten.bind fun values => .done (.number (Float.ofNat (values.filter (Criterion.ofValue (.text s)).holds).length)) :=
  settle_lift o.flatten fun values => .number (Float.ofNat (values.filter (Criterion.ofValue (.text s)).holds).length)

-- Of `=` and `<>` before the same text exactly one holds of a value, but where the two overlap and where
-- they leave a gap; and the two counts add up but for these.
theorem complements (t : String) :
    let equal := Criterion.ofValue (.text ("=" ++ t))
    let different := Criterion.ofValue (.text ("<>" ++ t))
    (∀ v, (equal.holds v && different.holds v) = Criterion.overlap t v ∧ (!equal.holds v && !different.holds v) = Criterion.gap t v) ∧
      (∀ criterion ∈ ["=" ++ t,"<>" ++ t], ∀ o, Library.apply .countIf [o,.value (.text criterion)] = o.flatten.bind fun values =>
        .done (.number (Float.ofNat (values.filter (Criterion.ofValue (.text criterion)).holds).length))) ∧
      ∀ values : List Value, (values.filter equal.holds).length + (values.filter different.holds).length + (values.filter (Criterion.gap t)).length =
        values.length + (values.filter (Criterion.overlap t)).length := by
  intro equal different
  exact ⟨Criterion.stand_text t,fun criterion _ o => countIf_text o criterion,counted_twice (Criterion.stand_text t)⟩

theorem complements_apart :
    let equal (t : String) := (Criterion.ofValue (.text ("=" ++ t))).holds
    let different (t : String) := (Criterion.ofValue (.text ("<>" ++ t))).holds
    (equal "5" (.text "5") = true ∧ different "5" (.text "5") = true) ∧
      (equal "#N/A" (.error .na) = true ∧ different "#N/A" (.error .na) = true) ∧
      (equal "nan" (.number 1.0) = false ∧ different "nan" (.number 1.0) = false) ∧
      equal "#N/A" (.text "#N/A") = false ∧ different "#N/A" (.text "#N/A") = false := by
  decide +kernel

end Recalc
