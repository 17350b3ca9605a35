import Recalc.Proofs.Library.Lookups
import Recalc.Proofs.Query.Comparisons

namespace Recalc

namespace Query
variable {σ α β : Type} {source : Runtime σ} {q : Query α} {a b : α}

def Gives (source : Runtime σ) (q : Query α) (a : α) : Prop := ∀ s, (q.observe source s).result = .ok a

theorem Gives.done : (Query.done a).Gives source a := fun _ => rfl

theorem Gives.bind {f : α → Query β} {b : β} (first : q.Gives source a) (next : (f a).Gives source b) : (q.bind f).Gives source b := by
  intro s
  rw [observe_bind,Observed.bind,first s]
  exact next _

end Query

namespace Library

def MatchMode.Upto : MatchMode → Float → Float → Prop
  | .descending, a, b => b ≤ a
  | _, a, b => a ≤ b

instance {mode : MatchMode} {a b : Float} : Decidable (mode.Upto a b) :=
  match mode with
  | .descending => inferInstanceAs (Decidable (b ≤ a))
  | .ascending => inferInstanceAs (Decidable (a ≤ b))
  | .exact => inferInstanceAs (Decidable (a ≤ b))

namespace MatchMode
variable {mode : MatchMode} {a b c n x : Float}

theorem Upto.trans (one : mode.Upto a b) (two : mode.Upto b c) : mode.Upto a c := by
  cases mode with
  | descending => exact atMost_trans two one
  | _ => exact atMost_trans one two

theorem upto_total (first : a.isNaN = false) (second : b.isNaN = false) : mode.Upto a b ∨ mode.Upto b a := by
  cases mode with
  | descending => exact atMost_total second first
  | _ => exact atMost_total first second

theorem upto_refl (number : a.isNaN = false) : mode.Upto a a := by
  cases mode <;> exact atMost_refl number

theorem step_error (e : ErrorValue) : mode.step (.error e) (.number x) = (false,true) := by
  cases mode <;> rfl

theorem compared (first : n.isNaN = false) (second : x.isNaN = false) :
    ∃ o, Value.compareNumbers n x = some o ∧ (Value.number n).compare (.number x) = .ok o :=
  Value.compare_numbers (l := .number n) (r := .number x) first second (by simp [Value.zeroIfBlank,Value.isBlank,Value.isText])

theorem step_number (sorted : mode ≠ .exact) (first : n.isNaN = false) (second : x.isNaN = false) :
    mode.step (.number n) (.number x) = (decide (mode.Upto n x),!decide (mode.Upto x n)) := by
  obtain ⟨o,found,compares⟩ := compared first second
  have up : n ≤ x ↔ o.isLE = true := by simp [atMost_iff,found]
  have down : x ≤ n ↔ o.swap.isLE = true := by simp [atMost_iff,← compareNumbers_swap n,found]
  cases mode with
  | exact => exact absurd rfl sorted
  | ascending =>
    simp only [step,compares,Upto,up,down]
    cases o <;> rfl
  | descending =>
    simp only [step,compares,Upto,up,down]
    cases o <;> rfl

end MatchMode

def Passed (v : Value) : Prop := v.isBlank = true ∨ v.isError = true

section
variable {σ : Type} {source : Runtime σ} {mode : MatchMode} {x : Float} {get : Nat → Query Value} {value : Nat → Value}
  {found : Option Nat} {i : Nat} {places : List Nat} {p : Option Nat}

theorem scan_stepped (holds : (get i).Gives source (value i)) (filled : (value i).isBlank = false)
    (stepped : mode.step (value i) (.number x) = (keep,goOn))
    (rest : (if goOn then scan mode (.number x) get (if keep then some i else found) places
      else .done (if keep then some i else found)).Gives source p) :
    (scan mode (.number x) get found (i :: places)).Gives source p := by
  refine holds.bind ?_
  rw [if_neg (Bool.eq_false_iff.mp filled),stepped]
  exact rest

theorem scan_passed (holds : (get i).Gives source (value i)) (passed : Passed (value i))
    (rest : (scan mode (.number x) get found places).Gives source p) : (scan mode (.number x) get found (i :: places)).Gives source p := by
  cases blank : (value i).isBlank with
  | true =>
    refine holds.bind ?_
    rw [if_pos blank]
    exact rest
  | false =>
    have error := passed.resolve_left (Bool.eq_false_iff.mp blank)
    cases shown : value i with
    | error e =>
      have stepped : mode.step (value i) (.number x) = (false,true) := shown ▸ MatchMode.step_error e
      exact scan_stepped holds blank stepped rest
    | _ =>
      rw [shown] at error
      cases error

structure Laid (source : Runtime σ) (get : Nat → Query Value) (value : Nat → Value) (places : List Nat) : Prop where
  holds : ∀ i ∈ places, (get i).Gives source (value i)
  numbers : ∀ i ∈ places, Passed (value i) ∨ ∃ n, value i = .number n ∧ n.isNaN = false
  upward : places.Pairwise (· < ·)

def Sorted (mode : MatchMode) (value : Nat → Value) (places : List Nat) : Prop :=
  ∀ i ∈ places, ∀ j ∈ places, i < j → ∀ n m, value i = .number n → value j = .number m → mode.Upto n m

theorem Laid.tail (laid : Laid source get value (i :: places)) : Laid source get value places :=
  ⟨fun j member => laid.holds j (.tail _ member),fun j member => laid.numbers j (.tail _ member),(List.pairwise_cons.mp laid.upward).2⟩

theorem Sorted.tail (sorted : Sorted mode value (i :: places)) : Sorted mode value places :=
  fun j member k member' => sorted j (.tail _ member) k (.tail _ member')

theorem passed_number (passed : Passed (value i)) : value i ≠ .number n := by
  intro number
  rw [number] at passed
  rcases passed with blank | error
  · cases blank
  · cases error

-- Where a scan of sorted numbers ends: all before come short of the item, and the item is reached or all after
-- are beyond it.
structure Reached (mode : MatchMode) (x : Float) (value : Nat → Value) (places : List Nat) (i : Nat) (n : Float) : Prop where
  member : i ∈ places
  number : value i = .number n
  upto : mode.Upto n x
  before : ∀ j ∈ places, j < i → ∀ m, value j = .number m → ¬ mode.Upto x m
  after : mode.Upto x n ∨ ∀ j ∈ places, i < j → ∀ m, value j = .number m → ¬ mode.Upto m x

theorem Reached.cons (upward : ∀ k ∈ places, i < k) (short : ∀ m, value i = .number m → ¬ mode.Upto x m)
    (reached : Reached mode x value places j n) : Reached mode x value (i :: places) j n := by
  obtain ⟨member,number,upto,before,after⟩ := reached
  refine ⟨.tail _ member,number,upto,?_,after.imp_right fun beyond => ?_⟩
  · exact List.forall_mem_cons.mpr ⟨fun _ => short,before⟩
  · exact List.forall_mem_cons.mpr ⟨fun later => absurd (upward j member) (Nat.lt_asymm later),beyond⟩

theorem Reached.first (upward : ∀ k ∈ places, i < k) (number : value i = .number n) (upto : mode.Upto n x)
    (after : mode.Upto x n ∨ ∀ j ∈ places, ∀ m, value j = .number m → ¬ mode.Upto m x) : Reached mode x value (i :: places) i n := by
  refine ⟨List.mem_cons_self,number,upto,?_,after.imp_right fun beyond => ?_⟩
  · exact List.forall_mem_cons.mpr ⟨fun earlier => absurd earlier (Nat.lt_irrefl i),
      fun j member earlier => absurd (upward j member) (Nat.lt_asymm earlier)⟩
  · exact List.forall_mem_cons.mpr ⟨fun later => absurd later (Nat.lt_irrefl i),fun j member _ => beyond j member⟩

theorem scan_sorted (found : Option Nat) (mixed : mode ≠ .exact) (item : x.isNaN = false) (laid : Laid source get value places)
    (sorted : Sorted mode value places) : ∃ p, (scan mode (.number x) get found places).Gives source p ∧
      (p = found ∧ (∀ i ∈ places, ∀ n, value i = .number n → ¬ mode.Upto n x) ∨
        ∃ i n, p = some i ∧ Reached mode x value places i n) := by
  induction places generalizing found with
  | nil => exact ⟨found,.done,.inl ⟨rfl,nofun⟩⟩
  | cons i more ih =>
    have least := (List.pairwise_cons.mp laid.upward).1
    have here := laid.holds i List.mem_cons_self
    rcases laid.numbers i List.mem_cons_self with passed | ⟨n,number,counts⟩
    · have short (n : Float) (number : value i = .number n) {p : Prop} : p := absurd number (passed_number passed)
      obtain ⟨p,scanned,ends⟩ := ih found laid.tail sorted.tail
      refine ⟨p,scan_passed here passed scanned,ends.imp ?_ ?_⟩
      · rintro ⟨rfl,beyond⟩
        exact ⟨rfl,List.forall_mem_cons.mpr ⟨fun n number => short n number,beyond⟩⟩
      · rintro ⟨j,m,rfl,reached⟩
        exact ⟨j,m,rfl,reached.cons least fun n number => short n number⟩
    · have stepped := MatchMode.step_number mixed counts item
      have filled : (value i).isBlank = false := by rw [number]; rfl
      have same {m : Float} (other : value i = .number m) : m = n := Value.number.inj (other.symm.trans number)
      rw [← number] at stepped
      by_cases upto : mode.Upto n x
      · rw [decide_eq_true upto] at stepped
        by_cases reaches : mode.Upto x n
        · rw [decide_eq_true reaches] at stepped
          exact ⟨some i,scan_stepped here filled stepped .done,.inr ⟨i,n,rfl,.first least number upto (.inl reaches)⟩⟩
        · rw [decide_eq_false reaches] at stepped
          obtain ⟨p,scanned,ends⟩ := ih (some i) laid.tail sorted.tail
          refine ⟨p,scan_stepped here filled stepped scanned,.inr ?_⟩
          rcases ends with ⟨rfl,beyond⟩ | ⟨j,m,rfl,reached⟩
          · exact ⟨i,n,rfl,.first least number upto (.inr beyond)⟩
          · exact ⟨j,m,rfl,reached.cons least fun m other => same other ▸ reaches⟩
      · -- what follows is no nearer
        have beyond : ∀ j ∈ i :: more, ∀ m, value j = .number m → ¬ mode.Upto m x := by
          refine List.forall_mem_cons.mpr ⟨fun m other => same other ▸ upto,fun j member m other nearer => upto ?_⟩
          exact (sorted i List.mem_cons_self j (.tail _ member) (least j member) n m number other).trans nearer
        have ends : mode.Upto x n := (MatchMode.upto_total counts item).resolve_left upto
        rw [decide_eq_false upto,decide_eq_true ends] at stepped
        exact ⟨found,scan_stepped here filled stepped .done,.inl ⟨rfl,beyond⟩⟩

theorem scan_exact (laid : Laid source get value places) : ∃ p, (scan .exact (.number x) get none places).Gives source p ∧
    (p = none ∧ (∀ i ∈ places, ∀ n, value i = .number n → (n == x) = false) ∨
      ∃ i n, p = some i ∧ i ∈ places ∧ value i = .number n ∧ (n == x) = true ∧
        ∀ j ∈ places, ∀ m, value j = .number m → (m == x) = true → i ≤ j) := by
  induction places with
  | nil => exact ⟨none,.done,.inl ⟨rfl,nofun⟩⟩
  | cons i more ih =>
    have least := (List.pairwise_cons.mp laid.upward).1
    have here := laid.holds i List.mem_cons_self
    obtain ⟨p,scanned,ends⟩ := ih laid.tail
    have onward (differs : ∀ m, value i = .number m → (m == x) = false) :
        (p = none ∧ (∀ j ∈ i :: more, ∀ n, value j = .number n → (n == x) = false) ∨
      ∃ i' n, p = some i' ∧ i' ∈ i :: more ∧ value i' = .number n ∧ (n == x) = true ∧
        ∀ j ∈ i :: more, ∀ m, value j = .number m → (m == x) = true → i' ≤ j) := by
      refine ends.imp ?_ ?_
      · rintro ⟨rfl,others⟩
        exact ⟨rfl,List.forall_mem_cons.mpr ⟨differs,others⟩⟩
      · rintro ⟨j,m,rfl,member,number,equal,first⟩
        exact ⟨j,m,rfl,.tail _ member,number,equal,List.forall_mem_cons.mpr ⟨fun m number equal => by simp [differs m number] at equal,first⟩⟩
    rcases laid.numbers i List.mem_cons_self with passed | ⟨n,number,counts⟩
    · exact ⟨p,scan_passed here passed scanned,onward fun m number => absurd number (passed_number passed)⟩
    · have filled : (value i).isBlank = false := by rw [number]; rfl
      have same {m : Float} (other : value i = .number m) : m = n := Value.number.inj (other.symm.trans number)
      have stepped : MatchMode.exact.step (value i) (.number x) = if n == x then (true,false) else (false,true) := by rw [number]; rfl
      cases equal : n == x with
      | true =>
        rw [equal] at stepped
        refine ⟨some i,scan_stepped here filled stepped .done,.inr ⟨i,n,rfl,List.mem_cons_self,number,equal,?_⟩⟩
        exact List.forall_mem_cons.mpr ⟨fun _ _ _ => Nat.le_refl i,fun j member _ _ _ => Nat.le_of_lt (least j member)⟩
      | false =>
        rw [equal] at stepped
        exact ⟨p,scan_stepped here filled stepped scanned,onward fun m other => same other ▸ equal⟩

end

inductive MatchMode.Said : List Operand → MatchMode → Prop where
  | unsaid : Said [] .ascending
  | ascending : Said [.value (.number 1.0)] .ascending
  | exact : Said [.value (.number 0.0)] .exact
  | descending : Said [.value (.number (-1.0))] .descending

namespace Table

def along (t : Table) (i : Nat) : Query Value := if t.rows = 1 then t.get 0 i else t.get i 0

def length (t : Table) : Nat := max t.rows t.columns

end Table

def position : Option Nat → Value
  | some i => .number (Float.ofNat (i + 1))
  | none => .error .na

theorem match_scan {x vector : Operand} {item : Value} {t : Table} {order : List Operand} {mode : MatchMode} (given : x.scalar = .done item)
    (sound : item.isError = false) (made : Table.of vector false = .done t) (line : t.rows = 1 ∨ t.columns = 1) (said : MatchMode.Said order mode) :
    (matchPosition (x :: vector :: order)).settle = (scan mode item t.along none (List.range t.length)).bind fun found =>
      .done (position found) := by
  have first : (arg (x :: vector :: order) 0).scalar = .done item := given
  have second : Table.of (arg (x :: vector :: order) 1) false = .done t := made
  have third : ∃ kind : Float, numberOr 1.0 (x :: vector :: order)[2]? = pure kind ∧
      (if Decimal.toInt kind = 0 then MatchMode.exact else if 0 < Decimal.toInt kind then .ascending else .descending) = mode := by
    cases said with
    | unsaid => exact ⟨1.0,rfl,by decide⟩
    | ascending => exact ⟨1.0,rfl,by decide⟩
    | exact => exact ⟨0.0,rfl,by decide +kernel⟩
    | descending => exact ⟨-1.0,rfl,by decide⟩
  obtain ⟨kind,third,rfl⟩ := third
  unfold matchPosition
  rw [first,second,third,Work.lift_done]
  dsimp only
  split
  · cases sound
  rw [pure_bind,Work.lift_done,if_neg (by rcases line with one | one <;> simp [one]),Work.settle_bind]
  congr 1
  funext found
  cases found <;> rfl

structure Located (result : Except FormulaError Value) (held : Nat → Float → Prop) (fits beyond : Float → Prop)
    (best : Nat → Float → Nat → Float → Prop) : Prop where
  missing : result = .ok (.error .na) ↔ ∀ i n, held i n → beyond n
  found : (∃ i n, held i n ∧ fits n) → ∃ i n, held i n ∧ fits n ∧ (∀ j m, held j m → fits m → best i n j m) ∧
    result = .ok (.number (Float.ofNat (i + 1)))

theorem Located.of_search {result : Except FormulaError Value} {held : Nat → Float → Prop} {fits beyond : Float → Prop}
    {best : Nat → Float → Nat → Float → Prop} {p : Option Nat} (apart : ∀ i n, held i n → fits n → ¬ beyond n)
    (searched : result = .ok (position p))
    (ends : (p = none ∧ ∀ i n, held i n → beyond n) ∨
      ∃ i n, p = some i ∧ held i n ∧ fits n ∧ ∀ j m, held j m → fits m → best i n j m) : Located result held fits beyond best := by
  rcases ends with ⟨rfl,all⟩ | ⟨i,n,rfl,here,fit,rest⟩
  · exact ⟨⟨fun _ => all,fun _ => searched⟩,fun ⟨i,n,here,fit⟩ => absurd (all i n here) (apart i n here fit)⟩
  · refine ⟨⟨fun missing => ?_,fun all => absurd (all i n here) (apart i n here fit)⟩,fun _ => ⟨i,n,here,fit,rest,searched⟩⟩
    cases searched.symm.trans missing

section
variable {σ : Type} {source : Runtime σ} {x vector : Operand} {item : Float} {t : Table} {value : Nat → Value} {mode : MatchMode}
  {order : List Operand} {p : Option Nat}

theorem match_gives (given : x.scalar = .done (.number item)) (made : Table.of vector false = .done t) (line : t.rows = 1 ∨ t.columns = 1)
    (said : MatchMode.Said order mode) (scanned : (scan mode (.number item) t.along none (List.range t.length)).Gives source p) :
    (apply .matchPosition (x :: vector :: order)).Gives source (position p) := by
  change (matchPosition (x :: vector :: order)).settle.Gives source (position p)
  rw [match_scan given rfl made line said]
  exact scanned.bind .done

theorem Reached.best {places : List Nat} (sorted : Sorted mode value places) (reached : Reached mode item value places i n)
    (counts : n.isNaN = false) (member : j ∈ places) (number : value j = .number m) (upto : mode.Upto m item) : mode.Upto m n := by
  rcases Nat.lt_trichotomy j i with earlier | rfl | later
  · exact sorted j member i reached.member earlier m n number reached.number
  · cases number.symm.trans reached.number
    exact MatchMode.upto_refl counts
  · rcases reached.after with reaches | beyond
    · exact upto.trans reaches
    · exact absurd upto (beyond j member later m number)

theorem match_sorted (given : x.scalar = .done (.number item)) (counts : item.isNaN = false) (made : Table.of vector false = .done t)
    (line : t.rows = 1 ∨ t.columns = 1) (laid : Laid source t.along value (List.range t.length)) (mixed : mode ≠ .exact)
    (said : MatchMode.Said order mode) (sorted : Sorted mode value (List.range t.length)) {beyond : Float → Prop}
    (apart : ∀ n : Float, n.isNaN = false → (beyond n ↔ ¬ mode.Upto n item)) (s : σ) :
    Located ((apply .matchPosition (x :: vector :: order)).observe source s).result (fun i n => i < t.length ∧ value i = .number n)
      (mode.Upto · item) beyond fun _ n _ m => mode.Upto m n := by
  obtain ⟨p,scanned,ends⟩ := scan_sorted none mixed counts laid sorted
  have number {i : Nat} {n : Float} (here : i < t.length ∧ value i = .number n) : n.isNaN = false := by
    rcases laid.numbers i (List.mem_range.mpr here.1) with passed | ⟨m,number,counts⟩
    · exact absurd here.2 (passed_number passed)
    · cases number.symm.trans here.2
      exact counts
  refine .of_search (fun i n here fits beyond => (apart n (number here)).mp beyond fits) (match_gives given made line said scanned s) ?_
  refine ends.imp ?_ ?_
  · rintro ⟨rfl,all⟩
    exact ⟨rfl,fun i n here => (apart n (number here)).mpr (all i (List.mem_range.mpr here.1) n here.2)⟩
  · rintro ⟨i,n,rfl,reached⟩
    have here := List.mem_range.mp reached.member
    exact ⟨i,n,rfl,⟨here,reached.number⟩,reached.upto,fun j m there upto =>
      reached.best sorted (number ⟨here,reached.number⟩) (List.mem_range.mpr there.1) there.2 upto⟩

end

-- In a sorted vector a search ends at the number next to the item, in any other at the first equal one.
theorem match_locates {σ : Type} {source : Runtime σ} {x vector : Operand} {item : Float} {t : Table} {value : Nat → Value}
    (given : x.scalar = .done (.number item)) (finite : item.isFinite = true) (made : Table.of vector false = .done t)
    (line : t.rows = 1 ∨ t.columns = 1) (holds : ∀ i < t.length, (t.along i).Gives source (value i))
    (numbers : ∀ i < t.length, Passed (value i) ∨ ∃ n, value i = .number n ∧ n.isFinite = true) (s : σ) :
    let result (order : List Operand) := ((apply .matchPosition (x :: vector :: order)).observe source s).result
    let held (i : Nat) (n : Float) := i < t.length ∧ value i = .number n
    ((∀ i j n m, held i n → held j m → i < j → n ≤ m) → ∀ order ∈ [[],[.value (.number 1.0)]],
        Located (result order) held (· ≤ item) (item < ·) fun _ n _ m => m ≤ n) ∧
      ((∀ i j n m, held i n → held j m → i < j → m ≤ n) →
        Located (result [.value (.number (-1.0))]) held (item ≤ ·) (· < item) fun _ n _ m => n ≤ m) ∧
      Located (result [.value (.number 0.0)]) held (· == item) (fun n => (n == item) = false) fun i _ j _ => i ≤ j := by
  intro result held
  have counts := finite_number finite
  have laid : Laid source t.along value (List.range t.length) := by
    refine ⟨fun i member => holds i (List.mem_range.mp member),fun i member => ?_,List.pairwise_lt_range⟩
    exact (numbers i (List.mem_range.mp member)).imp_right fun ⟨n,number,finite⟩ => ⟨n,number,finite_number finite⟩
  refine ⟨fun sorted order member => ?_,fun sorted => ?_,?_⟩
  · have said : MatchMode.Said order .ascending := by
      simp only [List.mem_cons,List.not_mem_nil,or_false] at member
      rcases member with rfl | rfl
      · exact .unsaid
      · exact .ascending
    exact match_sorted given counts made line laid (by decide) said
      (fun i here j there less n m one other => sorted i j n m ⟨List.mem_range.mp here,one⟩ ⟨List.mem_range.mp there,other⟩ less)
      (fun n number => (atMost_not number counts).not_left.symm) s
  · exact match_sorted given counts made line laid (by decide) .descending
      (fun i here j there less n m one other => sorted i j n m ⟨List.mem_range.mp here,one⟩ ⟨List.mem_range.mp there,other⟩ less)
      (fun n number => (atMost_not counts number).not_left.symm) s
  · obtain ⟨p,scanned,ends⟩ := scan_exact (x := item) laid
    refine .of_search (fun i n here equal differs => by simp [equal] at differs) (match_gives given made line .exact scanned s) ?_
    refine ends.imp ?_ ?_
    · rintro ⟨rfl,none⟩
      exact ⟨rfl,fun i n here => none i (List.mem_range.mpr here.1) n here.2⟩
    · rintro ⟨i,n,rfl,member,number,equal,first⟩
      exact ⟨i,n,rfl,⟨List.mem_range.mp member,number⟩,equal,fun j m there => first j (List.mem_range.mpr there.1) m there.2⟩

def gapped : List Value := [.number 1.0,.empty,.number 3.0,.number 3.0]

theorem match_locates_between :
    let result (order : List Operand) := ((apply .matchPosition (.value (.number 2.0) :: .value (.array [gapped]) :: order)).observe
      (.sheet []) ()).result
    result [] = .ok (.number (Float.ofNat 1)) ∧ result [.value (.number 0.0)] = .ok (.error .na) := by
  intro result
  let value (i : Nat) : Value := gapped.getD i .empty
  have cells : ∀ i < 4, Passed (value i) ∨ value i = .number 1.0 ∧ i = 0 ∨ value i = .number 3.0 ∧ 2 ≤ i := by
    intro i inside
    obtain rfl | rfl | rfl | rfl : i = 0 ∨ i = 1 ∨ i = 2 ∨ i = 3 := by omega
    · exact .inr (.inl ⟨rfl,rfl⟩)
    · exact .inl (.inl rfl)
    · exact .inr (.inr ⟨rfl,by decide⟩)
    · exact .inr (.inr ⟨rfl,by decide⟩)
  have held {i : Nat} {n : Float} (here : i < 4 ∧ value i = .number n) : n = 1.0 ∧ i = 0 ∨ n = 3.0 ∧ 2 ≤ i := by
    rcases cells i here.1 with passed | ⟨number,first⟩ | ⟨number,later⟩
    · exact absurd here.2 (passed_number passed)
    · exact .inl ⟨Value.number.inj (here.2.symm.trans number),first⟩
    · exact .inr ⟨Value.number.inj (here.2.symm.trans number),later⟩
  obtain ⟨ascending,-,exact⟩ := @match_locates Unit (.sheet []) (.value (.number 2.0)) (.value (.array [gapped])) 2.0
    ⟨.inr [gapped],false⟩ value rfl (by decide) rfl (.inl rfl) (by
      intro i inside
      obtain rfl | rfl | rfl | rfl : i = 0 ∨ i = 1 ∨ i = 2 ∨ i = 3 := by change i < 4 at inside; omega
      all_goals exact .done) (by
      intro i inside
      exact (cells i inside).imp_right fun number => number.elim (fun one => ⟨_,one.1,by decide⟩) fun three => ⟨_,three.1,by decide⟩) ()
  constructor
  · obtain ⟨i,n,here,fits,-,found⟩ := (ascending (by
      intro i j n m one other less
      rcases held one with ⟨rfl,first⟩ | ⟨rfl,later⟩ <;> rcases held other with ⟨rfl,first'⟩ | ⟨rfl,later'⟩
      · omega
      · decide
      · omega
      · decide) [] List.mem_cons_self).found ⟨0,1.0,⟨by decide,rfl⟩,by decide⟩
    rcases held here with ⟨rfl,rfl⟩ | ⟨rfl,-⟩
    · exact found
    · exact absurd fits (by decide)
  · refine exact.missing.mpr fun i n here => ?_
    rcases held here with ⟨rfl,-⟩ | ⟨rfl,-⟩ <;> decide

end Library
end Recalc
