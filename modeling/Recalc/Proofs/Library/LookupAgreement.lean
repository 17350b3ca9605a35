import Recalc.Proofs.Address.Spelling
import Recalc.Proofs.Library.Vectors

namespace Recalc.Library

section
variable {σ : Type} {source : Runtime σ} {t : Table} {item : Float} {value : Nat → Value} {lines : List Nat} {found p : Option Nat}

structure Last (item : Float) (value : Nat → Value) (lines : List Nat) (i : Nat) (n : Float) : Prop where
  member : i ∈ lines
  number : value i = .number n
  upto : n ≤ item
  after : ∀ j ∈ lines, i < j → ∀ m, value j = .number m → ¬ m ≤ item

theorem Last.cons (upward : ∀ k ∈ lines, i < k) (last : Last item value lines j n) : Last item value (i :: lines) j n := by
  obtain ⟨member,number,upto,after⟩ := last
  exact ⟨.tail _ member,number,upto,List.forall_mem_cons.mpr ⟨fun later => absurd (upward j member) (Nat.lt_asymm later),after⟩⟩

theorem Table.findBelow_number (holds : (t.get i 0).Gives source (value i)) (number : value i = .number n)
    (rest : (if n ≤ item then t.findBelow item (some i) lines else .done found).Gives source p) :
    (t.findBelow item found (i :: lines)).Gives source p := by
  refine holds.bind ?_
  rw [number]
  exact rest

theorem Table.findBelow_passed (holds : (t.get i 0).Gives source (value i)) (passed : Passed (value i))
    (rest : (t.findBelow item found lines).Gives source p) : (t.findBelow item found (i :: lines)).Gives source p := by
  refine holds.bind ?_
  cases shown : value i with
  | number n => exact absurd shown (passed_number passed)
  | _ => exact rest

theorem Table.findBelow_last (found : Option Nat) (laid : Laid source (t.get · 0) value lines) (sorted : Sorted .ascending value lines) :
    ∃ p, (t.findBelow item found lines).Gives source p ∧
      (p = found ∧ (∀ i ∈ lines, ∀ n, value i = .number n → ¬ n ≤ item) ∨ ∃ i n, p = some i ∧ Last item value lines i n) := by
  induction lines generalizing found with
  | nil => exact ⟨found,.done,.inl ⟨rfl,nofun⟩⟩
  | cons i more ih =>
    have least := (List.pairwise_cons.mp laid.upward).1
    have here := laid.holds i List.mem_cons_self
    rcases laid.numbers i List.mem_cons_self with passed | ⟨n,number,-⟩
    · obtain ⟨p,searched,ends⟩ := ih found laid.tail sorted.tail
      refine ⟨p,findBelow_passed here passed searched,ends.imp ?_ ?_⟩
      · rintro ⟨rfl,above⟩
        exact ⟨rfl,List.forall_mem_cons.mpr ⟨fun n number => absurd number (passed_number passed),above⟩⟩
      · rintro ⟨j,m,rfl,last⟩
        exact ⟨j,m,rfl,last.cons least⟩
    · have same {m : Float} (other : value i = .number m) : m = n := Value.number.inj (other.symm.trans number)
      by_cases upto : n ≤ item
      · obtain ⟨p,searched,ends⟩ := ih (some i) laid.tail sorted.tail
        refine ⟨p,findBelow_number here number (by rwa [if_pos upto]),.inr ?_⟩
        rcases ends with ⟨rfl,above⟩ | ⟨j,m,rfl,last⟩
        · refine ⟨i,n,rfl,List.mem_cons_self,number,upto,?_⟩
          exact List.forall_mem_cons.mpr ⟨fun later => absurd later (Nat.lt_irrefl i),fun j member _ => above j member⟩
        · exact ⟨j,m,rfl,last.cons least⟩
      · refine ⟨found,findBelow_number here number (by rw [if_neg upto]; exact .done),.inl ⟨rfl,?_⟩⟩
        refine List.forall_mem_cons.mpr ⟨fun m other => same other ▸ upto,fun j member m other nearer => upto ?_⟩
        exact atMost_trans (sorted i List.mem_cons_self j (.tail _ member) (least j member) n m number other) nearer

theorem Reached.parts (reached : Reached .ascending item value lines i n) (last : Last item value lines j m) :
    (n == item) = true ∧ (∀ k ∈ lines, k < i → ∀ l, value k = .number l → (l == item) = false) ∨
      i = j ∧ ∀ k ∈ lines, ∀ l, value k = .number l → (l == item) = false := by
  have differs {l : Float} (apart : ¬ item ≤ l ∨ ¬ l ≤ item) : (l == item) = false :=
    Bool.eq_false_iff.mpr fun same => apart.elim (absurd (atMost_both.mpr same).2) (absurd (atMost_both.mpr same).1)
  by_cases reaches : item ≤ n
  · refine .inl ⟨atMost_both.mp ⟨reached.upto,reaches⟩,fun k member earlier l number => differs (.inl ?_)⟩
    exact reached.before k member earlier l number
  · have beyond := reached.after.resolve_left reaches
    refine .inr ⟨?_,fun k member l number => differs ?_⟩
    · rcases Nat.lt_trichotomy i j with earlier | same | later
      · exact absurd last.upto (beyond j last.member earlier m last.number)
      · exact same
      · exact absurd reached.upto (last.after i reached.member later n reached.number)
    · rcases Nat.lt_trichotomy k i with earlier | rfl | later
      · exact .inl (reached.before k member earlier l number)
      · cases number.symm.trans reached.number
        exact .inl reaches
      · exact .inr (beyond k member later l number)

end

section
variable {table : Operand} {t : Table} {n : Float}

theorem Counts.not_bad (counts : Counts n limit) : badIndex n = false := by
  have above : ¬ n ≤ -1.0 := fun low => absurd (atMost_trans counts.least low) (by decide)
  simp [badIndex,counts.finite,above]

theorem index_at (made : Table.of table false = .done t) (row : i < t.rows) (exact : i + 1 < countLimit) (counts : Counts n t.columns) :
    (index [table,.value (position (some i)),.value (.number n)]).settle = t.get i (Decimal.toCount n - 1) := by
  have first : Table.of (arg [table,.value (position (some i)),.value (.number n)] 0) false = .done t := made
  have second : (arg [table,.value (position (some i)),.value (.number n)] 1).number = pure (Float.ofNat (i + 1)) := rfl
  have sound : badIndex (Float.ofNat (i + 1)) = false := by
    simp [badIndex,counted_number (Nat.succ_pos i) exact,counted_above (Nat.succ_pos i) exact]
  have one := counts_one counts.finite counts.least
  unfold index
  rw [first,second,Work.lift_done,pure_bind]
  change Work.settle (if badIndex (Float.ofNat (i + 1)) = true ∨ badIndex n = true then _ else _) = _
  rw [if_neg (by simp [sound,counts.not_bad])]
  rw [counted_back (Nat.succ_pos i) exact,if_neg (by omega),if_neg (by have := counts.most; omega)]
  exact Work.settle_lift _

theorem index_missing (made : Table.of table false = .done t) :
    (index [table,.value (position none),.value (.number n)]).settle = .done (.error .na) := by
  have first : Table.of (arg [table,.value (position none),.value (.number n)] 0) false = .done t := made
  unfold index
  rw [first]
  rfl

structure FirstColumn (t c : Table) : Prop where
  alone : c.columns = 1
  long : c.rows = t.rows
  same : ∀ i < t.rows, c.get i 0 = t.get i 0

theorem firstColumn_slice {r slice : Rect} (sliced : r.columnSlice 1 = some slice) : FirstColumn ⟨.inl r,false⟩ ⟨.inl slice,false⟩ := by
  unfold Rect.columnSlice at sliced
  split at sliced
  · rename_i filled
    cases sliced
    refine ⟨Nat.add_eq_right.mpr (Nat.sub_self _),rfl,fun i inside => ?_⟩
    change Rect.valueAt _ i 0 = Rect.valueAt r i 0
    have within : i < r.rows := inside
    have slim : 0 < Rect.columns ⟨r.sheet,r.firstColumn + (1 - 1),r.firstRow,r.firstColumn + (1 - 1),r.lastRow⟩ := Nat.succ_pos _
    unfold Rect.valueAt Rect.cell?
    rw [if_pos ⟨within,slim⟩,if_pos ⟨within,filled.2⟩]
    rfl
  · cases sliced

theorem FirstColumn.along (column : FirstColumn t c) : ∀ i < t.rows, c.along i = t.get i 0 := by
  intro i inside
  unfold Table.along
  split
  · rename_i one
    rw [column.long] at one
    obtain rfl : i = 0 := by omega
    exact column.same 0 inside
  · exact column.same i inside

theorem FirstColumn.length (column : FirstColumn t c) (some : 0 < t.rows) : c.length = t.rows := by
  unfold Table.length
  rw [column.alone,column.long]
  omega

end

theorem Table.rows_pos {table : Operand} {t : Table} (made : Table.of table false = .done t) (wide : 0 < t.columns) : 0 < t.rows := by
  cases table with
  | range r =>
    cases made
    exact Nat.succ_pos _
  | value v => cases v with
    | array rows =>
      cases made
      cases rows with
      | nil => cases wide
      | cons row rest => exact Nat.succ_pos _
    | _ =>
      cases made
      exact Nat.one_pos

theorem rows_counted {r : Rect} (bounded : r.Bounded) : r.rows < countLimit := by
  have limits : Column.limit < countLimit := by decide
  have rows : r.rows = r.lastRow - r.firstRow + 1 := rfl
  have most := bounded.row
  omega

def taken (cell : Nat → Value) : Option Nat → Value
  | some i => cell i
  | none => .error .na

section
variable {σ : Type} {source : Runtime σ} {x table keys : Operand} {item n : Float} {t c : Table} {cell : Nat → Value} {p : Option Nat}

theorem vlookup_gives (given : x.scalar = .done (.number item)) (made : Table.of table false = .done t) (counts : Counts n t.columns)
    (searched : (t.findBelow item none (List.range t.rows)).Gives source p)
    (results : ∀ i, p = some i → (t.get i (Decimal.toCount n - 1)).Gives source (cell i)) :
    (apply .vlookup [x,table,.value (.number n),.value (.boolean true)]).Gives source (taken cell p) := by
  change (lookup false [x,table,.value (.number n),.value (.boolean true)]).settle.Gives source _
  rw [lookup_search given ⟨rfl,rfl,rfl⟩ made counts (.approximate rfl)]
  refine searched.bind ?_
  cases p with
  | none => exact .done
  | some i => exact results i rfl

theorem index_gives (made : Table.of table false = .done t) (exact : t.rows < countLimit) (counts : Counts n t.columns)
    (within : ∀ i, p = some i → i < t.rows ∧ (t.get i (Decimal.toCount n - 1)).Gives source (cell i)) :
    (apply .index [table,.value (position p),.value (.number n)]).Gives source (taken cell p) := by
  change (index [table,.value (position p),.value (.number n)]).settle.Gives source _
  cases p with
  | none =>
    rw [index_missing made]
    exact .done
  | some i =>
    obtain ⟨row,result⟩ := within i rfl
    rw [index_at made row (Nat.lt_of_le_of_lt row exact) counts]
    exact result

variable {value : Nat → Value}

theorem approximate_ends (given : x.scalar = .done (.number item)) (counted : item.isNaN = false) (made : Table.of table false = .done t)
    (column : Table.of keys false = .done c) (first : FirstColumn t c) (exact : t.rows < countLimit) (counts : Counts n t.columns)
    (laid : Laid source (t.get · 0) value (List.range t.rows)) (ascending : Sorted .ascending value (List.range t.rows))
    (results : ∀ i ∈ List.range t.rows, (t.get i (Decimal.toCount n - 1)).Gives source (cell i)) :
    ∃ p q, (apply .vlookup [x,table,.value (.number n),.value (.boolean true)]).Gives source (taken cell p) ∧
      ((apply .matchPosition [x,keys,.value (.number 1.0)]).bind fun p => apply .index [table,.value p,.value (.number n)]).Gives source
        (taken cell q) ∧
      ((p = none ∧ q = none ∧ ∀ i ∈ List.range t.rows, ∀ m, value i = .number m → ¬ m ≤ item) ∨
        ∃ i j m l, p = some i ∧ q = some j ∧ Last item value (List.range t.rows) i m ∧
          Reached .ascending item value (List.range t.rows) j l) := by
  have long := first.length (t.rows_pos made (Nat.lt_of_lt_of_le (counts_one counts.finite counts.least) counts.most))
  have along : Laid source c.along value (List.range c.length) := by
    rw [long]
    exact {laid with holds := fun i member => (first.along i (List.mem_range.mp member)).symm ▸ laid.holds i member}
  obtain ⟨p,searched,ends⟩ : ∃ p, (t.findBelow item none (List.range t.rows)).Gives source p ∧ _ := Table.findBelow_last none laid ascending
  obtain ⟨q,scanned,stops⟩ := scan_sorted (x := item) none (by decide) counted along (long.symm ▸ ascending)
  rw [long] at stops
  have inside (i : Nat) (some : p = some i) : i ∈ List.range t.rows := by
    rcases ends with ⟨rfl,-⟩ | ⟨j,m,rfl,last⟩
    · cases some
    · cases some
      exact last.member
  have within (i : Nat) (some : q = some i) : i ∈ List.range t.rows := by
    rcases stops with ⟨rfl,-⟩ | ⟨j,m,rfl,reached⟩
    · cases some
    · cases some
      exact reached.member
  refine ⟨p,q,vlookup_gives given made counts searched fun i some => results i (inside i some),?_,?_⟩
  · refine (match_gives given column (.inr first.alone) .ascending scanned).bind (index_gives made exact counts fun i some => ?_)
    exact ⟨List.mem_range.mp (within i some),results i (within i some)⟩
  · rcases ends with ⟨rfl,above⟩ | ⟨i,m,rfl,last⟩ <;> rcases stops with ⟨rfl,beyond⟩ | ⟨j,l,rfl,reached⟩
    · exact .inl ⟨rfl,rfl,above⟩
    · exact absurd reached.upto (above j reached.member l reached.number)
    · exact absurd last.upto (beyond i last.member m last.number)
    · exact .inr ⟨i,j,m,l,rfl,rfl,last,reached⟩

end

-- Looking a number up among ascending keys takes the last that is not above it. A position among them stops at the
-- first that is equal, so the two part where the number itself is repeated and nowhere else.
theorem approximate_agrees {σ : Type} {source : Runtime σ} {x table keys : Operand} {item n : Float} {t c : Table} {key : Nat → Float}
    {cell : Nat → Value} (given : x.scalar = .done (.number item)) (finite : item.isFinite = true) (made : Table.of table false = .done t)
    (column : Table.of keys false = .done c) (first : FirstColumn t c) (exact : t.rows < countLimit) (counts : Counts n t.columns)
    (holds : ∀ i < t.rows, (t.get i 0).Gives source (.number (key i))) (numbers : ∀ i < t.rows, (key i).isFinite = true)
    (sorted : ∀ i j, i < j → j < t.rows → key i ≤ key j)
    (results : ∀ i < t.rows, (t.get i (Decimal.toCount n - 1)).Gives source (cell i)) (s : σ) :
    let found := ((apply .vlookup [x,table,.value (.number n),.value (.boolean true)]).observe source s).result
    let placed := (((apply .matchPosition [x,keys,.value (.number 1.0)]).bind fun p =>
      apply .index [table,.value p,.value (.number n)]).observe source s).result
    ((∀ i < t.rows, item < key i) → found = .ok (.error .na) ∧ placed = .ok (.error .na)) ∧
      ((∃ i < t.rows, key i ≤ item) → ∃ last place, found = .ok (cell last) ∧ placed = .ok (cell place) ∧
        (last < t.rows ∧ key last ≤ item ∧ ∀ j < t.rows, last < j → item < key j) ∧
        (place < t.rows ∧ (key place == item) = true ∧ (∀ j < place, (key j == item) = false) ∨
          place = last ∧ ∀ j < t.rows, (key j == item) = false)) ∧
      ((∀ i < t.rows, ∀ j < t.rows, (key i == item) = true → (key j == item) = true → i = j) → found = placed) := by
  intro found placed
  let value (i : Nat) : Value := .number (key i)
  have ordinary (i : Nat) (inside : i < t.rows) := finite_number (numbers i inside)
  have counted := finite_number finite
  have laid : Laid source (t.get · 0) value (List.range t.rows) :=
    ⟨fun i member => holds i (List.mem_range.mp member),fun i member => .inr ⟨_,rfl,ordinary i (List.mem_range.mp member)⟩,
      List.pairwise_lt_range⟩
  have ascending : Sorted .ascending value (List.range t.rows) := fun i _ j member less n m one other => by
    cases one
    cases other
    exact sorted i j less (List.mem_range.mp member)
  obtain ⟨p,q,looked,positioned,together⟩ := approximate_ends given counted made column first exact counts laid ascending
    (fun i member => results i (List.mem_range.mp member))
  rw [show found = _ from looked s,show placed = _ from positioned s]
  rcases together with ⟨rfl,rfl,above⟩ | ⟨last,place,n,m,rfl,rfl,furthest,reached⟩
  · exact ⟨fun _ => ⟨rfl,rfl⟩,fun ⟨i,inside,upto⟩ => absurd upto (above i (List.mem_range.mpr inside) (key i) rfl),fun _ => rfl⟩
  · cases furthest.number
    cases reached.number
    have inside := List.mem_range.mp furthest.member
    have within := List.mem_range.mp reached.member
    have after (j : Nat) (row : j < t.rows) (later : last < j) : item < key j :=
      (atMost_not (ordinary j row) counted).not_left.mp (furthest.after j (List.mem_range.mpr row) later (key j) rfl)
    have upto : ¬ item < key last := (atMost_not (ordinary last inside) counted).mp furthest.upto
    refine ⟨fun above => absurd (above last inside) upto,fun _ => ?_,fun single => ?_⟩
    · refine ⟨last,place,rfl,rfl,⟨inside,furthest.upto,after⟩,(reached.parts furthest).imp ?_ ?_⟩
      · rintro ⟨equal,before⟩
        exact ⟨within,equal,fun j earlier => before j (List.mem_range.mpr (Nat.lt_trans earlier within)) earlier (key j) rfl⟩
      · rintro ⟨same,none⟩
        exact ⟨same,fun j row => none j (List.mem_range.mpr row) (key j) rfl⟩
    · rcases reached.parts furthest with ⟨equal,-⟩ | ⟨rfl,-⟩
      · have same : place = last := by
          rcases Nat.lt_trichotomy place last with earlier | same | later
          · have reaches := atMost_trans (atMost_both.mpr equal).2 (sorted place last earlier inside)
            exact single place within last inside equal (atMost_both.mp ⟨furthest.upto,reaches⟩)
          · exact same
          · exact absurd reached.upto (furthest.after place reached.member later (key place) rfl)
        rw [same]
      · rfl

def repeated : List (String × Value) :=
  [("S!A1",.number 1.0),("S!A2",.number 1.0),("S!A3",.number 2.0),("S!B1",.text "a"),("S!B2",.text "b"),("S!B3",.text "c")]

theorem approximate_agrees_third :
    let found := ((apply .vlookup [.value (.number 2.0),.range ⟨"S",1,1,2,3⟩,.value (.number 2.0),.value (.boolean true)]).observe
      (.sheet repeated) ()).result
    found = .ok (.text "c") ∧ found = (((apply .matchPosition [.value (.number 2.0),.range ⟨"S",1,1,1,3⟩,.value (.number 1.0)]).bind fun p =>
      apply .index [.range ⟨"S",1,1,2,3⟩,.value p,.value (.number 2.0)]).observe (.sheet repeated) ()).result := by
  let key (i : Nat) : Float := [1.0,1.0,2.0].getD i 0.0
  let cell (i : Nat) : Value := [.text "a",.text "b",.text "c"].getD i .empty
  have each {p : Nat → Prop} (first : p 0) (second : p 1) (third : p 2) : ∀ i < 3, p i := fun i inside => by
    obtain rfl | rfl | rfl : i = 0 ∨ i = 1 ∨ i = 2 := by omega
    · exact first
    · exact second
    · exact third
  have agree := @approximate_agrees Unit (.sheet repeated) (.value (.number 2.0)) (.range ⟨"S",1,1,2,3⟩)
    (.range ⟨"S",1,1,1,3⟩) 2.0 2.0 _ _ key cell rfl (by decide) rfl rfl (firstColumn_slice rfl)
    (rows_counted ⟨by decide,by decide⟩) ⟨by decide,by decide,by decide⟩
    (each (fun _ => rfl) (fun _ => rfl) (fun _ => rfl)) (each (by decide) (by decide) (by decide))
    (fun i j less inside => each (p := fun j => ∀ i < j, key i ≤ key j) (by decide) (by decide) (by decide) j inside i less)
    (each (fun _ => rfl) (fun _ => rfl) (fun _ => rfl)) ()
  have only : ∀ i < 3, (key i == 2.0) = true → i = 2 := each (by decide) (by decide) fun _ => rfl
  exact ⟨rfl,agree.2.2 fun i row j row' one other => (only i row one).trans (only j row' other).symm⟩

def tied : List (String × Value) := [("S!A1",.number 1.0),("S!A2",.number 1.0),("S!B1",.text "a"),("S!B2",.text "b")]

theorem approximate_parts :
    ((apply .vlookup [.value (.number 1.0),.range ⟨"S",1,1,2,2⟩,.value (.number 2.0),.value (.boolean true)]).observe (.sheet tied) ()).result =
        .ok (.text "b") ∧
      (((apply .matchPosition [.value (.number 1.0),.range ⟨"S",1,1,1,2⟩,.value (.number 1.0)]).bind fun p =>
        apply .index [.range ⟨"S",1,1,2,2⟩,.value p,.value (.number 2.0)]).observe (.sheet tied) ()).result = .ok (.text "a") := ⟨rfl,rfl⟩

end Recalc.Library
