import Recalc.Evaluation
import Recalc.Proofs.Query.LibraryReads

namespace Recalc

-- What a function reads of a range it is given: all of it, the first column or row and the
-- one at an index, or cells counted from its first one without regard to where it ends.
inductive Use where
  | whole
  | table (vertical : Bool) (index : Nat)
  | summed

def Use.Granted (g : Grants) (r : Rect) : Use → Prop
  | .whole => r.Granted g
  | .table vertical index => ∀ row column, row < r.rows → column < r.columns →
      (if vertical then column else row) ∈ [0,index - 1] → g.cells (r.cellAt row column).text
  | .summed => ∀ row column, g.cells (r.cellAt row column).text

namespace Expr
variable {g : Grants}

def tableUse (vertical : Bool) : Option Expr → Use
  | some (.literal (.number n)) => .table vertical (Decimal.toCount n)
  | _ => .whole

def use (f : Function) (args : List Expr) (i : Nat) : Use :=
  match f, i with
  | .sumIf, 2 => .summed
  | .vlookup, 1 => tableUse true args[2]?
  | .hlookup, 1 => tableUse false args[2]?
  | _, _ => .whole

mutual
def Wired (g : Grants) : Expr → Prop
  | .literal _ => True
  | .cell address => g.cells address
  | .range address => ∃ r, g.rects address = .ok r ∧ r.Granted g
  | .unary _ e => Wired g e
  | .binary _ l r => Wired g l ∧ Wired g r
  | .ifThen c t => Wired g c ∧ Wired g t
  | .ifElse c t e => Wired g c ∧ Wired g t ∧ Wired g e
  | .all args => WiredArgs g (fun _ => .whole) 0 args
  | .any args => WiredArgs g (fun _ => .whole) 0 args
  | .not e => Wired g e
  | .array rows => WiredRows g rows
  | .call f args => WiredArgs g (use f args) 0 args
  | .linest args _ _ => WiredArgs g (fun _ => .whole) 0 args
def WiredArgs (g : Grants) (use : Nat → Use) (i : Nat) : List Expr → Prop
  | [] => True
  | e :: es => (∀ address, e = .range address → ∃ r, g.rects address = .ok r ∧ (use i).Granted g r) ∧
      ((∀ address, e ≠ .range address) → Wired g e) ∧ WiredArgs g use (i + 1) es
def WiredEach (g : Grants) : List Expr → Prop
  | [] => True
  | e :: es => Wired g e ∧ WiredEach g es
def WiredRows (g : Grants) : List (List Expr) → Prop
  | [] => True
  | r :: rs => WiredEach g r ∧ WiredRows g rs
end

def Supplies (g : Grants) (use : Use) (e : Expr) : Operand → Prop
  | .range r => (∃ address, e = .range address) ∧ use.Granted g r
  | .value v => ∀ w, e = .literal w → v = w

def SuppliesAll (g : Grants) (use : Nat → Use) (i : Nat) : List Expr → List Operand → Prop
  | [], [] => True
  | e :: es, o :: os => Supplies g (use i) e o ∧ SuppliesAll g use (i + 1) es os
  | _, _ => False

theorem SuppliesAll.at {use : Nat → Use} (supplied : SuppliesAll g use i es os) (found : os[k]? = some o) :
    ∃ e, es[k]? = some e ∧ Supplies g (use (i + k)) e o := by
  induction os generalizing i es k with
  | nil => simp at found
  | cons first os ih =>
    cases es with
    | nil => exact supplied.elim
    | cons e es =>
      cases k with
      | zero =>
        cases found
        exact ⟨e,rfl,supplied.1⟩
      | succ k =>
        obtain ⟨e,there,supplies⟩ := ih supplied.2 found
        refine ⟨e,there,?_⟩
        rwa [Nat.add_assoc,Nat.add_comm 1 k] at supplies

theorem SuppliesAll.length {use : Nat → Use} (supplied : SuppliesAll g use i es os) : os.length = es.length := by
  induction os generalizing i es with
  | nil => cases es with
    | nil => rfl
    | cons e es => exact supplied.elim
  | cons o os ih => cases es with
    | nil => exact supplied.elim
    | cons e es => simp [ih supplied.2]

theorem Supplies.whole {e : Expr} (supplies : Supplies g .whole e o) : o.Granted g := by
  cases o with
  | value v => trivial
  | range r => exact supplies.2

section
variable {use : Nat → Use} (supplied : SuppliesAll g use 0 es os)
include supplied

theorem arg_whole (whole : use k = .whole) : (Library.arg os k).Granted g := by
  unfold Library.arg
  cases found : os[k]? with
  | none => trivial
  | some o =>
    obtain ⟨e,-,supplies⟩ := supplied.at found
    rw [Nat.zero_add,whole] at supplies
    exact supplies.whole

theorem all_whole (whole : ∀ k, use k = .whole) : ∀ o ∈ os, o.Granted g := by
  intro o member
  obtain ⟨k,found⟩ := List.mem_iff_getElem?.mp member
  obtain ⟨e,-,supplies⟩ := supplied.at found
  rw [whole] at supplies
  exact supplies.whole

end

theorem table_asks {r : Rect} {vertical : Bool} (granted : (Use.table vertical index).Granted g r)
    (place : column ∈ [0,index - 1]) (row : Nat) : ((⟨.inl r,!vertical⟩ : Library.Table).get row column).Asks g := by
  unfold Library.Table.get
  cases vertical with
  | true => exact Rect.valueAt_asks fun inside within => granted row column inside within place
  | false => exact Rect.valueAt_asks fun inside within => granted column row inside within place

theorem lookup_asks {f : Function} (vertical : Bool) (first : use f args 0 = .whole) (third : use f args 3 = .whole)
    (second : use f args 1 = tableUse vertical args[2]?) (index : use f args 2 = .whole)
    (supplied : SuppliesAll g (use f args) 0 args os) : (Library.lookup (!vertical) os).Asks g := by
  obtain ⟨t,made⟩ := Library.Table.of_done (Library.arg os 1) (!vertical)
  have mode : ∀ o, os[3]? = some o → o.Granted g := by
    intro o found
    obtain ⟨e,-,supplies⟩ := supplied.at found
    rw [Nat.zero_add,third] at supplies
    exact supplies.whole
  by_cases whole : use f args 1 = .whole
  · have gets := Library.Table.get_asks (arg_whole supplied whole) made
    exact Library.lookup_asks _ (arg_whole supplied first) mode made (fun row => gets row 0)
      ((Operand.number_asks (arg_whole supplied index)).ensures fun n row => gets row _)
  · obtain ⟨n,literal⟩ : ∃ n, args[2]? = some (.literal (.number n)) := by
      rw [second] at whole
      unfold tableUse at whole
      split at whole
      · exact ⟨_,‹_›⟩
      · exact absurd rfl whole
    have table : use f args 1 = .table vertical (Decimal.toCount n) := by rw [second,literal]; rfl
    have long : 2 < os.length := by
      rw [supplied.length]
      exact (List.getElem?_eq_some_iff.mp literal).1
    have number : Library.arg os 2 = .value (.number n) := by
      obtain ⟨e,there,supplies⟩ := supplied.at (List.getElem?_eq_getElem long)
      rw [literal] at there
      cases there
      unfold Library.arg
      rw [List.getElem?_eq_getElem long,Option.getD_some]
      cases given : os[2] with
      | range r =>
        rw [given] at supplies
        obtain ⟨⟨address,other⟩,-⟩ := supplies
        cases other
      | value v =>
        rw [given] at supplies
        rw [supplies _ rfl]
    have gets : ∀ column, column ∈ [0,Decimal.toCount n - 1] → ∀ row, (t.get row column).Asks g := by
      intro column place row
      have short : 1 < os.length := by omega
      obtain ⟨e,there,supplies⟩ := supplied.at (List.getElem?_eq_getElem short)
      unfold Library.arg at made
      rw [List.getElem?_eq_getElem short,Option.getD_some] at made
      cases given : os[1] with
      | range r =>
        rw [given] at supplies made
        rw [Nat.zero_add,table] at supplies
        cases made
        exact table_asks supplies.2 place row
      | value v =>
        rw [given] at made
        cases v <;> cases made <;> trivial
    refine Library.lookup_asks _ (arg_whole supplied first) mode made (gets 0 (by simp)) ?_
    rw [number]
    rintro k ⟨⟩ row
    exact gets _ (by simp) row

theorem apply_asks (f : Function) (supplied : SuppliesAll g (use f args) 0 args os) : (Library.apply f os).Asks g := by
  cases f with
  | sumIf =>
    refine (Library.sumIf_asks (arg_whole supplied rfl) (arg_whole supplied rfl) ?_).settle
    intro r found
    obtain ⟨e,-,supplies⟩ := supplied.at found
    exact supplies.2
  | vlookup => exact (lookup_asks true rfl rfl rfl rfl supplied).settle
  | hlookup => exact (lookup_asks false rfl rfl rfl rfl supplied).settle
  | ifError => exact Library.ifError_asks (all_whole supplied fun k => rfl)
  | sum => exact (Library.sum_asks (all_whole supplied fun k => rfl)).settle
  | sumProduct => exact (Library.sumProduct_asks (all_whole supplied fun k => rfl)).settle
  | round => exact (Library.rounded_asks (all_whole supplied fun k => rfl) _).settle
  | roundUp => exact (Library.rounded_asks (all_whole supplied fun k => rfl) _).settle
  | roundDown => exact (Library.rounded_asks (all_whole supplied fun k => rfl) _).settle
  | mod => exact (Library.mod_asks (all_whole supplied fun k => rfl)).settle
  | ln => exact (Library.ofOne_asks (all_whole supplied fun k => rfl) _ 0).settle
  | abs => exact (Library.ofOne_asks (all_whole supplied fun k => rfl) _ 0).settle
  | sqrt => exact (Library.ofOne_asks (all_whole supplied fun k => rfl) _ 0).settle
  | power => exact (Library.power_asks (all_whole supplied fun k => rfl)).settle
  | exp => exact (Library.ofOne_asks (all_whole supplied fun k => rfl) _ 0).settle
  | gammaLn => exact (Library.ofOne_asks (all_whole supplied fun k => rfl) _ 0).settle
  | npv => exact (Library.npv_asks (all_whole supplied fun k => rfl)).settle
  | count => exact (Library.tally_asks (all_whole supplied fun k => rfl) _).settle
  | countA => exact (Library.tally_asks (all_whole supplied fun k => rfl) _).settle
  | countIf => exact (Library.countIf_asks (all_whole supplied fun k => rfl)).settle
  | average => exact (Library.average_asks (all_whole supplied fun k => rfl)).settle
  | min => exact (Library.least_asks (all_whole supplied fun k => rfl)).settle
  | max => exact (Library.greatest_asks (all_whole supplied fun k => rfl)).settle
  | rankEq => exact (Library.rank_asks (all_whole supplied fun k => rfl)).settle
  | rank => exact (Library.rank_asks (all_whole supplied fun k => rfl)).settle
  | matchPosition => exact (Library.matchPosition_asks (all_whole supplied fun k => rfl)).settle
  | index => exact (Library.index_asks (all_whole supplied fun k => rfl)).settle
  | left => exact (Library.left_asks (all_whole supplied fun k => rfl)).settle
  | right => exact (Library.right_asks (all_whole supplied fun k => rfl)).settle
  | mid => exact (Library.mid_asks (all_whole supplied fun k => rfl)).settle
  | len => exact (Library.len_asks (all_whole supplied fun k => rfl)).settle
  | substitute => exact (Library.substitute_asks (all_whole supplied fun k => rfl)).settle
  | concatenate => exact (Library.concatenate_asks (all_whole supplied fun k => rfl)).settle

theorem connect_asks (granted : ∀ o ∈ os, o.Granted g) (conjunction : Bool) : (connect conjunction os).Asks g := by
  refine (Work.Asks.foldlM (fun state o member => ?_) _).bind fun result => ?_
  · exact (Work.Asks.lift (Operand.flatten_asks (granted o member))).bind fun _ => .ofExcept _
  · split
    · split
      · exact .pure _
      · exact .throw _

theorem operands_other (other : ∀ address, e ≠ .range address) (es : List Expr) :
    operands (e :: es) = do
      let v ← query e
      let os ← operands es
      return .value v :: os := by
  cases e with
  | range address => exact absurd rfl (other address)
  | _ => simp only [operands]

theorem literal_kept {e : Expr} (asks : e.query.Asks g) : e.query.Ensures g fun v => ∀ w, e = .literal w → v = w := by
  cases e with
  | literal w =>
    simp only [query]
    rintro _ ⟨⟩
    rfl
  | _ => exact asks.mono fun _ _ _ other => by cases other

-- Induction on the formula, its arguments and its arrays.
mutual
theorem query_asks : (e : Expr) → e.Wired g → e.query.Asks g
  | .literal v, _ => trivial
  | .cell address, granted => ⟨granted,fun _ => trivial⟩
  | .range address, granted => by
    obtain ⟨r,found,granted⟩ := granted
    exact ⟨r,found,(Rect.valueGrid_asks granted).bind fun _ => .pure _⟩
  | .unary op e, wired => (query_asks e wired).bind fun _ => .pure _
  | .binary op l r, ⟨left,right⟩ => (query_asks l left).bind fun _ => (query_asks r right).bind fun _ => .pure _
  | .ifThen c t, ⟨condition,consequent⟩ => by
    refine (query_asks c condition).bind fun v => ?_
    split
    · exact .pure _
    · exact query_asks t consequent
    · exact .pure _
  | .ifElse c t e, ⟨condition,consequent,alternative⟩ => by
    refine (query_asks c condition).bind fun v => ?_
    split
    · exact .pure _
    · exact query_asks t consequent
    · exact query_asks e alternative
  | .all args, wired => Query.Ensures.bind (operands_supply args wired) fun os supplied =>
    (connect_asks (all_whole supplied fun k => rfl) true).settle
  | .any args, wired => Query.Ensures.bind (operands_supply args wired) fun os supplied =>
    (connect_asks (all_whole supplied fun k => rfl) false).settle
  | .not e, wired => (query_asks e wired).bind fun _ => .pure _
  | .array rows, wired => (queryRows_asks rows wired).bind fun _ => .pure _
  | .call f args, wired => Query.Ensures.bind (operands_supply args wired) fun os supplied => apply_asks f supplied
  | .linest args degree coefficient, wired => Query.Ensures.bind (operands_supply args wired) fun os supplied =>
    (Library.linest_asks (all_whole supplied fun k => rfl) degree coefficient).settle
theorem operands_supply : (es : List Expr) → {use : Nat → Use} → {i : Nat} → WiredArgs g use i es →
    (operands es).Ensures g fun os => SuppliesAll g use i es os
  | [], _, _, _ => trivial
  | e :: es, use, i, ⟨spans,other,rest⟩ => by
    have further := operands_supply es rest
    by_cases ranged : ∃ address, e = .range address
    · obtain ⟨address,rfl⟩ := ranged
      obtain ⟨r,found,granted⟩ := spans address rfl
      simp only [operands]
      exact ⟨r,found,further.bind fun os supplied => ⟨⟨⟨address,rfl⟩,granted⟩,supplied⟩⟩
    · have plain : ∀ address, e ≠ .range address := fun address same => ranged ⟨address,same⟩
      rw [operands_other plain]
      exact (literal_kept (query_asks e (other plain))).bind fun v kept =>
        further.bind fun os supplied => ⟨kept,supplied⟩
theorem queryEach_asks : (es : List Expr) → WiredEach g es → (queryEach es).Asks g
  | [], _ => trivial
  | e :: es, ⟨wired,rest⟩ => (query_asks e wired).bind fun _ => (queryEach_asks es rest).bind fun _ => .pure _
theorem queryRows_asks : (rows : List (List Expr)) → WiredRows g rows → (queryRows rows).Asks g
  | [], _ => trivial
  | r :: rs, ⟨wired,rest⟩ => (queryEach_asks r wired).bind fun _ => (queryRows_asks rs rest).bind fun _ => .pure _
end

end Expr
end Recalc
