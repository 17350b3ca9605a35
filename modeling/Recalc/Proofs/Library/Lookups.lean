import Recalc.Proofs.Decimal.Counts
import Recalc.Proofs.Query.Fallback

namespace Recalc
open Query (Observed)

namespace Work
variable {α β : Type}

theorem lift_done (a : α) (f : α → Work β) : ((liftM (Query.done a) : Work α) >>= f) = f a := rfl

theorem settle_bind (q : Query α) (f : α → Work Value) : ((liftM q : Work α) >>= f).settle = q.bind fun a => (f a).settle := by
  change ((q.bind fun a => .done (Except.ok a)).bind _).bind _ = _
  rw [Query.bind_assoc,Query.bind_assoc]
  rfl

theorem settle_lift (q : Query Value) : settle (liftM q) = q := by
  change (q.bind fun a => .done (Except.ok a)).bind _ = _
  rw [Query.bind_assoc]
  exact Query.bind_done q

end Work

-- A blank spells nothing; otherwise the case of letters does not matter.
def Value.spells (key item : Value) : Bool := !key.isBlank && Text.lower key.toText.toList == Text.lower item.toText.toList

namespace Library

inductive Table.Search (t : Table) (item : Value) : List Operand → Query (Option Nat) → Prop where
  | unsaid : Search t item [] (t.findText (Text.lower item.toText.toList) (List.range t.rows))
  | exact : Search t item [.value (.boolean false)] (t.findText (Text.lower item.toText.toList) (List.range t.rows))
  | approximate {target : Float} (number : item = .number target) :
    Search t item [.value (.boolean true)] (t.findBelow target none (List.range t.rows))

structure Sought (item : Value) : Prop where
  sound : item.isError = false
  filled : item.isBlank = false
  other : item.same (.boolean false) = false

structure Counts (n : Float) (limit : Nat) : Prop where
  finite : n.isFinite = true
  least : 1.0 ≤ n
  most : Decimal.toCount n ≤ limit

theorem Counts.not_less (counts : Counts n limit) : ¬ n < 1.0 :=
  (atMost_not (by decide) (finite_number counts.finite)).mp counts.least

theorem Counts.before (counts : Counts n limit) : Decimal.toCount n - 1 < limit := by
  have one := counts_one counts.finite counts.least
  have most := counts.most
  omega

theorem lookup_search {transposed : Bool} {x table : Operand} {item : Value} {n : Float} {mode : List Operand} {t : Table}
    {search : Query (Option Nat)} (given : x.scalar = .done item) (sought : Sought item)
    (made : Table.of table transposed = .done t) (counts : Counts n t.columns) (searched : t.Search item mode search) :
    (lookup transposed (x :: table :: .value (.number n) :: mode)).settle = search.bind fun found =>
      match found with
      | some i => t.get i (Decimal.toCount n - 1)
      | none => .done (.error .na) := by
  have first : (arg (x :: table :: .value (.number n) :: mode) 0).scalar = .done item := given
  have second : Table.of (arg (x :: table :: .value (.number n) :: mode) 1) transposed = .done t := made
  have third : (arg (x :: table :: .value (.number n) :: mode) 2).number = pure n := rfl
  have whole : ¬ ((!n.isFinite) = true ∨ n < 1.0) := by simp [counts.finite,counts.not_less]
  unfold lookup
  rw [first,second,third,Work.lift_done]
  dsimp only
  split
  · cases sought.sound
  rw [if_neg (by simp [sought.filled,sought.other]),Work.lift_done,pure_bind,if_neg whole,if_neg (Nat.not_lt.mpr counts.most)]
  have placed : (fun found : Option Nat => (match found with
      | some i => liftM (t.get i (Decimal.toCount n - 1))
      | none => throw .na : Work Value).settle) = fun found =>
      match found with
      | some i => t.get i (Decimal.toCount n - 1)
      | none => .done (.error .na) := by
    funext found
    cases found with
    | none => rfl
    | some i => exact Work.settle_lift _
  rw [← placed,← Work.settle_bind]
  cases searched with
  | unsaid => rfl
  | exact => rfl
  | approximate number =>
    subst number
    rfl

end Library

section
variable {σ : Type} {source source' : Runtime σ} {read read' : String → σ → Value × σ}

def Query.Source.Reads (source : Runtime σ) (read : String → σ → Value × σ) : Prop :=
  ∀ address s, source.cell false address s = (.ok (read address s).1,(read address s).2)

def readAll (read : String → σ → Value × σ) : List String → σ → List Value × σ
  | [], s => ([],s)
  | address :: more, s => ((read address s).1 :: (readAll read more (read address s).2).1,(readAll read more (read address s).2).2)

theorem readAll_length (trail : List String) (s : σ) : (readAll read trail s).1.length = trail.length := by
  induction trail generalizing s with
  | nil => rfl
  | cons address more ih => exact congrArg (· + 1) (ih _)

theorem readAll_found {trail : List String} {s : σ} {test : Value → Bool} (found : (readAll read trail s).1.findIdx? test = some k) :
    k < trail.length := by
  obtain ⟨below,-⟩ := List.findIdx?_eq_some_iff_getElem.mp found
  rwa [readAll_length] at below

theorem readAll_same {α : Type} {one other : α → String} {trail : List α} (same : ∀ p ∈ trail, read (one p) = read' (other p)) (s : σ) :
    readAll read (trail.map one) s = readAll read' (trail.map other) s := by
  induction trail generalizing s with
  | nil => rfl
  | cons p more ih =>
    simp only [List.map_cons,readAll,same p List.mem_cons_self]
    rw [ih fun p member => same p (List.mem_cons_of_mem _ member)]

theorem Query.Source.Reads.entry {α : Type} (reads : source.Reads read) (address : String) (next : Value → Query α) (s : σ) :
    ((Query.entry address).bind next).observe source s =
      let rest := (next (read address s).1).observe source (read address s).2
      ⟨rest.result,rest.state,address :: rest.reads⟩ := by
  change (Query.cell false address next).observe source s = _
  rw [Query.observe,reads address s]

namespace Rect
variable (r : Rect) (across : Bool)

def lines : Nat := if across then r.columns else r.rows

theorem lines_pos : 0 < r.lines across := by cases across <;> exact Nat.succ_pos _

def spot (place : Nat × Nat) : String := (if across then r.cellAt place.2 place.1 else r.cellAt place.1 place.2).text

theorem table_rows : (⟨.inl r,across⟩ : Library.Table).rows = r.lines across := by cases across <;> rfl

theorem table_columns : (⟨.inl r,across⟩ : Library.Table).columns = r.lines !across := by cases across <;> rfl

theorem table_get (row : i < r.lines across) (column : j < r.lines !across) :
    (⟨.inl r,across⟩ : Library.Table).get i j = .entry (r.spot across (i,j)) := by
  have inside {a b : Nat} (row : a < r.rows) (column : b < r.columns) : r.valueAt a b = .entry (r.cellAt a b).text := by
    unfold valueAt cell?
    rw [if_pos ⟨row,column⟩]
  cases across with
  | false => exact inside row column
  | true => exact inside column row

end Rect

namespace Library

namespace Table
variable {t : Table} {item : Value} {key : Nat → String} {lines : List Nat}

theorem findText_cons (i : Nat) : t.findText (Text.lower item.toText.toList) (i :: lines) = (t.get i 0).bind fun v =>
    if v.spells item then .done (some i) else t.findText (Text.lower item.toText.toList) lines := by
  change (t.get i 0).bind _ = _
  congr 1
  funext v
  unfold Value.spells
  cases v.isBlank with
  | true => rfl
  | false =>
    simp only [Bool.not_false,Bool.true_and,beq_iff_eq]
    rfl

theorem findText_observed (reads : source.Reads read) (entries : ∀ i ∈ lines, t.get i 0 = .entry (key i)) (s : σ) :
    (t.findText (Text.lower item.toText.toList) lines).observe source s =
      match (readAll read (lines.map key) s).1.findIdx? (·.spells item) with
      | none => ⟨.ok none,(readAll read (lines.map key) s).2,lines.map key⟩
      | some k => ⟨.ok lines[k]?,(readAll read ((lines.take (k + 1)).map key) s).2,(lines.take (k + 1)).map key⟩ := by
  induction lines generalizing s with
  | nil => rfl
  | cons i more ih =>
    rw [findText_cons,entries i List.mem_cons_self,reads.entry]
    simp only [List.map_cons,readAll,List.findIdx?_cons]
    split
    · rfl
    · rw [ih fun j member => entries j (List.mem_cons_of_mem _ member)]
      cases (readAll read (more.map key) (read (key i) s).2).1.findIdx? (·.spells item) with
      | none => rfl
      | some k => rfl

end Table

theorem lookup_observed (reads : source.Reads read) {x : Operand} {item : Value} {n : Float} {mode : List Operand} {r : Rect}
    {across : Bool} (given : x.scalar = .done item) (sought : Sought item) (counts : Counts n (r.lines !across))
    (exact : mode ∈ [[],[.value (.boolean false)]]) (s : σ) :
    let keys := (List.range (r.lines across)).map fun i => r.spot across (i,0)
    (lookup across (x :: .range r :: .value (.number n) :: mode)).settle.observe source s =
      match (readAll read keys s).1.findIdx? (·.spells item) with
      | none => ⟨.ok (.error .na),(readAll read keys s).2,keys⟩
      | some i =>
        let before := keys.take (i + 1)
        let result := r.spot across (i,Decimal.toCount n - 1)
        ⟨.ok (read result (readAll read before s).2).1,(read result (readAll read before s).2).2,before ++ [result]⟩ := by
  intro keys
  have searched : (⟨.inl r,across⟩ : Table).Search item mode
      ((⟨.inl r,across⟩ : Table).findText (Text.lower item.toText.toList) (List.range (r.lines across))) := by
    rw [← r.table_rows across]
    simp only [List.mem_cons,List.not_mem_nil,or_false] at exact
    rcases exact with rfl | rfl
    · exact .unsaid
    · exact .exact
  have entries : ∀ i ∈ List.range (r.lines across), (⟨.inl r,across⟩ : Table).get i 0 = .entry (r.spot across (i,0)) :=
    fun i member => r.table_get across (List.mem_range.mp member) (r.lines_pos _)
  rw [lookup_search given sought rfl ((r.table_columns across).symm ▸ counts) searched,Query.observe_bind,
    Table.findText_observed reads entries]
  change Observed.bind (match (readAll read keys s).1.findIdx? (·.spells item) with | none => _ | some k => _) _ = _
  cases found : (readAll read keys s).1.findIdx? (·.spells item) with
  | none => exact congrArg (Observed.mk _ _) (List.append_nil _)
  | some k =>
    have inside : k < r.lines across := by simpa [keys] using readAll_found found
    have last (s : σ) : (Query.entry (r.spot across (k,Decimal.toCount n - 1))).observe source s = _ := reads.entry _ Query.done s
    have place : (List.range (r.lines across))[k]? = some k := List.getElem?_range inside
    simp only [Observed.bind,place,r.table_get across inside counts.before,last,List.map_take]
    rfl

theorem lookup_mirrored (reads : source.Reads read) (reads' : source'.Reads read') {x : Operand} {item : Value} {n : Float}
    {mode : List Operand} {r r' : Rect} {across : Bool} (given : x.scalar = .done item) (sought : Sought item)
    (counts : Counts n (r.lines !across)) (exact : mode ∈ [[],[.value (.boolean false)]])
    (tall : r'.rows = r.columns) (wide : r'.columns = r.rows)
    (same : ∀ i j, i < r.rows → j < r.columns → read' (r'.cellAt j i).text = read (r.cellAt i j).text) (s : σ) :
    ∃ result state,∃ trail : List (Nat × Nat),
      (lookup across (x :: .range r :: .value (.number n) :: mode)).settle.observe source s =
        ⟨result,state,trail.map (r.spot across)⟩ ∧
      (lookup (!across) (x :: .range r' :: .value (.number n) :: mode)).settle.observe source' s =
        ⟨result,state,trail.map (r'.spot !across)⟩ := by
  have long : r'.lines (!across) = r.lines across := by cases across <;> assumption
  have broad : r'.lines (!!across) = r.lines !across := by cases across <;> assumption
  have spots {i j : Nat} (row : i < r.lines across) (column : j < r.lines !across) :
      read (r.spot across (i,j)) = read' (r'.spot (!across) (i,j)) := by
    cases across with
    | false => exact (same i j row column).symm
    | true => exact (same j i column row).symm
  have keys (lines : List Nat) (inside : ∀ i ∈ lines, i < r.lines across) (s : σ) :
      readAll read (lines.map fun i => r.spot across (i,0)) s = readAll read' (lines.map fun i => r'.spot (!across) (i,0)) s :=
    readAll_same (fun i member => spots (inside i member) (r.lines_pos _)) s
  have shown (f : Nat × Nat → String) (lines : List Nat) : lines.map (fun i => f (i,0)) = (lines.map (·,0)).map f := List.map_map.symm
  rw [lookup_observed reads given sought counts exact,lookup_observed reads' given sought (broad.symm ▸ counts) exact]
  dsimp only
  rw [long,← keys _ fun i => List.mem_range.mp]
  cases found : (readAll read ((List.range (r.lines across)).map fun i => r.spot across (i,0)) s).1.findIdx? (·.spells item) with
  | none => exact ⟨.ok (.error .na),_,(List.range (r.lines across)).map (·,0),congrArg _ (shown _ _),congrArg _ (shown _ _)⟩
  | some k =>
    have inside : k < r.lines across := by simpa using readAll_found found
    have before := keys ((List.range (r.lines across)).take (k + 1)) (fun i member => List.mem_range.mp (List.mem_of_mem_take member)) s
    simp only [List.map_take] at before
    have trail (f : Nat × Nat → String) : ((List.range (r.lines across)).map fun i => f (i,0)).take (k + 1) ++ [f (k,Decimal.toCount n - 1)] =
        (((List.range (r.lines across)).take (k + 1)).map (·,0) ++ [(k,Decimal.toCount n - 1)]).map f := by
      rw [List.map_append,← shown,List.map_take]
      rfl
    refine ⟨_,_,_,congrArg (Observed.mk _ _) (trail _),?_⟩
    dsimp only
    rw [← before,← spots inside counts.before]
    exact congrArg (Observed.mk _ _) (trail _)

-- The text that looks like it is found first: every key up to it is read in order, then the one result beside it.
-- Rows and columns change places without a trace.
theorem exact_lookup (reads : source.Reads read) {x : Operand} {item : Value} {n : Float} {mode : List Operand} {r : Rect}
    {across : Bool} (given : x.scalar = .done item) (sought : Sought item) (counts : Counts n (r.lines !across))
    (exact : mode ∈ [[],[.value (.boolean false)]]) (s : σ) :
    let find (across : Bool) (r : Rect) := apply (if across then .hlookup else .vlookup) (x :: .range r :: .value (.number n) :: mode)
    let keys := (List.range (r.lines across)).map fun i => r.spot across (i,0)
    (find across r).observe source s =
      (match (readAll read keys s).1.findIdx? (·.spells item) with
      | none => ⟨.ok (.error .na),(readAll read keys s).2,keys⟩
      | some i =>
        let before := keys.take (i + 1)
        let result := r.spot across (i,Decimal.toCount n - 1)
        ⟨.ok (read result (readAll read before s).2).1,(read result (readAll read before s).2).2,before ++ [result]⟩) ∧
    ∀ r' source' read', source'.Reads read' → r'.rows = r.columns → r'.columns = r.rows →
      (∀ i j, i < r.rows → j < r.columns → read' (r'.cellAt j i).text = read (r.cellAt i j).text) →
      ∃ result state,∃ trail : List (Nat × Nat), (find across r).observe source s = ⟨result,state,trail.map (r.spot across)⟩ ∧
        (find (!across) r').observe source' s = ⟨result,state,trail.map (r'.spot !across)⟩ := by
  intro find keys
  have looked (across : Bool) (r : Rect) : find across r = (lookup across (x :: .range r :: .value (.number n) :: mode)).settle := by
    cases across <;> rfl
  rw [looked]
  refine ⟨lookup_observed reads given sought counts exact s,fun r' source' read' reads' tall wide same => ?_⟩
  rw [looked]
  exact lookup_mirrored reads reads' given sought counts exact tall wide same s

end Library
end

def Query.Source.listed (cells : List (String × Value)) (address : String) : Value :=
  ((cells.find? fun (known,_) => known == address).map Prod.snd).getD .empty

theorem Query.Source.listed_absent (absent : ∀ cell ∈ cells, cell.1 ≠ address) : listed cells address = .empty := by
  have none : cells.find? (fun (known,_) => known == address) = none :=
    List.find?_eq_none.mpr fun cell member found => absent cell member (beq_iff_eq.mp found)
  rw [listed,none]
  rfl

def Query.Source.sheet (cells : List (String × Value)) : Runtime Unit where
  cell _ address := fun _ => (.ok (listed cells address),())
  range address := fun _ => (Rect.ofAddress address,())

theorem Query.Source.sheet_reads (cells : List (String × Value)) : (sheet cells).Reads fun address _ => (listed cells address,()) :=
  fun _ _ => rfl

open Library Query.Source in
theorem exact_lookup_fourth :
    let down := [("S!A1",.number 1.0),("S!A4",.text "Key"),("S!B4",.text "found")]
    let along := [("S!A1",.number 1.0),("S!D1",.text "Key"),("S!D2",.text "found")]
    let tall : Rect := ⟨"S",1,1,2,5⟩
    let wide : Rect := ⟨"S",1,1,5,2⟩
    (apply .vlookup [.value (.text "KEY"),.range tall,.value (.number 2.0)]).observe (sheet down) () =
        ⟨.ok (.text "found"),(),["S!A1","S!A2","S!A3","S!A4","S!B4"]⟩ ∧
      ∃ trail : List (Nat × Nat), trail.map (tall.spot false) = ["S!A1","S!A2","S!A3","S!A4","S!B4"] ∧
        (apply .hlookup [.value (.text "KEY"),.range wide,.value (.number 2.0)]).observe (sheet along) () =
          ⟨.ok (.text "found"),(),trail.map (wide.spot true)⟩ := by
  intro down along tall wide
  have counts : Counts 2.0 (tall.lines !false) := ⟨by decide,by decide,by decide⟩
  have sought : Sought (.text "KEY") := ⟨rfl,by decide,rfl⟩
  obtain ⟨found,mirrored⟩ := @exact_lookup Unit (sheet down) _ (sheet_reads down) (.value (.text "KEY")) _ 2.0 [] tall false rfl
    sought counts List.mem_cons_self ()
  have shown : (apply .vlookup [.value (.text "KEY"),.range tall,.value (.number 2.0)]).observe (sheet down) () =
      ⟨.ok (.text "found"),(),["S!A1","S!A2","S!A3","S!A4","S!B4"]⟩ := by
    have keys : (List.range (tall.lines false)).map (fun i => tall.spot false (i,0)) = ["S!A1","S!A2","S!A3","S!A4","S!A5"] := by
      decide +kernel
    have result : tall.spot false (3,Decimal.toCount 2.0 - 1) = "S!B4" := by decide +kernel
    have fourth : (readAll (fun address (_ : Unit) => (listed down address,())) ["S!A1","S!A2","S!A3","S!A4","S!A5"] ()).1.findIdx?
        (·.spells (.text "KEY")) = some 3 := by decide +kernel
    refine found.trans ?_
    rw [keys,fourth]
    dsimp only
    rw [result]
    rfl
  have places : ∀ i < 5, ∀ j < 2, (wide.cellAt j i).text = "S!A1" ∧ (tall.cellAt i j).text = "S!A1" ∨
      (wide.cellAt j i).text = "S!D1" ∧ (tall.cellAt i j).text = "S!A4" ∨ (wide.cellAt j i).text = "S!D2" ∧ (tall.cellAt i j).text = "S!B4" ∨
      (∀ cell ∈ along, cell.1 ≠ (wide.cellAt j i).text) ∧ ∀ cell ∈ down, cell.1 ≠ (tall.cellAt i j).text := by decide +kernel
  have same (i j : Nat) (row : i < tall.rows) (column : j < tall.columns) :
      listed along (wide.cellAt j i).text = listed down (tall.cellAt i j).text := by
    rcases places i row j column with ⟨one,other⟩ | ⟨one,other⟩ | ⟨one,other⟩ | ⟨one,other⟩
    · rw [one,other]
      rfl
    · rw [one,other]
      rfl
    · rw [one,other]
      rfl
    · rw [listed_absent one,listed_absent other]
  obtain ⟨_,_,trail,one,other⟩ := mirrored wide (sheet along) _ (sheet_reads along) rfl rfl fun i j row column =>
    funext fun _ => congrArg (·,()) (same i j row column)
  obtain ⟨rfl,-,read⟩ := Observed.mk.inj (shown.symm.trans one)
  exact ⟨shown,trail,read.symm,other⟩

end Recalc
