import Recalc.Proofs.Build.Changes
import Recalc.Proofs.Build.SingleCells

namespace Recalc

-- What a builder stores for the formula at an address, whatever the sheets are called: each of its references is
-- clamped to the sheet it is taken on.
def Workbook.stored (book : Workbook) (address sheet formula : String) : Except FormulaError Expr := do
  let tree ← book.tree sheet formula
  let active ← liftReference (book.select sheet)
  let cell ← liftReference (CellRef.parse address sheet)
  Expr.ofTree ⟨cell,some active⟩ tree

namespace Build
variable {options : BuildOptions} {book : Workbook} {b b' : Builder} {id : NodeId} {popped : List NodeId} {u : Unit}

theorem ran_stored {address sheet formula : String} (sheets : b.book.sheets = book.sheets)
    (ran : compileCell options id address sheet formula b = (.ok u,b')) : ∃ e w, book.stored address sheet formula = .ok e ∧
      w.sheets = book.sheets ∧ Changes book {b with book := w,model := b.model.compiled id e} b' := by
  obtain ⟨tree,active,cell,e,seen,wired,treeOf,-,selected,placed,compiled,folded,last⟩ := compileCell_cases sheets ran
  have home := (Workbook.select_ok selected).2
  refine ⟨e,active,?_,home,?_⟩
  · rw [Workbook.stored,treeOf,selected,placed]
    exact compiled
  · have changes := changed_references (b := {b with book := active,model := b.model.compiled id e}) home folded
    exact changes.trans (changed_select last)

structure Filed (book : Workbook) (popped : List NodeId) (b : Builder) : Prop where
  sheets : b.book.sheets = book.sheets
  distinct : b.model.Distinct
  listing : Listing b.model popped b.todo
  entries : ∀ id c, b.model.cell? id = some c → c.formula.isSome = true →
    ∃ p ∈ positions book, c.address = (⟨c.sheet,p.column,p.row⟩ : CellRef).text
  stored : ∀ id ∈ popped, ∀ c formula, b.model.cell? id = some c → c.formula = some formula →
    book.stored c.address c.sheet formula = .ok c.expr

namespace Filed

theorem insert {n : Node} {todo : List NodeId} (filed : Filed book popped b) (fresh : b.model.find? n.address = none)
    (lists : todo = if (n.cell?.bind Cell.formula).isSome then b.model.nodes.length :: b.todo else b.todo)
    (entry : ∀ c, n = .cell c → c.formula.isSome = true →
      ∃ p ∈ positions book, c.address = (⟨c.sheet,p.column,p.row⟩ : CellRef).text) :
    Filed book popped {b with model := b.model.insert n,todo := todo} := by
  refine ⟨filed.sheets,Model.distinct_insert filed.distinct fresh,lists ▸ filed.listing.insert n,fun id c found formula => ?_,
    fun id member c formula found => ?_⟩
  · rcases Model.cell?_insert found with new | old
    · exact entry c new formula
    · exact filed.entries id c old formula
  · have apart := Nat.ne_of_lt (filed.listing.lt (List.mem_append_left _ member))
    simp only [Model.cell?,Model.nodes_insert,if_neg apart] at found
    exact filed.stored id member c formula found

theorem change (filed : Filed book popped b) (change : Change book b b') : Filed book popped b' := by
  cases change with
  | select sheets => exact {filed with sheets := sheets.trans filed.sheets}
  | narrow address =>
    unfold Model.narrow
    split
    · exact filed
    · exact ⟨filed.sheets,filed.distinct,⟨filed.listing.once,filed.listing.listed⟩,filed.entries,filed.stored⟩
  | link precedent dependent =>
    exact ⟨filed.sheets,filed.distinct,⟨filed.listing.once,filed.listing.listed⟩,filed.entries,filed.stored⟩
  | range node fresh => exact filed.insert fresh rfl (by simp)
  | constant cell fresh =>
    refine filed.insert fresh rfl ?_
    rintro _ ⟨⟩ formula
    simp [Cell.constant] at formula
  | formula cell fresh held =>
    refine filed.insert fresh rfl ?_
    rintro _ ⟨⟩ -
    exact ⟨cell.position,held,rfl⟩

theorem changes (filed : Filed book popped b) (changes : Changes book b b') : Filed book popped b' := by
  induction changes with
  | refl => exact filed
  | tail _ change ih => exact ih.change change

theorem compiled {todo : List NodeId} {c : Cell} {formula : String} (filed : Filed book popped b) (next : b.todo = id :: todo)
    (found : b.model.cell? id = some c) (holds : c.formula = some formula)
    (ran : compileCell options id c.address c.sheet formula {b with todo := todo} = (.ok u,b')) : Filed book (id :: popped) b' := by
  obtain ⟨e,w,stored,sheets,changes⟩ := ran_stored (b := {b with todo := todo}) filed.sheets ran
  refine Filed.changes ⟨sheets,Model.distinct_compiled filed.distinct id e,(next ▸ filed.listing).pop.compiled id e,
    fun y d there formula => ?_,fun y member d text there formula => ?_⟩ changes
  · obtain ⟨d',was,same⟩ := Model.cell?_compiled there
    rw [same]
    exact filed.entries y d' was (by rw [same] at formula; exact formula)
  · have there : (b.model.compiled id e).cell? y = some d := there
    rw [Model.compiled,Model.cell?_changeCell] at there
    split at there
    · rename_i here
      rw [← here,found] at there
      cases there
      cases holds.symm.trans formula
      exact stored
    · rename_i other
      exact filed.stored y ((List.mem_cons.mp member).resolve_left (Ne.symm other)) d text there formula

theorem length_popped (filed : Filed book popped b) : popped.length ≤ book.sheets.length * (positions book).length := by
  let places := book.sheets.flatMap fun s => (positions book).map fun p => (⟨s.name,p.column,p.row⟩ : CellRef).text
  have long : places.length = book.sheets.length * (positions book).length := by
    simp [places,List.length_flatMap,List.map_const']
  rw [← long]
  refine length_addressed filed.distinct (List.Nodup.of_append_left filed.listing.once) fun id member => ?_
  obtain ⟨c,found,formula⟩ := (filed.listing.listed id).mp (List.mem_append_left _ member)
  obtain ⟨p,held,address⟩ := filed.entries id c found formula
  obtain ⟨text,holds⟩ := Option.isSome_iff_exists.mp formula
  obtain ⟨tree,-,rest⟩ := bind_ok.mp (filed.stored id member c text found holds)
  obtain ⟨active,selected,-⟩ := bind_ok.mp rest
  obtain ⟨s,listed,on⟩ := (Workbook.select_ok (reference_ok selected)).1
  exact ⟨c,found,List.mem_flatMap.mpr ⟨s,listed,List.mem_map.mpr ⟨p,held,by rw [address,on]⟩⟩⟩

end Filed

theorem filed_compileAll {steps : Nat} (filed : Filed book popped b)
    (enough : book.sheets.length * (positions book).length < popped.length + steps)
    (ran : compileAll options steps b = (.ok u,b')) : b'.todo = [] ∧ ∃ compiled, Filed book compiled b' := by
  induction steps generalizing popped b with
  | zero => exact absurd filed.length_popped (by omega)
  | succ steps ih =>
    cases next : b.todo with
    | nil =>
      rw [compileAll_done _ next] at ran
      cases ran
      exact ⟨next,popped,filed⟩
    | cons id todo =>
      obtain ⟨c,found,formula⟩ := (filed.listing.listed id).mp (by simp [next])
      obtain ⟨formula,holds⟩ := Option.isSome_iff_exists.mp formula
      have step := congrArg Prod.fst (compileAll_next options steps next found holds)
      generalize made : locate c.address (compileCell options id c.address c.sheet formula) {b with todo := todo} = result at step
      obtain ⟨e | v,mid⟩ := result
      · cases ran.symm.trans step
      · have rest : compileAll options steps mid = (.ok u,b') := step.symm.trans ran
        exact ih (filed.compiled next found holds (located made)) (by simp only [List.length_cons]; omega) rest

theorem filed_construct {seeds : List (String × String)} (ran : construct options seeds (start options seeds book) = (.ok u,b')) :
    b'.todo = [] ∧ ∃ compiled, Filed book compiled b' := by
  have begun : Filed book [] (start options seeds book) := by
    refine ⟨rfl,by simp [Model.Distinct,start,Model.empty],⟨List.nodup_nil,?_⟩,?_,by simp⟩
    · simp [start,Model.empty,Model.cell?]
    · simp [start,Model.empty,Model.cell?]
  unfold construct at ran
  split at ran
  · rename_i mid seeded
    have sown : Filed book [] mid := kept_seedAll (P := Filed book [])
      (fun sheet range b u b' filed ran => filed.changes (changed_seed filed.sheets ran)) begun seeded
    refine filed_compileAll sown ?_ ran
    rw [compileSteps_positions,sown.sheets]
    have same : positions mid.book = positions book := by rw [positions,positions,sown.sheets]
    rw [same]
    exact Nat.lt_of_lt_of_le (Nat.lt_succ_self _) (Nat.le_add_left _ _)
  · rename_i failed
    exact absurd ran (failed b')

end Build

theorem build_stored {options : BuildOptions} {seeds : List (String × String)} {book : Workbook} {m : Model} {id : NodeId} {c : Cell}
    {formula : String} (made : (build options seeds book).1 = .ok m) (found : m.cell? id = some c) (holds : c.formula = some formula) :
    book.stored c.address c.sheet formula = .ok c.expr := by
  obtain ⟨b,ran,rfl⟩ := build_constructs made
  obtain ⟨done,compiled,filed⟩ := Build.filed_construct ran
  have stored {d : Cell} (found : b.model.cell? id = some d) (holds : d.formula = some formula) :
      book.stored d.address d.sheet formula = .ok d.expr := by
    have member : id ∈ compiled := by
      have listed := (filed.listing.listed id).mpr ⟨d,found,by rw [holds]; rfl⟩
      rwa [done,List.append_nil] at listed
    exact filed.stored id member d formula found holds
  split at found
  · obtain ⟨d,was,same⟩ := Model.cell?_settle found
    rw [same] at holds ⊢
    exact stored (d := d) was holds
  · exact stored found holds

section
variable {options : BuildOptions} {seeds : List (String × String)} {book active : Workbook} {m : Model} {id : NodeId} {c : Cell}
  {sheet formula : String} {items after : List Item} {tree : Tree} {extents : Item → Except ReferenceError Extents}

def formulaItems (formula : String) : Except FormulaError (List Item) := do
  ReversePolish.ofTokens (← liftParse (tokenize (stripEquals formula)))

theorem compile_items {site : Site} (read : formulaItems formula = .ok items)
    (clamps : clampItems (fun _ => .ok site.extents) items = .ok after) (made : Tree.ofItems after = .ok tree) :
    compile formula site = Expr.ofTree site tree := by
  obtain ⟨tokens,lexed,yards⟩ := bind_ok.mp read
  simp [compile,Build.parse_ok lexed,yards,clamps,made,liftReference,liftParse,Except.mapError,bind,Except.bind]

theorem tree_items (made : book.tree sheet formula = .ok tree) : ∃ items after, formulaItems formula = .ok items ∧
    clampItems (fun item => Workbook.extents <$> book.select ((splitSheet item.token.text).1.getD sheet)) items = .ok after ∧
    Tree.ofItems after = .ok tree := by
  obtain ⟨tokens,lexed,rest⟩ := bind_ok.mp made
  obtain ⟨items,yards,rest⟩ := bind_ok.mp rest
  obtain ⟨after,clamps,last⟩ := bind_ok.mp rest
  exact ⟨items,after,bind_ok.mpr ⟨tokens,lexed,yards⟩,Build.reference_ok clamps,Build.parse_ok last⟩

theorem clampItems_alike (clamps : clampItems extents items = .ok after) (e : Extents) (alike : ∀ item ∈ items, item.kind = .range →
    ∀ e', extents item = .ok e' → clampRange item.token.text e = clampRange item.token.text e') :
    clampItems (fun _ => .ok e) items = .ok after := by
  unfold clampItems at clamps ⊢
  induction items generalizing after with
  | nil =>
    rw [List.mapM_nil] at clamps ⊢
    exact clamps
  | cons item items ih =>
    rw [List.mapM_cons] at clamps ⊢
    obtain ⟨first,here,rest⟩ := bind_ok.mp clamps
    obtain ⟨others,there,made⟩ := bind_ok.mp rest
    refine bind_ok.mpr ⟨first,?_,bind_ok.mpr ⟨others,ih there fun i listed => alike i (List.mem_cons_of_mem _ listed),made⟩⟩
    split at here
    · rename_i kind
      obtain ⟨e',known,clamped⟩ := bind_ok.mp here
      obtain ⟨text,clamped,last⟩ := bind_ok.mp clamped
      rw [if_pos kind]
      exact bind_ok.mpr ⟨e,rfl,bind_ok.mpr ⟨text,(alike item List.mem_cons_self kind e' known).trans clamped,last⟩⟩
    · rename_i other
      rw [if_neg other]
      exact here

-- The ranges that a formula takes from other sheets come to the same when they are clamped to its own sheet.
def Workbook.ClampsAlike (book : Workbook) (sheet formula : String) : Prop :=
  match book.select sheet,formulaItems formula with
  | .ok active,.ok items => ∀ item ∈ items, item.kind = .range → (splitRange (Text.without '$' item.token.text)).isSome = true →
    (splitSheet item.token.text).1.getD sheet ≠ sheet →
    (do clampRange item.token.text (← Workbook.extents <$> book.select ((splitSheet item.token.text).1.getD sheet))) =
      clampRange item.token.text active.extents
  | _,_ => True

instance (book : Workbook) (sheet formula : String) : Decidable (book.ClampsAlike sheet formula) := by
  unfold Workbook.ClampsAlike
  split <;> infer_instance

theorem clampItems_own (alike : book.ClampsAlike sheet formula) (selected : book.select sheet = .ok active)
    (read : formulaItems formula = .ok items)
    (clamps : clampItems (fun item => Workbook.extents <$> book.select ((splitSheet item.token.text).1.getD sheet)) items = .ok after) :
    clampItems (fun _ => .ok active.extents) items = .ok after := by
  simp only [Workbook.ClampsAlike,selected,read] at alike
  refine clampItems_alike clamps active.extents fun item listed kind e known => ?_
  by_cases own : (splitSheet item.token.text).1.getD sheet = sheet
  · rw [own,selected] at known
    have same : active.extents = e := Except.ok.inj known
    rw [same]
  · cases parts : splitRange (Text.without '$' item.token.text) with
    | none => rw [clampRange_single parts,clampRange_single parts]
    | some range =>
      have clamped := alike item listed kind (by rw [parts]; rfl) own
      rw [known] at clamped
      exact ((pure_bind (m := Except ReferenceError) e _).symm.trans clamped).symm

-- On a sheet whose name begins or ends with a quote an address is one of another sheet.
theorem parse_built {cell : CellRef} (named : book.Named) (made : (build options seeds book).1 = .ok m) (found : m.cell? id = some c)
    (parsed : CellRef.parse c.address c.sheet = .ok cell) : cell.sheet = c.sheet ∧ cell.text = c.address := by
  obtain ⟨exact,-⟩ := (build_exact options seeds book named).2 m made
  obtain ⟨f,needed,spelled⟩ := (exact.cells c.address).mp ⟨id,c,found,rfl⟩
  obtain ⟨same,-⟩ := exact.contents id c f found spelled.symm
  have located := needed.located
  have again := CellRef.parse_own located.bounded located.named (located.proper named).bared c.sheet
  rw [spelled,parsed] at again
  cases again
  have sheet : c.sheet = cell.sheet := by
    rw [same]
    exact cell_sheet options book cell
  exact ⟨sheet.symm,spelled⟩

-- Compiled by itself the formula of a cell has all its references clamped to the cell's sheet. It comes to what the
-- builder has stored unless that changes a range of another sheet. Either way it is compiled for the cell that its
-- address spells.
theorem compile_stored (made : (build options seeds book).1 = .ok m) (found : m.cell? id = some c) (holds : c.formula = some formula)
    (alike : book.ClampsAlike c.sheet formula) : ∃ cell active, CellRef.parse c.address c.sheet = .ok cell ∧
      book.select c.sheet = .ok active ∧ compile formula ⟨cell,some active⟩ = .ok c.expr ∧
      (book.Named → cell.sheet = c.sheet ∧ cell.text = c.address) := by
  obtain ⟨tree,treeOf,rest⟩ := bind_ok.mp (build_stored made found holds)
  obtain ⟨active,selects,rest⟩ := bind_ok.mp rest
  obtain ⟨cell,places,compiled⟩ := bind_ok.mp rest
  have selected := Build.reference_ok selects
  obtain ⟨items,after,read,clamps,joined⟩ := tree_items treeOf
  refine ⟨cell,active,Build.reference_ok places,selected,?_,fun named => parse_built named made found (Build.reference_ok places)⟩
  have same : clampItems (fun _ => .ok (Site.extents ⟨cell,some active⟩)) items = .ok after := clampItems_own alike selected read clamps
  rw [compile_items read same joined]
  exact compiled

end

def crossing (formula : String) : Workbook := ⟨[⟨"S",[(⟨1,1⟩,⟨none,.text "x",none⟩),(⟨1,2⟩,⟨none,.text "y",none⟩),
  (⟨2,1⟩,⟨some formula,.empty,none⟩)]⟩,⟨"T",[(⟨1,1⟩,⟨none,.text "p",none⟩),(⟨1,3⟩,⟨none,.text "q",none⟩)]⟩],0⟩

def joins (e : Expr) (address : String) : Bool :=
  match e with
  | .call .concatenate [.range a] => a == address
  | _ => false

theorem joins_inj {e : Expr} (one : joins e address = true) (two : joins e other = true) : address = other := by
  unfold joins at one two
  split at one
  · exact (eq_of_beq one).symm.trans (eq_of_beq two)
  · cases one

theorem compile_stored_crossing : (crossing "=CONCATENATE(A:A,T!A1:A2)").ClampsAlike "S" "=CONCATENATE(A:A,T!A1:A2)" ∧ ∃ m c,
    (build .standard [("S","B1")] (crossing "=CONCATENATE(A:A,T!A1:A2)")).1 = .ok m ∧ m.cell? 0 = some c ∧
      c.formula = some "=CONCATENATE(A:A,T!A1:A2)" ∧ ∃ cell active, CellRef.parse c.address c.sheet = .ok cell ∧
      (crossing "=CONCATENATE(A:A,T!A1:A2)").select c.sheet = .ok active ∧
      compile "=CONCATENATE(A:A,T!A1:A2)" ⟨cell,some active⟩ = .ok c.expr ∧ cell.sheet = c.sheet ∧ cell.text = c.address := by
  let book := crossing "=CONCATENATE(A:A,T!A1:A2)"
  have alike : book.ClampsAlike "S" "=CONCATENATE(A:A,T!A1:A2)" := by decide +kernel
  have made : (build .standard [("S","B1")] book).1 = .ok (book.model .standard [("S","B1")]) := Workbook.made (by decide +kernel)
  have known : ((book.model .standard [("S","B1")]).cell? 0).map (fun c => (c.sheet,c.formula)) =
      some ("S",some "=CONCATENATE(A:A,T!A1:A2)") := by decide +kernel
  obtain ⟨c,found,same⟩ := Option.map_eq_some_iff.mp known
  obtain ⟨sheet,holds⟩ := Prod.mk.inj same
  obtain ⟨cell,active,parsed,selected,compiled,here⟩ := compile_stored made found holds (sheet ▸ alike)
  exact ⟨alike,_,c,made,found,holds,cell,active,parsed,selected,compiled,here (by decide)⟩

-- The sheet T ends a row below the sheet S. Compiled by itself the formula on S loses that row of T.
theorem stored_apart : ∃ m c active e, (build .standard [("S","B1")] (crossing "=CONCATENATE(T!A1:A3)")).1 = .ok m ∧
    m.cell? 0 = some c ∧ c.formula = some "=CONCATENATE(T!A1:A3)" ∧ c.sheet = "S" ∧ CellRef.parse c.address c.sheet = .ok ⟨"S",2,1⟩ ∧
    (crossing "=CONCATENATE(T!A1:A3)").select "S" = .ok active ∧ compile "=CONCATENATE(T!A1:A3)" ⟨⟨"S",2,1⟩,some active⟩ = .ok e ∧
    joins c.expr "T!A1:A3" = true ∧ joins e "T!A1:A2" = true ∧ e ≠ c.expr := by
  let book := crossing "=CONCATENATE(T!A1:A3)"
  have made : (build .standard [("S","B1")] book).1 = .ok (book.model .standard [("S","B1")]) := Workbook.made (by decide +kernel)
  have known : ((book.model .standard [("S","B1")]).cell? 0).map
      (fun c => (c.formula,c.sheet,CellRef.parse c.address c.sheet,joins c.expr "T!A1:A3")) =
      some (some "=CONCATENATE(T!A1:A3)","S",.ok ⟨"S",2,1⟩,true) := by decide +kernel
  obtain ⟨e,compiles,reads⟩ : ∃ e, compile "=CONCATENATE(T!A1:A3)" ⟨⟨"S",2,1⟩,some book⟩ = .ok e ∧ joins e "T!A1:A2" = true := by
    have reads : ((compile "=CONCATENATE(T!A1:A3)" ⟨⟨"S",2,1⟩,some book⟩).toOption.any fun e => joins e "T!A1:A2") = true := by
      decide +kernel
    cases compiles : compile "=CONCATENATE(T!A1:A3)" ⟨⟨"S",2,1⟩,some book⟩ with
    | error e => simp [compiles,Except.toOption] at reads
    | ok e => exact ⟨e,rfl,by simpa [compiles,Except.toOption] using reads⟩
  obtain ⟨c,found,same⟩ := Option.map_eq_some_iff.mp known
  simp only [Prod.mk.injEq] at same
  obtain ⟨holds,sheet,parsed,stores⟩ := same
  have other : e ≠ c.expr := by
    intro equal
    rw [equal] at reads
    exact absurd (joins_inj stores reads) (by decide)
  exact ⟨_,c,book,e,made,found,holds,sheet,parsed,rfl,compiles,stores,reads,other⟩

end Recalc
