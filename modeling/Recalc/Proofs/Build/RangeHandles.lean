import Recalc.Proofs.Build.Exactness
import Recalc.Proofs.Model.Evaluate.Aftermath

namespace Recalc

section
variable {m : Type → Type} [Monad m] [LawfulMonad m] {α β : Type}

theorem mapM_alike {f g : α → m β} {as : List α} (alike : ∀ a ∈ as, f a = g a) : as.mapM f = as.mapM g := by
  induction as with
  | nil => rfl
  | cons a as ih =>
    simp only [List.mapM_cons,alike a List.mem_cons_self,ih fun x listed => alike x (List.mem_cons_of_mem _ listed)]

theorem Query.answer_mapM (source : Query.Source m) (f : α → Query β) (as : List α) :
    (as.mapM f).answer source = as.mapM fun a => (f a).answer source := by
  induction as with
  | nil => rfl
  | cons a as ih =>
    rw [List.mapM_cons,List.mapM_cons,← ih]
    exact (Query.answer_bind source _ _).trans (bind_congr fun b => Query.answer_bind source _ _)

end

namespace Model

-- The table a range node was cut from. Where its own text does not name the node it is kept beside the nodes.
structure CutFrom (m : Model) (r : RangeNode) (table : Rect) (region : Region) : Prop where
  proper : table.Proper
  cut : Build.Cut table region
  node : r = ⟨region.address,region.rows⟩
  kept : region.address = table.text ∨ table.text ∈ m.narrowed

theorem CutFrom.mono {m m' : Model} (cut : m.CutFrom r table region) (kept : ∀ a ∈ m.narrowed, a ∈ m'.narrowed) :
    m'.CutFrom r table region := ⟨cut.proper,cut.cut,cut.node,cut.kept.imp_right (kept _)⟩

end Model

namespace Build
variable {α β : Type} {options : BuildOptions} {book : Workbook} {b b' : Builder} {id target : NodeId} {r : Rect} {u : Unit}

structure Tabled (book : Workbook) (b : Builder) : Prop where
  sheets : b.book.sheets = book.sheets
  tables : ∀ (id : NodeId) node, b.model.nodes[id]? = some (.range node) → ∃ table region, b.model.CutFrom node table region

def KeepsTables (book : Workbook) (x : Build α) : Prop := ∀ b a b', Tabled book b → x b = (.ok a,b') → Tabled book b'

theorem Tabled.advance {m : Model} {todo : List NodeId} {w : Workbook} (tabled : Tabled book b) (sheets : w.sheets = b.book.sheets)
    (narrowed : ∀ a ∈ b.model.narrowed, a ∈ m.narrowed)
    (ranges : ∀ (id : NodeId) node, m.nodes[id]? = some (.range node) → b.model.nodes[id]? = some (.range node) ∨
      ∃ table region, m.CutFrom node table region) : Tabled book ⟨w,m,todo⟩ := by
  refine ⟨sheets.trans tabled.sheets,fun id node there => ?_⟩
  rcases ranges id node there with old | cut
  · obtain ⟨table,region,cut⟩ := tabled.tables id node old
    exact ⟨table,region,cut.mono narrowed⟩
  · exact cut

theorem Tabled.link (tabled : Tabled book b) (a id : NodeId) : Tabled book {b with model := b.model.link a id} :=
  tabled.advance rfl (fun _ listed => listed) fun _ _ there => .inl there

theorem Tabled.narrow (tabled : Tabled book b) (address : String) : Tabled book {b with model := b.model.narrow address} :=
  tabled.advance rfl (b.model.narrow_extends address).narrowed fun _ _ there => .inl (by rwa [Model.nodes_narrow] at there)

theorem Tabled.insert {n : Node} {todo : List NodeId} (tabled : Tabled book b)
    (range : ∀ node, n = .range node → ∃ table region, b.model.CutFrom node table region) :
    Tabled book {b with model := b.model.insert n,todo := todo} := by
  refine tabled.advance rfl (fun _ listed => listed) fun id node there => ?_
  rw [Model.nodes_insert] at there
  split at there
  · obtain ⟨table,region,cut⟩ := range node (Option.some.inj there)
    exact .inr ⟨table,region,cut.mono fun _ listed => listed⟩
  · exact .inl there

theorem Tabled.compiled (tabled : Tabled book b) (id : NodeId) (e : Expr) :
    Tabled book {b with model := b.model.compiled id e} := by
  refine tabled.advance rfl (fun _ listed => listed) fun y node there => .inl ?_
  rw [Model.compiled,Model.nodes_changeCell] at there
  split at there
  · obtain ⟨n,was,same⟩ := Option.map_eq_some_iff.mp there
    cases n with
    | cell c => cases same
    | range k => rw [was,same.symm.trans rfl]; rfl
  · exact there

namespace KeepsTables

theorem pure (a : α) : KeepsTables book (Pure.pure a : Build α) := by
  intro b r b' tabled ran
  obtain ⟨-,rfl⟩ := ran_pure ran
  exact tabled

theorem bind {x : Build α} {f : α → Build β} (first : KeepsTables book x) (rest : ∀ a, KeepsTables book (f a)) :
    KeepsTables book (x >>= f) := by
  intro b r b' tabled ran
  obtain ⟨a,mid,step,last⟩ := ran_bind ran
  exact rest a mid r b' (first b a mid tabled step) last

theorem get {f : Builder → Build β} (rest : ∀ b, KeepsTables book (f b)) : KeepsTables book (MonadState.get >>= f) :=
  fun b r b' tabled ran => rest b b r b' tabled (ran_get ran)

theorem ofReference (r : Except ReferenceError α) : KeepsTables book (Build.ofReference r) := by
  intro b a b' tabled ran
  obtain ⟨-,rfl⟩ := ran_reference ran
  exact tabled

theorem select (name : String) : KeepsTables book (Build.select name) := by
  intro b a b' tabled ran
  obtain ⟨selected,same⟩ := ran_selected ran
  rw [same]
  exact tabled.advance (Workbook.select_ok selected).2 (fun _ listed => listed) fun _ _ there => .inl there

theorem link (a id : NodeId) : KeepsTables book (modify fun b => {b with model := b.model.link a id}) := by
  intro b u b' tabled ran
  cases ran
  exact tabled.link a id

theorem composes : Composes fun α (x : Build α) => KeepsTables book x := ⟨pure,bind⟩

theorem forM {f : α → Build Unit} (each : ∀ a, KeepsTables book (f a)) (as : List α) : KeepsTables book (as.forM f) :=
  composes.forM fun a _ => each a

theorem addCell (cell : CellRef) (formula : Option String) (content : Content) (format : Option NumberFormat) :
    KeepsTables book (Build.addCell options cell formula content format) := by
  intro b id b' tabled ran
  have ran := ran_get ran
  cases formula with
  | none =>
    cases ran
    exact tabled.insert (by simp)
  | some text =>
    cases ran
    exact tabled.insert (by simp)

theorem wire (block : Block) (place : Nat × Nat) : KeepsTables book (Build.wire options r target block place) := by
  refine get fun b => ?_
  split
  · exact (pure _).bind fun y => link y target
  · exact (addCell _ _ _ _).bind fun y => link y target

theorem readRect (r : Rect) : KeepsTables book (Build.readRect r) :=
  get fun _ => (ofReference _).bind fun _ => (ofReference _).bind fun _ => pure _

theorem addConstituents (r : Rect) (target : NodeId) : KeepsTables book (Build.addConstituents options r target) := by
  have wires (block : Block) : KeepsTables book ((offsets r).forM (Build.wire options r target block)) :=
    forM (fun place => wire block place) _
  refine get fun b => ?_
  dsimp only
  split
  · exact (pure (Block.ofEntries [])).bind wires
  · exact (readRect r).bind wires

theorem seed (sheet range : String) : KeepsTables book (Build.seed options sheet range) := by
  refine (select _).bind fun _ => get fun _ => (ofReference _).bind fun _ => (ofReference _).bind fun rect =>
    (readRect _).bind fun block => forM (fun place => get fun b => ?_) _
  split
  · exact pure _
  · exact (addCell _ _ _ _).bind fun _ => pure _

theorem wireRange {table : Rect} {region : Region} {seen seen' : List String} (proper : table.Proper) (cut : Cut table region)
    (kept : region.address = table.text ∨ table.text ∈ b.model.narrowed) (tabled : Tabled book b)
    (ran : Build.wireRange options id region seen b = (.ok seen',b')) : Tabled book b' := by
  cases wireRange_cases ran with
  | known listed => exact tabled
  | @linked known found => exact tabled.link known id
  | made fresh filled =>
    have made : Tabled book {b with model := b.model.insert (.range ⟨region.address,region.rows⟩)} :=
      tabled.insert fun node same => ⟨table,region,proper,cut,(Node.range.inj same).symm,kept⟩
    exact forM (fun slice => addConstituents slice b.model.nodes.length) region.rects _ () b' (made.link b.model.nodes.length id) filled

theorem addReference {sheet : String} {reference : Tree.Reference} {seen seen' : List String} (named : book.Named)
    (clamped : Clamped reference.text) (tabled : Tabled book b)
    (ran : Build.addReference options id sheet seen reference b = (.ok seen',b')) : Tabled book b' := by
  obtain ⟨chosen,canonical,first,made,adds⟩ := addReference_cases ran
  obtain ⟨selected,-⟩ := ran_selected first
  have start := select _ b () chosen tabled first
  rw [Workbook.select_same tabled.sheets] at selected
  cases adds with
  | @range r mid _ _ ranged parsed narrows wired =>
    have proper : r.Proper := by
      rcases target_canonical options named clamped selected made with ⟨-,r',proper,rfl,-⟩ | ⟨single,-⟩ | ⟨colon,-⟩
      · cases (proper.parse _).symm.trans parsed
        exact proper
      · simp [single] at ranged
      · simp [isRange_false colon] at ranged
    obtain ⟨between,kept⟩ : Tabled book mid ∧
        ((regionOf options reference.table r).address = r.text ∨ r.text ∈ mid.model.narrowed) := by
      cases narrows with
      | whole same => exact ⟨start,.inl same⟩
      | part => exact ⟨start.narrow r.text,.inr (Model.mem_narrow _ _)⟩
    exact wireRange proper (cut_regionOf options reference.table r) kept between wired
  | known => exact start
  | cells _ _ filled => exact addConstituents _ id chosen () b' start filled

theorem references {sheet : String} {references : List Tree.Reference} {seen seen' : List String} (named : book.Named)
    (clamped : ∀ reference ∈ references, Clamped reference.text) (tabled : Tabled book b)
    (ran : references.foldlM (Build.addReference options id sheet) seen b = (.ok seen',b')) : Tabled book b' := by
  induction references generalizing b seen with
  | nil =>
    obtain ⟨-,rfl⟩ := ran_pure ran
    exact tabled
  | cons reference references ih =>
    rw [List.foldlM_cons] at ran
    obtain ⟨next,mid,step,rest⟩ := ran_bind ran
    have between := addReference named (clamped reference List.mem_cons_self) tabled step
    exact ih (fun x listed => clamped x (List.mem_cons_of_mem _ listed)) between rest

theorem compileCell {address sheet formula : String} (named : book.Named) :
    KeepsTables book (Build.compileCell options id address sheet formula) := by
  intro b u b' tabled ran
  obtain ⟨tree,active,cell,e,seen,wired,-,clamped,selected,-,-,folded,last⟩ := compileCell_cases tabled.sheets ran
  have start : Tabled book {b with book := active} :=
    tabled.advance ((Workbook.select_ok selected).2.trans tabled.sheets.symm) (fun _ listed => listed) fun _ _ there => .inl there
  exact select _ wired u b' (references named clamped (start.compiled id e) folded) last

end KeepsTables
end Build

theorem build_tabled {options : BuildOptions} {seeds : List (String × String)} {book : Workbook} {m : Model} {id : NodeId} {r : RangeNode}
    (named : book.Named) (made : (build options seeds book).1 = .ok m) (there : m.nodes[id]? = some (.range r)) :
    ∃ table region, m.CutFrom r table region := by
  obtain ⟨b,constructed,rfl⟩ := build_constructs made
  have start : Build.Tabled book (Build.start options seeds book) := ⟨rfl,by simp [Build.start,Model.empty]⟩
  have tabled : Build.Tabled book b := by
    refine Build.kept_construct (P := Build.Tabled book) (fun sheet range => Build.KeepsTables.seed sheet range)
      (fun b todo tabled => ⟨tabled.sheets,tabled.tables⟩) ?_ start constructed
    exact fun b id c formula u b' tabled _ _ ran => Build.KeepsTables.compileCell named b u b' tabled ran
  split at there
  · rename_i trusted
    have outline := Model.outline_settle b.model
    have narrowed : b.model.settle.narrowed = b.model.narrowed := by simpa [Model.outline] using congrArg Model.narrowed outline
    obtain ⟨table,region,cut⟩ := tabled.tables id r (Model.range_same outline.symm there)
    exact ⟨table,region,by rw [if_pos trusted]; exact cut.mono (by simp [narrowed])⟩
  · rename_i untrusted
    rw [if_neg untrusted]
    exact tabled.tables id r there

namespace Rect

def valuesAt (r : Rect) (places : List (List (Nat × Nat))) : Query Value := do
  return .array (← places.mapM fun row => row.mapM fun place => r.valueAt place.1 place.2)

def textsAt (r : Rect) (places : List (List (Nat × Nat))) : List (List String) :=
  places.map (·.map fun place => (r.cellAt place.1 place.2).text)

def Inside (r : Rect) (places : List (List (Nat × Nat))) : Prop :=
  ∀ row ∈ places, ∀ place ∈ row, place.1 < r.rows ∧ place.2 < r.columns

def allPlaces (r : Rect) : List (List (Nat × Nat)) :=
  (List.range r.rows).map fun row => (List.range r.columns).map fun column => (row,column)

-- The two slices of a table that a lookup reads, and the offsets their pairs have in the table.
inductive Pairs (table : Rect) : Rect → Rect → List (List (Nat × Nat)) → Prop where
  | columns (first : table.columnSlice 1 = some key) (second : table.columnSlice index = some result) :
      Pairs table key result ((List.range table.rows).map fun row => [(row,0),(row,index - 1)])
  | rows (first : table.rowSlice 1 = some key) (second : table.rowSlice index = some result) :
      Pairs table key result [(List.range table.columns).map fun column => (0,column),
        (List.range table.columns).map fun column => (index - 1,column)]

variable {r table key result : Rect} {places : List (List (Nat × Nat))}

theorem valueAt_inside (above : row < r.rows) (within : column < r.columns) :
    r.valueAt row column = .entry (r.cellAt row column).text := by
  simp [valueAt,cell?,above,within]

theorem inside_allPlaces (r : Rect) : r.Inside r.allPlaces := by
  intro row listed place member
  obtain ⟨i,above,rfl⟩ := List.mem_map.mp listed
  obtain ⟨j,within,rfl⟩ := List.mem_map.mp member
  exact ⟨List.mem_range.mp above,List.mem_range.mp within⟩

theorem textsAt_allPlaces (r : Rect) : r.textsAt r.allPlaces = r.grid.map (·.map CellRef.text) := by
  simp [textsAt,allPlaces,grid]

theorem valuesAt_allPlaces (r : Rect) : r.valuesAt r.allPlaces = (do return .array (← r.valueGrid)) := by
  have rows : (r.allPlaces.mapM fun row => row.mapM fun place => r.valueAt place.1 place.2) = r.valueGrid := by
    unfold allPlaces valueGrid grid
    rw [List.mapM_map,List.mapM_map]
    refine mapM_alike fun row above => ?_
    simp only [Function.comp_apply,List.mapM_map]
    refine mapM_alike fun column within => ?_
    exact valueAt_inside (List.mem_range.mp above) (List.mem_range.mp within)
  rw [valuesAt,rows]

theorem columnSlice_ok (made : table.columnSlice index = some key) : index - 1 < table.columns ∧ key.rows = table.rows ∧
    key.cells = (List.range table.rows).map fun row => table.cellAt row (index - 1) := by
  unfold columnSlice at made
  split at made
  · rename_i inside
    cases made
    refine ⟨by omega,rfl,?_⟩
    simp [cells,grid,rows,columns,cellAt,← List.flatMap_def]
    exact List.map_eq_flatMap.symm
  · cases made

theorem rowSlice_ok (made : table.rowSlice index = some key) : index - 1 < table.rows ∧
    key.cells = (List.range table.columns).map fun column => table.cellAt (index - 1) column := by
  unfold rowSlice at made
  split at made
  · rename_i inside
    cases made
    refine ⟨by omega,?_⟩
    simp [cells,grid,rows,columns,cellAt]
  · cases made

theorem Pairs.inside (pairs : table.Pairs key result places) : table.Inside places := by
  cases pairs with
  | columns first second =>
    obtain ⟨leads,-⟩ := columnSlice_ok first
    obtain ⟨within,-⟩ := columnSlice_ok second
    intro row listed place member
    obtain ⟨i,above,rfl⟩ := List.mem_map.mp listed
    rcases List.mem_pair.mp member with rfl | rfl
    · exact ⟨List.mem_range.mp above,leads⟩
    · exact ⟨List.mem_range.mp above,within⟩
  | rows first second =>
    obtain ⟨leads,-⟩ := rowSlice_ok first
    obtain ⟨above,-⟩ := rowSlice_ok second
    intro row listed place member
    rcases List.mem_pair.mp listed with rfl | rfl
    all_goals obtain ⟨j,within,rfl⟩ := List.mem_map.mp member
    · exact ⟨leads,List.mem_range.mp within⟩
    · exact ⟨above,List.mem_range.mp within⟩

theorem besides_rows (first : table.columnSlice 1 = some key) (second : table.columnSlice index = some result) :
    (Region.besides key result).rows = table.textsAt ((List.range table.rows).map fun row => [(row,0),(row,index - 1)]) := by
  simp [Region.besides,(columnSlice_ok first).2.2,(columnSlice_ok second).2.2,textsAt,List.zipWith_map]

theorem stacked_rows (first : table.rowSlice 1 = some key) (second : table.rowSlice index = some result) :
    (Region.stacked key result).rows = table.textsAt [(List.range table.columns).map fun column => (0,column),
      (List.range table.columns).map fun column => (index - 1,column)] := by
  simp [Region.stacked,(rowSlice_ok first).2,(rowSlice_ok second).2,textsAt]

end Rect

namespace Model
variable {o m m' : Model} {id : NodeId} {address : String} {node : RangeNode} {rect : Rect} {places : List (List (Nat × Nat))}

def Known (o : Model) (texts : List (List String)) : Prop :=
  ∀ row ∈ texts, ∀ text ∈ row, ∃ y, o.find? text = some y ∧ (o.cell? y).isSome = true

theorem nodePlan_cell (found : (o.cell? id).isSome = true) : o.nodePlan id = .ask id fun v => .done (.ok v) := by
  obtain ⟨c,found⟩ := Option.isSome_iff_exists.mp found
  simp [nodePlan,cell?_eq_some.mp found]

theorem plan_valuesAt (there : o.nodes[id]? = some (.range node)) (inside : rect.Inside places)
    (listed : node.cells = rect.textsAt places) (known : o.Known node.cells) (plain : Bool) :
    (rect.valuesAt places).answer (o.planSource plain) = o.nodePlan id := by
  have single (row : List (Nat × Nat)) (member : row ∈ places) (place : Nat × Nat) (here : place ∈ row) :
      (rect.valueAt place.1 place.2).answer (o.planSource plain) =
        (do .ask (← Plan.done (o.resolve (rect.cellAt place.1 place.2).text)) fun v => .done (.ok v)) := by
    obtain ⟨above,within⟩ := inside row member place here
    obtain ⟨y,found,cell⟩ := known (row.map fun place => (rect.cellAt place.1 place.2).text)
      (by rw [listed]; exact List.mem_map_of_mem member) _ (List.mem_map_of_mem here)
    have resolved : o.resolve (rect.cellAt place.1 place.2).text = .ok y := by simp [resolve,found]
    have unblanked : (o.planSource plain).cell false (rect.cellAt place.1 place.2).text = (do
        let v ← o.nodePlan (← Plan.done (o.resolve (rect.cellAt place.1 place.2).text))
        pure v) := by simp [planSource]
    rw [Rect.valueAt_inside above within]
    simp only [Query.entry,Query.answer,unblanked,bind_pure,resolved]
    exact nodePlan_cell cell
  have plan : o.nodePlan id = (do return .array (← node.cells.mapM fun row => row.mapM fun address => do
      .ask (← Plan.done (o.resolve address)) fun v => .done (.ok v))) := by simp [nodePlan,there]
  rw [plan,listed,Rect.textsAt,List.mapM_map]
  refine (Query.answer_bind _ _ _).trans ?_
  rw [Query.answer_mapM]
  have rows : (places.mapM fun row => (row.mapM fun place => rect.valueAt place.1 place.2).answer (o.planSource plain)) = _ :=
    mapM_alike fun row member => (Query.answer_mapM _ _ row).trans (mapM_alike fun place here => single row member place here)
  rw [rows]
  simp only [Function.comp_def,List.mapM_map]
  rfl

theorem perform_settled {p : Plan α} {a : α} (answers : p.run (known m.settled) = .ok a) (room : Nat) :
    p.perform (Run.cell room) m = (.ok a,m) := by
  induction p with
  | done r => rw [show r = .ok a from answers]; rfl
  | ask id next ih =>
    obtain ⟨v,value,rest⟩ := bind_ok.mp answers
    obtain ⟨c,found,clean,unmarked,rfl⟩ := settled_eq_some.mp (known_ok.mp value)
    have cell : (m.nodes[id]?).bind Node.cell? = some c := found
    have ran : Run.cell room id m = (.ok c.value,m) := by cases room <;> simp [Run.cell,cell,standing,unmarked,clean]
    rw [Plan.perform_ask,ran]
    exact ih c.value rest

-- Reading by the query and evaluating the node of the address come to the same. Reading outside of evaluation does not
-- resume, so where it runs out of room evaluation goes on.
structure ReadsAs (m : Model) (address : String) (query : Query Value) : Prop where
  read : ∀ plain, query.answer (Run.source (Run.cell m.room) plain) m = m.read address
  evaluate : ((∀ place depth, (m.read address).1 ≠ .error (.suspended place depth)) → (m.evaluate address).1 = (m.read address).1)
  again : ∀ plain room v m', m.evaluate address = (.ok v,m') → query.answer (Run.source (Run.cell room) plain) m' = (.ok v,m')

theorem readsAs {query : Query Value} (formed : o.WellFormed) (same : m.outline = o.outline) (rests : m.AtRest)
    (resolved : o.resolve address = .ok id) (plans : ∀ plain, query.answer (o.planSource plain) = o.nodePlan id) :
    m.ReadsAs address query := by
  have here : m.resolve address = .ok id := (resolve_same same address).trans resolved
  have still : {m with depthOffset := 0} = m := by
    have offset := rests.idle.offset
    cases m
    simp_all
  refine ⟨fun plain => ?_,fun roomy => ?_,fun plain room v m' ran => ?_⟩
  · rw [performs_answer (keeps_cell o m.room) plain query m same,plans,read_at,here]
    exact (performs_node (keeps_cell o m.room) id m same).symm
  · obtain ⟨steps,enough⟩ : ∃ k, m.resumeSteps = k + 1 := Nat.exists_eq_succ_of_ne_zero (by simp [resumeSteps])
    have first : m.read address = Run.node (Run.cell m.room) id m := by rw [read_at,here]
    rw [first] at roomy ⊢
    simp only [Model.evaluate,here,enough,resume,still]
    generalize Run.node (Run.cell m.room) id m = ran at roomy ⊢
    obtain ⟨r | v,m'⟩ := ran
    · cases r <;> first | rfl | exact absurd rfl (roomy _ _)
    · rfl
  · have evaluates := evaluate_evaluates formed.distinct formed.deep same (.self o m.settled) rests.idle here
    rw [ran] at evaluates
    have after : m'.outline = o.outline := evaluates.drift.outline.trans same
    have value := evaluates.value v rfl
    rw [← run_nodePlan] at value
    rw [performs_answer (keeps_cell o room) plain query m' after,plans]
    exact perform_settled value room

end Model

namespace RangeNode

def rows (r : RangeNode) : Nat := r.cells.length
def columns (r : RangeNode) : Nat := (r.cells.head?.map List.length).getD 0

end RangeNode

structure Rect.Lists (rect : Rect) (r : RangeNode) : Prop where
  rows : rect.rows = r.rows
  columns : rect.columns = r.columns
  cells : ∀ row column, (rect.cell? row column).map CellRef.text = Block.at? r.cells row column

theorem Rect.lists_ofRect (rect : Rect) (address : String) : rect.Lists ⟨address,(Region.ofRect rect).rows⟩ := by
  have some : rect.rows ≠ 0 := by simp [Rect.rows]
  refine ⟨by simp [RangeNode.rows,Region.ofRect,grid],?_,fun row column => ?_⟩
  · obtain ⟨above,more⟩ : ∃ k, rect.rows = k + 1 := Nat.exists_eq_succ_of_ne_zero some
    simp [RangeNode.columns,Region.ofRect,grid,more,List.range_succ_eq_map]
  · by_cases above : row < rect.rows <;> by_cases within : column < rect.columns <;>
      simp [cell?,Block.at?,Region.ofRect,grid,above,within]

section
variable {options : BuildOptions} {seeds : List (String × String)} {book : Workbook} {o m : Model} {id : NodeId} {r : RangeNode}

theorem Exact.known (exact : Exact options book seeds o) (named : book.Named) (there : o.nodes[id]? = some (.range r)) :
    o.Known r.cells := by
  intro row listed text member
  obtain ⟨f,region,needed,refers,rfl⟩ := exact.constituents id r there
  obtain ⟨cell,inside,spelled⟩ := (refers.lists named text).mp (List.mem_flatten_of_mem listed member)
  obtain ⟨y,c,found,address⟩ := (exact.cells text).mpr ⟨cell,.referred needed refers inside,spelled⟩
  have first : o.find? c.address = some y := exact.distinct.find? (Model.cell?_eq_some.mp found)
  exact ⟨y,address ▸ first,by simp [found]⟩

-- A range that is one rectangle is read through its handle. One that pairs the slices of a table is read through the handle of
-- the whole table, where the slices stand at the offsets of the pairs.
theorem range_handles (named : book.Named) (made : (build options seeds book).1 = .ok o) (requests : List Request)
    (served : o.serveAll requests = m) (there : m.nodes[id]? = some (.range r)) :
    (';' ∉ r.address.toList → ∃ rect, m.readRange r.address = (.ok rect,m) ∧ rect.Lists r ∧
      m.ReadsAs r.address (.range r.address fun rect => do return .array (← rect.valueGrid))) ∧
    (';' ∈ r.address.toList → ∃ table key result places, table.Pairs key result places ∧ r.address = key.text ++ ";" ++ result.text ∧
      m.readRange table.text = (.ok table,m) ∧ r.cells = table.textsAt places ∧
      m.ReadsAs r.address (.range table.text fun table => table.valuesAt places)) := by
  have sturdy := build_sturdy made
  obtain ⟨outline,rests⟩ := Model.serveAll_rests sturdy.formed ⟨sturdy.idle,sturdy.untraced⟩ requests
  rw [served] at outline rests
  have stood : o.nodes[id]? = some (.range r) := Model.range_same outline.symm there
  have known := ((build_exact options seeds book named).2 o made).1.known named stood
  obtain ⟨table,region,cut⟩ := build_tabled named made stood
  have found : o.find? r.address = some id := sturdy.formed.distinct.find? stood
  have resolved : o.resolve r.address = .ok id := by simp [Model.resolve,found]
  have reads {address : String} {rect : Rect} {places : List (List (Nat × Nat))} {next : Rect → Query Value}
      (handle : o.rectOf address = .ok rect) (inside : rect.Inside places) (listed : r.cells = rect.textsAt places)
      (same : next rect = rect.valuesAt places) : m.ReadsAs r.address (.range address next) := by
    refine Model.readsAs sturdy.formed outline rests resolved fun plain => ?_
    have opens : (Query.range address next).answer (o.planSource plain) = (next rect).answer (o.planSource plain) := by
      simp only [Query.answer,Model.planSource,handle]
      rfl
    rw [opens,same,Model.plan_valuesAt stood inside listed known plain]
  have one {rect : Rect} (proper : rect.Proper) (node : r = ⟨rect.text,(Region.ofRect rect).rows⟩) : ';' ∉ r.address.toList ∧
      ∃ rect, m.readRange r.address = (.ok rect,m) ∧ rect.Lists r ∧
        m.ReadsAs r.address (.range r.address fun rect => do return .array (← rect.valueGrid)) := by
    have address : r.address = rect.text := by rw [node]
    have cells : r.cells = rect.textsAt rect.allPlaces := by rw [node,Rect.textsAt_allPlaces]; rfl
    have handle : o.rectOf r.address = .ok rect :=
      Model.rectOf_ok.mpr ⟨by rw [address,Rect.ofAddress,proper.parse]; rfl,.inl ⟨id,r,found,stood⟩⟩
    refine ⟨by rw [address,semicolon_rect]; exact proper.plain.2,rect,?_,node ▸ rect.lists_ofRect rect.text,
      reads handle rect.inside_allPlaces cells rect.valuesAt_allPlaces.symm⟩
    exact congrArg (·,m) ((Model.rectOf_same outline r.address).trans handle)
  have two {key result : Rect} {places : List (List (Nat × Nat))} (pairs : table.Pairs key result places)
      (rects : region.rects = [key,result]) (rows : region.rows = table.textsAt places) : ';' ∈ r.address.toList ∧
      ∃ table key result places, table.Pairs key result places ∧ r.address = key.text ++ ";" ++ result.text ∧
        m.readRange table.text = (.ok table,m) ∧ r.cells = table.textsAt places ∧
        m.ReadsAs r.address (.range table.text fun table => table.valuesAt places) := by
    have address : r.address = key.text ++ ";" ++ result.text := by simp [cut.node,Region.address,rects,String.intercalate_cons_cons]
    have cells : r.cells = table.textsAt places := by rw [cut.node,← rows]
    have joined : ';' ∈ r.address.toList := by simp [address]
    have kept : table.text ∈ o.narrowed := by
      refine cut.kept.resolve_left fun same => ?_
      have named : r.address = table.text := by rw [cut.node]; exact same
      rw [named,semicolon_rect] at joined
      exact cut.proper.plain.2 joined
    have handle : o.rectOf table.text = .ok table :=
      Model.rectOf_ok.mpr ⟨by rw [Rect.ofAddress,cut.proper.parse]; rfl,.inr kept⟩
    refine ⟨joined,table,key,result,places,pairs,address,?_,cells,reads handle pairs.inside cells rfl⟩
    exact congrArg (·,m) ((Model.rectOf_same outline table.text).trans handle)
  have node := cut.node
  cases cut.cut with
  | whole =>
    obtain ⟨alone,reads⟩ := one cut.proper (by simpa [Region.address,Region.ofRect] using node)
    exact ⟨fun _ => reads,fun joined => absurd joined alone⟩
  | column first =>
    obtain ⟨alone,reads⟩ := one (Build.columnSlice_spec cut.proper first).1 (by simpa [Region.address,Region.ofRect] using node)
    exact ⟨fun _ => reads,fun joined => absurd joined alone⟩
  | row first =>
    obtain ⟨alone,reads⟩ := one (Build.rowSlice_spec cut.proper first).1 (by simpa [Region.address,Region.ofRect] using node)
    exact ⟨fun _ => reads,fun joined => absurd joined alone⟩
  | columns first second =>
    obtain ⟨joined,reads⟩ := two (.columns first second) rfl (Rect.besides_rows first second)
    exact ⟨fun alone => absurd joined alone,fun _ => reads⟩
  | rows first second =>
    obtain ⟨joined,reads⟩ := two (.rows first second) rfl (Rect.stacked_rows first second)
    exact ⟨fun alone => absurd joined alone,fun _ => reads⟩

end

def Node.rangeAt (address : String) : Node → Option (List (List String))
  | .cell _ => none
  | .range r => if r.address = address then some r.cells else none

theorem Node.rangeAt_some {address : String} {n : Node} (listed : n.rangeAt address = some cells) : n = .range ⟨address,cells⟩ := by
  cases n with
  | cell c => cases listed
  | range r =>
    obtain ⟨here,same⟩ := Option.ite_none_right_eq_some.mp listed
    rw [← here,← Option.some.inj same]

theorem Model.range_there {o : Model} {id : NodeId} (listed : (o.nodes[id]?).bind (Node.rangeAt address) = some cells) :
    o.nodes[id]? = some (.range ⟨address,cells⟩) := by
  obtain ⟨n,there,listed⟩ := Option.bind_eq_some_iff.mp listed
  rw [there,Node.rangeAt_some listed]

theorem range_handles_looking : looking.Named ∧
    (∃ o cells rect, (build {BuildOptions.standard with narrowLookups := false} [("S","D1")] looking).1 = .ok o ∧
      o.nodes[1]? = some (.range ⟨"S!A1:C2",cells⟩) ∧ o.readRange "S!A1:C2" = (.ok rect,o) ∧ rect.Lists ⟨"S!A1:C2",cells⟩) ∧
    ∃ o cells table key result places, (build .standard [("S","D1")] looking).1 = .ok o ∧
      o.nodes[1]? = some (.range ⟨"S!A1:A2;S!C1:C2",cells⟩) ∧ table.Pairs key result places ∧
      o.readRange table.text = (.ok table,o) ∧ cells = table.textsAt places := by
  have named : looking.Named := by decide
  obtain ⟨o,made,there⟩ : ∃ o, (build {BuildOptions.standard with narrowLookups := false} [("S","D1")] looking).1 = .ok o ∧
      (o.nodes[1]?).bind (Node.rangeAt "S!A1:C2") = some [["S!A1","S!B1","S!C1"],["S!A2","S!B2","S!C2"]] :=
    ⟨_,Workbook.made (by decide +kernel),by decide +kernel⟩
  obtain ⟨o',made',there'⟩ : ∃ o, (build .standard [("S","D1")] looking).1 = .ok o ∧
      (o.nodes[1]?).bind (Node.rangeAt "S!A1:A2;S!C1:C2") = some [["S!A1","S!C1"],["S!A2","S!C2"]] :=
    ⟨_,Workbook.made (by decide +kernel),by decide +kernel⟩
  have there := Model.range_there there
  have there' := Model.range_there there'
  obtain ⟨rect,handle,lists,-⟩ := (range_handles named made [] rfl there).1 (by decide)
  obtain ⟨table,key,result,places,pairs,-,handle',cells,-⟩ := (range_handles named made' [] rfl there').2 (by decide)
  exact ⟨named,⟨o,_,rect,made,there,handle,lists⟩,o',_,table,key,result,places,made',there',pairs,handle',cells⟩

-- The handle of the two slices together is one column on a sheet that is not there, while their node has two columns.
theorem range_handles_apart : looking.Named ∧ ∃ o, (build .standard [("S","D1")] looking).1 = .ok o ∧
    o.nodes[1]? = some (.range ⟨"S!A1:A2;S!C1:C2",[["S!A1","S!C1"],["S!A2","S!C2"]]⟩) ∧
    ∃ rect, (o.readRange "S!A1:A2;S!C1:C2").1 = .ok rect ∧ rect = ⟨"S!A1:A2;S",3,1,3,2⟩ ∧
      ¬ rect.Lists ⟨"S!A1:A2;S!C1:C2",[["S!A1","S!C1"],["S!A2","S!C2"]]⟩ := by
  obtain ⟨o,made,there,handle⟩ : ∃ o, (build .standard [("S","D1")] looking).1 = .ok o ∧
      (o.nodes[1]?).bind (Node.rangeAt "S!A1:A2;S!C1:C2") = some [["S!A1","S!C1"],["S!A2","S!C2"]] ∧
      (o.rectOf "S!A1:A2;S!C1:C2").toOption = some ⟨"S!A1:A2;S",3,1,3,2⟩ :=
    ⟨_,Workbook.made (by decide +kernel),by decide +kernel,by decide +kernel⟩
  have read : (o.readRange "S!A1:A2;S!C1:C2").1 = .ok ⟨"S!A1:A2;S",3,1,3,2⟩ := by
    change o.rectOf _ = _
    cases outcome : o.rectOf "S!A1:A2;S!C1:C2" with
    | error e => simp [outcome,Except.toOption] at handle
    | ok rect => simpa [outcome,Except.toOption] using handle
  refine ⟨by decide,o,made,Model.range_there there,_,read,rfl,fun lists => ?_⟩
  exact absurd lists.columns (by decide)

end Recalc
