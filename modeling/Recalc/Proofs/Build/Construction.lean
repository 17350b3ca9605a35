import Recalc.Build
import Recalc.Proofs.Build.Wiring

namespace Recalc

namespace Model
variable {m m' : Model} {n : Node} {id : NodeId}

@[simp] theorem nodes_insert (m : Model) (n : Node) (id : NodeId) :
    (m.insert n).nodes[id]? = if id = m.nodes.length then some n else m.nodes[id]? := by
  unfold insert
  rcases Nat.lt_trichotomy id m.nodes.length with less | rfl | more
  · rw [List.getElem?_append_left less,if_neg (Nat.ne_of_lt less)]
  · simp
  · have beyond : (m.nodes ++ [n]).length ≤ id := by
      simp only [List.length_append,List.length_cons,List.length_nil]
      omega
    rw [List.getElem?_eq_none beyond,if_neg (Nat.ne_of_gt more),List.getElem?_eq_none (Nat.le_of_lt more)]

theorem insert_extends (m : Model) (n : Node) : m.Extends (m.insert n) :=
  ⟨rfl,by simp [insert],fun _ listed => listed,fun _ listed => listed⟩

theorem link_extends (m : Model) (a b : NodeId) : m.Extends (m.link a b) :=
  ⟨rfl,List.prefix_rfl,fun _ listed => (Graph.mem_add m.graph).mpr (.inr listed),fun _ listed => listed⟩

theorem narrow_extends (m : Model) (address : String) : m.Extends (m.narrow address) := by
  unfold narrow
  split
  · exact .refl m
  · exact ⟨rfl,List.prefix_rfl,fun _ listed => listed,fun _ listed => List.mem_cons_of_mem _ listed⟩

@[simp] theorem nodes_narrow (m : Model) (address : String) : (m.narrow address).nodes = m.nodes := by
  unfold narrow
  split <;> rfl

theorem mem_narrow (m : Model) (address : String) : address ∈ (m.narrow address).narrowed := by
  unfold narrow
  split
  · assumption
  · exact List.mem_cons_self

def compiled (m : Model) (id : NodeId) (e : Expr) : Model := m.changeCell id fun c => {c with expr := e}

theorem compiled_extends (m : Model) (id : NodeId) (e : Expr) : m.Extends (m.compiled id e) := by
  have stems : (m.nodes.modify id (Node.changeCell fun c => {c with expr := e})).map Node.stem = m.nodes.map Node.stem := by
    apply List.ext_getElem?
    intro j
    simp only [List.getElem?_map,List.getElem?_modify]
    cases m.nodes[j]? with
    | none => simp
    | some node => split <;> cases node <;> simp [Node.changeCell,Node.stem]
  exact ⟨rfl,by simp [compiled,changeCell,stems],fun _ listed => listed,fun _ listed => listed⟩

theorem distinct_insert (distinct : m.Distinct) (fresh : m.find? n.address = none) : (m.insert n).Distinct := by
  have others := List.findIdx?_eq_none_iff.mp fresh
  simp only [beq_eq_false_iff_ne] at others
  simp only [Distinct,Model.insert,List.map_append,List.map_cons,List.map_nil]
  rw [List.nodup_append]
  refine ⟨distinct,by simp,?_⟩
  intro a listed b single same
  obtain ⟨k,member,rfl⟩ := List.mem_map.mp listed
  exact others k member (by simpa [same] using single)

theorem cell?_insert (found : (m.insert n).cell? id = some c) : n = .cell c ∨ m.cell? id = some c := by
  rw [cell?_eq_some,nodes_insert] at found
  split at found
  · exact .inl (Option.some.inj found)
  · exact .inr (cell?_eq_some.mpr found)

theorem idle_insert (idle : m.Idle) (unmarked : ∀ c, n = .cell c → c.evaluating = false) : (m.insert n).Idle := by
  refine ⟨idle.current,idle.offset,fun id => ?_⟩
  unfold isEvaluating
  cases found : (m.insert n).cell? id with
  | none => rfl
  | some c =>
    rcases cell?_insert found with new | old
    · simp [unmarked c new]
    · simpa [isEvaluating,old] using idle.marks id

theorem cell?_compiled (found : (m.compiled id e).cell? y = some c) : ∃ d, m.cell? y = some d ∧ c = {d with expr := c.expr} := by
  rw [Model.compiled,cell?_changeCell] at found
  split at found
  · obtain ⟨d,there,rfl⟩ := Option.map_eq_some_iff.mp found
    exact ⟨d,there,rfl⟩
  · exact ⟨c,found,rfl⟩

@[simp] theorem addresses_compiled (m : Model) (id : NodeId) (e : Expr) : (m.compiled id e).nodes.map Node.address = m.nodes.map Node.address := by
  apply List.ext_getElem?
  intro j
  simp only [Model.compiled,changeCell,List.getElem?_map,List.getElem?_modify]
  cases m.nodes[j]? with
  | none => simp
  | some node => split <;> cases node <;> simp [Node.changeCell,Node.address]

theorem distinct_compiled (distinct : m.Distinct) (id : NodeId) (e : Expr) : (m.compiled id e).Distinct := by
  simpa only [Distinct,addresses_compiled m id e] using distinct

theorem idle_compiled (idle : m.Idle) (id : NodeId) (e : Expr) : (m.compiled id e).Idle := by
  refine idle.of_cells rfl rfl fun y c found => ?_
  obtain ⟨d,there,same⟩ := cell?_compiled found
  exact ⟨d,there,by rw [same]⟩

namespace Skeleton

theorem insert (skeleton : m.Skeleton) (fresh : m.find? n.address = none)
    (cell : ∀ c, n = .cell c → c.evaluating = false ∧ ∃ cell : CellRef, c.address = cell.text ∧ c.sheet = cell.sheet ∧
      Plain cell.sheet ∧ cell.sheet ≠ "")
    (range : ∀ r, n = .range r → ':' ∈ r.address.toList) : (m.insert n).Skeleton := by
  refine ⟨distinct_insert skeleton.distinct fresh,skeleton.deep,idle_insert skeleton.idle fun c new => (cell c new).1,?_,?_,?_⟩
  · intro id c found
    rcases cell?_insert found with new | old
    · exact (cell c new).2
    · exact skeleton.cells id c old
  · intro id r found
    rw [nodes_insert] at found
    split at found
    · exact range r (Option.some.inj found)
    · exact skeleton.ranges id r found
  · exact fun e listed => (m.insert_extends n).depends (skeleton.edges e listed)

theorem link (skeleton : m.Skeleton) (depends : m.Depends b) : (m.link a b).Skeleton := by
  refine ⟨skeleton.distinct,skeleton.deep,⟨skeleton.idle.current,skeleton.idle.offset,skeleton.idle.marks⟩,
    skeleton.cells,skeleton.ranges,?_⟩
  intro e listed
  rcases (Graph.mem_add m.graph).mp listed with rfl | listed
  · exact (m.link_extends a b).depends depends
  · exact (m.link_extends a b).depends (skeleton.edges e listed)

theorem narrow (skeleton : m.Skeleton) (address : String) : (m.narrow address).Skeleton := by
  unfold Model.narrow
  split
  · exact skeleton
  · exact ⟨skeleton.distinct,skeleton.deep,⟨skeleton.idle.current,skeleton.idle.offset,skeleton.idle.marks⟩,
      skeleton.cells,skeleton.ranges,skeleton.edges⟩

theorem compiled (skeleton : m.Skeleton) (id : NodeId) (e : Expr) : (m.compiled id e).Skeleton := by
  refine ⟨distinct_compiled skeleton.distinct id e,skeleton.deep,idle_compiled skeleton.idle id e,?_,?_,?_⟩
  · intro y c found
    obtain ⟨d,there,same⟩ := cell?_compiled found
    rw [same]
    exact skeleton.cells y d there
  · intro y r found
    rw [Model.compiled,nodes_changeCell] at found
    refine skeleton.ranges y r ?_
    split at found
    · obtain ⟨n,there,same⟩ := Option.map_eq_some_iff.mp found
      cases n with
      | cell c => cases same
      | range k =>
        cases same
        exact there
    · exact found
  · exact fun e listed => (m.compiled_extends id _).depends (skeleton.edges e listed)

theorem isSome (skeleton : m.Skeleton) (found : m.find? address = some id) (colon : ':' ∉ address.toList) :
    ∃ c, m.cell? id = some c ∧ c.address = address := by
  obtain ⟨n,there,named⟩ := find?_some found
  cases n with
  | cell c => exact ⟨c,cell?_eq_some.mpr there,named⟩
  | range r =>
    have named : r.address = address := named
    exact absurd (named ▸ skeleton.ranges id r there) colon

end Skeleton
end Model

theorem Workbook.select_same {w w' : Workbook} (sheets : w'.sheets = w.sheets) (name : String) :
    w'.select name = w.select name := by
  unfold Workbook.select
  rw [sheets]

theorem Workbook.select_ok {w w' : Workbook} (selected : w.select name = .ok w') :
    (∃ s ∈ w.sheets, s.name = name) ∧ w'.sheets = w.sheets := by
  unfold Workbook.select at selected
  split at selected
  · rename_i index found
    cases selected
    obtain ⟨bound,named,-⟩ := List.findIdx?_eq_some_iff_getElem.mp found
    exact ⟨⟨_,List.getElem_mem bound,by simpa using named⟩,rfl⟩
  · cases selected

namespace Build
variable {α β : Type} {b b' : Builder}

theorem ran_bind {x : Build α} {f : α → Build β} {result : β} (ran : (x >>= f) b = (.ok result,b')) :
    ∃ a mid, x b = (.ok a,mid) ∧ f a mid = (.ok result,b') := by
  have opens : (x >>= f) b = ExceptT.bindCont f (x b).1 (x b).2 := rfl
  rw [opens] at ran
  generalize x b = first at ran ⊢
  obtain ⟨outcome,mid⟩ := first
  cases outcome with
  | ok a => exact ⟨a,mid,rfl,ran⟩
  | error e => cases ran

theorem ran_get {f : Builder → Build β} {result : β} (ran : (get >>= f) b = (.ok result,b')) :
    f b b = (.ok result,b') := ran

theorem ran_modify {g : Builder → Builder} {f : Unit → Build β} {result : β}
    (ran : (modify g >>= f) b = (.ok result,b')) : f () (g b) = (.ok result,b') := ran

theorem ran_pure {a result : α} (ran : (pure a : Build α) b = (.ok result,b')) : a = result ∧ b = b' := by
  cases ran
  exact ⟨rfl,rfl⟩

theorem ran_formula {r : Except FormulaError α} {a : α} (ran : ofFormula r b = (.ok a,b')) : r = .ok a ∧ b = b' := by
  cases r with
  | error e => cases ran
  | ok v =>
    cases ran
    exact ⟨rfl,rfl⟩

theorem ran_reference {r : Except ReferenceError α} {a : α} (ran : ofReference r b = (.ok a,b')) : r = .ok a ∧ b = b' := by
  cases r with
  | error e => cases ran
  | ok v =>
    cases ran
    exact ⟨rfl,rfl⟩

theorem ran_selected {name : String} {u : Unit} (ran : select name b = (.ok u,b')) :
    b.book.select name = .ok b'.book ∧ b' = {b with book := b'.book} := by
  obtain ⟨book,mid,first,rest⟩ := ran_bind (ran_get ran)
  obtain ⟨selected,rfl⟩ := ran_reference first
  cases rest
  exact ⟨selected,rfl⟩

theorem ran_select {name : String} {u : Unit} (ran : select name b = (.ok u,b')) :
    (∃ s ∈ b.book.sheets, s.name = name) ∧ b'.book.sheets = b.book.sheets ∧ b'.model = b.model := by
  obtain ⟨selected,same⟩ := ran_selected ran
  obtain ⟨listed,sheets⟩ := Workbook.select_ok selected
  have model := congrArg Builder.model same
  exact ⟨listed,sheets,model⟩

theorem ran_readRect {r : Rect} {block : Block} (named : r.sheet ≠ "") (ran : readRect r b = (.ok block,b')) :
    (∃ s ∈ b.book.sheets, s.name = bare r.sheet) ∧ b = b' := by
  obtain ⟨first,mid,step,rest⟩ := ran_bind (ran_get ran)
  obtain ⟨read,rfl⟩ := ran_reference step
  obtain ⟨u,last,shape,done⟩ := ran_bind rest
  obtain ⟨-,rfl⟩ := ran_reference shape
  obtain ⟨-,rfl⟩ := ran_pure done
  refine ⟨?_,rfl⟩
  simp only [Workbook.read,Rect.splitSheet_text named,Option.getD_some] at read
  split at read
  · cases read
  · rename_i s found
    exact ⟨s,List.mem_of_find?_eq_some found,by simpa using List.find?_some found⟩

-- The workbook can be told from its addresses, and every node but the open ones is finished.
structure Ready (opened : NodeId → Prop) (b : Builder) : Prop where
  plain : ∀ s ∈ b.book.sheets, Plain s.name
  skeleton : b.model.Skeleton
  finished : ∀ id, ¬ opened id → b.model.Finished id

structure Grown (opened : NodeId → Prop) (b b' : Builder) : Prop where
  ready : Ready opened b'
  grows : b.model.Extends b'.model
  nodes : b.model.nodes <+: b'.model.nodes

variable {opened : NodeId → Prop}

theorem Ready.grown (ready : Ready opened b) : Grown opened b b := ⟨ready,.refl _,List.prefix_rfl⟩

theorem Grown.trans {mid : Builder} (one : Grown opened b mid) (two : Grown opened mid b') : Grown opened b b' :=
  ⟨two.ready,one.grows.trans two.grows,one.nodes.trans two.nodes⟩

theorem Ready.rest (ready : Ready opened b) (sheets : b'.book.sheets = b.book.sheets) (model : b'.model = b.model) :
    Grown opened b b' := by
  refine ⟨⟨?_,?_,?_⟩,?_,?_⟩
  · rw [sheets]
    exact ready.plain
  · rw [model]
    exact ready.skeleton
  · rw [model]
    exact ready.finished
  · rw [model]
    exact .refl _
  · exact ⟨[],by rw [model,List.append_nil]⟩

theorem Ready.advance {m : Model} (ready : Ready opened b) (sheets : b'.book.sheets = b.book.sheets) (model : b'.model = m)
    (skeleton : m.Skeleton) (grows : b.model.Extends m) (nodes : b.model.nodes <+: m.nodes)
    (same : ∀ id, ¬ opened id → m.nodes[id]? = b.model.nodes[id]? ∨ m.Finished id) : Grown opened b b' := by
  subst model
  refine ⟨⟨?_,skeleton,fun id closed => ?_⟩,grows,nodes⟩
  · rw [sheets]
    exact ready.plain
  · rcases same id closed with same | finished
    · exact (ready.finished id closed).mono grows same
    · exact finished

theorem ran_forM (done : α → Model → Prop) {f : α → Build Unit} {as : List α} {u : Unit} (ready : Ready opened b)
    (each : ∀ a ∈ as, ∀ c d u, Grown opened b c → f a c = (.ok u,d) → Grown opened c d ∧ done a d.model)
    (keeps : ∀ a m m', m.Extends m' → done a m → done a m') (ran : as.forM f b = (.ok u,b')) :
    Grown opened b b' ∧ ∀ a ∈ as, done a b'.model := by
  induction as generalizing b with
  | nil =>
    obtain ⟨-,rfl⟩ := ran_pure ran
    exact ⟨ready.grown,by simp⟩
  | cons a as ih =>
    obtain ⟨v,mid,first,ran⟩ := ran_bind ran
    obtain ⟨grown,here⟩ := each a (by simp) b mid v ready.grown first
    obtain ⟨further,there⟩ := ih grown.ready
      (fun x listed c d w so => each x (by simp [listed]) c d w (grown.trans so)) ran
    refine ⟨grown.trans further,fun x listed => ?_⟩
    rcases List.mem_cons.mp listed with rfl | listed
    · exact keeps x _ _ further.grows here
    · exact there x listed

-- A new node for a cell: it is found by its address, and it is finished, for so far its
-- formula is only the value stored with it.
theorem ran_addCell {options : BuildOptions} {cell : CellRef} {formula : Option String} {content : Content}
    {format : Option NumberFormat} {id : NodeId} (ready : Ready opened b) (plain : Plain cell.sheet)
    (named : cell.sheet ≠ "") (fresh : b.model.find? cell.text = none)
    (ran : addCell options cell formula content format b = (.ok id,b')) :
    Grown opened b b' ∧ b'.model.find? cell.text = some id ∧ (b'.model.cell? id).isSome = true := by
  obtain ⟨c,e,address,sheet,idle,literal,made,books,rfl⟩ : ∃ (c : Cell) (v : Value), c.address = cell.text ∧ c.sheet = cell.sheet ∧
      c.evaluating = false ∧ c.expr = .literal v ∧ b'.model = b.model.insert (.cell c) ∧ b'.book = b.book ∧
        id = b.model.nodes.length := by
    have ran := ran_get ran
    cases formula with
    | none =>
      cases ran
      exact ⟨_,_,rfl,rfl,rfl,rfl,rfl,rfl,rfl⟩
    | some formula =>
      cases ran
      exact ⟨_,_,rfl,rfl,rfl,rfl,rfl,rfl,rfl⟩
  have new : (b.model.insert (.cell c)).nodes[b.model.nodes.length]? = some (.cell c) := by simp
  have skeleton : (b.model.insert (.cell c)).Skeleton := by
    refine ready.skeleton.insert (by rwa [Node.address,address]) ?_ (by simp)
    rintro _ ⟨⟩
    exact ⟨idle,cell,address,sheet,plain,named⟩
  refine ⟨ready.advance (by rw [books]) made skeleton (b.model.insert_extends _) (List.prefix_append _ _)
    fun id closed => ?_,?_,?_⟩
  · by_cases last : id = b.model.nodes.length
    · subst last
      refine .inr ⟨by simp [new],fun d found => ?_⟩
      rw [Model.cell?_eq_some.mpr new] at found
      cases found
      rw [literal]
      trivial
    · exact .inl (by simp [last])
  · rw [made,← address]
    exact skeleton.distinct.find? new
  · rw [made,Model.cell?_eq_some.mpr new]
    rfl

theorem mem_offsets {r : Rect} : (row,column) ∈ offsets r ↔ row < r.rows ∧ column < r.columns := by
  simp [offsets]

theorem plain_sheet {r : Rect} (ready : Ready opened b) (read : ∃ s ∈ b.book.sheets, s.name = bare r.sheet) :
    Plain r.sheet := by
  obtain ⟨s,listed,named⟩ := read
  exact plain_bare.mp (named ▸ ready.plain s listed)

theorem plain_known {r : Rect} (ready : Ready opened b) (colon : ':' ∉ r.sheet.toList)
    (all : (r.cells.all fun cell => (b.model.find? cell.text).isSome) = true) : Plain r.sheet := by
  have corner : r.cellAt 0 0 ∈ r.cells := by
    have rows : r.rows ≠ 0 := by simp [Rect.rows]
    have columns : r.columns ≠ 0 := by simp [Rect.columns]
    simp only [Rect.cells,Rect.grid,List.mem_flatten,List.mem_map,List.mem_range]
    exact ⟨_,⟨0,Nat.pos_of_ne_zero rows,rfl⟩,by simpa using ⟨0,Nat.pos_of_ne_zero columns,rfl⟩⟩
  obtain ⟨id,found⟩ := Option.isSome_iff_exists.mp (List.all_eq_true.mp all _ corner)
  obtain ⟨c,there,address⟩ := ready.skeleton.isSome found (by rwa [colon_cell])
  obtain ⟨cell,spelled,-,plain,named⟩ := ready.skeleton.cells id c there
  have semicolon : ';' ∉ (r.cellAt 0 0).text.toList := by
    rw [← address,spelled,mem_cell (by decide) (by decide)]
    simp [plain.2]
  rw [mem_cell (by decide) (by decide)] at semicolon
  exact ⟨colon,fun member => semicolon (.inl member)⟩

def wire (options : BuildOptions) (r : Rect) (target : NodeId) (block : Block) (place : Nat × Nat) : Build Unit := do
  let cell := r.cellAt place.1 place.2
  let id ← match (← get).model.find? cell.text with
    | some id => pure id
    | none =>
      addCell options cell (block.formula? place.1 place.2) ((block.value? place.1 place.2).getD .empty)
        (block.format? place.1 place.2)
  modify fun b => {b with model := b.model.link id target}

inductive Links (options : BuildOptions) (r : Rect) (target : NodeId) (block : Block) (place : Nat × Nat) (b : Builder) : Builder → Prop where
  | known (found : b.model.find? (r.cellAt place.1 place.2).text = some y) :
      Links options r target block place b {b with model := b.model.link y target}
  | made (fresh : b.model.find? (r.cellAt place.1 place.2).text = none)
      (added : addCell options (r.cellAt place.1 place.2) (block.formula? place.1 place.2)
        ((block.value? place.1 place.2).getD .empty) (block.format? place.1 place.2) b = (.ok y,mid)) :
      Links options r target block place b {mid with model := mid.model.link y target}

theorem wire_cases {options : BuildOptions} {r : Rect} {target : NodeId} {block : Block} {place : Nat × Nat} {u : Unit}
    (ran : wire options r target block place b = (.ok u,b')) : Links options r target block place b b' := by
  have ran := ran_get ran
  cases found : b.model.find? (r.cellAt place.1 place.2).text with
  | some y =>
    simp only [found] at ran
    obtain ⟨_,_,first,last⟩ := ran_bind ran
    obtain ⟨rfl,rfl⟩ := ran_pure first
    cases last
    exact .known found
  | none =>
    simp only [found] at ran
    obtain ⟨_,_,added,last⟩ := ran_bind ran
    cases last
    exact .made found added

def sow (options : BuildOptions) (rect : Rect) (block : Block) (place : Nat × Nat) : Build Unit := do
  let cell := rect.cellAt place.1 place.2
  let formula := block.formula? place.1 place.2
  let content := (block.value? place.1 place.2).getD .empty
  if (formula.isNone ∧ content.isEmpty) ∨ ((← get).model.find? cell.text).isSome then pure ()
  else discard (addCell options cell formula content (block.format? place.1 place.2))

inductive Sows (options : BuildOptions) (rect : Rect) (block : Block) (place : Nat × Nat) (b : Builder) : Builder → Prop where
  | passed (nothing : ((block.formula? place.1 place.2).isNone ∧ ((block.value? place.1 place.2).getD .empty).isEmpty) ∨
      (b.model.find? (rect.cellAt place.1 place.2).text).isSome = true) : Sows options rect block place b b
  | made (filled : ¬ ((block.formula? place.1 place.2).isNone ∧ ((block.value? place.1 place.2).getD .empty).isEmpty))
      (fresh : b.model.find? (rect.cellAt place.1 place.2).text = none)
      (added : addCell options (rect.cellAt place.1 place.2) (block.formula? place.1 place.2)
        ((block.value? place.1 place.2).getD .empty) (block.format? place.1 place.2) b = (.ok y,last)) :
      Sows options rect block place b last

theorem sow_cases {options : BuildOptions} {rect : Rect} {block : Block} {place : Nat × Nat} {u : Unit}
    (ran : sow options rect block place b = (.ok u,b')) : Sows options rect block place b b' := by
  have ran := ran_get ran
  split at ran
  · rename_i nothing
    obtain ⟨-,rfl⟩ := ran_pure ran
    exact .passed nothing
  · rename_i missing
    obtain ⟨_,_,added,done⟩ := ran_bind ran
    obtain ⟨-,rfl⟩ := ran_pure done
    obtain ⟨filled,fresh⟩ := not_or.mp missing
    exact .made filled (by simpa using fresh) added

theorem seed_cases {options : BuildOptions} {sheet range : String} {u : Unit} (ran : seed options sheet range b = (.ok u,b')) :
    ∃ chosen clamped rect block mid, select sheet b = (.ok (),chosen) ∧ clampRange range chosen.book.extents = .ok clamped ∧
      Rect.parse clamped sheet = .ok rect ∧ readRect rect chosen = (.ok block,mid) ∧
      (offsets rect).forM (sow options rect block) mid = (.ok (),b') := by
  obtain ⟨_,chosen,first,rest⟩ := ran_bind ran
  obtain ⟨clamped,_,second,third⟩ := ran_bind (ran_get rest)
  obtain ⟨clamps,rfl⟩ := ran_reference second
  obtain ⟨rect,_,fourth,fifth⟩ := ran_bind third
  obtain ⟨parsed,rfl⟩ := ran_reference fourth
  obtain ⟨block,mid,read,last⟩ := ran_bind fifth
  exact ⟨chosen,clamped,rect,block,mid,first,clamps,parsed,read,last⟩

section
variable {options : BuildOptions} {r : Rect} {target : NodeId} {u : Unit} (ready : Ready opened b)
  (named : r.sheet ≠ "") (depends : b.model.Depends target)
include ready named depends

theorem ran_wire {block : Block} {place : Nat × Nat} (plain : Plain r.sheet)
    (ran : wire options r target block place b = (.ok u,b')) : Grown opened b b' ∧
      ∃ y, b'.model.find? (r.cellAt place.1 place.2).text = some y ∧ (b'.model.cell? y).isSome = true ∧
        (⟨y,target⟩ : Edge) ∈ b'.model.graph.edges := by
  have links {mid : Builder} {id : NodeId} (grown : Grown opened b mid)
      (found : mid.model.find? (r.cellAt place.1 place.2).text = some id) (cell : (mid.model.cell? id).isSome = true)
      (linked : b' = {mid with model := mid.model.link id target}) : Grown opened b b' ∧
        ∃ y, b'.model.find? (r.cellAt place.1 place.2).text = some y ∧ (b'.model.cell? y).isSome = true ∧
          (⟨y,target⟩ : Edge) ∈ b'.model.graph.edges := by
    subst linked
    have skeleton := grown.ready.skeleton.link (a := id) (grown.grows.depends depends)
    refine ⟨grown.trans (grown.ready.advance rfl rfl skeleton (Model.link_extends _ _ _) List.prefix_rfl
      fun _ _ => .inl rfl),
      id,found,cell,?_⟩
    exact (Graph.mem_add _).mpr (.inl rfl)
  cases wire_cases ran with
  | known found =>
    obtain ⟨c,there,-⟩ := ready.skeleton.isSome found (by rw [colon_cell]; exact plain.1)
    exact links ready.grown found (by simp [there]) rfl
  | made fresh added =>
    obtain ⟨grown,here,cell⟩ := ran_addCell ready plain named fresh added
    exact links grown here cell rfl

theorem ran_wires {block : Block} (plain : Plain r.sheet)
    (ran : (offsets r).forM (wire options r target block) b = (.ok u,b')) : Grown opened b b' ∧ b'.model.Joined r target := by
  refine (ran_forM (fun place m => ∃ y, m.find? (r.cellAt place.1 place.2).text = some y ∧ (m.cell? y).isSome = true ∧
    (⟨y,target⟩ : Edge) ∈ m.graph.edges) ready ?_ ?_ ran).imp_right fun joined row column inside within =>
      joined (row,column) (mem_offsets.mpr ⟨inside,within⟩)
  · exact fun place listed c d v so step => ran_wire so.ready named (so.grows.depends depends) plain step
  · rintro place m m' grows ⟨y,found,cell,edge⟩
    exact ⟨y,grows.find? found,grows.isSome cell,grows.edges _ edge⟩

theorem ran_addConstituents (colon : ':' ∉ r.sheet.toList) (ran : addConstituents options r target b = (.ok u,b')) :
    Plain r.sheet ∧ Grown opened b b' ∧ b'.model.Joined r target := by
  have ran := ran_get ran
  split at ran
  · rename_i all
    have plain := plain_known ready colon all
    have wired : (offsets r).forM (wire options r target (.ofEntries [])) b = (.ok u,b') := ran
    exact ⟨plain,ran_wires ready named depends plain wired⟩
  · obtain ⟨block,mid,first,last⟩ := ran_bind ran
    obtain ⟨read,rfl⟩ := ran_readRect named first
    have plain := plain_sheet ready read
    have wired : (offsets r).forM (wire options r target block) b = (.ok u,b') := last
    exact ⟨plain,ran_wires ready named depends plain wired⟩

end

theorem ran_seed {options : BuildOptions} {sheet range : String} {u : Unit} (ready : Ready opened b)
    (ran : seed options sheet range b = (.ok u,b')) : Grown opened b b' := by
  obtain ⟨chosen,clamped,rect,block,_,first,-,parsed,read,last⟩ := seed_cases ran
  obtain ⟨-,sheets,model⟩ := ran_select first
  have start := ready.rest sheets model
  have named := (Rect.parse_ok parsed).2.2
  obtain ⟨on,rfl⟩ := ran_readRect named read
  have plain := plain_sheet start.ready on
  refine start.trans (ran_forM (fun _ _ => True) start.ready ?_ (fun _ _ _ _ _ => trivial) last).1
  intro place _ c d w so step
  cases sow_cases step with
  | passed => exact ⟨so.ready.grown,trivial⟩
  | made _ fresh added => exact ⟨(ran_addCell so.ready plain named fresh added).1,trivial⟩

end Build
end Recalc
