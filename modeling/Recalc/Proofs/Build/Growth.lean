import Recalc.Proofs.Build.Built

namespace Recalc

namespace Model

-- What holds of a model while it is built, whatever the sheets are called. Without trust every
-- formula has yet to be computed, and every constant can be read.
structure Sturdy (trusted : Bool) (m : Model) : Prop where
  formed : m.WellFormed
  idle : m.Idle
  untraced : m.callStack = []
  edges : ∀ e ∈ m.graph.edges, m.Depends e.dependent
  stale : ∀ id c, m.cell? id = some c → c.formula.isSome = true → c.dirty = true ∨ trusted = true
  literal : ∀ id c, m.cell? id = some c → c.formula = none → c.expr = .literal c.value ∧ (c.dirty = false ∨ trusted = true)

theorem depends_same {m m' : Model} {id : NodeId} (same : m'.outline = m.outline) (depends : m.Depends id) : m'.Depends id := by
  rcases depends with ⟨r,there⟩ | ⟨c,found,formula⟩
  · exact .inl ⟨r,range_same same there⟩
  · obtain ⟨d,there,alike⟩ := cell_same same found
    have formulas : d.formula = c.formula := by simpa [Cell.outline] using congrArg Cell.formula alike
    exact .inr ⟨d,there,by rwa [formulas]⟩

namespace Sturdy
variable {trusted : Bool} {m : Model}

theorem insert (sturdy : m.Sturdy trusted) (fresh : m.find? n.address = none)
    (cell : ∀ c, n = .cell c → c.evaluating = false ∧ (c.formula.isSome = true → c.dirty = true ∨ trusted = true) ∧
      (c.formula = none → c.expr = .literal c.value ∧ (c.dirty = false ∨ trusted = true))) :
    (m.insert n).Sturdy trusted := by
  refine ⟨⟨distinct_insert sturdy.formed.distinct fresh,sturdy.formed.deep⟩,
    idle_insert sturdy.idle fun c new => (cell c new).1,sturdy.untraced,
    fun e listed => (m.insert_extends n).depends (sturdy.edges e listed),fun id c found formula => ?_,
    fun id c found constant => ?_⟩
  · rcases cell?_insert found with new | old
    · exact (cell c new).2.1 formula
    · exact sturdy.stale id c old formula
  · rcases cell?_insert found with new | old
    · exact (cell c new).2.2 constant
    · exact sturdy.literal id c old constant

theorem link (sturdy : m.Sturdy trusted) (depends : m.Depends b) : (m.link a b).Sturdy trusted := by
  refine ⟨⟨sturdy.formed.distinct,sturdy.formed.deep⟩,⟨sturdy.idle.current,sturdy.idle.offset,sturdy.idle.marks⟩,
    sturdy.untraced,?_,sturdy.stale,sturdy.literal⟩
  intro e listed
  rcases (Graph.mem_add m.graph).mp listed with rfl | listed
  · exact (m.link_extends a b).depends depends
  · exact (m.link_extends a b).depends (sturdy.edges e listed)

theorem narrow (sturdy : m.Sturdy trusted) (address : String) : (m.narrow address).Sturdy trusted := by
  unfold Model.narrow
  split
  · exact sturdy
  · exact ⟨⟨sturdy.formed.distinct,sturdy.formed.deep⟩,⟨sturdy.idle.current,sturdy.idle.offset,sturdy.idle.marks⟩,
      sturdy.untraced,sturdy.edges,sturdy.stale,sturdy.literal⟩

theorem compiled {id : NodeId} (sturdy : m.Sturdy trusted) (depends : m.Depends id) (e : Expr) :
    (m.compiled id e).Sturdy trusted := by
  refine ⟨⟨distinct_compiled sturdy.formed.distinct id e,sturdy.formed.deep⟩,idle_compiled sturdy.idle id e,sturdy.untraced,
    fun edge listed => (m.compiled_extends id e).depends (sturdy.edges edge listed),fun y c found formula => ?_,
    fun y c found constant => ?_⟩
  · obtain ⟨d,there,same⟩ := cell?_compiled found
    have formulas : c.formula = d.formula := by rw [same]
    have dirty : c.dirty = d.dirty := by rw [same]
    rw [dirty]
    exact sturdy.stale y d there (formulas ▸ formula)
  · have other : id ≠ y := by
      rintro rfl
      have formula := ((m.compiled_extends id e).depends depends).formula found
      simp [constant] at formula
    rw [Model.compiled,cell?_changeCell,if_neg other] at found
    exact sturdy.literal y c found constant

-- No change of another cell reaches a constant.
theorem reached_constant {o : Model} {start y : NodeId} {propagate : Bool} (sturdy : o.Sturdy trusted)
    (same : m.outline = o.outline) (found : o.cell? y = some c) (constant : c.formula = none)
    (reached : y ∈ m.reached start propagate) : y = start := by
  rcases (mem_reached.mp reached).cases_tail with here | ⟨b,-,edge,-⟩
  · exact here
  · rw [graph_same same] at edge
    have formula := (sturdy.edges _ edge).formula found
    simp [constant] at formula

end Sturdy
end Model

namespace Build
variable {α β : Type} {trusted : Bool} {options : BuildOptions} {b b' : Builder}

def Keeps (trusted : Bool) (targets : NodeId → Prop) (x : Build α) : Prop :=
  ∀ b a b', b.model.Sturdy trusted → (∀ id, targets id → b.model.Depends id) → x b = (.ok a,b') →
    b'.model.Sturdy trusted ∧ b.model.Extends b'.model

namespace Keeps
variable {targets : NodeId → Prop} {id : NodeId}

theorem pure (a : α) : Keeps trusted targets (Pure.pure a : Build α) := by
  intro b r b' sturdy _ ran
  obtain ⟨-,rfl⟩ := ran_pure ran
  exact ⟨sturdy,.refl _⟩

theorem bind {x : Build α} {f : α → Build β} (first : Keeps trusted targets x) (rest : ∀ a, Keeps trusted targets (f a)) :
    Keeps trusted targets (x >>= f) := by
  intro b r b' sturdy depends ran
  obtain ⟨a,mid,step,last⟩ := ran_bind ran
  obtain ⟨between,grows⟩ := first b a mid sturdy depends step
  obtain ⟨after,further⟩ := rest a mid r b' between (fun id target => grows.depends (depends id target)) last
  exact ⟨after,grows.trans further⟩

theorem get {f : Builder → Build β} (rest : ∀ b, Keeps trusted targets (f b)) :
    Keeps trusted targets (MonadState.get >>= f) :=
  fun b r b' sturdy depends ran => rest b b r b' sturdy depends (ran_get ran)

theorem ofReference (r : Except ReferenceError α) : Keeps trusted targets (Build.ofReference r) := by
  intro b a b' sturdy _ ran
  obtain ⟨-,rfl⟩ := ran_reference ran
  exact ⟨sturdy,.refl _⟩

theorem ofFormula (r : Except FormulaError α) : Keeps trusted targets (Build.ofFormula r) := by
  intro b a b' sturdy _ ran
  obtain ⟨-,rfl⟩ := ran_formula ran
  exact ⟨sturdy,.refl _⟩

theorem select (name : String) : Keeps trusted targets (Build.select name) := by
  intro b a b' sturdy _ ran
  obtain ⟨-,-,model⟩ := ran_select ran
  rw [model]
  exact ⟨sturdy,.refl _⟩

theorem link (a : NodeId) (target : targets id) :
    Keeps trusted targets (modify fun b => {b with model := b.model.link a id}) := by
  intro b r b' sturdy depends ran
  cases ran
  exact ⟨sturdy.link (depends id target),b.model.link_extends a id⟩

theorem narrow (address : String) : Keeps trusted targets (modify fun b => {b with model := b.model.narrow address}) := by
  intro b r b' sturdy _ ran
  cases ran
  exact ⟨sturdy.narrow address,b.model.narrow_extends address⟩

theorem compiled (e : Expr) (target : targets id) :
    Keeps trusted targets (modify fun b => {b with model := b.model.compiled id e}) := by
  intro b r b' sturdy depends ran
  cases ran
  exact ⟨sturdy.compiled (depends id target) e,b.model.compiled_extends id e⟩

theorem composes : Composes fun α (x : Build α) => Keeps trusted targets x := ⟨pure,bind⟩

theorem forM {f : α → Build Unit} (each : ∀ a, Keeps trusted targets (f a)) (as : List α) :
    Keeps trusted targets (as.forM f) := composes.forM fun a _ => each a

theorem mapM {f : α → Build β} (each : ∀ a, Keeps trusted targets (f a)) (as : List α) :
    Keeps trusted targets (as.mapM f) := composes.mapM fun a _ => each a

theorem foldlM {f : β → α → Build β} (each : ∀ b a, Keeps trusted targets (f b a)) (as : List α) (start : β) :
    Keeps trusted targets (as.foldlM f start) := composes.foldlM (fun b a _ => each b a) start

theorem discard {x : Build α} (keeps : Keeps trusted targets x) : Keeps trusted targets (Functor.discard x) :=
  keeps.bind fun _ => pure ()

end Keeps

variable {targets : NodeId → Prop}

theorem keeps_readRect (r : Rect) : Keeps trusted targets (readRect r) :=
  .get fun _ => (Keeps.ofReference _).bind fun _ => (Keeps.ofReference _).bind fun _ => .pure _

theorem sturdy_addCell {cell : CellRef} {formula : Option String} {content : Content} {format : Option NumberFormat} {id : NodeId}
    (sturdy : b.model.Sturdy options.trustCached) (fresh : b.model.find? cell.text = none)
    (ran : addCell options cell formula content format b = (.ok id,b')) :
    b'.model.Sturdy options.trustCached ∧ b.model.Extends b'.model := by
  have ran := ran_get ran
  cases formula with
  | none =>
    cases ran
    refine ⟨sturdy.insert fresh ?_,b.model.insert_extends _⟩
    rintro _ ⟨⟩
    exact ⟨rfl,by simp [Cell.constant],fun _ => ⟨rfl,.inl rfl⟩⟩
  | some formula =>
    cases ran
    refine ⟨sturdy.insert fresh ?_,b.model.insert_extends _⟩
    rintro _ ⟨⟩
    refine ⟨rfl,fun _ => ?_,by simp [Cell.ofFormula]⟩
    cases options.trustCached <;> simp [Cell.ofFormula]

theorem keeps_wire (r : Rect) (id : NodeId) (block : Block) (place : Nat × Nat) :
    Keeps options.trustCached (· = id) (wire options r id block place) := by
  have links (n : NodeId) : Keeps options.trustCached (· = id) (modify fun b => {b with model := b.model.link n id}) :=
    .link n rfl
  intro b u b' sturdy depends ran
  cases wire_cases ran with
  | @known y found => exact links y b () _ sturdy depends rfl
  | @made mid y fresh added =>
    obtain ⟨between,grows⟩ := sturdy_addCell sturdy fresh added
    obtain ⟨after,further⟩ := links y mid () _ between (fun z target => grows.depends (depends z target)) rfl
    exact ⟨after,grows.trans further⟩

theorem keeps_addConstituents (r : Rect) (id : NodeId) :
    Keeps options.trustCached (· = id) (addConstituents options r id) := by
  have wires (block : Block) : Keeps options.trustCached (· = id) ((offsets r).forM (wire options r id block)) :=
    .forM (keeps_wire r id block) _
  refine .get fun b => ?_
  dsimp only
  split
  · exact (Keeps.pure (Block.ofEntries [])).bind wires
  · exact (keeps_readRect r).bind wires

theorem keeps_sow (rect : Rect) (block : Block) (place : Nat × Nat) : Keeps options.trustCached targets (sow options rect block place) := by
  intro b u b' sturdy _ ran
  cases sow_cases ran with
  | passed => exact ⟨sturdy,.refl _⟩
  | made _ fresh added => exact sturdy_addCell sturdy fresh added

theorem keeps_seed (sheet range : String) : Keeps options.trustCached targets (seed options sheet range) :=
  (Keeps.select _).bind fun _ => .get fun _ => (Keeps.ofReference _).bind fun _ => (Keeps.ofReference _).bind fun rect =>
    (keeps_readRect _).bind fun block => .forM (keeps_sow rect block) _

theorem keeps_wireRange (id : NodeId) (region : Region) (seen : List String) :
    Keeps options.trustCached (· = id) (wireRange options id region seen) := by
  intro b seen' b' sturdy depends ran
  cases wireRange_cases ran with
  | known listed => exact ⟨sturdy,.refl _⟩
  | @linked existing found =>
    have links : Keeps options.trustCached (· = id) (modify fun b => {b with model := b.model.link existing id}) :=
      .link existing rfl
    exact links b () _ sturdy depends rfl
  | made fresh filled =>
    let range := b.model.nodes.length
    let inserted := b.model.insert (.range ⟨region.address,region.rows⟩)
    have before : inserted.Sturdy options.trustCached := sturdy.insert fresh (by simp)
    have grows : b.model.Extends inserted := b.model.insert_extends _
    have linked := before.link (a := range) (grows.depends (depends id rfl))
    have there : inserted.Depends range := .inl ⟨_,by simp [inserted,range]; rfl⟩
    obtain ⟨after,further⟩ := Keeps.forM (fun r => keeps_addConstituents r range) region.rects _ () b' linked
      (fun y target => (inserted.link_extends range id).depends (target ▸ there)) filled
    exact ⟨after,(grows.trans (inserted.link_extends range id)).trans further⟩

theorem keeps_addReference (id : NodeId) (sheet : String) (seen : List String) (reference : Tree.Reference) :
    Keeps options.trustCached (· = id) (addReference options id sheet seen reference) := by
  refine (Keeps.select _).bind fun _ => (Keeps.ofReference _).bind fun canonical => ?_
  split
  · refine (Keeps.ofReference _).bind fun rect => ?_
    dsimp only
    split
    · exact (Keeps.narrow _).bind fun _ => keeps_wireRange id _ seen
    · exact keeps_wireRange id _ seen
  · split
    · exact .pure _
    · exact (Keeps.ofReference _).bind fun rect => (keeps_addConstituents rect id).bind fun _ => .pure _

theorem keeps_clampReferences (sheet : String) (items : List Item) :
    Keeps trusted targets (clampReferences sheet items) := by
  refine .mapM (fun item => ?_) items
  split
  · exact (Keeps.select _).bind fun _ => .get fun _ => (Keeps.ofReference _).bind fun _ => .pure _
  · exact .pure _

theorem keeps_compileCell (id : NodeId) (address sheet formula : String) :
    Keeps options.trustCached (· = id) (compileCell options id address sheet formula) := by
  refine (Keeps.ofFormula _).bind fun _ => (keeps_clampReferences _ _).bind fun _ => (Keeps.select _).bind fun _ =>
    (Keeps.ofFormula _).bind fun tree => (Keeps.ofReference _).bind fun _ => .get fun _ => (Keeps.ofFormula _).bind fun e => ?_
  have compiles : Keeps options.trustCached (· = id) (modify fun b => {b with model := b.model.compiled id e}) :=
    .compiled e rfl
  exact compiles.bind fun _ =>
    (Keeps.discard (.foldlM (fun seen reference => keeps_addReference id sheet seen reference) _ _)).bind fun _ => .select _

end Build

theorem build_sturdy {options : BuildOptions} {seeds : List (String × String)} {book : Workbook} {m : Model}
    (made : (build options seeds book).1 = .ok m) : m.Sturdy options.trustCached := by
  obtain ⟨b,constructed,rfl⟩ := build_constructs made
  have start : (Build.start options seeds book).model.Sturdy options.trustCached := by
    refine ⟨⟨?_,Nat.le_max_right _ _⟩,⟨rfl,rfl,fun id => rfl⟩,rfl,?_,?_,?_⟩
    · simp [Model.Distinct,Build.start,Model.empty]
    · simp [Build.start,Model.empty,Graph.empty]
    · simp [Model.cell?,Build.start,Model.empty]
    · simp [Model.cell?,Build.start,Model.empty]
  have sturdy : b.model.Sturdy options.trustCached := by
    refine Build.kept_construct (P := fun b => b.model.Sturdy options.trustCached) ?_ (fun b todo sturdy => sturdy) ?_
      start constructed
    · intro sheet range b u b' sturdy ran
      have keeps : Build.Keeps options.trustCached (fun _ => False) (Build.seed options sheet range) :=
        Build.keeps_seed sheet range
      exact (keeps b u b' sturdy (fun _ no => no.elim) ran).1
    · intro b id c formula u b' sturdy found compiles ran
      have depends : b.model.Depends id := .inr ⟨c,found,by simp [compiles]⟩
      exact (Build.keeps_compileCell id c.address c.sheet formula b u b' sturdy (fun y target => target ▸ depends) ran).1
  split
  · rename_i trusted
    have outline := Model.outline_settle b.model
    refine ⟨sturdy.formed.same outline,Model.idle_settle sturdy.idle,?_,fun e listed => ?_,fun _ _ _ _ => .inr trusted,
      fun id c found constant => ⟨?_,.inr trusted⟩⟩
    · obtain ⟨ids,changes⟩ := b.model.settle_changes
      rw [changes,Model.callStack_changeAll]
      exact sturdy.untraced
    · rw [Model.graph_same outline] at listed
      exact Model.depends_same outline (sturdy.edges e listed)
    · obtain ⟨d,was,same⟩ := Model.cell?_settle found
      have literal := (sturdy.literal id d was (by rw [← constant,same])).1
      rw [same]
      exact literal
  · exact sturdy

end Recalc
