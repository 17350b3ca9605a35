import Recalc.Proofs.Build.CompileSteps
import Recalc.Proofs.Build.Growth

namespace Recalc
namespace Build
variable {options : BuildOptions} {book : Workbook} {seeds : List (String × String)} {popped : List NodeId} {b b' : Builder}

def compiles (options : BuildOptions) : Nat → Builder → List NodeId
  | 0, _ => []
  | steps + 1, b =>
    match b.todo with
    | [] => []
    | id :: todo =>
      let b := {b with todo := todo}
      match (b.model.nodes[id]?).bind Node.cell? with
      | some ⟨address,sheet,some formula,_,_,_,_,_⟩ =>
        id :: match locate address (compileCell options id address sheet formula) b with
          | (.ok (),b) => compiles options steps b
          | _ => []
      | _ => compiles options steps b

def order (options : BuildOptions) (seeds : List (String × String)) (book : Workbook) : List NodeId :=
  match seedAll options seeds (start options seeds book) with
  | (.ok (),b) => compiles options (compileSteps b.book) b
  | _ => []

theorem traced_start : Traced options book seeds [] [] (start options seeds book) := by
  refine ⟨rfl,by simp [Model.Distinct,start,Model.empty],?_,?_,?_,?_,?_,List.nodup_nil,?_⟩
  · simp [start,Model.empty,Model.cell?]
  · simp [start,Model.empty]
  · simp [start,Model.empty,Graph.empty]
  · rintro id - - address (⟨r,there,-⟩ | ⟨f,target,stands,-⟩)
    · simp [start,Model.empty] at there
    · simp [start,Model.empty,Model.Stands] at stands
  · simp
  · simp [start,Model.empty,Model.cell?]

theorem traced_seedAll {list : List (String × String)} {u : Unit} (named : book.Named)
    (traced : Traced options book seeds [] popped b) (listed : ∀ s ∈ list, s ∈ seeds) (ran : seedAll options list b = (.ok u,b')) :
    Traced options book seeds [] popped b' ∧ b.model.Extends b'.model ∧ ∀ s ∈ list, Sown book b'.model s.1 s.2 := by
  induction list generalizing b with
  | nil =>
    cases ran
    exact ⟨traced,.refl _,by simp⟩
  | cons first list ih =>
    obtain ⟨sheet,range⟩ := first
    unfold seedAll at ran
    split at ran
    · rename_i mid here
      obtain ⟨between,adds,sown⟩ := traced_seed named traced (listed _ List.mem_cons_self) (located here)
      obtain ⟨after,grows,others⟩ := ih between (fun s member => listed s (List.mem_cons_of_mem _ member)) ran
      exact ⟨after,adds.grows.trans grows,List.forall_mem_cons.mpr ⟨sown.mono grows,others⟩⟩
    · rename_i failed
      exact absurd ran (failed b')

def positions (book : Workbook) : List Position := book.sheets.flatMap fun s => s.entries.map Prod.fst

theorem compileSteps_positions (book : Workbook) : compileSteps book = book.sheets.length * (positions book).length + 1 := by
  have total (sheets : List Worksheet) (n : Nat) : sheets.foldl (fun entries s => entries + s.entries.length) n =
      n + (sheets.flatMap fun s => s.entries.map Prod.fst).length := by
    induction sheets generalizing n with
    | nil => simp
    | cons s sheets ih =>
      simp only [List.foldl_cons,List.flatMap_cons,List.length_append,List.length_map,ih]
      omega
  rw [compileSteps,total,Nat.zero_add]
  rfl

def written (book : Workbook) : List String :=
  book.sheets.flatMap fun s => s.entries.map fun (p,_) => (⟨s.name,p.column,p.row⟩ : CellRef).text

theorem length_written (book : Workbook) : (written book).length ≤ compileSteps book := by
  have same : (written book).length = (positions book).length := by simp [written,positions,List.length_flatMap]
  rw [compileSteps_positions,same]
  cases sheets : book.sheets with
  | nil => simp [positions,sheets]
  | cons s sheets =>
    rw [List.length_cons,Nat.succ_mul]
    omega

theorem mem_written {cell : CellRef} (holds : (book.entry cell).formula?.isSome = true) : cell.text ∈ written book := by
  obtain ⟨s,listed,e,there,same,-⟩ := Workbook.entry_listed holds
  exact List.mem_flatMap.mpr ⟨s,listed,List.mem_map.mpr ⟨e,there,by rw [← same]⟩⟩

theorem length_addressed {m : Model} {ids : List NodeId} {addresses : List String} (distinct : m.Distinct) (once : ids.Nodup)
    (inside : ∀ id ∈ ids, ∃ c, m.cell? id = some c ∧ c.address ∈ addresses) : ids.length ≤ addresses.length := by
  have addressed {id : NodeId} {c : Cell} (found : m.cell? id = some c) : m.addressOf id = c.address := by
    simp [Model.addressOf,Model.cell?_eq_some.mp found,Node.address]
  have once : (ids.map m.addressOf).Nodup := by
    refine List.Nodup.map_on (fun id one id' two same => ?_) once
    obtain ⟨c,found,-⟩ := inside id one
    obtain ⟨c',found',-⟩ := inside id' two
    rw [addressed found,addressed found'] at same
    exact distinct.eq (Model.cell?_eq_some.mp found) (Model.cell?_eq_some.mp found') same
  rw [← List.length_map (f := m.addressOf)]
  refine (List.Nodup.subperm once fun address listed => ?_).length_le
  obtain ⟨id,member,rfl⟩ := List.mem_map.mp listed
  obtain ⟨c,found,known⟩ := inside id member
  rwa [addressed found]

theorem length_listed (traced : Traced options book seeds [] popped b) : (popped ++ b.todo).length ≤ (written book).length := by
  refine length_addressed traced.distinct traced.once fun id member => ?_
  obtain ⟨c,found,formula⟩ := (traced.listed id).mp member
  obtain ⟨cell,-,same,-⟩ := traced.cells id c found
  have address : c.address = cell.text := by rw [same]; exact cell_address options book cell
  rw [traced.formula_of found address] at formula
  exact ⟨c,found,address ▸ mem_written formula⟩

theorem compileAll_done (steps : Nat) (empty : b.todo = []) : compileAll options steps b = (.ok (),b) := by
  cases steps with
  | zero => rfl
  | succ steps =>
    unfold compileAll
    rw [empty]

theorem compiles_done (steps : Nat) (empty : b.todo = []) : compiles options steps b = [] := by
  cases steps with
  | zero => rfl
  | succ steps =>
    unfold compiles
    rw [empty]

variable (options) in
theorem compileAll_next {id : NodeId} {todo : List NodeId} {c : Cell} {formula : String} (steps : Nat) (next : b.todo = id :: todo)
    (found : b.model.cell? id = some c) (holds : c.formula = some formula) :
    (compileAll options (steps + 1) b,compiles options (steps + 1) b) =
      match locate c.address (compileCell options id c.address c.sheet formula) {b with todo := todo} with
      | (.ok (),b) => (compileAll options steps b,id :: compiles options steps b)
      | (.error e,b) => ((.error e,b),[id]) := by
  obtain ⟨address,sheet,_,_,_,_,_,_⟩ := c
  cases holds
  have found : (b.model.nodes[id]?).bind Node.cell? = _ := found
  conv_lhs => unfold compileAll compiles
  simp only [next,found]
  rcases locate address (compileCell options id address sheet formula) {b with todo := todo} with ⟨e | u,b'⟩ <;> rfl

-- There are steps enough: when they are used up nothing is left to compile.
theorem traced_compileAll {steps : Nat} (named : book.Named) (traced : Traced options book seeds [] popped b)
    (enough : (written book).length ≤ popped.length + steps) :
    (∀ more, compileAll options (more + steps) b = compileAll options steps b) ∧
      ∀ b', compileAll options steps b = (.ok (),b') → b'.todo = [] ∧ b.model.Extends b'.model ∧
        Traced options book seeds [] ((compiles options steps b).reverse ++ popped) b' := by
  induction steps generalizing popped b with
  | zero =>
    have empty : b.todo = [] := by
      have short := length_listed traced
      rw [List.length_append] at short
      exact List.eq_nil_of_length_eq_zero (by omega)
    refine ⟨fun more => by rw [compileAll_done _ empty,compileAll_done _ empty],fun b' ran => ?_⟩
    cases ran
    exact ⟨empty,.refl _,traced⟩
  | succ steps ih =>
    cases next : b.todo with
    | nil =>
      refine ⟨fun more => by rw [compileAll_done _ next,compileAll_done _ next],fun b' ran => ?_⟩
      rw [compileAll_done _ next] at ran
      cases ran
      exact ⟨next,.refl _,by rwa [compiles_done _ next]⟩
    | cons id todo =>
      obtain ⟨c,found,formula⟩ := (traced.listed id).mp (by simp [next])
      obtain ⟨formula,holds⟩ := Option.isSome_iff_exists.mp formula
      have step (steps : Nat) := compileAll_next options steps next found holds
      have popping := traced.pop next
      generalize ran : locate c.address (compileCell options id c.address c.sheet formula) {b with todo := todo} = result at step
      obtain ⟨e | u,mid⟩ := result
      · have stops (steps : Nat) : compileAll options (steps + 1) b = (.error e,mid) := congrArg Prod.fst (step steps)
        refine ⟨fun more => by rw [← Nat.add_assoc,stops,stops],fun b' ran => ?_⟩
        rw [stops] at ran
        cases ran
      · have goes (steps : Nat) : compileAll options (steps + 1) b = compileAll options steps mid := congrArg Prod.fst (step steps)
        have order : compiles options (steps + 1) b = id :: compiles options steps mid := congrArg Prod.snd (step steps)
        obtain ⟨between,grows⟩ := traced_compileCell named popping found holds (located ran)
        obtain ⟨stable,after⟩ := ih between (by simp only [List.length_cons]; omega)
        refine ⟨fun more => by rw [← Nat.add_assoc,goes,goes,stable],fun b' ran => ?_⟩
        rw [goes] at ran
        obtain ⟨empty,further,traced⟩ := after b' ran
        exact ⟨empty,grows.trans further,by rw [order]; simpa using traced⟩

end Build

-- A model that holds what is needed, wired up as the formulas of the workbook say, and nothing else.
structure Exact (options : BuildOptions) (book : Workbook) (seeds : List (String × String)) (o : Model) : Prop where
  sheet : o.defaultSheet = (seeds.head?.map Prod.fst).getD book.activeName
  distinct : o.Distinct
  cells : ∀ address, (∃ id c, o.cell? id = some c ∧ c.address = address) ↔
    ∃ cell, Closure options book seeds cell ∧ cell.text = address
  contents : ∀ id c cell, o.cell? id = some c → c.address = cell.text →
    c = {options.cell book cell with expr := c.expr,dirty := c.dirty} ∧
    (options.trustCached = false → c.dirty = (options.cell book cell).dirty) ∧
    match (book.entry cell).formula? with
    | some formula => book.compiled cell formula = .ok c.expr
    | none => c.expr = .literal (Value.ofContent (book.entry cell).value)
  ranges : ∀ address, (∃ (id : NodeId) (r : RangeNode), o.nodes[id]? = some (.range r) ∧ r.address = address) ↔
    ∃ f region, Closure options book seeds f ∧ Refers options book f (.range region) ∧ region.address = address
  constituents : ∀ (id : NodeId) r, o.nodes[id]? = some (.range r) → ∃ f region, Closure options book seeds f ∧
    Refers options book f (.range region) ∧ r = ⟨region.address,region.rows⟩
  edges : ∀ e, e ∈ o.graph.edges ↔ ∃ address, o.Stands e.precedent address ∧ o.Takes options book e.dependent address

section
variable {options : BuildOptions} {book : Workbook} {seeds : List (String × String)} {popped : List NodeId} {b : Builder}

theorem Traced.lists_region {opened : List NodeId} {f : CellRef} {region : Region} {y : NodeId} (named : book.Named)
    (traced : Traced options book seeds opened popped b) (refers : Refers options book f (.range region))
    (there : b.model.find? region.address = some y) : ∃ r, b.model.nodes[y]? = some (.range r) ∧ r.address = region.address ∧
      ∀ cell ∈ (Target.range region).cells, cell.text ∈ r.cells.flatten := by
  obtain ⟨n,known,same⟩ := Model.find?_some there
  obtain ⟨use,rect,proper,cut,-⟩ := refers.region named
  have serves := Build.serves_regionOf options use proper
  rw [← cut] at serves
  cases n with
  | cell c =>
    obtain ⟨cell,needed,alike,-⟩ := traced.cells y c (Model.cell?_eq_some.mpr known)
    have same : c.address = region.address := same
    have colon := serves.address.2.1
    rw [← same,alike,cell_address,colon_cell] at colon
    exact absurd colon (needed.located.proper named).plain.1
  | range r =>
    refine ⟨r,known,same,fun cell inside => ?_⟩
    obtain ⟨f',region',-,refers',rfl⟩ := traced.ranges y r known
    obtain ⟨use',rect',proper',cut',-⟩ := refers'.region named
    have serves' := Build.serves_regionOf options use' proper'
    rw [← cut'] at serves'
    have rects := serves.rects_inj serves' (Eq.symm same)
    refine (refers'.lists named _).mpr ⟨cell,?_,rfl⟩
    simpa only [Target.cells,rects] using inside

section
variable (traced : Traced options book seeds [] popped b) (done : b.todo = [])
include traced done

theorem Traced.meets {id : NodeId} {address : String} (takes : b.model.Takes options book id address) : b.model.Met id address :=
  traced.complete id List.not_mem_nil (by simp [done]) address takes

-- Every cell that is needed has a node. Induction on why it is needed.
theorem Traced.node (named : book.Named) (sown : ∀ s ∈ seeds, Build.Sown book b.model s.1 s.2) {cell : CellRef}
    (needed : Closure options book seeds cell) : ∃ id c, b.model.cell? id = some c ∧ c.address = cell.text := by
  have isCell {cell : CellRef} (needed : Closure options book seeds cell) (known : (b.model.find? cell.text).isSome = true) :
      ∃ id c, b.model.cell? id = some c ∧ c.address = cell.text := by
    obtain ⟨id,found⟩ := Option.isSome_iff_exists.mp known
    exact ⟨id,traced.isCell named found (by rw [colon_cell]; exact (needed.located.proper named).plain.1)⟩
  induction needed with
  | seeded listed clamped inside filled =>
    obtain ⟨rect,clamped',all⟩ := sown _ listed
    cases clamped.symm.trans clamped'
    exact isCell (.seeded listed clamped inside filled) (all _ inside filled)
  | @referred f target cell needed refers inside ih =>
    refine isCell (.referred needed refers inside) ?_
    obtain ⟨id,c,found,address⟩ := ih
    obtain ⟨y,there,-⟩ := traced.meets done (.inr ⟨f,target,(Model.stands_cell found).mpr address,refers,rfl⟩)
    cases target with
    | cell d =>
      cases List.mem_singleton.mp inside
      exact Option.isSome_of_eq_some there
    | range region =>
      obtain ⟨r,range,-,lists⟩ := traced.lists_region named refers there
      obtain ⟨y,there,-⟩ := traced.meets done (.inl ⟨r,range,lists cell inside⟩)
      exact Option.isSome_of_eq_some there

theorem Traced.holds {id : NodeId} {c : Cell} {cell : CellRef} (found : b.model.cell? id = some c) (address : c.address = cell.text) :
    c = {options.cell book cell with expr := c.expr,dirty := c.dirty} ∧
    (options.trustCached = false → c.dirty = (options.cell book cell).dirty) ∧
    match (book.entry cell).formula? with
    | some formula => book.compiled cell formula = .ok c.expr
    | none => c.expr = .literal (Value.ofContent (book.entry cell).value) := by
  obtain ⟨needed,same,fresh⟩ := traced.cell_of found address
  refine ⟨?_,fun _ => by rw [same],?_⟩
  · nth_rewrite 1 [same]
    rw [same]
  · cases holds : (book.entry cell).formula? with
    | some formula =>
      have member : id ∈ popped := by
        have member := (traced.listed id).mpr ⟨c,found,by simp [traced.formula_of found address,holds]⟩
        simpa [done] using member
      exact traced.compiled id c cell formula member List.not_mem_nil found address holds
    | none =>
      have absent : id ∉ popped := by
        intro member
        obtain ⟨c',found',formula⟩ := (traced.listed id).mp (List.mem_append_left _ member)
        cases found.symm.trans found'
        simp [traced.formula_of found address,holds] at formula
      rw [fresh absent,BuildOptions.cell]
      simp [holds,Cell.constant]

theorem Traced.exact (named : book.Named) (sown : ∀ s ∈ seeds, Build.Sown book b.model s.1 s.2)
    (grown : (Build.start options seeds book).model.Extends b.model) : Exact options book seeds b.model := by
  have node {cell : CellRef} (needed : Closure options book seeds cell) := traced.node done named sown needed
  refine ⟨grown.sheet,traced.distinct,fun address => ⟨?_,?_⟩,fun id c cell found address => traced.holds done found address,
    fun address => ⟨?_,?_⟩,traced.ranges,fun e => ⟨traced.edges e,?_⟩⟩
  · rintro ⟨id,c,found,rfl⟩
    obtain ⟨cell,needed,alike,-⟩ := traced.cells id c found
    exact ⟨cell,needed,by rw [alike,cell_address]⟩
  · rintro ⟨cell,needed,rfl⟩
    exact node needed
  · rintro ⟨id,r,there,rfl⟩
    obtain ⟨f,region,needed,refers,rfl⟩ := traced.ranges id r there
    exact ⟨f,region,needed,refers,rfl⟩
  · rintro ⟨f,region,needed,refers,rfl⟩
    obtain ⟨id,c,found,address⟩ := node needed
    obtain ⟨y,there,-⟩ := traced.meets done (.inr ⟨f,_,(Model.stands_cell found).mpr address,refers,rfl⟩)
    obtain ⟨r,range,same,-⟩ := traced.lists_region named refers there
    exact ⟨y,r,range,same⟩
  · rintro ⟨address,stands,takes⟩
    obtain ⟨y,there,edge⟩ := traced.meets done takes
    have alike := Model.stands_find? traced.distinct stands
    cases there.symm.trans alike
    exact edge

end

end

namespace Model
variable {options : BuildOptions} {book : Workbook} {m m' : Model} (same : m'.outline = m.outline)
include same

theorem stands_same {id : NodeId} {address : String} (stands : m.Stands id address) : m'.Stands id address := by
  have alike := congrArg (Option.map Node.address) (node_same same id)
  simp only [Option.map_map,Function.comp_def,address_outline] at alike
  exact alike.trans stands

theorem takes_same {id : NodeId} {address : String} (takes : m.Takes options book id address) : m'.Takes options book id address := by
  rcases takes with ⟨r,there,listed⟩ | ⟨f,target,stands,refers⟩
  · exact .inl ⟨r,range_same same there,listed⟩
  · exact .inr ⟨f,target,stands_same same stands,refers⟩

end Model

section
variable {options : BuildOptions} {book : Workbook} {seeds : List (String × String)} {m : Model}

theorem Exact.settle (exact : Exact options book seeds m) (trusted : options.trustCached = true) : Exact options book seeds m.settle := by
  have same := m.outline_settle
  have sheet : m.settle.outline.defaultSheet = m.outline.defaultSheet := by rw [same]
  refine ⟨sheet.trans exact.sheet,Model.distinct_same same exact.distinct,fun address => (exact.cells address).symm.trans ⟨?_,?_⟩ |>.symm,?_,
    fun address => (exact.ranges address).symm.trans ⟨?_,?_⟩ |>.symm,
    fun id r there => exact.constituents id r (Model.range_same same.symm there),fun e => ?_⟩
  · rintro ⟨id,c,found,address⟩
    obtain ⟨c',found',alike⟩ := Model.cell_same same found
    have kept : c'.address = c.address := by simpa [Cell.outline] using congrArg Cell.address alike
    exact ⟨id,c',found',kept.trans address⟩
  · rintro ⟨id,c,found,address⟩
    obtain ⟨d,found',alike⟩ := Model.cell?_settle found
    rw [alike] at address
    exact ⟨id,d,found',address⟩
  · intro id c cell found address
    obtain ⟨d,found',alike⟩ := Model.cell?_settle found
    have contents := exact.contents id d cell found' (by rw [alike] at address; exact address)
    have expr : c.expr = d.expr := by rw [alike]
    refine ⟨?_,by simp [trusted],by rw [expr]; exact contents.2.2⟩
    rw [expr]
    exact alike.trans (congrArg (fun k : Cell => {k with dirty := c.dirty}) contents.1)
  · rintro ⟨id,r,there,address⟩
    exact ⟨id,r,Model.range_same same there,address⟩
  · rintro ⟨id,r,there,address⟩
    exact ⟨id,r,Model.range_same same.symm there,address⟩
  · rw [Model.graph_same same,exact.edges e]
    constructor
    · rintro ⟨address,stands,takes⟩
      exact ⟨address,Model.stands_same same stands,Model.takes_same same takes⟩
    · rintro ⟨address,stands,takes⟩
      exact ⟨address,Model.stands_same same.symm stands,Model.takes_same same.symm takes⟩

namespace Build

theorem traced_construct {b : Builder} (named : book.Named) (ran : construct options seeds (start options seeds book) = (.ok (),b)) :
    Traced options book seeds [] (order options seeds book).reverse b ∧ b.todo = [] ∧
      (∀ s ∈ seeds, Sown book b.model s.1 s.2) ∧ (start options seeds book).model.Extends b.model := by
  unfold construct at ran
  cases seeded : seedAll options seeds (start options seeds book) with
  | mk result mid =>
    cases result with
    | error e => simp [seeded] at ran
    | ok u =>
      rw [seeded] at ran
      obtain ⟨traced,grown,sown⟩ := traced_seedAll named traced_start (fun s listed => listed) seeded
      have enough : (written book).length ≤ ([] : List NodeId).length + compileSteps mid.book := by
        have long := length_written book
        simpa [compileSteps,traced.sheets] using long
      obtain ⟨done,grows,traced⟩ := (traced_compileAll named traced enough).2 b ran
      refine ⟨?_,done,fun s listed => (sown s listed).mono grows,grown.trans grows⟩
      simpa [order,seeded] using traced

end Build

-- Building ends, and what is built is what the seeds need, each formula compiled once.
theorem build_exact (options : BuildOptions) (seeds : List (String × String)) (book : Workbook) (named : book.Named) :
    (∀ b, Build.seedAll options seeds (Build.start options seeds book) = (.ok (),b) → ∀ more,
      Build.compileAll options (more + Build.compileSteps b.book) b = Build.compileAll options (Build.compileSteps b.book) b) ∧
    ∀ m, (build options seeds book).1 = .ok m → Exact options book seeds m ∧ (Build.order options seeds book).Nodup ∧
      ∀ id, id ∈ Build.order options seeds book ↔ ∃ c, m.cell? id = some c ∧ c.formula.isSome = true := by
  refine ⟨fun b seeded => ?_,fun m made => ?_⟩
  · obtain ⟨traced,-⟩ := Build.traced_seedAll named Build.traced_start (fun s listed => listed) seeded
    have long := Build.length_written book
    exact (Build.traced_compileAll named traced (by simpa [Build.compileSteps,traced.sheets] using long)).1
  · obtain ⟨b,ran,rfl⟩ := build_constructs made
    obtain ⟨traced,done,sown,grown⟩ := Build.traced_construct named ran
    have exact := traced.exact done named sown grown
    have compiled (id : NodeId) : id ∈ Build.order options seeds book ↔ ∃ c, b.model.cell? id = some c ∧ c.formula.isSome = true := by
      simpa [done] using traced.listed id
    have once : (Build.order options seeds book).Nodup := by simpa [done] using traced.once
    split
    · rename_i trusted
      refine ⟨exact.settle trusted,once,fun id => (compiled id).trans ⟨?_,?_⟩⟩
      · rintro ⟨c,found,formula⟩
        obtain ⟨c',found',alike⟩ := Model.cell_same b.model.outline_settle found
        have kept : c'.formula = c.formula := by simpa [Cell.outline] using congrArg Cell.formula alike
        exact ⟨c',found',by rwa [kept]⟩
      · rintro ⟨c,found,formula⟩
        obtain ⟨d,found',alike⟩ := Model.cell?_settle found
        have kept : c.formula = d.formula := by rw [alike]
        exact ⟨d,found',by rwa [← kept]⟩
    · exact ⟨exact,once,compiled⟩

end

def looking : Workbook := ⟨[⟨"S",[(⟨1,1⟩,⟨none,.text "x",none⟩),(⟨1,2⟩,⟨none,.text "y",none⟩),
  (⟨2,1⟩,⟨some "=CONCATENATE(A1,\"q\")",.empty,none⟩),(⟨3,1⟩,⟨none,.text "one",none⟩),
  (⟨3,2⟩,⟨some "=CONCATENATE(A2,\"two\")",.empty,none⟩),(⟨4,1⟩,⟨some "=VLOOKUP(\"y\",A1:C2,3)",.empty,none⟩)]⟩],0⟩

theorem build_exact_looking : looking.Named ∧ ∃ o, (build .standard [("S","D1")] looking).1 = .ok o ∧
    Exact .standard looking [("S","D1")] o ∧
    o.nodes.map Node.address = ["S!D1","S!A1:A2;S!C1:C2","S!A1","S!A2","S!C1","S!C2"] := by
  have named : looking.Named := by decide
  obtain ⟨o,made,nodes⟩ : ∃ o, (build .standard [("S","D1")] looking).1 = .ok o ∧
      o.nodes.map Node.address = ["S!D1","S!A1:A2;S!C1:C2","S!A1","S!A2","S!C1","S!C2"] :=
    ⟨_,Workbook.made (by decide +kernel),by decide +kernel⟩
  exact ⟨named,o,made,((build_exact .standard [("S","D1")] looking named).2 o made).1,nodes⟩

end Recalc
