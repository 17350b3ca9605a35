import Recalc.Proofs.Build.Regions

namespace Recalc

namespace Model
variable {m m' : Model} {id : NodeId}

def Handled (m : Model) (id : NodeId) (address : String) : Prop :=
  if isRange address then ∃ n k, m.find? address = some n ∧ m.nodes[n]? = some (.range k) ∧ (⟨n,id⟩ : Edge) ∈ m.graph.edges
  else ∃ r, (∀ sheet, Rect.parse address sheet = .ok r) ∧ Plain r.sheet ∧ m.Joined r id

def Served (m : Model) (id : NodeId) (site : String) (reference : Tree.Reference) : Prop :=
  ∀ e, canonicalize reference.text site = .ok e →
    if isRange e then ∃ r, m.rectOf e = .ok r ∧ (Tree.TableUse.use reference.table).Granted ⟨m.rectOf,m.Covers id⟩ r
    else m.Covers id e

theorem Extends.handled (grows : m.Extends m') (handled : m.Handled id address) : m'.Handled id address := by
  unfold Handled at handled ⊢
  split
  · rename_i ranged
    rw [if_pos ranged] at handled
    obtain ⟨n,k,found,there,edge⟩ := handled
    exact ⟨n,k,grows.find? found,grows.range there,grows.edges _ edge⟩
  · rename_i single
    rw [if_neg single] at handled
    obtain ⟨r,parses,plain,joined⟩ := handled
    exact ⟨r,parses,plain,grows.joined joined⟩

theorem Extends.served (grows : m.Extends m') (served : m.Served id site reference) : m'.Served id site reference := by
  intro e kept
  have known := served e kept
  split
  · rename_i ranged
    rw [if_pos ranged] at known
    obtain ⟨r,found,granted⟩ := known
    exact ⟨r,grows.rectOf found,granted.mono ⟨fun _ _ found => grows.rectOf found,fun _ covers => grows.covers covers⟩⟩
  · rename_i single
    rw [if_neg single] at known
    exact grows.covers known

theorem Joined.covers {cell : CellRef} (joined : m.Joined (.ofCell cell) id) : m.Covers id cell.text := by
  obtain ⟨y,found,there,edge⟩ := joined 0 0 (by simp [Rect.rows]) (by simp [Rect.columns])
  exact ⟨y,found,there,.inl edge⟩

theorem served_range {r : Rect} {region : Region} {use : Option Tree.TableUse} (serves : Build.Serves use r region)
    (found : m.find? region.address = some n) (there : m.nodes[n]? = some (.range k))
    (edge : (⟨n,id⟩ : Edge) ∈ m.graph.edges) (finished : m.Finished n) :
    (Tree.TableUse.use use).Granted ⟨m.rectOf,m.Covers id⟩ r := by
  have named : k.address = region.address := by
    obtain ⟨node,again,named⟩ := find?_some found
    rw [there] at again
    cases again
    exact named
  have covers {slice : Rect} {row column : Nat} (listed : slice ∈ region.rects) (shows : slice.Shows r row column) :
      m.Covers id (r.cellAt row column).text := by
    obtain ⟨i,j,inside,within,same⟩ := shows
    have piece : slice.text.toList ∈ Text.splitEach ';' k.address.toList := by
      rw [named,serves.address.2.2]
      exact List.mem_map_of_mem listed
    have parsed := (serves.proper slice listed).parse ""
    rw [← String.ofList_toList (s := slice.text)] at parsed
    obtain ⟨y,first,cell,joins⟩ := finished.range k there _ piece slice parsed i j inside within
    rw [← same]
    exact ⟨y,first,cell,.inr ⟨n,k,there,joins,edge⟩⟩
  cases use with
  | none =>
    intro row column inside within
    obtain ⟨slice,listed,shows⟩ := serves.reads row column inside within (by simp)
    exact covers listed shows
  | some table =>
    intro row column inside within place
    obtain ⟨slice,listed,shows⟩ := serves.reads row column inside within (by rintro _ ⟨⟩; exact place)
    exact covers listed shows

theorem served_cell {cell : CellRef} {site : String} {reference : Tree.Reference} (plain : Plain cell.sheet)
    (kept : ∀ e, canonicalize reference.text site = .ok e → e = cell.text) (joined : m.Joined (.ofCell cell) id) :
    m.Served id site reference := by
  intro e spells
  have single : isRange cell.text = false := isRange_false (by rw [colon_cell]; exact plain.1)
  rw [kept e spells,if_neg (by simp [single])]
  exact joined.covers

end Model

namespace Build
variable {b b' : Builder} {options : BuildOptions} {id : NodeId}

def wireRange (options : BuildOptions) (id : NodeId) (region : Region) (seen : List String) : Build (List String) :=
  if region.address ∈ seen then pure seen
  else do
    match (← get).model.find? region.address with
    | some existing => modify fun b => {b with model := b.model.link existing id}
    | none =>
      let range := (← get).model.nodes.length
      modify fun b => {b with model := (b.model.insert (.range ⟨region.address,region.rows⟩)).link range id}
      region.rects.forM fun r => addConstituents options r range
    return region.address :: seen

inductive AddsRange (options : BuildOptions) (id : NodeId) (region : Region) (seen : List String) (b : Builder) :
    List String → Builder → Prop where
  | known (listed : region.address ∈ seen) : AddsRange options id region seen b seen b
  | linked (found : b.model.find? region.address = some n) :
      AddsRange options id region seen b (region.address :: seen) {b with model := b.model.link n id}
  | made (fresh : b.model.find? region.address = none)
      (filled : (region.rects.forM fun r => addConstituents options r b.model.nodes.length)
        {b with model := (b.model.insert (.range ⟨region.address,region.rows⟩)).link b.model.nodes.length id} = (.ok (),last)) :
      AddsRange options id region seen b (region.address :: seen) last

theorem wireRange_cases {region : Region} {seen seen' : List String} (ran : wireRange options id region seen b = (.ok seen',b')) :
    AddsRange options id region seen b seen' b' := by
  unfold wireRange at ran
  split at ran
  · rename_i listed
    obtain ⟨rfl,rfl⟩ := ran_pure ran
    exact .known listed
  · have ran := ran_get ran
    cases found : b.model.find? region.address with
    | some n =>
      simp only [found] at ran
      cases ran
      exact .linked found
    | none =>
      simp only [found] at ran
      obtain ⟨u,mid,first,last⟩ := ran_bind (ran_modify (ran_get ran))
      obtain ⟨rfl,rfl⟩ := ran_pure last
      exact .made found first

-- Where a region is not the whole table, the table is noted before the region is wired up.
inductive Narrows (b : Builder) (r : Rect) (region : Region) : Builder → Prop where
  | whole (same : region.address = r.text) : Narrows b r region b
  | part : Narrows b r region {b with model := b.model.narrow r.text}

inductive AddsReference (options : BuildOptions) (id : NodeId) (sheet : String) (reference : Tree.Reference) (canonical : String)
    (seen : List String) (b : Builder) : List String → Builder → Prop where
  | range (ranged : isRange canonical = true) (parsed : Rect.parse canonical sheet = .ok r)
      (narrows : Narrows b r (regionOf options reference.table r) mid)
      (wired : wireRange options id (regionOf options reference.table r) seen mid = (.ok seen',last)) :
      AddsReference options id sheet reference canonical seen b seen' last
  | known (single : isRange canonical = false) (listed : canonical ∈ seen) :
      AddsReference options id sheet reference canonical seen b seen b
  | cells (single : isRange canonical = false) (parsed : Rect.parse canonical sheet = .ok r)
      (filled : addConstituents options r id b = (.ok (),last)) :
      AddsReference options id sheet reference canonical seen b (canonical :: seen) last

theorem addReference_cases {sheet : String} {seen seen' : List String} {reference : Tree.Reference}
    (ran : addReference options id sheet seen reference b = (.ok seen',b')) : ∃ chosen canonical,
      select ((splitSheet reference.text).1.getD sheet) b = (.ok (),chosen) ∧
      canonicalize reference.text ((splitSheet reference.text).1.getD sheet) = .ok canonical ∧
      AddsReference options id ((splitSheet reference.text).1.getD sheet) reference canonical seen chosen seen' b' := by
  obtain ⟨u,chosen,first,rest⟩ := ran_bind ran
  obtain ⟨canonical,_,second,further⟩ := ran_bind rest
  obtain ⟨made,rfl⟩ := ran_reference second
  refine ⟨chosen,canonical,first,made,?_⟩
  split at further
  · rename_i ranged
    obtain ⟨r,_,third,last⟩ := ran_bind further
    obtain ⟨parsed,rfl⟩ := ran_reference third
    simp only at last
    split at last
    · exact .range ranged parsed .part (ran_modify last)
    · rename_i same
      exact .range ranged parsed (.whole (by simpa using same)) last
  · rename_i single
    have single : isRange canonical = false := by simpa using single
    split at further
    · rename_i listed
      obtain ⟨rfl,rfl⟩ := ran_pure further
      exact .known single listed
    · obtain ⟨r,_,third,fourth⟩ := ran_bind further
      obtain ⟨parsed,rfl⟩ := ran_reference third
      obtain ⟨v,mid,filled,last⟩ := ran_bind fourth
      obtain ⟨rfl,rfl⟩ := ran_pure last
      exact .cells single parsed filled

-- A range is open while its cells are linked to it, and finished after that.
theorem ran_newRange {use : Option Tree.TableUse} {r : Rect} {region : Region} {u : Unit} (ready : Ready (· = id) b)
    (depends : b.model.Depends id) (serves : Serves use r region) (fresh : b.model.find? region.address = none)
    (ran : (region.rects.forM fun r => addConstituents options r b.model.nodes.length)
      {b with model := (b.model.insert (.range ⟨region.address,region.rows⟩)).link b.model.nodes.length id} = (.ok u,b')) :
    Grown (· = id) b b' ∧ b'.model.Handled id region.address := by
  let range := b.model.nodes.length
  let inserted := b.model.insert (.range ⟨region.address,region.rows⟩)
  let linked := inserted.link range id
  have address := serves.address
  have there : linked.nodes[range]? = some (.range ⟨region.address,region.rows⟩) := by
    simp [linked,inserted,range,Model.link]
  have before : inserted.Skeleton := by
    refine ready.skeleton.insert fresh (by simp) ?_
    rintro _ ⟨⟩
    exact address.2.1
  have skeleton : linked.Skeleton := before.link ((b.model.insert_extends _).depends depends)
  have grows : b.model.Extends linked := (b.model.insert_extends _).trans (inserted.link_extends range id)
  have start : Ready (fun y => y = id ∨ y = range) {b with model := linked} := by
    refine ⟨ready.plain,skeleton,fun y closed => ?_⟩
    have same : linked.nodes[y]? = b.model.nodes[y]? := by
      have other : y ≠ b.model.nodes.length := fun last => closed (.inr last)
      simp [linked,inserted,Model.link,other]
    exact (ready.finished y fun here => closed (.inl here)).mono grows same
  obtain ⟨grown,joined⟩ := ran_forM (fun r m => m.Joined r range) start
    (fun r listed c d v so step => (ran_addConstituents so.ready (serves.proper r listed).named
      (so.grows.depends (.inl ⟨_,there⟩)) (serves.proper r listed).plain.1 step).2)
    (fun r m m' grows joined => grows.joined joined) ran
  have found : b'.model.find? region.address = some range := grown.grows.find? (skeleton.distinct.find? there)
  have edge : (⟨range,id⟩ : Edge) ∈ b'.model.graph.edges :=
    grown.grows.edges _ ((Graph.mem_add inserted.graph).mpr (.inl rfl))
  refine ⟨⟨⟨grown.ready.plain,grown.ready.skeleton,fun y closed => ?_⟩,grows.trans grown.grows,
    (List.prefix_append _ _).trans grown.nodes⟩,?_⟩
  · by_cases last : y = range
    · subst last
      refine ⟨fun k known piece listed slice parsed => ?_,fun c known => ?_⟩
      · cases (grown.grows.range there).symm.trans known
        rw [address.2.2] at listed
        obtain ⟨one,member,rfl⟩ := List.mem_map.mp listed
        rw [String.ofList_toList,(serves.proper one member).parse] at parsed
        cases parsed
        exact joined slice member
      · rw [Model.cell?_eq_some,grown.grows.range there] at known
        cases known
    · exact grown.ready.finished y (by simp [closed,last])
  · unfold Model.Handled
    rw [if_pos address.1]
    exact ⟨range,_,found,grown.grows.range there,edge⟩

theorem ran_wireRange {use : Option Tree.TableUse} {r : Rect} {region : Region} {seen seen' : List String}
    (ready : Ready (· = id) b) (depends : b.model.Depends id) (serves : Serves use r region)
    (handled : ∀ a ∈ seen, b.model.Handled id a) (ran : wireRange options id region seen b = (.ok seen',b')) :
    Grown (· = id) b b' ∧ b'.model.Handled id region.address ∧ ∀ a ∈ seen', b'.model.Handled id a := by
  have more {mid : Builder} (grown : Grown (· = id) b mid) (here : mid.model.Handled id region.address) :
      ∀ a ∈ region.address :: seen, mid.model.Handled id a :=
    List.forall_mem_cons.mpr ⟨here,fun a listed => grown.grows.handled (handled a listed)⟩
  cases wireRange_cases ran with
  | known listed => exact ⟨ready.grown,handled _ listed,handled⟩
  | made fresh filled =>
    obtain ⟨grown,here⟩ := ran_newRange ready depends serves fresh filled
    exact ⟨grown,here,more grown here⟩
  | @linked n found =>
    have grown : Grown (· = id) b {b with model := b.model.link n id} :=
      ready.advance rfl rfl (ready.skeleton.link depends) (b.model.link_extends n id) List.prefix_rfl fun _ _ => .inl rfl
    have here : (b.model.link n id).Handled id region.address := by
      obtain ⟨node,there,named⟩ := Model.find?_some found
      unfold Model.Handled
      rw [if_pos serves.address.1]
      cases node with
      | range k => exact ⟨n,k,found,there,(Graph.mem_add b.model.graph).mpr (.inl rfl)⟩
      | cell c =>
        obtain ⟨cell,spelled,-,plain,-⟩ := ready.skeleton.cells n c (Model.cell?_eq_some.mpr there)
        have named : c.address = region.address := named
        have colon := serves.address.2.1
        rw [← named,spelled,colon_cell] at colon
        exact absurd colon plain.1
    exact ⟨grown,here,more grown here⟩

theorem ran_addReference {sheet : String} {seen seen' : List String} {reference : Tree.Reference} (ready : Ready (· = id) b)
    (formula : ∃ c, b.model.cell? id = some c ∧ c.formula.isSome = true) (clamped : Clamped reference.text)
    (handled : ∀ a ∈ seen, b.model.Handled id a)
    (ran : addReference options id sheet seen reference b = (.ok seen',b')) :
    Grown (· = id) b b' ∧ (∀ a ∈ seen', b'.model.Handled id a) ∧ b'.model.Served id (bare sheet) reference := by
  have depends : b.model.Depends id := .inr formula
  obtain ⟨chosen,canonical,first,made,adds⟩ := addReference_cases ran
  obtain ⟨⟨s,listed,named⟩,sheets,model⟩ := ran_select first
  have plain : Plain ((splitSheet reference.text).1.getD sheet) := named ▸ ready.plain s listed
  have start := ready.rest sheets model
  cases adds with
  | @range r mid _ _ ranged parsed narrows wired =>
    obtain ⟨bounded,-,some⟩ := Rect.parse_ok parsed
    cases spelled clamped rfl plain made parsed with
    | cell c single => simp [ranged] at single
    | list single => simp [ranged] at single
    | range _ unmarked bared kept =>
      have proper : r.Proper := ⟨bounded,unmarked,some,bared⟩
      have serves := serves_regionOf options reference.table proper
      obtain ⟨grown,narrowed⟩ : Grown (· = id) chosen mid ∧
          ((regionOf options reference.table r).address = r.text ∨ r.text ∈ mid.model.narrowed) := by
        cases narrows with
        | whole same => exact ⟨start.ready.grown,.inl same⟩
        | part =>
          exact ⟨start.ready.advance rfl rfl (start.ready.skeleton.narrow _) (Model.narrow_extends _ _)
            (by simp) fun y _ => .inl (by simp),.inr (Model.mem_narrow _ _)⟩
      have reached := start.trans grown
      obtain ⟨wired,here,all⟩ := ran_wireRange reached.ready (reached.grows.depends depends) serves
        (fun a listed => reached.grows.handled (handled a listed)) wired
      refine ⟨reached.trans wired,all,fun e spells => ?_⟩
      rw [kept e spells,if_pos (isRange_rect unmarked some)]
      unfold Model.Handled at here
      rw [if_pos serves.address.1] at here
      obtain ⟨n,k,found,there,edge⟩ := here
      have apart : n ≠ id := by
        rintro rfl
        obtain ⟨c,known,-⟩ := formula
        obtain ⟨c',known,-⟩ := (reached.grows.trans wired.grows).cell known
        rw [Model.cell?_eq_some,there] at known
        cases known
      refine ⟨r,?_,Model.served_range serves found there edge (wired.ready.finished n apart)⟩
      refine Model.rectOf_ok.mpr ⟨by rw [Rect.ofAddress,proper.parse]; rfl,?_⟩
      rcases narrowed with same | listed
      · exact .inl ⟨n,k,same ▸ found,there⟩
      · exact .inr (wired.grows.narrowed _ listed)
  | known single listed =>
    have before := start.grows.handled (handled canonical listed)
    refine ⟨start,fun a listed => start.grows.handled (handled a listed),?_⟩
    unfold Model.Handled at before
    rw [if_neg (by simp [single])] at before
    obtain ⟨r,parses,unmarked,joined⟩ := before
    cases spelled clamped rfl plain made (parses _) with
    | range ranged => simp [ranged] at single
    | list _ _ semicolon => exact absurd semicolon unmarked.2
    | cell c _ alone plain' _ kept => exact Model.served_cell plain' kept (alone ▸ joined)
  | cells single parsed filled =>
    have named := (Rect.parse_ok parsed).2.2
    cases spelled clamped rfl plain made parsed with
    | range ranged => simp [ranged] at single
    | list _ colon semicolon =>
      have unmarked := (ran_addConstituents start.ready named (start.grows.depends depends) colon filled).1
      exact absurd semicolon unmarked.2
    | cell c _ alone unmarked parses kept =>
      obtain ⟨-,grown,joined⟩ := ran_addConstituents start.ready named (start.grows.depends depends)
        (by rw [alone]; exact unmarked.1) filled
      refine ⟨start.trans grown,List.forall_mem_cons.mpr ⟨?_,fun a listed => (start.trans grown).grows.handled (handled a listed)⟩,
        Model.served_cell unmarked kept (alone ▸ joined)⟩
      unfold Model.Handled
      rw [if_neg (by simp [single])]
      exact ⟨_,parses,by rw [alone]; exact unmarked,joined⟩

end Build
end Recalc
