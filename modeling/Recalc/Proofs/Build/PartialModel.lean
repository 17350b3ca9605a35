import Recalc.Proofs.Build.Closure

namespace Recalc

def Target.address : Target → String
  | .cell c => c.text
  | .range region => region.address

namespace Model
variable {options : BuildOptions} {book : Workbook} {m m' : Model} {id : NodeId} {address : String}

def Stands (m : Model) (id : NodeId) (address : String) : Prop := (m.nodes[id]?).map Node.address = some address

-- What the node reads: a range the cells it lists, a formula what it refers to.
def Takes (options : BuildOptions) (book : Workbook) (m : Model) (id : NodeId) (address : String) : Prop :=
  (∃ r, m.nodes[id]? = some (.range r) ∧ address ∈ r.cells.flatten) ∨
    ∃ f target, m.Stands id f.text ∧ Refers options book f target ∧ target.address = address

def Met (m : Model) (id : NodeId) (address : String) : Prop :=
  ∃ y, m.find? address = some y ∧ (⟨y,id⟩ : Edge) ∈ m.graph.edges

theorem stands_cell (found : m.cell? id = some c) : m.Stands id address ↔ c.address = address := by
  simp [Stands,cell?_eq_some.mp found,Node.address]

theorem stands_find? (distinct : m.Distinct) (stands : m.Stands id address) : m.find? address = some id := by
  obtain ⟨n,there,rfl⟩ := Option.map_eq_some_iff.mp stands
  exact distinct.find? there

theorem find?_stands (found : m.find? address = some id) : m.Stands id address := by
  obtain ⟨n,there,named⟩ := find?_some found
  simp [Stands,there,named]

namespace Extends
variable (grows : m.Extends m')
include grows

theorem stands (stands : m.Stands id address) : m'.Stands id address := by
  obtain ⟨n,there,rfl⟩ := Option.map_eq_some_iff.mp stands
  obtain ⟨n',there',same⟩ := grows.node there
  simp [Stands,there',← address_stem n',same]

theorem stands_back (there : m.nodes[id]? = some n) (stands : m'.Stands id address) : m.Stands id address := by
  obtain ⟨n',there',same⟩ := grows.node there
  rw [Stands,there'] at stands
  rw [Stands,there,← stands,Option.map_some,Option.map_some,← address_stem n,← same,address_stem]

theorem takes (takes : Takes options book m id address) : Takes options book m' id address := by
  rcases takes with ⟨r,there,listed⟩ | ⟨f,target,stands,refers⟩
  · exact .inl ⟨r,grows.range there,listed⟩
  · exact .inr ⟨f,target,grows.stands stands,refers⟩

theorem takes_back (there : m.nodes[id]? = some n) (takes : Takes options book m' id address) : Takes options book m id address := by
  rcases takes with ⟨r,there',listed⟩ | ⟨f,target,stands,refers⟩
  · obtain ⟨n',again,same⟩ := grows.node there
    cases again.symm.trans there'
    cases n with
    | cell c => cases same
    | range k =>
      cases same
      exact .inl ⟨r,there,listed⟩
  · exact .inr ⟨f,target,grows.stands_back there stands,refers⟩

theorem met (met : m.Met id address) : m'.Met id address := by
  obtain ⟨y,found,edge⟩ := met
  exact ⟨y,grows.find? found,grows.edges _ edge⟩

end Extends
end Model

section
variable (options : BuildOptions) (book : Workbook) (cell : CellRef)

@[simp] theorem cell_address : (options.cell book cell).address = cell.text := by
  unfold BuildOptions.cell
  dsimp only
  split <;> rfl

@[simp] theorem cell_sheet : (options.cell book cell).sheet = cell.sheet := by
  unfold BuildOptions.cell
  dsimp only
  split <;> rfl

@[simp] theorem cell_value : (options.cell book cell).value = .ofContent (book.entry cell).value := by
  unfold BuildOptions.cell
  dsimp only
  split <;> rfl

@[simp] theorem cell_formula : (options.cell book cell).formula = (book.entry cell).formula? := by
  unfold BuildOptions.cell
  dsimp only
  split <;> rename_i known <;> simp [known,Cell.constant,Cell.ofFormula]

end

theorem Refers.formula (refers : Refers options book f target) : (book.entry f).formula?.isSome = true := by
  obtain ⟨formula,tree,holds,-⟩ := refers
  simp [holds]

theorem entry_sheet {book : Workbook} {cell : CellRef} (holds : (book.entry cell).formula?.isSome = true) :
    ∃ s ∈ book.sheets, s.name = cell.sheet := by
  cases found : book.find? cell.sheet with
  | none => simp [Workbook.entry,found,Entry.blank,Entry.formula?] at holds
  | some s => exact ⟨s,List.mem_of_find?_eq_some found,by simpa using List.find?_some found⟩

theorem Refers.colon {book : Workbook} (named : book.Named) (refers : Refers options book f target) : ':' ∉ f.text.toList := by
  obtain ⟨s,listed,on⟩ := entry_sheet refers.formula
  rw [colon_cell,← on]
  exact (named s listed).plain.1

theorem Refers.region {book : Workbook} {region : Region} (named : book.Named)
    (refers : Refers options book f (.range region)) : ∃ use r, r.Proper ∧
    region = Build.regionOf options use r ∧ ∀ cell ∈ r.cells, Located book cell := by
  obtain ⟨formula,tree,-,-,reference,-,leads⟩ := refers
  obtain ⟨⟨s,listed,on⟩,⟨r,parsed,same⟩ | ⟨c,-,same⟩⟩ := target_ok leads
  · cases same
    obtain ⟨bounded,sheet,some⟩ := Rect.parse_ok parsed
    rw [splitSheet_again,← on] at sheet
    have known := named s listed
    rw [← sheet] at known
    exact ⟨_,r,⟨bounded,known.plain,some,known.bare⟩,rfl,fun cell inside => Rect.located bounded some ⟨s,listed,sheet.symm⟩ inside⟩
  · cases same

theorem Refers.lists {book : Workbook} {region : Region} (named : book.Named) (refers : Refers options book f (.range region)) :
    region.Lists := by
  obtain ⟨use,r,-,rfl,-⟩ := refers.region named
  exact (Build.cut_regionOf options use r).lists

structure Listing (m : Model) (popped todo : List NodeId) : Prop where
  once : (popped ++ todo).Nodup
  listed : ∀ id, id ∈ popped ++ todo ↔ ∃ c, m.cell? id = some c ∧ c.formula.isSome = true

namespace Listing
variable {m : Model} {popped todo : List NodeId} {id : NodeId}

section
variable (listing : Listing m popped todo)
include listing

theorem lt (member : id ∈ popped ++ todo) : id < m.nodes.length := by
  obtain ⟨c,found,-⟩ := (listing.listed id).mp member
  exact Model.cell?_lt found

theorem insert (n : Node) : Listing (m.insert n) popped
    (if (n.cell?.bind Cell.formula).isSome then m.nodes.length :: todo else todo) := by
  have new : (m.insert n).cell? m.nodes.length = n.cell? := by simp [Model.cell?]
  have apart {id : NodeId} (member : id ∈ popped ++ todo) : id ≠ m.nodes.length := Nat.ne_of_lt (listing.lt member)
  refine ⟨?_,fun id => ?_⟩
  · split
    · refine List.nodup_append_comm.mp (List.nodup_cons.mpr ⟨fun member => ?_,List.nodup_append_comm.mp listing.once⟩)
      exact apart (List.mem_append.mpr (List.mem_append.mp member).symm) rfl
    · exact listing.once
  · by_cases here : id = m.nodes.length
    · subst here
      rw [new]
      constructor
      · intro member
        split at member
        · rename_i formula
          obtain ⟨text,holds⟩ := Option.isSome_iff_exists.mp formula
          obtain ⟨c,there,holds⟩ := Option.bind_eq_some_iff.mp holds
          exact ⟨c,there,by simp [holds]⟩
        · exact absurd rfl (apart member)
      · rintro ⟨c,there,formula⟩
        have holds : (n.cell?.bind Cell.formula).isSome = true := by simpa [there] using formula
        simp [holds]
    · have last : (m.insert n).cell? id = m.cell? id := by simp only [Model.cell?,Model.nodes_insert,if_neg here]
      rw [last,← listing.listed id]
      split
      · simp [here]
      · rfl

theorem compiled (id : NodeId) (e : Expr) : Listing (m.compiled id e) popped todo := by
  refine ⟨listing.once,fun y => ?_⟩
  rw [listing.listed y]
  constructor
  · rintro ⟨c,found,formula⟩
    obtain ⟨c',there,same⟩ := (m.compiled_extends id e).cell found
    exact ⟨c',there,by rwa [same]⟩
  · rintro ⟨c,found,formula⟩
    obtain ⟨d,there,same⟩ := Model.cell?_compiled found
    have formulas : c.formula = d.formula := by rw [same]
    exact ⟨d,there,by rwa [← formulas]⟩

end

theorem pop (listing : Listing m popped (id :: todo)) : Listing m (id :: popped) todo := by
  refine ⟨List.nodup_middle.mp listing.once,fun y => ?_⟩
  rw [← listing.listed y]
  simp only [List.cons_append,List.mem_cons,List.mem_append]
  tauto

end Listing

-- What a builder has made so far, of what is needed and nothing else. The formulas that were
-- `popped` are compiled, those on the list will be; what is `opened` is still worked on.
structure Traced (options : BuildOptions) (book : Workbook) (seeds : List (String × String)) (opened popped : List NodeId)
    (b : Builder) : Prop where
  sheets : b.book.sheets = book.sheets
  distinct : b.model.Distinct
  cells : ∀ id c, b.model.cell? id = some c → ∃ cell, Closure options book seeds cell ∧
    c = {options.cell book cell with expr := c.expr} ∧ (id ∉ popped → c = options.cell book cell)
  ranges : ∀ (id : NodeId) r, b.model.nodes[id]? = some (.range r) → ∃ f region, Closure options book seeds f ∧
    Refers options book f (.range region) ∧ r = ⟨region.address,region.rows⟩
  edges : ∀ e ∈ b.model.graph.edges, ∃ address, b.model.Stands e.precedent address ∧
    b.model.Takes options book e.dependent address
  complete : ∀ id, id ∉ opened → id ∉ b.todo → ∀ address, b.model.Takes options book id address → b.model.Met id address
  compiled : ∀ id c cell formula, id ∈ popped → id ∉ opened → b.model.cell? id = some c → c.address = cell.text →
    (book.entry cell).formula? = some formula → book.compiled cell formula = .ok c.expr
  once : (popped ++ b.todo).Nodup
  listed : ∀ id, id ∈ popped ++ b.todo ↔ ∃ c, b.model.cell? id = some c ∧ c.formula.isSome = true

namespace Traced
variable {options : BuildOptions} {book : Workbook} {seeds : List (String × String)} {opened opened' popped todo : List NodeId}
  {b b' : Builder} {id : NodeId} {n : Node} {address : String} {cell : CellRef} {region : Region}

section
variable (traced : Traced options book seeds opened popped b)
include traced

theorem cell_of (found : b.model.cell? id = some c) (address : c.address = cell.text) :
    Closure options book seeds cell ∧ c = {options.cell book cell with expr := c.expr} ∧ (id ∉ popped → c = options.cell book cell) := by
  obtain ⟨cell',needed,same,fresh⟩ := traced.cells id c found
  have alike : cell'.text = cell.text := by rw [← address,same,cell_address]
  cases CellRef.text_inj alike
  exact ⟨needed,same,fresh⟩

theorem formula_of (found : b.model.cell? id = some c) (address : c.address = cell.text) : c.formula = (book.entry cell).formula? := by
  rw [(traced.cell_of found address).2.1]
  exact cell_formula options book cell

theorem isCell (named : book.Named) (found : b.model.find? address = some id) (colon : ':' ∉ address.toList) :
    ∃ c, b.model.cell? id = some c ∧ c.address = address := by
  obtain ⟨n,there,same⟩ := Model.find?_some found
  cases n with
  | cell c => exact ⟨c,Model.cell?_eq_some.mpr there,same⟩
  | range r =>
    obtain ⟨f,region,-,refers,rfl⟩ := traced.ranges id r there
    obtain ⟨use,r,proper,rfl,-⟩ := refers.region named
    have same : (Build.regionOf options use r).address = address := same
    exact absurd (same ▸ (Build.serves_regionOf options use proper).address.2.1) colon

theorem listing : Listing b.model popped b.todo := ⟨traced.once,traced.listed⟩

theorem insert (more : ∀ y ∈ opened, y ∈ opened') (fresh : b.model.find? n.address = none)
    (cell : ∀ c, n = .cell c → ∃ cell, Closure options book seeds cell ∧ c = options.cell book cell)
    (range : ∀ r, n = .range r → b.model.nodes.length ∈ opened' ∧ ∃ f region, Closure options book seeds f ∧
      Refers options book f (.range region) ∧ r = ⟨region.address,region.rows⟩)
    (lists : todo = if (n.cell?.bind Cell.formula).isSome then b.model.nodes.length :: b.todo else b.todo) :
    Traced options book seeds opened' popped {b with model := b.model.insert n,todo := todo} := by
  have grows := b.model.insert_extends n
  have last (id : NodeId) (old : id ≠ b.model.nodes.length) : (b.model.insert n).cell? id = b.model.cell? id := by
    simp only [Model.cell?,Model.nodes_insert,if_neg old]
  have new : (b.model.insert n).cell? b.model.nodes.length = n.cell? := by
    simp [Model.cell?]
  have apart {id : NodeId} (member : id ∈ popped ++ b.todo) : id ≠ b.model.nodes.length :=
    Nat.ne_of_lt (traced.listing.lt member)
  have sublist : ∀ id ∈ b.todo, id ∈ todo := by
    intro id member
    rw [lists]
    split <;> simp [member]
  refine ⟨traced.sheets,Model.distinct_insert traced.distinct fresh,?_,?_,?_,?_,?_,?_,?_⟩
  · intro id c found
    rcases Model.cell?_insert found with made | old
    · obtain ⟨cell,needed,rfl⟩ := cell c made
      exact ⟨cell,needed,rfl,fun _ => rfl⟩
    · exact traced.cells id c old
  · intro id r there
    rw [Model.nodes_insert] at there
    split at there
    · exact (range r (Option.some.inj there)).2
    · exact traced.ranges id r there
  · intro e listed
    obtain ⟨address,stands,takes⟩ := traced.edges e listed
    exact ⟨address,grows.stands stands,grows.takes takes⟩
  · intro id closed unlisted address takes
    by_cases here : id = b.model.nodes.length
    · subst here
      -- Only a range or a formula reads anything, and neither is done with yet.
      rcases takes with ⟨r,there,-⟩ | ⟨f,target,stands,refers,-⟩
      · rw [Model.nodes_insert,if_pos rfl] at there
        exact absurd (range r (Option.some.inj there)).1 closed
      · cases n with
        | range r => exact absurd (range r rfl).1 closed
        | cell c =>
          obtain ⟨cell',needed,rfl⟩ := cell c rfl
          have alike : cell'.text = f.text := by
            rw [← cell_address options book cell']
            exact (Model.stands_cell new).mp stands
          cases CellRef.text_inj alike
          refine absurd ?_ unlisted
          rw [lists,if_pos]
          · exact List.mem_cons_self
          · simpa [Node.cell?,cell_formula] using refers.formula
    · have there : b.model.nodes[id]? = (b.model.insert n).nodes[id]? := by rw [Model.nodes_insert,if_neg here]
      obtain ⟨k,known⟩ : ∃ k, b.model.nodes[id]? = some k := by
        rw [there]
        rcases takes with ⟨r,known,-⟩ | ⟨f,target,stands,-⟩
        · exact ⟨_,known⟩
        · exact (Option.map_eq_some_iff.mp stands).imp fun k known => known.1
      have closed : id ∉ opened := fun open' => closed (more id open')
      exact grows.met (traced.complete id closed (fun member => unlisted (sublist id member)) address (grows.takes_back known takes))
  · intro id c cell formula member closed found
    rw [last id (apart (List.mem_append_left _ member))] at found
    exact traced.compiled id c cell formula member (fun open' => closed (more id open')) found
  · exact lists ▸ (traced.listing.insert n).once
  · exact lists ▸ (traced.listing.insert n).listed

theorem link (stands : b.model.Stands a address) (takes : b.model.Takes options book id address) :
    Traced options book seeds opened popped {b with model := b.model.link a id} := by
  have grows := b.model.link_extends a id
  refine ⟨traced.sheets,traced.distinct,traced.cells,traced.ranges,fun e listed => ?_,?_,traced.compiled,traced.once,traced.listed⟩
  · rcases (Graph.mem_add b.model.graph).mp listed with rfl | listed
    · exact ⟨address,stands,takes⟩
    · exact traced.edges e listed
  · exact fun y closed unlisted address takes => grows.met (traced.complete y closed unlisted address takes)

theorem narrow (address : String) : Traced options book seeds opened popped {b with model := b.model.narrow address} := by
  unfold Model.narrow
  split
  · exact traced
  · exact ⟨traced.sheets,traced.distinct,traced.cells,traced.ranges,traced.edges,traced.complete,traced.compiled,traced.once,
      traced.listed⟩

theorem rest (sheets : b'.book.sheets = b.book.sheets) (model : b'.model = b.model) (todo : b'.todo = b.todo) :
    Traced options book seeds opened popped b' := by
  obtain ⟨book',model',todo'⟩ := b'
  cases model
  cases todo
  exact {traced with sheets := sheets.trans traced.sheets}

end

theorem pop (traced : Traced options book seeds [] popped b) (next : b.todo = id :: todo) :
    Traced options book seeds [id] (id :: popped) {b with todo := todo} := by
  have listing := (next ▸ traced.listing).pop
  refine ⟨traced.sheets,traced.distinct,fun y c found => ?_,traced.ranges,traced.edges,?_,?_,listing.once,listing.listed⟩
  · obtain ⟨cell,needed,same,fresh⟩ := traced.cells y c found
    exact ⟨cell,needed,same,fun absent => fresh fun member => absent (List.mem_cons_of_mem _ member)⟩
  · intro y closed unlisted
    refine traced.complete y (List.not_mem_nil) ?_
    rw [next]
    exact List.not_mem_cons_of_ne_of_not_mem (by simpa using closed) unlisted
  · intro y c cell formula member closed
    exact traced.compiled y c cell formula ((List.mem_cons.mp member).resolve_left (by simpa using closed)) List.not_mem_nil

theorem compile (traced : Traced options book seeds [id] (id :: popped) b) (e : Expr) :
    Traced options book seeds [id] (id :: popped) {b with model := b.model.compiled id e} := by
  have grows := b.model.compiled_extends id e
  have others {y : NodeId} (other : y ≠ id) : (b.model.compiled id e).nodes[y]? = b.model.nodes[y]? := by
    rw [Model.compiled,Model.nodes_changeCell,if_neg (Ne.symm other)]
  have present {y : NodeId} {k : Node} (there : (b.model.compiled id e).nodes[y]? = some k) : ∃ n, b.model.nodes[y]? = some n := by
    have long : (b.model.compiled id e).nodes.length = b.model.nodes.length := by simp [Model.compiled,Model.changeCell]
    exact ⟨_,List.getElem?_eq_getElem (long ▸ (List.getElem?_eq_some_iff.mp there).1)⟩
  refine ⟨traced.sheets,Model.distinct_compiled traced.distinct id e,?_,?_,?_,?_,?_,traced.once,(traced.listing.compiled id e).listed⟩
  · intro y c found
    obtain ⟨d,there,same⟩ := Model.cell?_compiled found
    obtain ⟨cell,needed,alike,fresh⟩ := traced.cells y d there
    refine ⟨cell,needed,by rw [same,alike],fun absent => ?_⟩
    have other : y ≠ id := fun here => absent (here ▸ List.mem_cons_self)
    rw [Model.cell?,others other,← Model.cell?,there] at found
    exact Option.some.inj found ▸ fresh absent
  · intro y r there
    obtain ⟨n,known⟩ := present there
    obtain ⟨n',again,same⟩ := grows.node known
    cases again.symm.trans there
    cases n with
    | cell c => cases same
    | range k =>
      cases same
      exact traced.ranges y r known
  · intro edge listed
    obtain ⟨address,stands,takes⟩ := traced.edges edge listed
    exact ⟨address,grows.stands stands,grows.takes takes⟩
  · intro y closed unlisted address takes
    obtain ⟨k,there⟩ : ∃ k, (b.model.compiled id e).nodes[y]? = some k := by
      rcases takes with ⟨r,there,-⟩ | ⟨f,target,stands,-⟩
      · exact ⟨_,there⟩
      · exact (Option.map_eq_some_iff.mp stands).imp fun k known => known.1
    obtain ⟨n,known⟩ := present there
    exact grows.met (traced.complete y closed unlisted address (grows.takes_back known takes))
  · intro y c cell formula member closed found
    have other : y ≠ id := by simpa using closed
    rw [Model.cell?,others other] at found
    exact traced.compiled y c cell formula member closed found

theorem close (traced : Traced options book seeds (id :: opened) popped b)
    (met : ∀ address, b.model.Takes options book id address → b.model.Met id address)
    (compiled : ∀ c cell formula, b.model.cell? id = some c → c.address = cell.text →
      (book.entry cell).formula? = some formula → book.compiled cell formula = .ok c.expr) :
    Traced options book seeds opened popped b := by
  refine {traced with complete := ?_,compiled := ?_}
  · intro y closed unlisted address takes
    by_cases here : y = id
    · exact here ▸ met address (here ▸ takes)
    · exact traced.complete y (List.not_mem_cons_of_ne_of_not_mem here closed) unlisted address takes
  · intro y c cell formula member closed found address holds
    by_cases here : y = id
    · exact compiled c cell formula (here ▸ found) address holds
    · exact traced.compiled y c cell formula member (List.not_mem_cons_of_ne_of_not_mem here closed) found address holds

end Traced
end Recalc
