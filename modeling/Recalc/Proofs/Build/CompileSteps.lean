import Recalc.Proofs.Build.SeedSteps

namespace Recalc
namespace Build
variable {options : BuildOptions} {book : Workbook} {seeds : List (String × String)} {popped : List NodeId} {b b' : Builder}
  {id : NodeId} {f : CellRef} {seen seen' : List String}

theorem list_marks {canonical name after : String} (colon : ':' ∉ canonical.toList) (split : splitSheet canonical = (some name,after))
    (semicolon : ';' ∈ name.toList) : ';' ∈ canonical.toList ∧ ';' ∈ (bare name).toList ∧ ':' ∉ name.toList := by
  exact ⟨splitSheet_mem split (by decide) semicolon,(mem_bare (by decide)).mpr semicolon,
    fun inside => colon (splitSheet_mem split (by decide) inside)⟩

section
variable (named : book.Named) (traced : Traced options book seeds [id] popped b) (stands : b.model.Stands id f.text)
  (needed : Closure options book seeds f)
include named traced stands needed

theorem traced_newRange {region : Region} {u : Unit} (refers : Refers options book f (.range region))
    (fresh : b.model.find? region.address = none)
    (ran : (region.rects.forM fun r => addConstituents options r b.model.nodes.length)
      {b with model := (b.model.insert (.range ⟨region.address,region.rows⟩)).link b.model.nodes.length id} = (.ok u,b')) :
    Traced options book seeds [id] popped b' ∧ b.model.Adds b'.model ∧ b'.model.Met id region.address := by
  let n := b.model.nodes.length
  let inserted := b.model.insert (.range ⟨region.address,region.rows⟩)
  let linked := inserted.link n id
  obtain ⟨use,r,proper,cut,-⟩ := refers.region named
  have serves := serves_regionOf options use proper
  have lists := (cut_regionOf options use r).lists
  rw [← cut] at serves lists
  have there : inserted.nodes[n]? = some (.range ⟨region.address,region.rows⟩) := by simp [inserted,n]
  have begun : b.model.Adds linked := (Model.Adds.insert _ _).trans (.link _ n id)
  have before : Traced options book seeds [n,id] popped {b with model := inserted} := by
    refine traced.insert (fun y listed => List.mem_cons_of_mem n listed) fresh (by simp) (fun k made => ?_) rfl
    cases made
    exact ⟨List.mem_cons_self,f,region,needed,refers,rfl⟩
  have start : Traced options book seeds [n,id] popped {b with model := linked} :=
    before.link (Model.find?_stands (before.distinct.find? there)) ((b.model.insert_extends _).takes (.inr ⟨f,_,stands,refers,rfl⟩))
  have inside {slice : Rect} {cell : CellRef} (member : slice ∈ region.rects) (inside : cell ∈ slice.cells) :
      cell ∈ (Target.range region).cells := List.mem_flatMap.mpr ⟨slice,member,inside⟩
  have each (slice : Rect) (member : slice ∈ region.rects) (c d : Builder) (v : Unit)
      (so : Traced options book seeds [n,id] popped c) (more : linked.Adds c.model)
      (step : addConstituents options slice n c = (.ok v,d)) : Traced options book seeds [n,id] popped d ∧
        c.model.Adds d.model ∧ ∀ cell ∈ slice.cells, d.model.Met n cell.text := by
    refine traced_addConstituents so (serves.proper slice member)
      (fun cell within => .referred needed refers (inside member within)) (fun cell within => .inl ?_) step
    exact ⟨_,more.node there,(lists _).mpr ⟨cell,inside member within,rfl⟩⟩
  obtain ⟨after,adds,all⟩ := ran_each (fun slice => addConstituents options slice n) region.rects
    (fun slice m => ∀ cell ∈ slice.cells, m.Met n cell.text) start each
    (fun slice m m' grows met cell inside => grows.met (met cell inside)) ran
  have known : b'.model.nodes[n]? = some (.range ⟨region.address,region.rows⟩) := adds.node there
  refine ⟨after.close (fun address takes => ?_) fun c cell formula found => ?_,begun.trans adds,
    n,adds.grows.find? (before.distinct.find? there),adds.grows.edges _ ((Graph.mem_add _).mpr (.inl rfl))⟩
  · rcases takes with ⟨k,same,listed⟩ | ⟨f',target,stands',refers',-⟩
    · cases known.symm.trans same
      obtain ⟨cell,within,rfl⟩ := (lists address).mp listed
      obtain ⟨slice,member,within⟩ := List.mem_flatMap.mp within
      exact all slice member cell within
    · -- The address of a range is not one of a cell.
      have same : region.address = f'.text := by simpa [Model.Stands,known,Node.address] using stands'
      exact absurd (same ▸ serves.address.2.1) (refers'.colon named)
  · rw [Model.cell?_eq_some,known] at found
    cases found

theorem traced_wireRange {region : Region} (refers : Refers options book f (.range region))
    (met : ∀ address ∈ seen, b.model.Met id address) (ran : wireRange options id region seen b = (.ok seen',b')) :
    Traced options book seeds [id] popped b' ∧ b.model.Adds b'.model ∧ b'.model.Met id region.address ∧
      ∀ address ∈ seen', b'.model.Met id address := by
  have more {mid : Builder} (adds : b.model.Adds mid.model) (here : mid.model.Met id region.address) :
      ∀ address ∈ region.address :: seen, mid.model.Met id address :=
    List.forall_mem_cons.mpr ⟨here,fun a listed => adds.grows.met (met a listed)⟩
  cases wireRange_cases ran with
  | known listed => exact ⟨traced,.refl _,met _ listed,met⟩
  | @linked n found =>
    have adds : b.model.Adds (b.model.link n id) := .link _ n id
    have here : (b.model.link n id).Met id region.address := ⟨n,found,(Graph.mem_add b.model.graph).mpr (.inl rfl)⟩
    exact ⟨traced.link (Model.find?_stands found) (.inr ⟨f,_,stands,refers,rfl⟩),adds,here,more adds here⟩
  | made fresh filled =>
    obtain ⟨between,adds,here⟩ := traced_newRange named traced stands needed refers fresh filled
    exact ⟨between,adds,here,more adds here⟩

theorem traced_addReference {reference : Tree.Reference} (clamped : Clamped reference.text)
    (refers : ∀ target, reference.target options book f.sheet = .ok target → Refers options book f target)
    (met : ∀ address ∈ seen, b.model.Met id address) (ran : addReference options id f.sheet seen reference b = (.ok seen',b')) :
    Traced options book seeds [id] popped b' ∧ b.model.Adds b'.model ∧
      (∃ target, reference.target options book f.sheet = .ok target ∧ b'.model.Met id target.address) ∧
      ∀ address ∈ seen', b'.model.Met id address := by
  obtain ⟨chosen,canonical,first,made,adds⟩ := addReference_cases ran
  obtain ⟨selected,same⟩ := ran_selected first
  have model : chosen.model = b.model := by rw [same]
  have start : Traced options book seeds [id] popped chosen := traced.rest (Workbook.select_ok selected).2 model (by rw [same])
  rw [Workbook.select_same traced.sheets] at selected
  rw [← model] at stands met ⊢
  rcases target_canonical options named clamped selected made with
    ⟨ranged,r,proper,rfl,leads⟩ | ⟨single,c,proper,rfl,leads⟩ | ⟨colon,name,after,split,semicolon⟩
  · cases adds with
    | known single => simp [ranged] at single
    | cells single => simp [ranged] at single
    | @range _ mid _ _ _ parsed narrows wired =>
      cases (proper.parse _).symm.trans parsed
      obtain ⟨between,adds⟩ : Traced options book seeds [id] popped mid ∧ chosen.model.Adds mid.model := by
        cases narrows with
        | whole => exact ⟨start,.refl _⟩
        | part => exact ⟨start.narrow r.text,.narrow _ _⟩
      obtain ⟨after,more,here,all⟩ := traced_wireRange named between (adds.grows.stands stands) needed (refers _ leads)
        (fun address listed => adds.grows.met (met address listed)) wired
      exact ⟨after,adds.trans more,⟨_,leads,here⟩,all⟩
  · cases adds with
    | range ranged => simp [single] at ranged
    | known _ listed => exact ⟨start,.refl _,⟨_,leads,met _ listed⟩,met⟩
    | cells _ parsed filled =>
      cases (parse_ofCell proper _).symm.trans parsed
      have only {cell : CellRef} (inside : cell ∈ (Rect.ofCell c).cells) : cell ∈ (Target.cell c).cells := by
        obtain ⟨row,column,above,within,rfl⟩ := Rect.mem_cells.mp inside
        simp only [Rect.rows,Rect.columns,Rect.ofCell] at above within
        have zero : row = 0 ∧ column = 0 := by omega
        simp [Target.cells,Rect.cellAt,Rect.ofCell,zero]
      have takes {cell : CellRef} (inside : cell ∈ (Rect.ofCell c).cells) : chosen.model.Takes options book id cell.text := by
        refine .inr ⟨f,_,stands,refers _ leads,?_⟩
        rw [List.mem_singleton.mp (only inside)]
        rfl
      obtain ⟨after,adds,all⟩ := traced_addConstituents start proper
        (fun cell inside => .referred needed (refers _ leads) (only inside)) (fun cell => takes) filled
      have here : b'.model.Met id c.text :=
        all c (Rect.mem_cells.mpr ⟨0,0,by simp [Rect.rows],by simp [Rect.columns],rfl⟩)
      exact ⟨after,adds,⟨_,leads,here⟩,List.forall_mem_cons.mpr ⟨here,fun a listed => adds.grows.met (met a listed)⟩⟩
  · -- No sheet has such a name, so neither is there a node for it nor could it be read.
    obtain ⟨joined,inside,outside⟩ := list_marks colon split semicolon
    cases adds with
    | range ranged => simp [isRange_false colon] at ranged
    | known _ listed =>
      obtain ⟨y,found,-⟩ := met canonical listed
      obtain ⟨d,there,address⟩ := start.isCell named found colon
      obtain ⟨cell,closed,spelled,-⟩ := start.cells y d there
      obtain ⟨s,member,on⟩ := closed.located.sheet
      rw [← address,spelled,cell_address,mem_cell (by decide) (by decide),← on] at joined
      exact absurd (joined.resolve_right (by decide)) (named s member).plain.2
    | cells _ parsed filled =>
      obtain ⟨-,taken,some⟩ := Rect.parse_ok parsed
      rw [split,Option.getD_some] at taken
      obtain ⟨s,member,on⟩ := sheet_constituents start named some (taken ▸ outside) filled
      rw [taken] at on
      exact absurd (on ▸ inside) (named s member).plain.2

theorem traced_references {references : List Tree.Reference} (clamped : ∀ reference ∈ references, Clamped reference.text)
    (refers : ∀ reference ∈ references, ∀ target, reference.target options book f.sheet = .ok target → Refers options book f target)
    (met : ∀ address ∈ seen, b.model.Met id address)
    (ran : references.foldlM (addReference options id f.sheet) seen b = (.ok seen',b')) :
    Traced options book seeds [id] popped b' ∧ b.model.Adds b'.model ∧
      ∀ reference ∈ references, ∃ target, reference.target options book f.sheet = .ok target ∧ b'.model.Met id target.address := by
  induction references generalizing b seen with
  | nil =>
    obtain ⟨rfl,rfl⟩ := ran_pure ran
    exact ⟨traced,.refl _,by simp⟩
  | cons reference references ih =>
    rw [List.foldlM_cons] at ran
    obtain ⟨next,mid,step,rest⟩ := ran_bind ran
    obtain ⟨between,adds,⟨target,leads,here⟩,met⟩ := traced_addReference named traced stands needed
      (clamped reference List.mem_cons_self) (refers reference List.mem_cons_self) met step
    obtain ⟨after,more,others⟩ := ih between (adds.grows.stands stands)
      (fun x listed => clamped x (List.mem_cons_of_mem _ listed)) (fun x listed => refers x (List.mem_cons_of_mem _ listed)) met rest
    exact ⟨after,adds.trans more,List.forall_mem_cons.mpr ⟨⟨target,leads,more.grows.met here⟩,others⟩⟩

end

-- What compiling a formula does: it is read as the workbook has it and stored, its references are wired up, and
-- its sheet is active again.
theorem compileCell_cases {address sheet formula : String} {u : Unit} (sheets : b.book.sheets = book.sheets)
    (ran : compileCell options id address sheet formula b = (.ok u,b')) : ∃ tree active cell e seen wired,
      book.tree sheet formula = .ok tree ∧ (∀ reference ∈ tree.references, Clamped reference.text) ∧
      book.select sheet = .ok active ∧ CellRef.parse address sheet = .ok cell ∧ Expr.ofTree ⟨cell,some active⟩ tree = .ok e ∧
      tree.references.foldlM (addReference options id sheet) [] {b with book := active,model := b.model.compiled id e} =
        (.ok seen,wired) ∧ select sheet wired = (.ok (),b') := by
  obtain ⟨tokens,_,lexed,rest⟩ := ran_bind ran
  obtain ⟨yards,rfl⟩ := ran_formula lexed
  obtain ⟨items,mid,clamps,afterClamp⟩ := ran_bind rest
  have clamped := (ran_clampReferences clamps).2.2
  obtain ⟨kept,model,todo,clamps⟩ := ran_clampItems sheets clamps
  obtain ⟨v,chosen,picks,afterSelect⟩ := ran_bind afterClamp
  obtain ⟨selected,chose⟩ := ran_selected picks
  obtain ⟨tree,_,treed,afterTree⟩ := ran_bind afterSelect
  obtain ⟨parsed,rfl⟩ := ran_formula treed
  obtain ⟨cell,_,stands,afterPlace⟩ := ran_bind afterTree
  obtain ⟨placed,rfl⟩ := ran_reference stands
  obtain ⟨e,_,compiles,afterCompile⟩ := ran_bind (ran_get afterPlace)
  obtain ⟨compiled,rfl⟩ := ran_formula compiles
  obtain ⟨w,_,wires,last⟩ := ran_bind (ran_modify afterCompile)
  obtain ⟨seen,wired,folded,done⟩ := ran_bind wires
  obtain ⟨-,rfl⟩ := ran_pure done
  rw [Workbook.select_same kept] at selected
  have treeOf : book.tree sheet formula = .ok tree := by
    obtain ⟨first,lexes,yard⟩ := bind_ok.mp yards
    rw [Workbook.tree,lexes]
    simpa [yard,clamps,liftReference,Except.mapError,bind,Except.bind] using parsed
  have begun : {b with book := chosen.book,model := b.model.compiled id e} = {chosen with model := chosen.model.compiled id e} := by
    rw [chose,model,todo]
  refine ⟨tree,chosen.book,cell,e,seen,wired,treeOf,fun reference listed => ?_,selected,placed,compiled,by rw [begun]; exact folded,last⟩
  obtain ⟨item,member,kind,same⟩ := Tree.references_items tree listed
  rw [← same]
  exact clamped item (Tree.ofItems_flat (parse_ok parsed) ▸ member) kind

theorem traced_compileCell {c : Cell} {formula : String} {u : Unit} (named : book.Named)
    (traced : Traced options book seeds [id] (id :: popped) b) (found : b.model.cell? id = some c) (compiles : c.formula = some formula)
    (ran : compileCell options id c.address c.sheet formula b = (.ok u,b')) :
    Traced options book seeds [] (id :: popped) b' ∧ b.model.Extends b'.model := by
  obtain ⟨f,needed,same,-⟩ := traced.cells id c found
  have address : c.address = f.text := by rw [same]; exact cell_address options book f
  have sheet : c.sheet = f.sheet := by rw [same]; exact cell_sheet options book f
  have holds : (book.entry f).formula? = some formula := (traced.formula_of found address).symm.trans compiles
  rw [address,sheet] at ran
  obtain ⟨tree,active,cell,e,seen,wired,treeOf,texts,selected,placed,compiled,folded,last⟩ := compileCell_cases traced.sheets ran
  have start : Traced options book seeds [id] (id :: popped) {b with book := active} :=
    traced.rest ((Workbook.select_ok selected).2.trans traced.sheets.symm) rfl rfl
  have here : cell = f := by
    rw [(needed.located.proper named).parse_cell] at placed
    exact (Except.ok.inj placed).symm
  subst here
  have compiledTo : book.compiled cell formula = .ok e := by
    rw [Workbook.compiled,treeOf,selected]
    exact compiled
  have begun := start.compile e
  have there : (b.model.compiled id e).cell? id = some {c with expr := e} := by
    rw [Model.compiled,Model.cell?_changeCell,if_pos rfl,found]
    rfl
  have stands : (b.model.compiled id e).Stands id cell.text := (Model.stands_cell there).mpr address
  obtain ⟨between,adds,all⟩ := traced_references named begun stands needed texts
    (fun reference listed target leads => ⟨formula,tree,holds,treeOf,reference,listed,leads⟩) (by simp) folded
  have kept := adds.cell there
  have closed : Traced options book seeds [] (id :: popped) wired := by
    refine between.close (fun address takes => ?_) fun d other text found' address' holds' => ?_
    · rcases takes with ⟨r,range,-⟩ | ⟨g,target,stands',⟨text,tree',holds',treed',reference,listed,leads⟩,rfl⟩
      · rw [Model.cell?_eq_some,range] at kept
        cases kept
      · cases CellRef.text_inj (address.symm.trans ((Model.stands_cell kept).mp stands'))
        cases holds.symm.trans holds'
        cases treeOf.symm.trans treed'
        obtain ⟨target',leads',met⟩ := all reference listed
        cases leads.symm.trans leads'
        exact met
    · cases kept.symm.trans found'
      cases CellRef.text_inj (address.symm.trans address')
      cases holds.symm.trans holds'
      exact compiledTo
  obtain ⟨reselected,final⟩ := ran_selected last
  refine ⟨closed.rest (Workbook.select_ok reselected).2 (by rw [final]) (by rw [final]),?_⟩
  rw [final]
  exact (Model.compiled_extends b.model id e).trans adds.grows

end Build
end Recalc
