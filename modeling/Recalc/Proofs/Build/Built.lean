import Recalc.Proofs.Build.ReferenceWiring
import Recalc.Proofs.Formula.Compile.Compilation
import Recalc.Proofs.Formula.Parse.Stacking
import Recalc.Proofs.Model.Session.Session

namespace Recalc

namespace Tree

mutual
theorem references_items : (t : Tree) → {table : Option TableUse} → {reference : Reference} →
    reference ∈ t.referencesAs table → ∃ item ∈ t.items, item.kind = .range ∧ item.token.text = reference.text
  | node item children, table, reference, listed => by
    rw [referencesAs,List.mem_append] at listed
    rcases listed with listed | here
    · obtain ⟨i,member,known⟩ := references_itemsAll children listed
      exact ⟨i,by simp [items,member],known⟩
    · split at here
      · rename_i kind
        rw [List.mem_singleton.mp here]
        exact ⟨item,by simp [items],kind,rfl⟩
      · cases here
theorem references_itemsAll : (ts : List Tree) → {table : Option TableUse} → {index : Nat} → {reference : Reference} →
    reference ∈ referencesAll table index ts → ∃ item ∈ itemsAll ts, item.kind = .range ∧ item.token.text = reference.text
  | t :: ts, table, index, reference, listed => by
    rw [referencesAll,List.mem_append] at listed
    rcases listed with listed | listed
    · obtain ⟨i,member,known⟩ := references_items t listed
      exact ⟨i,by simp [itemsAll,member],known⟩
    · obtain ⟨i,member,known⟩ := references_itemsAll ts listed
      exact ⟨i,by simp [itemsAll,member],known⟩
end

end Tree

namespace Build
variable {b b' : Builder} {options : BuildOptions}

theorem ran_clampItems {book : Workbook} {sheet : String} {items after : List Item} (sheets : b.book.sheets = book.sheets)
    (ran : clampReferences sheet items b = (.ok after,b')) : b'.book.sheets = book.sheets ∧ b'.model = b.model ∧ b'.todo = b.todo ∧
      clampItems (fun item => Workbook.extents <$> book.select ((splitSheet item.token.text).1.getD sheet)) items = .ok after := by
  unfold clampReferences at ran
  induction items generalizing b after with
  | nil =>
    rw [List.mapM_nil] at ran
    obtain ⟨rfl,rfl⟩ := ran_pure ran
    exact ⟨sheets,rfl,rfl,rfl⟩
  | cons item items ih =>
    rw [List.mapM_cons] at ran
    obtain ⟨first,mid,step,rest⟩ := ran_bind ran
    obtain ⟨others,last,further,done⟩ := ran_bind rest
    obtain ⟨rfl,rfl⟩ := ran_pure done
    have here : mid.book.sheets = book.sheets ∧ mid.model = b.model ∧ mid.todo = b.todo ∧
        clampItems (fun item => Workbook.extents <$> book.select ((splitSheet item.token.text).1.getD sheet)) [item] = .ok [first] := by
      split at step
      · rename_i kind
        obtain ⟨u,chosen,picks,rest⟩ := ran_bind step
        obtain ⟨selected,same⟩ := ran_selected picks
        obtain ⟨text,_,second,done⟩ := ran_bind (ran_get rest)
        obtain ⟨clamps,rfl⟩ := ran_reference second
        obtain ⟨rfl,rfl⟩ := ran_pure done
        have kept := (Workbook.select_ok selected).2.trans sheets
        rw [Workbook.select_same sheets] at selected
        refine ⟨kept,by rw [same],by rw [same],?_⟩
        simp [clampItems,kind,selected,clamps,bind,Except.bind,pure,Except.pure,Functor.map,Except.map]
      · rename_i other
        obtain ⟨rfl,rfl⟩ := ran_pure step
        exact ⟨sheets,rfl,rfl,by simp [clampItems,other,bind,Except.bind,pure,Except.pure]⟩
    obtain ⟨kept,model,todo,clamps⟩ := ih here.1 further
    refine ⟨kept,model.trans here.2.1,todo.trans here.2.2.1,?_⟩
    have one := here.2.2.2
    unfold clampItems at one clamps ⊢
    rw [List.mapM_cons] at one ⊢
    obtain ⟨first',made,one⟩ := bind_ok.mp one
    cases one
    rw [made,clamps]
    rfl

theorem ran_clampReferences {sheet : String} {items after : List Item} (ran : clampReferences sheet items b = (.ok after,b')) :
    b'.book.sheets = b.book.sheets ∧ b'.model = b.model ∧ ∀ i ∈ after, i.kind = .range → Clamped i.token.text := by
  obtain ⟨sheets,model,-,clamps⟩ := ran_clampItems rfl ran
  refine ⟨sheets,model,fun i listed kind => ?_⟩
  obtain ⟨j,-,made⟩ := (mapM_ok clamps).2 i listed
  split at made
  · obtain ⟨e,-,made⟩ := bind_ok.mp made
    obtain ⟨text,clamped,last⟩ := bind_ok.mp made
    cases last
    exact clamped_clampRange clamped
  · rename_i other
    cases made
    exact absurd kind other

theorem ran_references {id : NodeId} {sheet : String} {references : List Tree.Reference} {seen seen' : List String}
    (ready : Ready (· = id) b) (formula : ∃ c, b.model.cell? id = some c ∧ c.formula.isSome = true)
    (clamped : ∀ reference ∈ references, Clamped reference.text) (handled : ∀ a ∈ seen, b.model.Handled id a)
    (ran : references.foldlM (addReference options id sheet) seen b = (.ok seen',b')) :
    Grown (· = id) b b' ∧ ∀ reference ∈ references, b'.model.Served id (bare sheet) reference := by
  induction references generalizing b seen with
  | nil =>
    obtain ⟨rfl,rfl⟩ := ran_pure ran
    exact ⟨ready.grown,by simp⟩
  | cons reference references ih =>
    rw [List.foldlM_cons] at ran
    obtain ⟨next,mid,step,rest⟩ := ran_bind ran
    obtain ⟨grown,handled,served⟩ := ran_addReference ready formula (clamped reference (by simp)) handled step
    have still : ∃ c, mid.model.cell? id = some c ∧ c.formula.isSome = true := by
      obtain ⟨c,found,formula⟩ := formula
      obtain ⟨c',there,same⟩ := grown.grows.cell found
      exact ⟨c',there,by rwa [same]⟩
    obtain ⟨further,others⟩ := ih grown.ready still (fun x listed => clamped x (by simp [listed])) handled rest
    refine ⟨grown.trans further,fun x listed => ?_⟩
    rcases List.mem_cons.mp listed with rfl | listed
    · exact further.grows.served served
    · exact others x listed

theorem parse_ok {α : Type} {r : Except ParseError α} {a : α} (made : liftParse r = .ok a) : r = .ok a := by
  cases r with
  | error e => cases made
  | ok v =>
    cases made
    rfl

theorem reference_ok {α : Type} {r : Except ReferenceError α} {a : α} (made : liftReference r = .ok a) : r = .ok a := by
  cases r with
  | error e => cases made
  | ok v =>
    cases made
    rfl

theorem finished_formula {m : Model} {id : NodeId} {c : Cell} {site : Site} {tree : Tree}
    (found : m.cell? id = some c) (compiled : Expr.ofTree site tree = .ok c.expr)
    (clamped : ∀ reference ∈ tree.references, Clamped reference.text)
    (served : ∀ reference ∈ tree.references, m.Served id site.cell.sheet reference) : m.Finished id := by
  refine ⟨fun k there => ?_,fun d again => ?_⟩
  · rw [Model.cell?_eq_some,there] at found
    cases found
  · rw [found] at again
    cases again
    have wired : Expr.WiredAs (m.grants id c.expr.summed) (Tree.TableUse.use none) c.expr := by
      refine Expr.ofTree_wired tree compiled (fun reference listed e spells => ?_) fun a listed => ?_
      · rw [Text.without_absent (clamped reference listed).unmarked] at spells
        have known := served reference listed e spells
        split
        · rename_i ranged
          rw [if_pos ranged] at known
          obtain ⟨r,there,granted⟩ := known
          have more : Grants.Within ⟨m.rectOf,m.Covers id⟩ (m.grants id c.expr.summed) :=
            ⟨fun _ _ found => found,fun _ covers => .inl covers⟩
          exact ⟨r,there,granted.mono more⟩
        · rename_i single
          rw [if_neg single] at known
          exact .inl known
      · exact fun r row column there outside => .inr ⟨a,listed,r,row,column,there,rfl,outside⟩
    exact Expr.WiredAs.wired wired

theorem ran_compileCell {id : NodeId} {c : Cell} {formula : String} {u : Unit} (ready : Ready (fun _ => False) b)
    (found : b.model.cell? id = some c) (compiles : c.formula = some formula)
    (ran : compileCell options id c.address c.sheet formula b = (.ok u,b')) : Ready (fun _ => False) b' := by
  obtain ⟨tokens,_,lexed,rest⟩ := ran_bind ran
  obtain ⟨-,rfl⟩ := ran_formula lexed
  obtain ⟨items,clampedTo,clamps,afterClamp⟩ := ran_bind rest
  obtain ⟨sheets,model,clamped⟩ := ran_clampReferences clamps
  obtain ⟨v,chosen,selected,afterSelect⟩ := ran_bind afterClamp
  obtain ⟨-,sheets',model'⟩ := ran_select selected
  have start := ready.rest (sheets'.trans sheets) (model'.trans model)
  obtain ⟨tree,_,treed,afterTree⟩ := ran_bind afterSelect
  obtain ⟨parsed,rfl⟩ := ran_formula treed
  obtain ⟨cell,_,stands,afterPlace⟩ := ran_bind afterTree
  obtain ⟨placed,rfl⟩ := ran_reference stands
  obtain ⟨e,_,compiles',afterCompile⟩ := ran_bind (ran_get afterPlace)
  obtain ⟨compiled,rfl⟩ := ran_formula compiles'
  obtain ⟨w,_,wires,last⟩ := ran_bind (ran_modify afterCompile)
  obtain ⟨seen,wired,folded,done⟩ := ran_bind wires
  obtain ⟨-,rfl⟩ := ran_pure done
  obtain ⟨-,sheets'',model''⟩ := ran_select last
  have parsed := parse_ok parsed
  have there : (chosen.model.compiled id e).cell? id = some {c with expr := e} := by
    rw [Model.compiled,Model.cell?_changeCell,if_pos rfl,model',model,found]
    rfl
  have begun : Ready (· = id) {chosen with model := chosen.model.compiled id e} := by
    refine ⟨start.ready.plain,start.ready.skeleton.compiled id e,fun y other => ?_⟩
    refine (start.ready.finished y not_false).mono (Model.compiled_extends _ id e) ?_
    rw [Model.compiled,Model.nodes_changeCell,if_neg (Ne.symm other)]
  have texts : ∀ reference ∈ tree.references, Clamped reference.text := by
    intro reference listed
    obtain ⟨item,member,kind,same⟩ := Tree.references_items tree listed
    rw [← same]
    exact clamped item (Tree.ofItems_flat parsed ▸ member) kind
  obtain ⟨grown,served⟩ := ran_references begun ⟨_,there,by rw [compiles]; rfl⟩ texts (by simp) folded
  have site : cell.sheet = bare c.sheet := by
    obtain ⟨ref,address,sheet,-,named⟩ := ready.skeleton.cells id c found
    rw [(CellRef.parse_ok placed).2.1,address,splitSheet_cell named,sheet]
    rfl
  have kept : wired.model.cell? id = some {c with expr := e} := by
    rw [Model.cell?_eq_some] at there ⊢
    obtain ⟨bound,same⟩ := List.getElem?_eq_some_iff.mp there
    rw [grown.nodes.getElem bound] at same
    exact List.getElem?_eq_some_iff.mpr ⟨_,same⟩
  have finished : wired.model.Finished id := by
    refine finished_formula kept compiled texts fun reference listed => ?_
    rw [site]
    exact served reference listed
  have last : Ready (fun _ => False) wired := by
    refine ⟨grown.ready.plain,grown.ready.skeleton,fun y _ => ?_⟩
    by_cases here : y = id
    · exact here ▸ finished
    · exact grown.ready.finished y here
  exact (last.rest sheets'' model'').ready

theorem located {address : String} {step : Build Unit} {u : Unit} (ran : locate address step b = (.ok u,b')) :
    step b = (.ok u,b') := by
  unfold locate at ran
  split at ran
  · rename_i here
    cases ran
    exact here
  · cases ran

section
variable {P : Builder → Prop} {u : Unit}
  (seeds : ∀ sheet range b u b', P b → seed options sheet range b = (.ok u,b') → P b')
  (pops : ∀ b todo, P b → P {b with todo := todo})
  (compiles : ∀ b id c formula u b', P b → b.model.cell? id = some c → c.formula = some formula →
    compileCell options id c.address c.sheet formula b = (.ok u,b') → P b')

include seeds in
theorem kept_seedAll {list : List (String × String)} (start : P b) (ran : seedAll options list b = (.ok u,b')) : P b' := by
  induction list generalizing b with
  | nil =>
    cases ran
    exact start
  | cons first list ih =>
    obtain ⟨sheet,range⟩ := first
    unfold seedAll at ran
    split at ran
    · rename_i mid here
      exact ih (seeds sheet range b () mid start (located here)) ran
    · rename_i failed
      exact absurd ran (failed b')

include pops compiles in
theorem kept_compileAll {steps : Nat} (start : P b) (ran : compileAll options steps b = (.ok u,b')) : P b' := by
  induction steps generalizing b with
  | zero =>
    cases ran
    exact start
  | succ steps ih =>
    unfold compileAll at ran
    split at ran
    · cases ran
      exact start
    · rename_i id todo _
      have popped := pops b todo start
      simp only at ran
      split at ran
      · rename_i address sheet formula e value format dirty evaluating found
        split at ran
        · rename_i mid here
          let c : Cell := ⟨address,sheet,some formula,e,value,format,dirty,evaluating⟩
          exact ih (compiles _ id c formula () mid popped found rfl (located here)) ran
        · rename_i failed
          exact absurd ran (failed b')
      · exact ih popped ran

include seeds pops compiles in
theorem kept_construct {list : List (String × String)} (start : P b) (ran : construct options list b = (.ok u,b')) : P b' := by
  unfold construct at ran
  split at ran
  · rename_i mid seeded
    exact kept_compileAll pops compiles (kept_seedAll seeds start seeded) ran
  · rename_i failed
    exact absurd ran (failed b')

end

theorem ran_construct {list : List (String × String)} {u : Unit} (ready : Ready (fun _ => False) b)
    (ran : construct options list b = (.ok u,b')) : Ready (fun _ => False) b' := by
  have pops (b : Builder) (todo : List NodeId) (ready : Ready (fun _ => False) b) :
      Ready (fun _ => False) {b with todo := todo} := ⟨ready.plain,ready.skeleton,ready.finished⟩
  refine kept_construct (fun sheet range b u b' ready ran => (ran_seed ready ran).ready) pops ?_ ready ran
  exact fun b id c formula u b' ready found compiles ran => ran_compileCell ready found compiles ran

def start (options : BuildOptions) (seeds : List (String × String)) (book : Workbook) : Builder :=
  ⟨book,.empty options.limits ((seeds.head?.map Prod.fst).getD book.activeName),[]⟩

theorem ready_start {book : Workbook} (plain : ∀ s ∈ book.sheets, Plain s.name) (options : BuildOptions)
    (seeds : List (String × String)) : Ready (fun _ => False) (start options seeds book) := by
  refine ⟨plain,⟨?_,?_,⟨rfl,rfl,fun id => rfl⟩,?_,?_,?_⟩,fun id _ => ⟨?_,?_⟩⟩
  · simp [Model.Distinct,start,Model.empty]
  · exact Nat.le_max_right _ _
  · simp [Model.cell?,start,Model.empty]
  · simp [start,Model.empty]
  · simp [start,Model.empty,Graph.empty]
  · simp [start,Model.empty]
  · simp [Model.cell?,start,Model.empty]

end Build

namespace Model

def stale (c : Cell) : Cell := {c with dirty := true}

theorem settle_changes (m : Model) : ∃ ids : List NodeId, m.settle = ids.foldl (fun m id => m.changeCell id stale) m :=
  ⟨_,rfl⟩

@[simp] theorem outline_settle (m : Model) : m.settle.outline = m.outline := by
  obtain ⟨ids,changes⟩ := m.settle_changes
  rw [changes]
  exact outline_changeAll stale (fun _ => rfl) ids m

theorem cell?_settle {m : Model} {id : NodeId} (found : m.settle.cell? id = some c) :
    ∃ d, m.cell? id = some d ∧ c = {d with dirty := c.dirty} := by
  obtain ⟨ids,changes⟩ := m.settle_changes
  rw [changes,cell?_changeAll stale (fun _ => rfl)] at found
  split at found
  · obtain ⟨d,was,rfl⟩ := Option.map_eq_some_iff.mp found
    exact ⟨d,was,rfl⟩
  · exact ⟨c,found,rfl⟩

theorem idle_settle {m : Model} (idle : m.Idle) : m.settle.Idle := by
  obtain ⟨ids,changes⟩ := m.settle_changes
  obtain ⟨current,offset⟩ := traces_changeAll stale ids m
  rw [← changes] at current offset
  refine idle.of_cells current offset fun y c found => ?_
  obtain ⟨d,was,same⟩ := cell?_settle found
  exact ⟨d,was,by rw [same]⟩

-- What holds of every model that was built: each formula asks only for cells that hand
-- their changes on to it, or for cells beyond the range of a sum.
structure Built (m : Model) : Prop where
  formed : m.WellFormed
  idle : m.Idle
  wired : ∀ f c, m.cell? f = some c → c.expr.Wired (m.grants f c.expr.summed)
  constants : ∀ e ∈ m.graph.edges, ∀ c, m.cell? e.dependent = some c → c.formula.isSome = true

theorem Depends.formula {m : Model} {id : NodeId} (depends : m.Depends id) (found : m.cell? id = some c) :
    c.formula.isSome = true := by
  rcases depends with ⟨r,there⟩ | ⟨d,there,formula⟩
  · rw [cell?_eq_some,there] at found
    cases found
  · rw [there] at found
    cases found
    exact formula

section
variable {m m' : Model} (same : m'.outline = m.outline)
include same

theorem find?_same (address : String) : m'.find? address = m.find? address := by
  rw [← find?_outline m',same,find?_outline]

theorem isSome_same (id : NodeId) : (m'.cell? id).isSome = (m.cell? id).isSome := by
  have mapped := congrArg Option.isSome (cell?_same same id)
  simpa using mapped

theorem grants_same (f : NodeId) (sums : List String) : m'.grants f sums = m.grants f sums := by
  have rects : m'.rectOf = m.rectOf := funext (rectOf_same same)
  have cells : (fun address => m'.Covers f address ∨ m'.Overreaches sums address) =
      fun address => m.Covers f address ∨ m.Overreaches sums address := by
    funext address
    simp only [Covers,Overreaches,find?_same same,isSome_same same,feeds_same same,rects]
  unfold grants
  rw [rects,cells]

theorem Built.wired_same (built : m.Built) (found : m'.cell? f = some c') :
    c'.expr.Wired (m'.grants f c'.expr.summed) := by
  obtain ⟨c,there,alike⟩ := cell_same same.symm found
  have expr : c.expr = c'.expr := by simpa [Cell.outline] using congrArg Cell.expr alike
  rw [grants_same same,← expr]
  exact built.wired f c there

theorem Built.carry (built : m.Built) (idle : m'.Idle) : m'.Built := by
  refine ⟨built.formed.same same,idle,fun f c' found => built.wired_same same found,?_⟩
  · intro e listed c' found
    rw [graph_same same] at listed
    obtain ⟨c,there,alike⟩ := cell_same same.symm found
    have formula : c.formula = c'.formula := by simpa [Cell.outline] using congrArg Cell.formula alike
    rw [← formula]
    exact built.constants e listed c there

end
end Model

-- Sheets are told by their names where no name holds a colon or a semicolon.
def Workbook.Plain (book : Workbook) : Prop := ∀ s ∈ book.sheets, Recalc.Plain s.name

instance (book : Workbook) : Decidable book.Plain := inferInstanceAs (Decidable (∀ s ∈ book.sheets, _))

-- What is built comes from the construction, and is settled if cached values are trusted.
theorem build_construct (options : BuildOptions) (seeds : List (String × String)) (book : Workbook) {result : Except BuildError Unit}
    {b : Builder} (ran : Build.construct options seeds (Build.start options seeds book) = (result,b)) :
    (build options seeds book).1 = result.map fun _ => if options.trustCached then b.model.settle else b.model := by
  let start := Build.construct options seeds (Build.start options seeds book)
  have opened : (build options seeds book).1 =
      start.1.map fun _ => if options.trustCached then start.2.model.settle else start.2.model := rfl
  rw [opened,show start = (result,b) from ran]

theorem build_constructs {options : BuildOptions} {seeds : List (String × String)} {book : Workbook} {m : Model}
    (made : (build options seeds book).1 = .ok m) : ∃ b, Build.construct options seeds (Build.start options seeds book) = (.ok (),b) ∧
      m = if options.trustCached then b.model.settle else b.model := by
  cases ran : Build.construct options seeds (Build.start options seeds book) with
  | mk result b =>
    rw [build_construct options seeds book ran] at made
    cases result with
    | error e => cases made
    | ok u => exact ⟨b,rfl,(Except.ok.inj made).symm⟩

theorem build_built {options : BuildOptions} {seeds : List (String × String)} {book : Workbook} {m : Model} (plain : book.Plain)
    (made : (build options seeds book).1 = .ok m) : m.Built := by
  obtain ⟨b,constructed,rfl⟩ := build_constructs made
  obtain ⟨-,skeleton,finished⟩ := Build.ran_construct (Build.ready_start plain options seeds) constructed
  have built : b.model.Built := by
    refine ⟨⟨skeleton.distinct,skeleton.deep⟩,skeleton.idle,fun f c found => (finished f not_false).formula c found,?_⟩
    exact fun e listed c found => (skeleton.edges e listed).formula found
  split
  · exact built.carry (Model.outline_settle _) (Model.idle_settle skeleton.idle)
  · exact built

def Workbook.model (book : Workbook) (options : BuildOptions) (seeds : List (String × String)) : Model :=
  (build options seeds book).1.toOption.getD (.empty options.limits "")

theorem Workbook.made {book : Workbook} {options : BuildOptions} {seeds : List (String × String)}
    (built : (build options seeds book).1.toOption.isSome = true) :
    (build options seeds book).1 = .ok (book.model options seeds) := by
  unfold Workbook.model
  cases result : (build options seeds book).1 with
  | error e => simp [result,Except.toOption] at built
  | ok m => rfl

def layered : Workbook := ⟨[⟨"S",[(⟨1,1⟩,⟨none,.text "x",none⟩),(⟨1,2⟩,⟨some "=CONCATENATE(A1,\"y\")",.empty,none⟩),
  (⟨1,3⟩,⟨some "=CONCATENATE(A2,\"z\")",.empty,none⟩)]⟩],0⟩

def shows (r : Except FormulaError Value) (text : String) : Bool :=
  match r with
  | .ok (.text t) => t == text
  | _ => false

theorem shows_text {r : Except FormulaError Value} {text : String} (shown : shows r text = true) : r = .ok (.text text) := by
  unfold shows at shown
  split at shown
  · rw [eq_of_beq shown]
  · cases shown

end Recalc
