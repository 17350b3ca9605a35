import Recalc.Proofs.Address.Notation
import Recalc.Proofs.Build.Exactness
import Recalc.Proofs.Build.SingleCells
import Recalc.Proofs.Formula.Lexeme.Scanning

namespace Recalc

structure Allowed (name : String) : Prop where
  given : name ≠ ""
  free : ∀ mark ∈ [':','\\','/','?','*','[',']'], mark ∉ name.toList
  unquoted : name.toList.head? ≠ some '\'' ∧ name.toList.getLast? ≠ some '\''

def Workbook.OneFormula (book : Workbook) (f : CellRef) : Prop :=
  ∀ s ∈ book.sheets, ∀ e ∈ s.entries, e.2.formula?.isSome = true → (⟨s.name,e.1.column,e.1.row⟩ : CellRef) = f

instance (book : Workbook) (f : CellRef) : Decidable (book.OneFormula f) :=
  inferInstanceAs (Decidable (∀ s ∈ book.sheets, ∀ e ∈ s.entries, _))

theorem Workbook.OneFormula.others {book : Workbook} (only : book.OneFormula f) (other : c ≠ f) : (book.entry c).formula? = none := by
  cases holds : (book.entry c).formula? with
  | none => rfl
  | some formula =>
    obtain ⟨s,listed,e,there,same,entry⟩ := Workbook.entry_listed (by rw [holds]; rfl)
    have one := only s listed e there (by rw [entry,holds]; rfl)
    exact absurd (same.symm.trans one) other

namespace ReferenceRest

def chars (rest : ReferenceRest) : List Char := rest.map Subtype.val

def unmarked (rest : ReferenceRest) : ReferenceRest := rest.filter fun c => c.val ≠ '$'

theorem chars_unmarked (rest : ReferenceRest) : rest.unmarked.chars = rest.chars.filter (· ≠ '$') := by
  unfold unmarked chars
  rw [List.filter_map]
  rfl

end ReferenceRest

-- The reference as it is kept: quotes in the name stand once.
def onSheet (sheet : String) (rest : ReferenceRest) : String := String.ofList (Atom.sheetChars sheet rest)

-- The formula as it is written: quotes in the name stand twice.
def formulaOn (sheet : String) (rest : ReferenceRest) : String := String.ofList ('=' :: (Atom.onSheet sheet rest).chars)

structure Workbook.Quotes (book : Workbook) (f t : CellRef) (rest : ReferenceRest) : Prop where
  telling : f.Telling
  allowed : Allowed t.sheet
  spells : Spells (condensed rest.chars) t.position
  other : f.sheet ≠ t.sheet
  known : (book.find? t.sheet).isSome = true
  written : (book.entry f).formula? = some (formulaOn t.sheet rest)
  only : book.OneFormula f

section
variable {name sheet : String} {rest : ReferenceRest} {t f : CellRef}

namespace Allowed

theorem trimmed (allowed : Allowed name) (quotes : ∀ c ∈ before ++ after, c = '\'') :
    Text.trimBy (· = '\'') (before ++ (name.toList ++ after)) = name.toList := by
  refine Text.trimBy_around (fun c member => by simpa using quotes c member) (by simpa using allowed.given) ?_ ?_
  · intro c head
    simpa using fun same : c = '\'' => allowed.unquoted.1 (same ▸ head)
  · intro c last
    simpa using fun same : c = '\'' => allowed.unquoted.2 (same ▸ last)

theorem bare (allowed : Allowed name) : bare name = name := by
  have kept := @trimmed _ [] [] allowed (by simp)
  rw [List.nil_append,List.append_nil] at kept
  rw [Recalc.bare,kept,String.ofList_toList]

theorem telling {c : CellRef} (allowed : Allowed c.sheet) (bounded : c.Bounded) : c.Telling :=
  ⟨bounded,allowed.given,allowed.bare⟩

theorem single (allowed : Allowed t.sheet) : isRange t.text = false := isRange_false (by rw [colon_cell]; exact allowed.free ':' (by simp))

end Allowed

theorem toList_onSheet : (onSheet sheet rest).toList = '\'' :: (sheet.toList ++ '\'' :: '!' :: rest.chars) := String.toList_ofList

theorem splitSheet_onSheet (allowed : Allowed sheet) (absent : '!' ∉ rest.chars) :
    splitSheet (onSheet sheet rest) = (some sheet,String.ofList rest.chars) := by
  have written : onSheet sheet rest = String.ofList (['\''] ++ (sheet.toList ++ ['\''])) ++ "!" ++ String.ofList rest.chars := by
    rw [← String.toList_inj,toList_onSheet]
    simp
  have trimmed : bare (String.ofList (['\''] ++ (sheet.toList ++ ['\'']))) = sheet := by
    rw [bare,String.toList_ofList,allowed.trimmed (by simp),String.ofList_toList]
  have given : String.ofList (['\''] ++ (sheet.toList ++ ['\''])) ≠ "" := by simp [← String.toList_inj]
  rw [written,splitSheet_append given (by simpa using absent),trimmed]

theorem named_onSheet (allowed : Allowed sheet) (absent : '!' ∉ rest.chars) (home : String) :
    (splitSheet (onSheet sheet rest)).1.getD home = sheet := by
  rw [splitSheet_onSheet allowed absent]
  rfl

theorem splitRange_onSheet (allowed : Allowed sheet) (absent : '!' ∉ rest.chars) (single : ':' ∉ rest.chars) :
    splitRange (onSheet sheet rest) = none := by
  unfold splitRange
  rw [splitSheet_onSheet allowed absent]
  simp [Text.splitFirst_none single]

theorem without_onSheet (plain : '$' ∉ sheet.toList) : Text.without '$' (onSheet sheet rest) = onSheet sheet rest.unmarked := by
  have kept : sheet.toList.filter (fun c => !decide (c = '$')) = sheet.toList :=
    List.filter_eq_self.mpr fun c member => by simpa using fun same : c = '$' => plain (same ▸ member)
  rw [← String.toList_inj,Text.without,String.toList_ofList,toList_onSheet,toList_onSheet,ReferenceRest.chars_unmarked]
  simp [kept]

theorem condensed_unmarked (rest : ReferenceRest) : condensed rest.unmarked.chars = condensed rest.chars := by
  rw [ReferenceRest.chars_unmarked,condensed,condensed,List.filter_filter]
  exact congrArg _ (List.filter_congr fun c _ => by by_cases marker : c = '$' <;> simp [marker])

theorem canonicalize_onSheet (allowed : Allowed t.sheet) (plain : ';' ∉ t.sheet.toList)
    (spells : Spells (condensed rest.chars) t.position) (anywhere : String) :
    canonicalize (onSheet t.sheet rest) anywhere = .ok t.text := by
  have free (mark : Char) (listed : mark ∈ [':',';','!']) : mark ∉ rest.chars := spells.free mark listed
  have semicolon : ';' ∉ (onSheet t.sheet rest).toList := by
    rw [toList_onSheet]
    simp [plain,free ';']
  have colon : ':' ∉ (onSheet t.sheet rest).toList := by
    rw [toList_onSheet]
    simp [allowed.free ':',free ':']
  have split := splitSheet_onSheet allowed (free '!' (by simp))
  have parsed := (Address.parse_spells split).mpr (by simpa using spells)
  have single : canonicalPart (onSheet t.sheet rest) anywhere = .ok t.text := by
    simp [canonicalPart,isRange_false colon,CellRef.parse,parsed,bind,Except.bind,allowed.given,pure,Except.pure,Functor.map,Except.map,
      CellRef.position]
  unfold canonicalize
  rw [Text.splitEach_single semicolon,List.mapM_cons,String.ofList_toList,single]
  rfl

theorem ofTree_onSheet (allowed : Allowed t.sheet) (plain : '$' ∉ t.sheet.toList ∧ ';' ∉ t.sheet.toList)
    (spells : Spells (condensed rest.chars) t.position) (site : Site) :
    Expr.ofTree site (.node (.ofToken (.operand (onSheet t.sheet rest) .range)) []) = .ok (.cell t.text) := by
  have spells' : Spells (condensed rest.unmarked.chars) t.position := by rwa [condensed_unmarked]
  rw [Expr.ofTree_range rfl,Expr.ofReference]
  change (liftReference (canonicalize (Text.without '$' (onSheet t.sheet rest)) site.cell.sheet) >>= _) = _
  rw [without_onSheet plain.1,canonicalize_onSheet allowed plain.2 spells']
  change Except.ok (if isRange t.text then Expr.range t.text else .cell t.text) = _
  rw [if_neg (by simp [allowed.single])]

theorem tokenize_formulaOn (given : rest.chars ≠ []) :
    tokenize (stripEquals (formulaOn sheet rest)) = .ok [.operand (onSheet sheet rest) .range] := by
  have ends : ('=' :: (Atom.onSheet sheet rest).chars).getLast? = rest.chars.getLast? := by
    have parted : '=' :: (Atom.onSheet sheet rest).chars = '=' :: '\'' :: (doubled '\'' sheet.toList ++ ['\'','!']) ++ rest.chars := by
      simp [Atom.chars,ReferenceRest.chars]
    rw [parted,List.getLast?_append_of_ne_nil _ given]
  have whole : Text.trimBy Text.isBlank ([] ++ ('=' :: (Atom.onSheet sheet rest).chars ++ [])) =
      '=' :: (Atom.onSheet sheet rest).chars := by
    refine Text.trimBy_around (by simp) (by simp) ?_ ?_
    · intro c head
      cases head
      decide
    · intro c last
      rw [ends] at last
      obtain ⟨d,-,same⟩ := List.mem_map.mp (List.mem_of_getLast? last)
      cases blank : Text.isBlank c with
      | false => rfl
      | true =>
        have other := isReferenceChar_blank blank
        rw [← same,d.property] at other
        cases other
  have stripped : stripEquals (formulaOn sheet rest) = String.ofList (spread (fun _ => []) [.onSheet sheet rest]) := by
    unfold stripEquals formulaOn
    rw [String.toList_ofList]
    rw [List.append_nil,List.nil_append] at whole
    rw [whole]
    simp [spread]
  have fits : (Atom.onSheet sheet rest).Fits .start := rfl
  rw [stripped,tokenize_spread (.next fits .done)]
  rfl

namespace Build
variable {options : BuildOptions} {b : Builder} {w : Workbook} {s : Worksheet} {id : NodeId}

theorem run_clampReferences (allowed : Allowed t.sheet) (plain : '$' ∉ t.sheet.toList) (spells : Spells (condensed rest.chars) t.position)
    (selected : b.book.select t.sheet = .ok w) : clampReferences f.sheet [.ofToken (.operand (onSheet t.sheet rest) .range)] b =
      (.ok [.ofToken (.operand (onSheet t.sheet rest.unmarked) .range)],{b with book := w}) := by
  have free (mark : Char) (listed : mark ∈ [':',';','!']) : mark ∉ rest.chars := spells.free mark listed
  have unmarked {mark : Char} (absent : mark ∉ rest.chars) : mark ∉ rest.unmarked.chars := by
    rw [ReferenceRest.chars_unmarked]
    exact fun member => absent (List.mem_filter.mp member).1
  have named := named_onSheet allowed (free '!' (by simp)) f.sheet
  have clamped (e : Extents) : clampRange (onSheet t.sheet rest) e = .ok (onSheet t.sheet rest.unmarked) := by
    have single := splitRange_onSheet allowed (unmarked (free '!' (by simp))) (unmarked (free ':' (by simp)))
    rw [← without_onSheet plain] at single ⊢
    exact clampRange_single single e
  unfold clampReferences
  rw [List.mapM_cons]
  apply (run_bind (?_ : _ = (Except.ok (Item.ofToken (.operand (onSheet t.sheet rest.unmarked) .range)),{b with book := w}))).trans
  · rfl
  rw [if_pos (show Item.kind _ = .range from rfl)]
  change (select ((splitSheet (onSheet t.sheet rest)).1.getD f.sheet) >>= _) b = _
  rw [named,run_bind (run_select selected),run_get]
  exact run_bind (run_reference (clamped _) _)

theorem run_addReference (allowed : Allowed t.sheet) (plain : ';' ∉ t.sheet.toList) (spells : Spells (condensed rest.chars) t.position)
    (selected : b.book.select t.sheet = .ok w) (sheets : w.sheets = b.book.sheets) (known : b.book.find? t.sheet = some s)
    (constant : (s.entry t.position).formula? = none) (fresh : b.model.find? t.text = none) :
    addReference options id f.sheet [] ⟨onSheet t.sheet rest,none⟩ b =
      (.ok [t.text],{b with
        book := w
        model := (b.model.insert (.cell (options.cell b.book t))).link b.model.nodes.length id}) := by
  have named := named_onSheet allowed (spells.free '!' (by simp)) f.sheet
  have bounded : t.Bounded := ⟨spells.bounds.1,spells.bounds.2⟩
  have telling := allowed.telling bounded
  have proper : (Rect.ofCell t).Proper := ⟨Rect.bounded_ofCell bounded,⟨allowed.free ':' (by simp),plain⟩,allowed.given,allowed.bare⟩
  unfold addReference
  simp only [named]
  have known' : w.find? t.sheet = some s := (Workbook.find?_same sheets _).trans known
  have added : addConstituents options (.ofCell t) id {b with book := w} =
      (.ok (),{b with book := w,model := (b.model.insert (.cell (options.cell w t))).link b.model.nodes.length id}) :=
    run_addConstituents telling known' constant fresh
  rw [run_bind (run_select selected),run_bind (run_reference (canonicalize_onSheet allowed plain spells _) _),
    if_neg (by simp [allowed.single]),if_neg (by simp),run_bind (run_reference (parse_ofCell proper _) _),run_bind added,options.cell_same sheets]
  rfl

theorem run_compileCell (options : BuildOptions) (id : NodeId) (b : Builder) (allowed : Allowed t.sheet)
    (plain : '$' ∉ t.sheet.toList ∧ ';' ∉ t.sheet.toList) (spells : Spells (condensed rest.chars) t.position) (telling : f.Telling)
    (home : b.book.find? f.sheet = some s') (known : b.book.find? t.sheet = some s) (constant : (s.entry t.position).formula? = none)
    (fresh : b.model.find? t.text = none) : ∃ w : Workbook, w.sheets = b.book.sheets ∧
    compileCell options id f.text f.sheet (formulaOn t.sheet rest) b =
      (.ok (),{b with
        book := w
        model := ((b.model.compiled id (.cell t.text)).insert (.cell (options.cell b.book t))).link b.model.nodes.length id}) := by
  have given : rest.chars ≠ [] := by
    intro none
    exact spells.given (by rw [none]; rfl)
  let item : Item := .ofToken (.operand (onSheet t.sheet rest.unmarked) .range)
  let m := b.model.compiled id (.cell t.text)
  have spells' : Spells (condensed rest.unmarked.chars) t.position := by rwa [condensed_unmarked]
  -- every reference moves the active sheet, and the formula's own sheet is active again after it
  obtain ⟨w,selected₁,sheets₁⟩ := Workbook.select_known known
  obtain ⟨v,selected₂,back⟩ := Workbook.select_known ((Workbook.find?_same sheets₁ _).trans home)
  have sheets₂ : v.sheets = b.book.sheets := back.trans sheets₁
  have fresh' : m.find? t.text = none := (b.model.find?_compiled id _ _).trans fresh
  obtain ⟨u,selected₃,sheets₃⟩ := Workbook.select_known ((Workbook.find?_same sheets₂ _).trans known)
  obtain ⟨x,selected₄,sheets₄⟩ := Workbook.select_known ((Workbook.find?_same (sheets₃.trans sheets₂) _).trans home)
  have wired : addReference options id f.sheet [] ⟨onSheet t.sheet rest.unmarked,none⟩ {b with book := v,model := m} =
      (.ok [t.text],{b with book := u,model := (m.insert (.cell (options.cell v t))).link m.nodes.length id}) :=
    run_addReference allowed plain.2 spells' selected₃ sheets₃ ((Workbook.find?_same sheets₂ _).trans known) constant fresh'
  have read : ofFormula (do ReversePolish.ofTokens (← liftParse (tokenize (stripEquals (formulaOn t.sheet rest))))) b =
      (.ok [.ofToken (.operand (onSheet t.sheet rest) .range)],b) := by
    rw [tokenize_formulaOn given]
    rfl
  have tree (b : Builder) : ofFormula (liftParse (Tree.ofItems [item])) b = (.ok (.node item []),b) := rfl
  have compiled (b : Builder) : ofFormula (Expr.ofTree ⟨f,some v⟩ (.node item [])) b = (.ok (.cell t.text),b) := by
    rw [ofTree_onSheet allowed plain spells' ⟨f,some v⟩]
    rfl
  have listed : discard ((Tree.node item []).references.foldlM (addReference options id f.sheet) []) {b with book := v,model := m} =
      (.ok (),{b with book := u,model := (m.insert (.cell (options.cell v t))).link m.nodes.length id}) := run_bind (run_bind wired)
  have long : m.nodes.length = b.model.nodes.length := by simp [m,Model.compiled,Model.changeCell]
  refine ⟨x,sheets₄.trans (sheets₃.trans sheets₂),?_⟩
  unfold compileCell
  rw [run_bind read,run_bind (run_clampReferences allowed plain.1 spells selected₁),run_bind (run_select selected₂),run_bind (tree _),
    run_bind (run_reference (telling.parse _) _),run_get,run_bind (compiled _),run_modify]
  rw [← options.cell_same sheets₂,← long]
  exact (run_bind listed).trans (run_select selected₄)

variable {book : Workbook}

theorem run_locate {step : Build Unit} {mid : Builder} (ran : step b = (.ok (),mid)) (address : String) :
    locate address step b = (.ok (),mid) := by
  unfold locate
  rw [ran]

theorem run_compileAll {mid : Builder} (todo : b.todo = [id]) (found : b.model.cell? id = some (options.cell book f))
    (holds : (book.entry f).formula? = some formula)
    (ran : compileCell options id f.text f.sheet formula {b with todo := []} = (.ok (),mid)) (done : mid.todo = []) (steps : Nat) : compileAll options (steps + 1) b = (.ok (),mid) := by
  have next := congrArg Prod.fst (compileAll_next options steps todo found ((cell_formula options book f).trans holds))
  rw [cell_address,cell_sheet,run_locate ran] at next
  exact next.trans (compileAll_done steps done)

end Build

theorem Model.precedents_same {m m' : Model} (same : m'.outline = m.outline) (address : String) :
    m'.precedents address = m.precedents address := by
  have told : m'.addressOf = m.addressOf := funext (addressOf_same same)
  unfold precedents sortedAddresses
  rw [resolve_same same,graph_same same,told]

section
variable {book : Workbook} (options : BuildOptions)

theorem Build.run_construct (quotes : book.Quotes f t rest) (plain : '$' ∉ t.sheet.toList ∧ ';' ∉ t.sheet.toList) :
    ∃ b, Build.construct options [(f.sheet,f.a1)] (Build.start options [(f.sheet,f.a1)] book) = (.ok (),b) ∧
      b.model.nodes = [.cell {options.cell book f with expr := .cell t.text},.cell (options.cell book t)] ∧
      b.model.graph = ⟨[⟨1,0⟩]⟩ := by
  obtain ⟨telling,allowed,spells,other,known,written,only⟩ := quotes
  obtain ⟨s,known⟩ := Option.isSome_iff_exists.mp known
  obtain ⟨s',home⟩ : ∃ s', book.find? f.sheet = some s' := by
    cases found : book.find? f.sheet with
    | some s' => exact ⟨s',rfl⟩
    | none =>
      rw [Workbook.entry,found] at written
      cases written
  have constant : (s.entry t.position).formula? = none := by
    rw [← Workbook.entry_known known]
    exact only.others fun same => other (by rw [same])
  obtain ⟨b,seeded,sheets,model,todo⟩ : ∃ b, seed options f.sheet f.a1 (start options [(f.sheet,f.a1)] book) = (.ok (),b) ∧
      b.book.sheets = book.sheets ∧ b.model = (start options [(f.sheet,f.a1)] book).model.insert (.cell (options.cell book f)) ∧
      b.todo = [0] := run_seed telling home (by rw [← Workbook.entry_known home]; exact written) rfl
  have found : b.model.cell? 0 = some (options.cell book f) := by
    rw [model]
    rfl
  have fresh : b.model.find? t.text = none := by
    have apart : f.text ≠ t.text := fun same => other (by rw [CellRef.text_inj same])
    rw [model]
    simp [Model.find?,Model.insert,start,Model.empty,Node.address,List.findIdx?_cons,apart]
  obtain ⟨w,-,compiled⟩ := run_compileCell options 0 {b with todo := []} allowed plain spells telling
    ((Workbook.find?_same sheets _).trans home) ((Workbook.find?_same sheets _).trans known) constant fresh
  have made : options.cell b.book t = options.cell book t := options.cell_same sheets t
  have constructed (mid : Builder) (ran : compileCell options 0 f.text f.sheet (formulaOn t.sheet rest) {b with todo := []} = (.ok (),mid))
      (done : mid.todo = []) : construct options [(f.sheet,f.a1)] (start options [(f.sheet,f.a1)] book) = (.ok (),mid) := by
    unfold construct seedAll
    rw [run_locate seeded]
    exact run_compileAll todo found written ran done _
  refine ⟨_,constructed _ compiled rfl,?_,?_⟩
  · rw [← made]
    simp only [model]
    rfl
  · simp only [model]
    rfl

-- A name in quotes leads to its sheet, whatever is in it but the mark of a fixed reference and the mark
-- between the references of a list.
theorem build_quoted (quotes : book.Quotes f t rest) (plain : '$' ∉ t.sheet.toList ∧ ';' ∉ t.sheet.toList) :
    ∃ m, (build options [(f.sheet,f.a1)] book).1 = .ok m ∧ m.precedents f.text = .ok [t.text] ∧
      ∃ c, m.node? t.text = some (.cell c) ∧ c.sheet = t.sheet ∧ c.value = .ofContent (book.entry t).value := by
  obtain ⟨b,ran,nodes,graph⟩ := Build.run_construct options quotes plain
  have made : (build options [(f.sheet,f.a1)] book).1 = .ok (if options.trustCached then b.model.settle else b.model) :=
    build_construct options _ book ran
  generalize settled : (if options.trustCached then b.model.settle else b.model) = m at made
  have cell : b.model.cell? 1 = some (options.cell book t) := by simp [Model.cell?,nodes,Node.cell?]
  -- what settling may change is only which values are to be computed again
  obtain ⟨same,c,there,alike⟩ : m.outline = b.model.outline ∧ ∃ c, m.cell? 1 = some c ∧
      c = {options.cell book t with dirty := c.dirty} := by
    rw [← settled]
    split
    · obtain ⟨c,there,-⟩ := Model.cell_same b.model.outline_settle cell
      obtain ⟨d,was,alike⟩ := Model.cell?_settle there
      rw [cell] at was
      cases was
      exact ⟨b.model.outline_settle,c,there,alike⟩
    · exact ⟨rfl,_,cell,rfl⟩
  have apart : f.text ≠ t.text := fun same => quotes.other (by rw [CellRef.text_inj same])
  have first : b.model.find? f.text = some 0 := by simp [Model.find?,nodes,List.findIdx?_cons,Node.address]
  have second : b.model.find? t.text = some 1 := by simp [Model.find?,nodes,List.findIdx?_cons,Node.address,apart]
  refine ⟨m,made,?_,?_⟩
  · have named : b.model.addressOf 1 = t.text := by simp [Model.addressOf,nodes,Node.address]
    rw [Model.precedents_same same]
    simp [Model.precedents,Model.resolve,first,graph,Graph.precedents,Model.sortedAddresses,named,bind,Except.bind,pure,Except.pure]
  · have resolved : b.model.resolve t.text = .ok 1 := by simp [Model.resolve,second]
    refine ⟨c,?_,?_,?_⟩
    · rw [Model.node?,Model.resolve_same same,resolved]
      exact Model.cell?_eq_some.mp there
    · rw [alike]
      exact cell_sheet options book t
    · rw [alike]
      exact cell_value options book t

end

def firstCell : ReferenceRest := [⟨'$',rfl⟩,⟨'A',rfl⟩,⟨'$',rfl⟩,⟨'1',rfl⟩]

def quotingOn (name : String) (more : List Worksheet) : Workbook :=
  ⟨⟨"S",[(⟨1,1⟩,⟨some (formulaOn name firstCell),.empty,none⟩)]⟩ :: ⟨name,[(⟨1,1⟩,⟨none,.text "x",none⟩)]⟩ :: more,0⟩

theorem quotingOn_quotes (allowed : Allowed name) (other : "S" ≠ name) (more : List Worksheet) (empty : ∀ s ∈ more, s.entries = []) :
    (quotingOn name more).Quotes ⟨"S",1,1⟩ ⟨name,1,1⟩ firstCell := by
  have spells : Spells (['A'] ++ ['1']) ⟨1,1⟩ :=
    .letters ⟨⟨by decide,Text.each_of_all (by decide)⟩,by decide,by decide⟩ ⟨⟨by decide,Text.each_of_all (by decide)⟩,by decide,by decide⟩
  refine ⟨⟨⟨by decide,by decide⟩,by decide,rfl⟩,allowed,spells,other,?_,?_,?_⟩
  · simp [Workbook.find?,quotingOn,other]
  · simp [Workbook.entry,Workbook.find?,quotingOn,Worksheet.entry,Worksheet.find?,CellRef.position,Entry.formula?,formulaOn]
  · intro s listed e there formula
    simp only [quotingOn,List.mem_cons] at listed
    rcases listed with same | same | listed
    · subst same
      rw [List.mem_singleton.mp there]
    · subst same
      rw [List.mem_singleton.mp there] at formula
      cases formula
    · rw [empty s listed] at there
      cases there

def builtOn (name : String) (more : List Worksheet) : Except BuildError (Except FormulaError (List String)) :=
  (build .standard [("S","A1")] (quotingOn name more)).1.map fun m => m.precedents "S!A1"

theorem build_quoted_marked : (quotingOn "it's! so" []).Quotes ⟨"S",1,1⟩ ⟨"it's! so",1,1⟩ firstCell ∧ ∃ m,
    (build .standard [("S","A1")] (quotingOn "it's! so" [])).1 = .ok m ∧ m.precedents "S!A1" = .ok ["it's! so!A1"] := by
  have quotes := quotingOn_quotes (show Allowed "it's! so" from ⟨by decide,Text.each_of_all (by decide),by decide⟩) (by decide) [] (by simp)
  obtain ⟨m,made,precedents,-⟩ := build_quoted .standard quotes (by decide)
  exact ⟨quotes,m,made,precedents⟩

-- Both marks are taken for marks of the reference even in the quoted name: there is no sheet ab, or there is and
-- the formula reads that one, and what stands before the semicolon is no reference.
theorem quoted_mistaken : ((quotingOn "a$b" []).Quotes ⟨"S",1,1⟩ ⟨"a$b",1,1⟩ firstCell ∧
      builtOn "a$b" [] = .error ⟨"S!A1",0,.reference (.sheetNotFound "ab")⟩) ∧
    ((quotingOn "a$b" [⟨"ab",[]⟩]).Quotes ⟨"S",1,1⟩ ⟨"a$b",1,1⟩ firstCell ∧
      builtOn "a$b" [⟨"ab",[]⟩] = .ok (.ok ["ab!A1"])) ∧
    (quotingOn "a;b" []).Quotes ⟨"S",1,1⟩ ⟨"a;b",1,1⟩ firstCell ∧
      builtOn "a;b" [] = .error ⟨"S!A1",0,.reference (.invalidAddress "'a")⟩ := by
  have marked : Allowed "a$b" := ⟨by decide,Text.each_of_all (by decide),by decide⟩
  have parted : Allowed "a;b" := ⟨by decide,Text.each_of_all (by decide),by decide⟩
  refine ⟨⟨quotingOn_quotes marked (by decide) [] (by simp),by decide +kernel⟩,
    ⟨quotingOn_quotes marked (by decide) [⟨"ab",[]⟩] (by simp),by decide +kernel⟩,
    quotingOn_quotes parted (by decide) [] (by simp),by decide +kernel⟩

end
end Recalc
