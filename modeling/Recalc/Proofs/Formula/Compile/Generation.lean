import Recalc.Proofs.Formula.Compile.Compilation
import Recalc.Proofs.Formula.Compile.Neighbours
import Recalc.Proofs.Formula.Lexeme.ByteOffsets
import Recalc.Proofs.Formula.Parse.ArenaTrees
import Recalc.Proofs.Formula.Parse.ItemOrigins

namespace Recalc

open Recalc.Tree Recalc.Expr Guarded

variable {site : Site} {stops : Fault → Prop} {nodes : List Placed} {compile : Nat → Guarded Expr} {indices : List Nat}
  {children : List Tree} {item : Item} {t : Tree}

namespace Tree

theorem size_child (member : u ∈ t.children) : u.size < t.size := by
  obtain ⟨item,children⟩ := t
  have inside (us : List Tree) (listed : u ∈ us) : u.size ≤ sizeAll us := by
    induction listed with
    | head us => exact Nat.le_add_right u.size (sizeAll us)
    | tail v _ ih => exact Nat.le_trans ih (Nat.le_add_left _ v.size)
  exact Nat.lt_succ_of_le (inside children member)

theorem items_child (member : u ∈ t.children) (listed : item ∈ u.items) : item ∈ t.items := by
  obtain ⟨whole,children⟩ := t
  have inside (us : List Tree) (child : u ∈ us) : item ∈ itemsAll us := by
    induction child with
    | head us => exact List.mem_append_left _ listed
    | tail v _ ih => exact List.mem_append_right _ ih
  exact List.mem_append_left _ (inside children member)

end Tree

namespace Expr

theorem ofTrees_mapM (site : Site) (children : List Tree) : ofTrees site children = children.mapM (ofTree site) := by
  induction children with
  | nil => rfl
  | cons t ts ih => rw [ofTrees,List.mapM_cons,ih]

theorem rows_mapM (site : Site) (children : List Tree) : (do return List.zipWith rowOf children (← ofTrees site children)) =
    children.mapM fun t => do return rowOf t (← ofTree site t) := by
  induction children with
  | nil => rfl
  | cons t ts ih =>
    rw [List.mapM_cons,←ih]
    simp only [ofTrees,bind_assoc,pure_bind,List.zipWith_cons_cons]

theorem functionName_arrayRow (row : isArrayRow item = true) : item.kind = .function ∧ functionName item.token = "ARRAYROW" := by
  rw [isArrayRow,Bool.and_eq_true,beq_iff_eq] at row
  obtain ⟨kind,named⟩ := row
  refine ⟨kind,?_⟩
  have lowered : item.token.text.toList.map Char.toLower = "arrayrow".toList := by
    have same := congrArg String.toList (beq_iff_eq.mp named)
    rwa [Text.asciiLower,String.toList_ofList] at same
  have raised : item.token.text.toList.map Char.toUpper = "ARRAYROW".toList := by
    rw [show Char.toUpper = Char.toUpper ∘ Char.toLower from funext fun c => (Text.toUpper_toLower c).symm,←List.map_map,lowered]
    rfl
  have unmarked : Lexeme.stripFunctionMarker item.token.text = item.token.text := by
    have other : (item.token.text.toList.take Lexeme.functionMarker.length).map Char.toLower ≠ Lexeme.functionMarker := by
      rw [List.map_take,lowered]
      decide
    exact if_neg fun marked => other marked.2
  rw [functionName,unmarked,Text.asciiUpper,raised]
  rfl

theorem ofTree_arrayRow (row : isArrayRow item = true) :
    ofTree site (.node item children) = (do return .array [← ofTrees site children]) := by
  obtain ⟨kind,named⟩ := functionName_arrayRow row
  change byKind _ _ _ _ _ item.kind = _
  rw [kind,byKind]
  simp only [named]
  rfl

end Expr

namespace Arena

theorem children_follow (laid : Laid nodes index place parent (.node item children))
    (each : ∀ j place parent t, t ∈ children → Laid nodes j place parent t → Follows stops (compile j) (ofTree site t)) :
    ∃ indices, nodes[index]? = some ⟨item,place,parent,indices⟩ ∧ indices.length = children.length ∧
      (∀ (k : Nat) j t, indices[k]? = some j → children[k]? = some t → ∃ place parent, Laid nodes j place parent t) ∧
      Follows stops (indices.mapM compile) (ofTrees site children) := by
  cases laid with
  | node there length laid =>
    refine ⟨_,there,length,fun k j t named child => ⟨_,_,laid k j t named child⟩,?_⟩
    rw [ofTrees_mapM]
    exact .mapM length fun k j t named child => each _ _ _ t (List.mem_of_getElem? child) (laid k j t named child)

theorem row_follows (laid : Laid nodes j place parent t) (whole : Follows stops (compile j) (ofTree site t))
    (each : ∀ j place parent u, u ∈ t.children → Laid nodes j place parent u → Follows stops (compile j) (ofTree site u)) :
    Follows stops (row nodes compile j) (do return rowOf t (← ofTree site t)) := by
  cases t with
  | node item children =>
    obtain ⟨indices,there,-,-,inner⟩ := children_follow laid each
    rw [row,element_some there,pure_bind]
    cases made : isArrayRow item with
    | true =>
      rw [ofTree_arrayRow made]
      simpa [rowOf,Tree.item,made] using inner
    | false =>
      refine whole.bind fun e _ => ?_
      have single : rowOf (.node item children) e = [e] := by simp [rowOf,Tree.item,made]
      rw [single]
      exact .done _

theorem position_follows {name : String} (length : indices.length = children.length)
    (each : ∀ (k : Nat) j t, indices[k]? = some j → children[k]? = some t → ∃ place parent below, nodes[j]? = some ⟨t.item,place,parent,below⟩) :
    Follows stops (position site name nodes indices) (ofPosition site name children) := by
  match indices, children, length with
  | [], [], _ => exact .answer _
  | [j], [t], _ =>
    obtain ⟨place,parent,below,there⟩ := each 0 j t rfl rfl
    rw [position,element_some there]
    exact .answer _
  | _ :: _ :: is, _ :: _ :: ts, long =>
    have same : is.length = ts.length := by simpa using long
    simp only [position,ofPosition,List.length_cons,same]
    exact .answer _

theorem call_form (site : Site) (name : String) (arity : Nat) (arguments : Guarded (List Expr)) (rows : Guarded (List (List Expr)))
    (placed : Guarded Expr) : call site name arity arguments rows placed =
      (Form.choose name arity).run ofFormula arguments rows placed site.shape := by
  unfold call Form.choose
  dsimp only
  split
  · split
    · refine congrArg (arguments >>= ·) (funext fun es => ?_)
      rcases es with _ | ⟨c,_ | ⟨t,_ | ⟨e,_ | ⟨_,_⟩⟩⟩⟩ <;> rfl
    · rfl
  split
  · split <;> rfl
  split
  · refine congrArg (arguments >>= ·) (funext fun es => ?_)
    rcases es with _ | ⟨e,_ | ⟨_,_⟩⟩ <;> rfl
  split
  · rfl
  split
  · rfl
  split
  · rfl
  split
  · split <;> rfl
  cases Function.ofName name with
  | none => rfl
  | some f =>
    dsimp only
    split <;> rfl

theorem call_follows {arguments : Guarded (List Expr)} {rows : Guarded (List (List Expr))} {placed : Guarded Expr} (kind : item.kind = .function)
    (args : Follows stops arguments (ofTrees site children))
    (each : Follows stops rows (children.mapM fun t => do return rowOf t (← ofTree site t)))
    (place : Follows stops placed (ofPosition site (functionName item.token) children))
    (shape : Follows stops site.shape site.linestShape) :
    Follows stops (call site (functionName item.token) children.length arguments rows placed) (ofTree site (.node item children)) := by
  rw [call_form,ofTree_form kind,rows_mapM]
  cases Form.choose (functionName item.token) children.length with
  | refused e => exact .answer _
  | made make => exact args.bind fun es _ => .answer _
  | array => exact each.bind fun rs _ => .answer _
  | position => exact place
  | fit => exact args.bind fun es _ => shape.bind fun found _ => .answer _

def Cuts (stops : Fault → Prop) (t : Tree) : Prop := ∀ i ∈ t.items, i.kind = .function →
  Follows stops (Lexeme.cutFunctionMarker i.token.text) (.ok (Lexeme.stripFunctionMarker i.token.text))

theorem Cuts.child (cuts : Cuts stops t) (member : u ∈ t.children) : Cuts stops u :=
  fun i listed => cuts i (items_child member listed)

-- Induction on the depth, which the size of a tree bounds.
theorem generate_follows (shape : Follows stops site.shape site.linestShape) (cuts : Cuts stops t) (laid : Laid nodes index place parent t)
    (deep : t.size ≤ depth) : Follows stops (generate site nodes depth index) (ofTree site t) := by
  induction depth generalizing index place parent t with
  | zero =>
    obtain ⟨item,children⟩ := t
    simp [size] at deep
  | succ depth ih =>
    have below (t u : Tree) (cuts : Cuts stops t) (deep : t.size ≤ depth + 1) (j place : Nat) (parent : Option Nat) (member : u ∈ t.children)
        (laid : Laid nodes j place parent u) : Follows stops (generate site nodes depth j) (ofTree site u) :=
      ih (cuts.child member) laid (Nat.le_of_lt_succ (Nat.lt_of_lt_of_le (size_child member) deep))
    obtain ⟨item,children⟩ := t
    obtain ⟨indices,there,length,each,args⟩ := children_follow laid fun j place parent u => below (.node item children) u cuts deep j place parent
    rw [generate,element_some there,pure_bind]
    dsimp only
    cases kind : item.kind with
    | operand =>
      rw [ofTree_operand kind]
      exact .answer _
    | range =>
      rw [ofTree_range kind]
      exact .answer _
    | operator =>
      rw [ofTree_operator kind]
      exact args.bind fun es _ => .answer _
    | generic =>
      rw [ofTree_generic kind]
      exact .answer _
    | function =>
      have cut := cuts item (by simp [items]) kind
      change Follows stops _ (Except.ok (Lexeme.stripFunctionMarker item.token.text) >>= fun _ => ofTree site (.node item children))
      refine cut.bind fun name same => ?_
      cases same
      rw [length]
      refine call_follows kind args (.mapM length fun k j u named child => ?_) (position_follows length fun k j u named child => ?_) shape
      · obtain ⟨place,parent,laid⟩ := each k j u named child
        have member : u ∈ (node item children).children := List.mem_of_getElem? child
        exact row_follows laid (below (.node item children) u cuts deep j place parent member laid) fun i place parent v inner =>
          below u v (cuts.child member) (Nat.le_of_lt (Nat.lt_of_lt_of_le (size_child member) deep)) i place parent inner
      · obtain ⟨_,_,laid⟩ := each k j u named child
        cases laid with
        | node there _ _ => exact ⟨_,_,_,there⟩

theorem compile_follows (tree : Tree.ofItems list = .ok t) (column : 1 ≤ site.cell.column) (row : 1 ≤ site.cell.row)
    (cuts : Cuts stops t) (beyond : site.Last → stops .beyond) : Follows stops (build list >>= fun arena => arena.compile site) (ofTree site t) := by
  have shape : Follows stops site.shape site.linestShape := by
    refine (site.shape_linestShape column row).mono ?_
    rintro f ⟨rfl,last⟩
    exact beyond last
  rw [build_placed,tree]
  have laid := laid_placed t
  rw [length_placed] at laid
  exact generate_follows shape cuts laid (Nat.le_of_eq (length_placed t).symm)

theorem compileTokens_name (uncut : ¬ Lexeme.Cuttable name) (site : Site) :
    compileTokens [.functionStart name,.functionStop] site = fault (.cut 6) := by
  let item : Item := ⟨⟨.function,.none,name⟩,0⟩
  have ordered : ReversePolish.ofTokens [.functionStart name,.functionStop] = .ok [item] := rfl
  have tree : Tree.ofItems [item] = .ok (.node item []) := rfl
  rw [compileTokens,ordered,ofFormula_ok,pure_bind,build_placed,tree]
  change generate site [⟨item,0,none,[]⟩] 1 0 = _
  rw [generate,element_some rfl,pure_bind]
  change (Lexeme.cutFunctionMarker name >>= _) = _
  rw [Lexeme.cutFunctionMarker_divided uncut]
  rfl

inductive Stops (tokens : List Token) (site : Site) : Fault → Prop where
  | cut {t : Token} (given : t ∈ tokens) (function : t.kind = .function) (uncut : ¬ Lexeme.Cuttable t.text) : Stops tokens site (.cut 6)
  | beyond (last : site.Last) : Stops tokens site .beyond

theorem compileTokens_follows (tokens : List Token) (column : 1 ≤ site.cell.column) (row : 1 ≤ site.cell.row) :
    Follows (Stops tokens site) (compileTokens tokens site) (do ofTree site (← parseTokens tokens)) := by
  cases ordered : ReversePolish.ofTokens tokens with
  | error e =>
    rw [compileTokens,parseTokens,ordered]
    exact .answer (.error e)
  | ok list =>
    have parsed : parseTokens tokens = liftParse (Tree.ofItems list) := by
      rw [parseTokens,ordered]
      rfl
    rw [compileTokens,ordered,ofFormula_ok,pure_bind,parsed]
    cases tree : Tree.ofItems list with
    | error e =>
      rw [build_placed,tree]
      exact .answer (.error (.parse e))
    | ok t =>
      refine compile_follows tree column row (fun i listed kind => ?_) fun last => .beyond last
      rw [ofItems_flat tree] at listed
      obtain ⟨u,given,function,same⟩ := ReversePolish.function_given ordered listed kind
      by_cases cuttable : Lexeme.Cuttable i.token.text
      · rw [Lexeme.cutFunctionMarker_cuttable cuttable]
        exact .done _
      · exact .inr ⟨.cut 6,.cut given function (same ▸ cuttable),Lexeme.cutFunctionMarker_divided cuttable⟩

end Arena

open Arena

-- However the tokens are put together, no stack runs empty, no index is out of place and no number falls below
-- zero. A name longer than the marker has to have a character that starts where the marker would end.
theorem compilation_answers (tokens : List Token) (site : Site) (column : 1 ≤ site.cell.column) (row : 1 ≤ site.cell.row) :
    (compileTokens tokens site = ofFormula (do ofTree site (← parseTokens tokens)) ∨
      compileTokens tokens site = fault (.cut 6) ∧ (∃ t ∈ tokens, t.kind = .function ∧ ¬ Lexeme.Cuttable t.text) ∨
      compileTokens tokens site = fault .beyond ∧ site.Last) ∧
    ∀ name, compileTokens [.functionStart name,.functionStop] site = fault (.cut 6) ↔ ¬ Lexeme.Cuttable name := by
  constructor
  · rcases compileTokens_follows tokens column row with same | ⟨f,stop,faulty⟩
    · exact .inl same
    · cases stop with
      | cut given function uncut => exact .inr (.inl ⟨faulty,_,given,function,uncut⟩)
      | beyond last => exact .inr (.inr ⟨faulty,last⟩)
  · refine fun name => ⟨fun stopped cuttable => ?_,fun uncut => compileTokens_name uncut site⟩
    rcases compileTokens_follows [.functionStart name,.functionStop] column row with same | ⟨f,stop,faulty⟩
    · rw [stopped] at same
      cases same
    · rw [stopped] at faulty
      cases faulty
      cases stop with
      | cut given function uncut =>
        rcases List.mem_pair.mp given with rfl | rfl
        · exact uncut cuttable
        · exact uncut fun longer => absurd longer (by decide)

theorem compilation_answers_marked :
    let tokens : List Token := [.functionStart "IF",.operand "TRUE" .logical,.comma,.functionStart "_XLFN.é",.operand "x" .text,.functionStop,.functionStop]
    let site : Site := ⟨⟨"S",10,10⟩,none⟩
    1 ≤ site.cell.column ∧ 1 ≤ site.cell.row ∧ compileTokens tokens site = ofFormula (.error (.unknownFunction "é")) := by
  intro tokens site
  have answer : (do ofTree site (← parseTokens tokens)) = .error (.unknownFunction "é") := rfl
  have cuttable : ∀ t ∈ tokens, t.kind = .function → Lexeme.Cuttable t.text := by decide
  refine ⟨by decide,by decide,?_⟩
  rcases (compilation_answers tokens site (by decide) (by decide)).1 with same | ⟨-,t,given,function,uncut⟩ | ⟨-,last⟩
  · rw [same,answer]
  · exact absurd (cuttable t given function) uncut
  · exact absurd rfl last.1

theorem compilation_stops : compileTokens [.functionStart "aaaaaé",.functionStop] ⟨⟨"S",10,10⟩,none⟩ = fault (.cut 6) ∧
    ¬ ∀ (tokens : List Token) (site : Site), 1 ≤ site.cell.column → 1 ≤ site.cell.row → ∃ r, compileTokens tokens site = ofFormula r := by
  have stopped : compileTokens [.functionStart "aaaaaé",.functionStop] ⟨⟨"S",10,10⟩,none⟩ = fault (.cut 6) :=
    compileTokens_name (by decide) _
  refine ⟨stopped,fun answers => ?_⟩
  obtain ⟨r,answer⟩ := answers [.functionStart "aaaaaé",.functionStop] ⟨⟨"S",10,10⟩,none⟩ (by decide) (by decide)
  rw [stopped] at answer
  cases answer

end Recalc
