import Recalc.Proofs.Address.Canonical
import Recalc.Proofs.Model.State.Invalidate
import Recalc.Proofs.Query.ExprReads

namespace Recalc

def Node.stem : Node → Node
  | .cell c => .cell {c with expr := .literal .empty}
  | .range r => .range r

namespace Model

-- Building only adds: nodes at the end, edges, narrowed tables.
structure Extends (m m' : Model) : Prop where
  sheet : m'.defaultSheet = m.defaultSheet
  nodes : m.nodes.map Node.stem <+: m'.nodes.map Node.stem
  edges : ∀ e ∈ m.graph.edges, e ∈ m'.graph.edges
  narrowed : ∀ a ∈ m.narrowed, a ∈ m'.narrowed

@[simp] theorem address_stem (n : Node) : n.stem.address = n.address := by cases n <;> rfl

theorem find?_stems (m : Model) (address : String) :
    m.find? address = (m.nodes.map Node.stem).findIdx? fun n => n.address == address := by
  have same : (fun n : Node => n.address == address) ∘ Node.stem = fun n => n.address == address := by
    funext n
    simp
  rw [List.findIdx?_map,same]
  rfl

theorem rectOf_ok {m : Model} : m.rectOf address = .ok r ↔ Rect.ofAddress address = .ok r ∧
    ((∃ n k, m.find? address = some n ∧ m.nodes[n]? = some (.range k)) ∨ address ∈ m.narrowed) := by
  unfold rectOf
  cases found : m.find? address with
  | none =>
    by_cases listed : address ∈ m.narrowed <;> simp [listed]
  | some n =>
    obtain ⟨node,there,named⟩ := find?_some found
    cases node with
    | range k =>
      have named : k.address = address := named
      simp [there,named]
    | cell c =>
      by_cases listed : address ∈ m.narrowed <;> simp [there,listed]

namespace Extends

theorem refl (m : Model) : m.Extends m := ⟨rfl,List.prefix_rfl,fun _ listed => listed,fun _ listed => listed⟩

theorem trans {m m' m'' : Model} (one : m.Extends m') (two : m'.Extends m'') : m.Extends m'' :=
  ⟨two.sheet.trans one.sheet,one.nodes.trans two.nodes,fun e listed => two.edges e (one.edges e listed),
    fun a listed => two.narrowed a (one.narrowed a listed)⟩

section
variable {m m' : Model} {id : NodeId} (grows : m.Extends m')
include grows

theorem node (found : m.nodes[id]? = some n) : ∃ n', m'.nodes[id]? = some n' ∧ n'.stem = n.stem := by
  obtain ⟨rest,joined⟩ := grows.nodes
  have there : (m'.nodes.map Node.stem)[id]? = some n.stem := by
    rw [← joined,List.getElem?_append_left]
    · simp [found]
    · simpa using (List.getElem?_eq_some_iff.mp found).1
  simpa using there

theorem range (found : m.nodes[id]? = some (.range r)) : m'.nodes[id]? = some (.range r) := by
  obtain ⟨n,there,same⟩ := grows.node found
  cases n with
  | cell c => cases same
  | range k =>
    cases same
    exact there

theorem cell (found : m.cell? id = some c) : ∃ c', m'.cell? id = some c' ∧ c'.formula = c.formula := by
  obtain ⟨n,there,same⟩ := grows.node (cell?_eq_some.mp found)
  cases n with
  | cell d =>
    simp only [Node.stem,Node.cell.injEq] at same
    have formula := congrArg Cell.formula same
    exact ⟨d,cell?_eq_some.mpr there,formula⟩
  | range r => cases same

theorem isSome (found : (m.cell? id).isSome = true) : (m'.cell? id).isSome = true := by
  obtain ⟨c,there⟩ := Option.isSome_iff_exists.mp found
  obtain ⟨c',there,-⟩ := grows.cell there
  simp [there]

theorem find? (found : m.find? address = some id) : m'.find? address = some id := by
  rw [find?_stems] at found ⊢
  obtain ⟨rest,joined⟩ := grows.nodes
  rw [← joined,List.findIdx?_append,found]
  rfl

theorem rectOf (found : m.rectOf address = .ok r) : m'.rectOf address = .ok r := by
  rw [rectOf_ok] at found ⊢
  obtain ⟨spelled,ranged | listed⟩ := found
  · obtain ⟨n,k,first,there⟩ := ranged
    exact ⟨spelled,.inl ⟨n,k,grows.find? first,grows.range there⟩⟩
  · exact ⟨spelled,.inr (grows.narrowed _ listed)⟩

theorem feeds (feeds : m.Feeds y f) : m'.Feeds y f := by
  rcases feeds with edge | ⟨n,r,there,first,second⟩
  · exact .inl (grows.edges _ edge)
  · exact .inr ⟨n,r,grows.range there,grows.edges _ first,grows.edges _ second⟩

end
end Extends

def Covers (m : Model) (f : NodeId) (address : String) : Prop :=
  ∃ y, m.find? address = some y ∧ (m.cell? y).isSome = true ∧ m.Feeds y f

-- The address lies beyond the range a sum was given, counted from the first cell of it.
def Overreaches (m : Model) (sums : List String) (address : String) : Prop :=
  ∃ sum ∈ sums, ∃ r row column, m.rectOf sum = .ok r ∧ address = (r.cellAt row column).text ∧
    ¬ (row < r.rows ∧ column < r.columns)

def grants (m : Model) (f : NodeId) (sums : List String) : Grants where
  rects := m.rectOf
  cells address := m.Covers f address ∨ m.Overreaches sums address

def Joined (m : Model) (r : Rect) (target : NodeId) : Prop :=
  ∀ row column, row < r.rows → column < r.columns → ∃ y, m.find? (r.cellAt row column).text = some y ∧
    (m.cell? y).isSome = true ∧ (⟨y,target⟩ : Edge) ∈ m.graph.edges

def Depends (m : Model) (id : NodeId) : Prop :=
  (∃ r, m.nodes[id]? = some (.range r)) ∨ ∃ c, m.cell? id = some c ∧ c.formula.isSome = true

namespace Extends
variable {m m' : Model} {id f : NodeId} (grows : m.Extends m')
include grows

theorem covers (covers : m.Covers f address) : m'.Covers f address := by
  obtain ⟨y,found,cell,feeds⟩ := covers
  exact ⟨y,grows.find? found,grows.isSome cell,grows.feeds feeds⟩

theorem overreaches (beyond : m.Overreaches sums address) : m'.Overreaches sums address := by
  obtain ⟨sum,listed,r,row,column,found,rest⟩ := beyond
  exact ⟨sum,listed,r,row,column,grows.rectOf found,rest⟩

theorem joined (joined : m.Joined r id) : m'.Joined r id := by
  intro row column inside within
  obtain ⟨y,found,cell,edge⟩ := joined row column inside within
  exact ⟨y,grows.find? found,grows.isSome cell,grows.edges _ edge⟩

theorem depends (depends : m.Depends id) : m'.Depends id := by
  rcases depends with ⟨r,there⟩ | ⟨c,there,formula⟩
  · exact .inl ⟨r,grows.range there⟩
  · obtain ⟨c',there,same⟩ := grows.cell there
    exact .inr ⟨c',there,by rwa [same]⟩

end Extends
end Model

structure Grants.Within (g g' : Grants) : Prop where
  rects : ∀ address r, g.rects address = .ok r → g'.rects address = .ok r
  cells : ∀ address, g.cells address → g'.cells address

theorem Use.Granted.mono {use : Use} (inside : g.Within g') (granted : use.Granted g r) : use.Granted g' r := by
  cases use with
  | whole => exact fun row column first second => inside.cells _ (granted row column first second)
  | table vertical index => exact fun row column first second place => inside.cells _ (granted row column first second place)
  | summed => exact fun row column => inside.cells _ (granted row column)

mutual
theorem Expr.Wired.mono (inside : g.Within g') : (e : Expr) → e.Wired g → e.Wired g'
  | .literal _, _ => trivial
  | .cell address, granted => inside.cells address granted
  | .range address, ⟨r,found,granted⟩ =>
    ⟨r,inside.rects address r found,Use.Granted.mono inside (show Use.whole.Granted g r from granted)⟩
  | .unary _ e, wired => Expr.Wired.mono inside e wired
  | .binary _ l r, ⟨left,right⟩ => ⟨Expr.Wired.mono inside l left,Expr.Wired.mono inside r right⟩
  | .ifThen c t, ⟨condition,consequent⟩ => ⟨Expr.Wired.mono inside c condition,Expr.Wired.mono inside t consequent⟩
  | .ifElse c t e, ⟨condition,consequent,alternative⟩ =>
    ⟨Expr.Wired.mono inside c condition,Expr.Wired.mono inside t consequent,Expr.Wired.mono inside e alternative⟩
  | .all args, wired => Expr.WiredArgs.mono inside args wired
  | .any args, wired => Expr.WiredArgs.mono inside args wired
  | .not e, wired => Expr.Wired.mono inside e wired
  | .array rows, wired => Expr.WiredRows.mono inside rows wired
  | .call _ args, wired => Expr.WiredArgs.mono inside args wired
  | .linest args _ _, wired => Expr.WiredArgs.mono inside args wired
theorem Expr.WiredArgs.mono (inside : g.Within g') : (es : List Expr) → {use : Nat → Use} → {i : Nat} →
    Expr.WiredArgs g use i es → Expr.WiredArgs g' use i es
  | [], _, _, _ => trivial
  | e :: es, _, _, ⟨spans,other,rest⟩ => by
    refine ⟨fun address same => ?_,fun plain => Expr.Wired.mono inside e (other plain),Expr.WiredArgs.mono inside es rest⟩
    obtain ⟨r,found,granted⟩ := spans address same
    exact ⟨r,inside.rects address r found,granted.mono inside⟩
theorem Expr.WiredEach.mono (inside : g.Within g') : (es : List Expr) → Expr.WiredEach g es → Expr.WiredEach g' es
  | [], _ => trivial
  | e :: es, ⟨wired,rest⟩ => ⟨Expr.Wired.mono inside e wired,Expr.WiredEach.mono inside es rest⟩
theorem Expr.WiredRows.mono (inside : g.Within g') : (rows : List (List Expr)) → Expr.WiredRows g rows →
    Expr.WiredRows g' rows
  | [], _ => trivial
  | r :: rs, ⟨wired,rest⟩ => ⟨Expr.WiredEach.mono inside r wired,Expr.WiredRows.mono inside rs rest⟩
end

namespace Expr

def summedBy (f : Function) (args : List Expr) : List String :=
  match f, (args[2]? : Option Expr) with
  | .sumIf, some (.range address) => [address]
  | _, _ => []

mutual
def summed : Expr → List String
  | .literal _ => []
  | .cell _ => []
  | .range _ => []
  | .unary _ e => summed e
  | .binary _ l r => summed l ++ summed r
  | .ifThen c t => summed c ++ summed t
  | .ifElse c t e => summed c ++ summed t ++ summed e
  | .all args => summedEach args
  | .any args => summedEach args
  | .not e => summed e
  | .array rows => summedRows rows
  | .call f args => summedBy f args ++ summedEach args
  | .linest args _ _ => summedEach args
def summedEach : List Expr → List String
  | [] => []
  | e :: es => summed e ++ summedEach es
def summedRows : List (List Expr) → List String
  | [] => []
  | r :: rs => summedEach r ++ summedRows rs
end

end Expr

namespace Model

-- The formula at the node asks for nothing that is not granted; a range has its cells.
structure Finished (m : Model) (id : NodeId) : Prop where
  range : ∀ (k : RangeNode), m.nodes[id]? = some (.range k) → ∀ piece ∈ Text.splitEach ';' k.address.toList,
    ∀ r, Rect.parse (String.ofList piece) "" = .ok r → m.Joined r id
  formula : ∀ c, m.cell? id = some c → c.expr.Wired (m.grants id c.expr.summed)

theorem Finished.mono {m m' : Model} {id : NodeId} (finished : m.Finished id) (grows : m.Extends m')
    (same : m'.nodes[id]? = m.nodes[id]?) : m'.Finished id := by
  refine ⟨fun k there piece listed r parsed => ?_,fun c there => ?_⟩
  · exact grows.joined (finished.range k (same ▸ there) piece listed r parsed)
  · have before : m.cell? id = some c := by rw [← there,Model.cell?,Model.cell?,same]
    refine Expr.Wired.mono ⟨fun address r found => grows.rectOf found,fun address granted => ?_⟩ _ (finished.formula c before)
    exact granted.imp grows.covers grows.overreaches

structure Skeleton (m : Model) : Prop where
  distinct : m.Distinct
  deep : 1 ≤ m.limits.depth
  idle : m.Idle
  cells : ∀ id c, m.cell? id = some c → ∃ cell : CellRef, c.address = cell.text ∧ c.sheet = cell.sheet ∧
    Plain cell.sheet ∧ cell.sheet ≠ ""
  ranges : ∀ (id : NodeId) r, m.nodes[id]? = some (.range r) → ':' ∈ r.address.toList
  edges : ∀ e ∈ m.graph.edges, m.Depends e.dependent

end Model
end Recalc
