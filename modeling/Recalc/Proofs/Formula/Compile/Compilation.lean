import Recalc.Proofs.Build.Regions
import Recalc.Proofs.Formula.Compile.Forms

namespace Recalc
namespace Expr
variable {g : Grants} {site : Site}

def Overreach (g : Grants) (address : String) : Prop :=
  ∀ r row column, g.rects address = .ok r → ¬ (row < r.rows ∧ column < r.columns) → g.cells (r.cellAt row column).text

def ReferenceWired (g : Grants) (sheet : String) (reference : Tree.Reference) : Prop :=
  ∀ e, canonicalize (Text.without '$' reference.text) sheet = .ok e →
    if isRange e then ∃ r, g.rects e = .ok r ∧ (Tree.TableUse.use reference.table).Granted g r else g.cells e

def WiredAs (g : Grants) (use : Use) (e : Expr) : Prop :=
  (∀ address, e = .range address → ∃ r, g.rects address = .ok r ∧ use.Granted g r) ∧
    ((∀ address, e ≠ .range address) → e.Wired g)

theorem WiredAs.wired {e : Expr} (wired : WiredAs g .whole e) : e.Wired g := by
  by_cases ranged : ∃ address, e = .range address
  · obtain ⟨address,rfl⟩ := ranged
    exact wired.1 address rfl
  · exact wired.2 fun address same => ranged ⟨address,same⟩

theorem WiredAs.of_wired {use : Use} {e : Expr} (wired : e.Wired g) (other : ∀ address, e ≠ .range address) : WiredAs g use e :=
  ⟨fun address same => absurd same (other address),fun _ => wired⟩

theorem WiredArgs.each {es : List Expr} (wired : WiredArgs g (fun _ => .whole) i es) : ∀ e ∈ es, e.Wired g := by
  induction es generalizing i with
  | nil => simp
  | cons first es ih =>
    obtain ⟨spans,other,rest⟩ := wired
    intro e listed
    rcases List.mem_cons.mp listed with rfl | listed
    · exact WiredAs.wired ⟨spans,other⟩
    · exact ih rest e listed

theorem WiredArgs.weaken {use use' : Nat → Use} {es : List Expr} (each : ∀ k address r, es[k]? = some (.range address) →
    g.rects address = .ok r → (use (i + k)).Granted g r → (use' (i + k)).Granted g r)
    (wired : WiredArgs g use i es) : WiredArgs g use' i es := by
  induction es generalizing i with
  | nil => trivial
  | cons e es ih =>
    obtain ⟨spans,other,rest⟩ := wired
    refine ⟨fun address same => ?_,other,ih (fun k address r found there granted => ?_) rest⟩
    · obtain ⟨r,there,granted⟩ := spans address same
      exact ⟨r,there,each 0 address r (by simp [same]) there granted⟩
    · have moved := each (k + 1) address r (by simpa using found) there
      rw [← Nat.add_assoc,Nat.add_right_comm] at moved
      exact moved granted

theorem wiredArgs_of_each {es : List Expr} (wired : ∀ e ∈ es, e.Wired g) : WiredArgs g (fun _ => .whole) i es := by
  induction es generalizing i with
  | nil => trivial
  | cons e es ih =>
    refine ⟨fun address same => ?_,fun _ => wired e (by simp),ih fun x listed => wired x (by simp [listed])⟩
    have here := wired e (by simp)
    rw [same] at here
    exact here

theorem wiredEach {es : List Expr} (wired : ∀ e ∈ es, e.Wired g) : WiredEach g es := by
  induction es with
  | nil => trivial
  | cons e es ih => exact ⟨wired e (by simp),ih fun x listed => wired x (by simp [listed])⟩

theorem ofTrees_length {ts : List Tree} (made : ofTrees site ts = .ok es) : es.length = ts.length := by
  induction ts generalizing es with
  | nil =>
    cases made
    rfl
  | cons t ts ih =>
    rw [ofTrees] at made
    obtain ⟨e,-,made⟩ := bind_ok.mp made
    obtain ⟨rest,further,made⟩ := bind_ok.mp made
    cases made
    simp [ih further]

theorem ofTrees_at {ts : List Tree} {k : Nat} (made : ofTrees site ts = .ok es) (found : ts[k]? = some t) :
    ∃ e, es[k]? = some e ∧ ofTree site t = .ok e := by
  induction ts generalizing es k with
  | nil => simp at found
  | cons first ts ih =>
    rw [ofTrees] at made
    obtain ⟨e,here,made⟩ := bind_ok.mp made
    obtain ⟨rest,further,made⟩ := bind_ok.mp made
    cases made
    cases k with
    | zero =>
      cases found
      exact ⟨e,rfl,here⟩
    | succ k =>
      obtain ⟨x,there,made⟩ := ih further (by simpa using found)
      exact ⟨x,by simpa using there,made⟩

theorem rows_wired {ts : List Tree} (long : es.length = ts.length) (wired : ∀ e ∈ es, e.Wired g) :
    WiredRows g (List.zipWith rowOf ts es) := by
  induction ts generalizing es with
  | nil => trivial
  | cons t ts ih =>
    cases es with
    | nil => cases long
    | cons e es =>
      refine ⟨?_,ih (by simpa using long) fun x listed => wired x (by simp [listed])⟩
      have here := wired e (by simp)
      unfold rowOf
      split
      · exact here.1
      · exact ⟨here,trivial⟩

theorem rows_summed {ts : List Tree} (long : es.length = ts.length) :
    summedRows (List.zipWith rowOf ts es) = summedEach es := by
  induction ts generalizing es with
  | nil =>
    cases es with
    | nil => rfl
    | cons e es => cases long
  | cons t ts ih =>
    cases es with
    | nil => cases long
    | cons e es =>
      rw [List.zipWith_cons_cons,summedRows,ih (by simpa using long),summedEach]
      congr 1
      unfold rowOf
      split
      · simp [summed,summedRows]
      · simp [summedEach]

theorem ofOperand_literal {t : Token} (made : ofOperand t = .ok e) : ∃ v, e = .literal v := by
  unfold ofOperand at made
  split at made
  · split at made
    · cases made
      exact ⟨_,rfl⟩
    · cases made
  · cases made
    exact ⟨_,rfl⟩
  · cases made
    exact ⟨_,rfl⟩
  · split at made
    · cases made
      exact ⟨_,rfl⟩
    · cases made
  · cases made

theorem ofReference_wired {t : Token} (made : ofReference site t = .ok e) (use : Option Tree.TableUse)
    (wired : ReferenceWired g site.cell.sheet ⟨t.text,use⟩) : WiredAs g (Tree.TableUse.use use) e := by
  obtain ⟨address,spelled,made⟩ := bind_ok.mp made
  have canonical : canonicalize (Text.without '$' t.text) site.cell.sheet = .ok address := by
    cases found : canonicalize (Text.without '$' t.text) site.cell.sheet with
    | error e =>
      rw [found] at spelled
      cases spelled
    | ok k =>
      rw [found] at spelled
      cases spelled
      rfl
  have known := wired address canonical
  cases made
  split
  · rename_i ranged
    rw [if_pos ranged] at known
    refine ⟨?_,fun other => absurd rfl (other address)⟩
    rintro _ ⟨⟩
    exact known
  · rename_i single
    rw [if_neg single] at known
    exact WiredAs.of_wired (e := .cell address) known (by simp)

theorem ofOperator_form {t : Token} (made : ofOperator t es = .ok e) : (∀ address, e ≠ .range address) ∧
    summed e = summedEach es ∧ ∀ g, (∀ x ∈ es, x.Wired g) → e.Wired g := by
  unfold ofOperator at made
  split at made
  · split at made
    · cases made
    · split at made
      · cases made
        exact ⟨by simp,by simp [summed,summedEach],fun g wired => ⟨wired _ (by simp),wired _ (by simp)⟩⟩
      · cases made
  · split at made
    · cases made
    · split at made
      · rename_i x
        cases made
        exact ⟨by simp,by simp [summed,summedEach],fun g wired => wired x (by simp)⟩
      · cases made

theorem tableUse_some {item : Item} {children : List Tree} {table : Tree.TableUse}
    (used : Tree.tableUse item children = some table) :
    (functionName item.token = "VLOOKUP" ∧ table.vertical = true ∨ functionName item.token = "HLOOKUP" ∧ table.vertical = false) ∧
      ∃ t, children[2]? = some t ∧ Tree.literalIndex t = some table.index := by
  unfold Tree.tableUse at used
  split at used
  · change (if functionName item.token = "VLOOKUP" ∨ functionName item.token = "HLOOKUP" then
      children[2]?.bind fun t => (Tree.literalIndex t).bind fun index =>
        some (⟨functionName item.token == "VLOOKUP",index⟩ : Tree.TableUse) else none) = some table at used
    split at used
    · rename_i named
      obtain ⟨t,found,rest⟩ := Option.bind_eq_some_iff.mp used
      obtain ⟨index,literal,last⟩ := Option.bind_eq_some_iff.mp rest
      have same := Option.some.inj last
      subst same
      refine ⟨?_,t,found,literal⟩
      rcases named with named | named
      · exact .inl ⟨named,by simp only [named,beq_self_eq_true]⟩
      · exact .inr ⟨named,by simp only [named]; rfl⟩
    · cases used
  · cases used

section
variable {item : Item} {children : List Tree}

def byKind (operand range operator generic function : α) : ItemKind → α
  | .operand => operand
  | .range => range
  | .operator => operator
  | .generic => generic
  | .function => function

theorem ofTree_operand (kind : item.kind = .operand) : ofTree site (.node item children) = ofOperand item.token := by
  change byKind (ofOperand item.token) _ _ _ _ item.kind = _
  rw [kind]
  rfl

theorem ofTree_range (kind : item.kind = .range) : ofTree site (.node item children) = ofReference site item.token := by
  change byKind _ (ofReference site item.token) _ _ _ item.kind = _
  rw [kind]
  rfl

theorem ofTree_operator (kind : item.kind = .operator) :
    ofTree site (.node item children) = ofTrees site children >>= ofOperator item.token := by
  change byKind _ _ (ofTrees site children >>= ofOperator item.token) _ _ item.kind = _
  rw [kind]
  rfl

theorem ofTree_generic (kind : item.kind = .generic) :
    ofTree site (.node item children) = .error (.parse (.misplacedToken item.token.text)) := by
  change byKind _ _ _ (Except.error (FormulaError.parse (.misplacedToken item.token.text))) _ item.kind = _
  rw [kind]
  rfl

theorem tableUse_none (vertical : functionName item.token ≠ "VLOOKUP") (horizontal : functionName item.token ≠ "HLOOKUP") :
    Tree.tableUse item children = none := by
  cases used : Tree.tableUse item children with
  | none => rfl
  | some table =>
    rcases (tableUse_some used).1 with ⟨named,-⟩ | ⟨named,-⟩
    · exact absurd named vertical
    · exact absurd named horizontal

-- What becomes of a function: a number that is known, a form of its own over all of its
-- arguments, or a call.
inductive OfFunction (site : Site) (item : Item) (children : List Tree) : Expr → Prop where
  | known (v : Value) : OfFunction site item children (.literal v)
  | form (e : Expr) (es : List Expr) (made : ofTrees site children = .ok es) (table : Tree.tableUse item children = none)
      (other : ∀ address, e ≠ .range address) (sums : summed e = summedEach es)
      (wired : ∀ g, (∀ x ∈ es, x.Wired g) → e.Wired g) : OfFunction site item children e
  | call (f : Function) (es : List Expr) (named : Function.ofName (functionName item.token) = some f)
      (made : ofTrees site children = .ok es) : OfFunction site item children (.call f es)

theorem ofPosition_literal {name : String} (made : ofPosition site name children = .ok e) : ∃ v, e = .literal v := by
  rcases children with _ | ⟨reference,_ | ⟨second,rest⟩⟩
  · cases made
    exact ⟨_,rfl⟩
  · change (if reference.item.kind ≠ .range then _ else _) = Except.ok e at made
    split at made
    · cases made
    · obtain ⟨r,-,last⟩ := bind_ok.mp made
      cases last
      exact ⟨_,rfl⟩
  · cases made

theorem ofTree_form (kind : item.kind = .function) : ofTree site (.node item children) =
    (Form.choose (functionName item.token) children.length).run id (ofTrees site children)
      (do return List.zipWith rowOf children (← ofTrees site children)) (ofPosition site (functionName item.token) children)
      site.linestShape := by
  change byKind _ _ _ _ _ item.kind = _
  rw [kind,byKind]
  generalize functionName item.token = name
  have empty : children.length = 0 ↔ children = [] := List.length_eq_zero_iff
  unfold Form.choose
  simp only [empty]
  split
  · split
    · refine congrArg (ofTrees site children >>= ·) (funext fun es => ?_)
      rcases es with _ | ⟨c,_ | ⟨t,_ | ⟨e,_ | ⟨_,_⟩⟩⟩⟩ <;> rfl
    · rfl
  split
  · split <;> rfl
  split
  · refine congrArg (ofTrees site children >>= ·) (funext fun es => ?_)
    rcases es with _ | ⟨e,_ | ⟨_,_⟩⟩ <;> rfl
  split
  · simp only [Form.run,bind_assoc,pure_bind]
  split
  · rfl
  split
  · rfl
  split
  · split <;> rfl
  cases Function.ofName name with
  | none => rfl
  | some f =>
    dsimp only
    split <;> rfl

theorem Form.Over.function {es : List Expr} (chosen : Over (functionName item.token) es e) (args : ofTrees site children = .ok es) :
    OfFunction site item children e := by
  generalize named : functionName item.token = name at chosen
  have plain (vertical : name ≠ "VLOOKUP") (horizontal : name ≠ "HLOOKUP") : Tree.tableUse item children = none :=
    tableUse_none (named ▸ vertical) (named ▸ horizontal)
  cases chosen with
  | ifThen c t =>
    exact .form _ _ args (plain (by decide) (by decide)) (by simp) (by simp [summed,summedEach])
      fun g wired => ⟨wired c (by simp),wired t (by simp)⟩
  | ifElse c t e =>
    exact .form _ _ args (plain (by decide) (by decide)) (by simp) (by simp [summed,summedEach])
      fun g wired => ⟨wired c (by simp),wired t (by simp),wired e (by simp)⟩
  | all es => exact .form _ _ args (plain (by decide) (by decide)) (by simp) (by simp [summed]) fun g wired => wiredArgs_of_each wired
  | any es => exact .form _ _ args (plain (by decide) (by decide)) (by simp) (by simp [summed]) fun g wired => wiredArgs_of_each wired
  | not x =>
    exact .form _ _ args (plain (by decide) (by decide)) (by simp) (by simp [summed,summedEach]) fun g wired => wired x (by simp)
  | row es =>
    exact .form _ _ args (plain (by decide) (by decide)) (by simp) (by simp [summed,summedRows]) fun g wired => ⟨wiredEach wired,trivial⟩
  | call found es => exact .call _ es (named ▸ found) args

theorem ofTree_function (kind : item.kind = .function) (made : ofTree site (.node item children) = .ok e) :
    OfFunction site item children e := by
  rw [ofTree_form kind] at made
  cases chosen : Form.choose (functionName item.token) children.length with
  | refused error =>
    rw [chosen] at made
    cases made
  | made make =>
    rw [chosen] at made
    obtain ⟨es,args,last⟩ := bind_ok.mp made
    exact (Form.choose_made chosen last).function args
  | array =>
    obtain ⟨vertical,horizontal⟩ := Form.choose_tableless (.inl chosen)
    rw [chosen] at made
    obtain ⟨rows,listed,last⟩ := bind_ok.mp made
    obtain ⟨es,args,same⟩ := bind_ok.mp listed
    cases last
    cases same
    have long := ofTrees_length args
    exact .form _ _ args (tableUse_none vertical horizontal) (by simp) (by rw [summed,rows_summed long])
      fun g wired => rows_wired long wired
  | position =>
    rw [chosen] at made
    obtain ⟨v,rfl⟩ := ofPosition_literal made
    exact .known v
  | fit =>
    obtain ⟨vertical,horizontal⟩ := Form.choose_tableless (.inr chosen)
    rw [chosen] at made
    obtain ⟨es,args,rest⟩ := bind_ok.mp made
    obtain ⟨shape,-,last⟩ := bind_ok.mp rest
    cases last
    exact .form _ _ args (tableUse_none vertical horizontal) (by simp) (by simp [summed]) fun g wired => wiredArgs_of_each wired

end

theorem literalIndex_some {t : Tree} (literal : Tree.literalIndex t = some index) (made : ofTree site t = .ok e) :
    ∃ n, e = .literal (.number n) ∧ Decimal.toCount n = index := by
  obtain ⟨item,children⟩ := t
  unfold Tree.literalIndex at literal
  by_cases known : item.kind = .operand ∧ item.token.subkind = .number
  · rw [Tree.item,if_pos known] at literal
    obtain ⟨n,read,whole⟩ := Option.bind_eq_some_iff.mp literal
    rw [ofTree_operand known.1] at made
    simp only [ofOperand,known.2,read] at made
    refine ⟨n,(Except.ok.inj made).symm,?_⟩
    by_cases counted : Decimal.isWhole n ∧ 1.0 ≤ n
    · rw [if_pos counted] at whole
      exact Option.some.inj whole
    · rw [if_neg counted] at whole
      cases whole
  · rw [Tree.item,if_neg known] at literal
    cases literal

theorem whole_use {r : Rect} {f : Function} (whole : r.Granted g) (other : ¬ (f = .sumIf ∧ k = 2)) :
    (use f es k).Granted g r := by
  have table (vertical : Bool) (e : Option Expr) : (tableUse vertical e).Granted g r := by
    unfold tableUse
    split
    · exact fun row column inside within _ => whole row column inside within
    · exact whole
  unfold use
  split
  · exact absurd ⟨rfl,rfl⟩ other
  · exact table true _
  · exact table false _
  · exact whole

theorem call_wired {item : Item} {children : List Tree} {f : Function}
    (named : Function.ofName (functionName item.token) = some f) (made : ofTrees site children = .ok es)
    (sums : ∀ a ∈ summedBy f es, Overreach g a)
    (wired : WiredArgs g (fun k => if k = 1 then Tree.TableUse.use (Tree.tableUse item children) else .whole) 0 es) :
    WiredArgs g (use f es) 0 es := by
  refine wired.weaken fun k address r found there granted => ?_
  rw [Nat.zero_add] at granted ⊢
  cases used : Tree.tableUse item children with
  | none =>
    have whole : r.Granted g := by
      rw [used] at granted
      split at granted <;> exact granted
    by_cases sum : f = .sumIf ∧ k = 2
    · obtain ⟨rfl,rfl⟩ := sum
      intro row column
      by_cases inside : row < r.rows ∧ column < r.columns
      · exact whole row column inside.1 inside.2
      · exact sums address (by simp [summedBy,found]) r row column there inside
    · exact whole_use whole sum
  | some table =>
    obtain ⟨which,t,child,literal⟩ := tableUse_some used
    obtain ⟨e,arg,compiled⟩ := ofTrees_at made child
    obtain ⟨n,rfl,counted⟩ := literalIndex_some literal compiled
    rw [used] at granted
    rcases which with ⟨name,vertical⟩ | ⟨name,horizontal⟩
    · rw [name] at named
      have here : f = .vlookup := Option.some.inj (named.symm.trans (by decide))
      subst here
      by_cases second : k = 1
      · subst second
        have known : use .vlookup es 1 = .table true (Decimal.toCount n) := by simp [use,arg,tableUse]
        rw [known,counted,← vertical]
        simpa [Tree.TableUse.use] using granted
      · rw [if_neg second] at granted
        exact whole_use granted (by simp)
    · rw [name] at named
      have here : f = .hlookup := Option.some.inj (named.symm.trans (by decide))
      subst here
      by_cases second : k = 1
      · subst second
        have known : use .hlookup es 1 = .table false (Decimal.toCount n) := by simp [use,arg,tableUse]
        rw [known,counted,← horizontal]
        simpa [Tree.TableUse.use] using granted
      · rw [if_neg second] at granted
        exact whole_use granted (by simp)

-- Induction on the tree and on the arguments of each of its nodes.
mutual
theorem ofTree_wired : (t : Tree) → {table : Option Tree.TableUse} → {e : Expr} → ofTree site t = .ok e →
    (∀ reference ∈ t.referencesAs table, ReferenceWired g site.cell.sheet reference) →
    (∀ a ∈ summed e, Overreach g a) → WiredAs g (Tree.TableUse.use table) e
  | .node item children, table, e, made, references, sums => by
    have args {es : List Expr} (arguments : ofTrees site children = .ok es) (sums : ∀ a ∈ summedEach es, Overreach g a) :
        WiredArgs g (fun k => if k = 1 then Tree.TableUse.use (Tree.tableUse item children) else .whole) 0 es :=
      ofTrees_wired children arguments
        (fun reference listed => references reference (by rw [Tree.referencesAs]; exact List.mem_append_left _ listed)) sums
    have each {es : List Expr} (arguments : ofTrees site children = .ok es) (none : Tree.tableUse item children = none)
        (sums : ∀ a ∈ summedEach es, Overreach g a) : ∀ x ∈ es, x.Wired g := by
      have wired := args arguments sums
      rw [none] at wired
      exact (wired.weaken fun k address r _ _ granted => by simpa [Tree.TableUse.use] using granted).each
    cases kind : item.kind with
    | operand =>
      rw [ofTree_operand kind] at made
      obtain ⟨v,rfl⟩ := ofOperand_literal made
      exact .of_wired trivial (by simp)
    | range =>
      rw [ofTree_range kind] at made
      exact ofReference_wired made table (references _ (by simp [Tree.referencesAs,kind]))
    | operator =>
      rw [ofTree_operator kind] at made
      obtain ⟨es,arguments,last⟩ := bind_ok.mp made
      have none : Tree.tableUse item children = none := by simp [Tree.tableUse,kind]
      obtain ⟨other,same,wired⟩ := ofOperator_form last
      exact .of_wired (wired g (each arguments none (same ▸ sums))) other
    | generic =>
      rw [ofTree_generic kind] at made
      cases made
    | function =>
      cases ofTree_function kind made with
      | known v => exact .of_wired trivial (by simp)
      | form e es arguments none other same wired =>
        exact .of_wired (wired g (each arguments none (same ▸ sums))) other
      | call f es named arguments =>
        simp only [summed,List.mem_append] at sums
        refine .of_wired ?_ (by simp)
        exact call_wired named arguments (fun a listed => sums a (.inl listed)) (args arguments fun a listed => sums a (.inr listed))
theorem ofTrees_wired : (ts : List Tree) → {table : Option Tree.TableUse} → {i : Nat} → {es : List Expr} →
    ofTrees site ts = .ok es → (∀ reference ∈ Tree.referencesAll table i ts, ReferenceWired g site.cell.sheet reference) →
    (∀ a ∈ summedEach es, Overreach g a) →
    WiredArgs g (fun k => if k = 1 then Tree.TableUse.use table else .whole) i es
  | [], _, _, _, made, _, _ => by
    cases made
    trivial
  | t :: ts, table, i, es, made, references, sums => by
    rw [ofTrees] at made
    obtain ⟨e,first,rest⟩ := bind_ok.mp made
    obtain ⟨others,further,last⟩ := bind_ok.mp rest
    cases last
    simp only [Tree.referencesAll,List.mem_append] at references
    simp only [summedEach,List.mem_append] at sums
    have here := ofTree_wired t first (fun reference listed => references reference (.inl listed)) fun a listed => sums a (.inl listed)
    have there := ofTrees_wired ts further (fun reference listed => references reference (.inr listed))
      fun a listed => sums a (.inr listed)
    refine ⟨?_,here.2,there⟩
    intro address same
    obtain ⟨r,found,granted⟩ := here.1 address same
    refine ⟨r,found,?_⟩
    by_cases second : i = 1
    · simpa [second] using granted
    · simpa [second,Tree.TableUse.use] using granted
end

end Expr
end Recalc
