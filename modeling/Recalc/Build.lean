import Recalc.Formula.Compile
import Recalc.Model.Assign

namespace Recalc

structure BuildOptions where
  limits : Limits
  trustCached : Bool
  narrowLookups : Bool
  deriving DecidableEq, Repr

def BuildOptions.standard : BuildOptions := ⟨⟨10000,64⟩,false,true⟩

structure BuildError where
  address : String
  pending : Nat
  cause : FormulaError
  deriving DecidableEq, Repr

def BuildError.message (e : BuildError) : String :=
  "Failed to build graph at " ++ e.address ++ " (" ++ toString e.pending ++ " cells pending): " ++
    e.cause.message

-- The model so far and the formulas left to compile, latest first. The active sheet of the
-- workbook moves with the reference at hand.
structure Builder where
  book : Workbook
  model : Model
  todo : List NodeId

abbrev Build := ExceptT FormulaError (StateM Builder)

namespace Build

def ofReference {α : Type} (result : Except ReferenceError α) : Build α :=
  ExceptT.mk (pure (liftReference result))

def ofFormula {α : Type} (result : Except FormulaError α) : Build α := ExceptT.mk (pure result)

def select (name : String) : Build Unit := do
  let book ← ofReference ((← get).book.select name)
  modify fun b => {b with book := book}

def readRect (r : Rect) : Build Block := do
  let block ← ofReference ((← get).book.read r.text)
  ofReference (block.checkShape r.text r.rows r.columns)
  return block

def addCell (options : BuildOptions) (cell : CellRef) (formula : Option String) (content : Content)
    (format : Option NumberFormat) : Build NodeId := do
  let value := Value.ofContent content
  let format := format.getD .general
  let id := (← get).model.nodes.length
  match formula with
  | none =>
    modify fun b => {b with model := b.model.insert (.cell (.constant cell.text cell.sheet value format))}
  | some formula =>
    let dirty := !options.trustCached || value.isEmpty
    modify fun b => {b with
      model := b.model.insert (.cell (.ofFormula cell.text cell.sheet formula value format dirty))
      todo := id :: b.todo}
  return id

def offsets (r : Rect) : List (Nat × Nat) :=
  (List.range r.rows).flatMap fun row => (List.range r.columns).map fun column => (row,column)

def seed (options : BuildOptions) (sheet range : String) : Build Unit := do
  select sheet
  let clamped ← ofReference (clampRange range (← get).book.extents)
  let rect ← ofReference (Rect.parse clamped sheet)
  let block ← readRect rect
  (offsets rect).forM fun (row,column) => do
    let cell := rect.cellAt row column
    let formula := block.formula? row column
    let content := (block.value? row column).getD .empty
    if (formula.isNone ∧ content.isEmpty) ∨ ((← get).model.find? cell.text).isSome then pure ()
    else discard (addCell options cell formula content (block.format? row column))

-- The workbook is read only when a cell is missing.
def addConstituents (options : BuildOptions) (r : Rect) (target : NodeId) : Build Unit := do
  let model := (← get).model
  let block ← if r.cells.all fun cell => (model.find? cell.text).isSome then pure (Block.ofEntries [])
    else readRect r
  (offsets r).forM fun (row,column) => do
    let cell := r.cellAt row column
    let id ← match (← get).model.find? cell.text with
      | some id => pure id
      | none =>
        addCell options cell (block.formula? row column) ((block.value? row column).getD .empty)
          (block.format? row column)
    modify fun b => {b with model := b.model.link id target}

def slices (use : Tree.TableUse) (r : Rect) : Option Region :=
  if use.vertical then do
    let key ← r.columnSlice 1
    let result ← r.columnSlice use.index
    return if use.index = 1 then .ofRect key else .besides key result
  else do
    let key ← r.rowSlice 1
    let result ← r.rowSlice use.index
    return if use.index = 1 then .ofRect key else .stacked key result

def regionOf (options : BuildOptions) (use : Option Tree.TableUse) (r : Rect) : Region :=
  if options.narrowLookups then (use.bind fun use => slices use r).getD (.ofRect r) else .ofRect r

-- `seen` holds the references of the formula before this one.
def addReference (options : BuildOptions) (id : NodeId) (sheet : String) (seen : List String)
    (reference : Tree.Reference) : Build (List String) := do
  let target := (splitSheet reference.text).1.getD sheet
  select target
  let canonical ← ofReference (canonicalize reference.text target)
  if isRange canonical then
    let rect ← ofReference (Rect.parse canonical target)
    let region := regionOf options reference.table rect
    let address := region.address
    if address ≠ rect.text then modify fun b => {b with model := b.model.narrow rect.text}
    if address ∈ seen then return seen
    match (← get).model.find? address with
    | some existing => modify fun b => {b with model := b.model.link existing id}
    | none =>
      let range := (← get).model.nodes.length
      modify fun b => {b with model := (b.model.insert (.range ⟨address,region.rows⟩)).link range id}
      region.rects.forM fun r => addConstituents options r range
    return address :: seen
  else
    if canonical ∈ seen then return seen
    let rect ← ofReference (Rect.parse canonical target)
    addConstituents options rect id
    return canonical :: seen

def clampReferences (sheet : String) (items : List Item) : Build (List Item) :=
  items.mapM fun item => do
    if item.kind = .range then
      select ((splitSheet item.token.text).1.getD sheet)
      let text ← ofReference (clampRange item.token.text (← get).book.extents)
      return {item with token := {item.token with text := text}}
    else return item

def compileCell (options : BuildOptions) (id : NodeId) (address sheet formula : String) : Build Unit := do
  let items ← ofFormula do ReversePolish.ofTokens (← liftParse (tokenize (stripEquals formula)))
  let items ← clampReferences sheet items
  select sheet
  let tree ← ofFormula (liftParse (Tree.ofItems items))
  let cell ← ofReference (CellRef.parse address sheet)
  let expr ← ofFormula (Expr.ofTree ⟨cell,some (← get).book⟩ tree)
  modify fun b => {b with model := b.model.changeCell id fun c => {c with expr := expr}}
  discard (tree.references.foldlM (addReference options id sheet) [])
  select sheet

def locate (address : String) (step : Build Unit) (b : Builder) : Except BuildError Unit × Builder :=
  match step b with
  | (.ok (),b) => (.ok (),b)
  | (.error e,b) => (.error ⟨address,b.todo.length,e⟩,b)

def seedAll (options : BuildOptions) : List (String × String) → Builder → Except BuildError Unit × Builder
  | [], b => (.ok (),b)
  | (sheet,range) :: seeds, b =>
    match locate (sheet ++ "!" ++ range) (seed options sheet range) b with
    | (.ok (),b) => seedAll options seeds b
    | failed => failed

-- Every formula of the workbook is put on the list at most once under each sheet name.
def compileAll (options : BuildOptions) : Nat → Builder → Except BuildError Unit × Builder
  | 0, b => (.ok (),b)
  | steps + 1, b =>
    match b.todo with
    | [] => (.ok (),b)
    | id :: todo =>
      let b := {b with todo := todo}
      match (b.model.nodes[id]?).bind Node.cell? with
      | some ⟨address,sheet,some formula,_,_,_,_,_⟩ =>
        match locate address (compileCell options id address sheet formula) b with
        | (.ok (),b) => compileAll options steps b
        | failed => failed
      | _ => compileAll options steps b

def compileSteps (book : Workbook) : Nat :=
  book.sheets.length * (book.sheets.foldl (fun entries s => entries + s.entries.length) 0) + 1

def construct (options : BuildOptions) (seeds : List (String × String)) (b : Builder) :
    Except BuildError Unit × Builder :=
  match seedAll options seeds b with
  | (.ok (),b) => compileAll options (compileSteps b.book) b
  | failed => failed

end Build

-- Addresses without a sheet are later taken on the sheet of the first seed. The workbook comes
-- back with the sheet active that was active before, if it has a name.
def build (options : BuildOptions) (seeds : List (String × String)) (book : Workbook) :
    Except BuildError Model × Workbook :=
  let before := book.activeName
  let defaultSheet := (seeds.head?.map Prod.fst).getD before
  let (result,b) := Build.construct options seeds ⟨book,.empty options.limits defaultSheet,[]⟩
  let restored := if before = "" then b.book else ((b.book.select before).toOption).getD b.book
  (result.map fun _ => if options.trustCached then b.model.settle else b.model,restored)

end Recalc
