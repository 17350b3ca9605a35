import Recalc.Model.State

namespace Recalc

-- A step of evaluation leaves its mark on the model whether it succeeds or not.
abbrev Run := ExceptT FormulaError (StateM Model)

namespace Model

def enter (m : Model) (id : NodeId) : Model :=
  let m := if m.limits.callStack ≤ m.depthOffset + m.callStack.length
    then {m with callStack := [],depthOffset := 0} else m
  {m with callStack := id :: m.callStack,current := id :: m.current}

def leave (m : Model) : Model := {m with callStack := m.callStack.drop 1,current := m.current.drop 1}

def standing (m : Model) (c : Cell) : Option (Except FormulaError Value) :=
  if c.evaluating then some (.error (.circularReference c.address m.callStackText))
  else if c.dirty then none
  else some (.ok c.value)

def tag (m : Model) (id : NodeId) (result : Except FormulaError Value) : Except FormulaError Value :=
  match result with
  | .error e => .error (if e.isTagged then e else .evaluation (m.addressOf id) m.callStackText e)
  | .ok v => .ok v

def store (m : Model) (id : NodeId) (format : NumberFormat) :
    Except FormulaError Value → Except FormulaError Value × Model
  | .ok v =>
    let v := format.apply v
    (.ok v,m.changeCell id fun c => {c with evaluating := false,value := v})
  | .error e => (.error e,m.changeCell id fun c => {c with evaluating := false,dirty := true})

def rectOf (m : Model) (address : String) : Except FormulaError Rect :=
  match (m.find? address).bind (m.nodes[·]?) with
  | some (.range r) => Rect.ofAddress r.address
  | _ => if address ∈ m.narrowed then Rect.ofAddress address else .error (.unknownCell address)

end Model

namespace Run

def ofExcept {α : Type} (f : Model → Except FormulaError α) : Run α := fun m => (f m,m)

def node (cell : NodeId → Run Value) (id : NodeId) : Run Value := do
  match (← get).nodes[id]? with
  | some (.range r) =>
    return .array (← r.cells.mapM fun row => row.mapM fun address => do
      cell (← ofExcept fun m => m.resolve address))
  | _ => cell id

def address (cell : NodeId → Run Value) (address : String) : Run Value := do
  node cell (← ofExcept fun m => m.resolve address)

def source (cell : NodeId → Run Value) (plain : Bool) : Query.Source Run where
  cell bare text := do
    let v ← address cell text
    return if bare ∧ plain ∧ v.isEmpty then .number 0.0 else v
  range text := ofExcept fun m => m.rectOf text

-- A cell that finds no room is left as it is, and named, so that it can be computed first.
def cell : Nat → NodeId → Run Value
  | room, id => fun m =>
    match (m.nodes[id]?).bind Node.cell? with
    | none => (.error (.unknownCell (m.addressOf id)),m)
    | some c => match m.standing c with
      | some result => (result,m)
      | none => match room with
        | 0 => (.error (.suspended c.address (m.depthOffset + m.callStack.length)),m)
        | room + 1 =>
          let begun := (m.changeCell id fun c => {c with evaluating := true,dirty := false}).enter id
          let (result,ran) := c.expr.query.answer (source (cell room) c.expr.isReference) begun
          (ran.leave).store id c.format (ran.tag id result)

end Run

namespace Model

def room (m : Model) : Nat := m.limits.depth - m.current.length

def setEvaluating (m : Model) (id : NodeId) (evaluating : Bool) : Model :=
  m.changeCell id fun c => {c with evaluating := evaluating}

def abandon (m : Model) (waiting : List (NodeId × Nat)) : Model :=
  {waiting.foldl (fun m (id,_) => m.setEvaluating id false) m with depthOffset := 0}

-- Evaluates `next`; where room runs out, the cell named goes first and `next` waits, still
-- marked as under evaluation so that circles through it are seen.
def resume : Nat → NodeId → Nat → List (NodeId × Nat) → Model → Except FormulaError Value × Model
  | 0, next, depth, waiting, m => (.error (.suspended (m.addressOf next) depth),m.abandon waiting)
  | steps + 1, next, depth, waiting, m =>
    let m := {m with depthOffset := depth}
    match Run.node (Run.cell m.room) next m with
    | (.error (.suspended address deeperDepth),m) =>
      match m.resolve address with
      | .ok deeper => resume steps deeper deeperDepth ((next,depth) :: waiting) (m.setEvaluating next true)
      | .error e => (.error e,m.abandon waiting)
    | (.ok v,m) =>
      match waiting with
      | (parent,parentDepth) :: waiting => resume steps parent parentDepth waiting (m.setEvaluating parent false)
      | [] => (.ok v,m.abandon [])
    | (.error e,m) => (.error e,m.abandon waiting)

def resumeSteps (m : Model) : Nat := (m.nodes.length + 2) * (m.nodes.length + 2)

def evaluate (m : Model) (address : String) : Except FormulaError Value × Model :=
  match m.resolve address with
  | .ok id => resume m.resumeSteps id 0 [] m
  | .error e => (.error e,m)

def read (m : Model) (address : String) : Except FormulaError Value × Model :=
  Run.address (Run.cell m.room) address m

end Model
end Recalc
