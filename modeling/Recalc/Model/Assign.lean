import Recalc.Model.Evaluate

namespace Recalc.Model

-- Beyond a dirty cell everything is dirty already; a range hands on whatever reaches it.
def spreads (m : Model) (id : NodeId) : Bool := !m.isDirty id

def reached (m : Model) (start : NodeId) (propagate : Bool) : List NodeId :=
  let next (id : NodeId) : List NodeId :=
    if if id = start then propagate else m.spreads id then m.graph.dependents id else []
  m.graph.closure next [start]

def clear (c : Cell) : Cell := {c with value := .empty,dirty := true}

def invalidate (m : Model) (start : NodeId) (propagate : Bool) : Model :=
  (m.reached start propagate).foldl (fun m id => m.changeCell id clear) m

-- A formula that is assigned to is not run. A later change of what it reads clears the value.
def assign (m : Model) (address : String) (value : Value) : Except FormulaError Unit × Model :=
  match m.resolve address with
  | .error e => (.error e,m)
  | .ok id => match m.nodes[id]? with
    | some (.cell c) =>
      if !c.dirty ∧ c.value.same value then (.ok (),m)
      else (.ok (),(m.invalidate id true).changeCell id fun c => {c with value := value,dirty := false})
    | _ => (.error (.assignmentToRange (m.addressOf id)),m)

def reset (m : Model) (address : String) : Except FormulaError Unit × Model :=
  match m.resolve address with
  | .error e => (.error e,m)
  | .ok id => (.ok (),m.invalidate id (m.spreads id))

def settle (m : Model) : Model :=
  let dirty := (List.range m.nodes.length).filter m.isDirty
  (m.graph.downstream dirty).foldl (fun m id => m.changeCell id fun c => {c with dirty := true}) m

end Recalc.Model
