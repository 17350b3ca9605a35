import Recalc.Proofs.Model.Evaluate.Calls

namespace Recalc

def Plan.calls {α : Type} (cell : NodeId → Run Value) : Plan α → Model → List (NodeId × Model)
  | .done _, _ => []
  | .ask id next, m => (id,m) :: match cell id m with
    | (.ok v,m') => (next v).calls cell m'
    | (.error _,_) => []

namespace Model

def moments : Nat → NodeId → Model → List Model
  | 0, _, m => [m]
  | room + 1, id, m => m :: (Run.cell (room + 1) id m).2 :: match (m.cell? id).map m.standing with
    | some none => m.begin id ::
        ((m.formulaPlan id).calls (Run.cell room) (m.begin id)).flatMap fun (y,m') => moments room y m'
    | _ => []

def resumeMoments : Nat → NodeId → Nat → List (NodeId × Nat) → Model → List Model
  | 0, _, _, waiting, m => [m.abandon waiting]
  | steps + 1, next, depth, waiting, m =>
    let m := {m with depthOffset := depth}
    m :: ((m.nodePlan next).calls (Run.cell m.room) m).flatMap (fun (y,m') => moments m.room y m') ++
      match Run.node (Run.cell m.room) next m with
      | (.error (.suspended address deeperDepth),m) => m :: match m.resolve address with
        | .ok deeper => resumeMoments steps deeper deeperDepth ((next,depth) :: waiting) (m.setEvaluating next true)
        | .error _ => [m.abandon waiting]
      | (.ok _,m) => m :: match waiting with
        | (parent,parentDepth) :: waiting => resumeMoments steps parent parentDepth waiting (m.setEvaluating parent false)
        | [] => [m.abandon []]
      | (.error _,m) => [m,m.abandon waiting]

def evaluateMoments (m : Model) (address : String) : List Model :=
  match m.resolve address with
  | .ok id => resumeMoments m.resumeSteps id 0 [] m
  | .error _ => [m]

theorem mem_resumeMoments (steps : Nat) (next : NodeId) (depth : Nat) (waiting : List (NodeId × Nat)) (m : Model) :
    (m.resume steps next depth waiting).2 ∈ m.resumeMoments steps next depth waiting := by
  induction steps generalizing next depth waiting m with
  | zero => exact List.mem_singleton_self _
  | succ steps ih =>
    unfold resume resumeMoments
    dsimp only
    refine List.mem_cons_of_mem _ (List.mem_append_right _ ?_)
    generalize Run.node (Run.cell ({m with depthOffset := depth} : Model).room) next {m with depthOffset := depth} = ran
    obtain ⟨e | v,m'⟩ := ran
    · cases e with
      | suspended address deeper =>
        refine List.mem_cons_of_mem _ ?_
        dsimp only
        cases m'.resolve address with
        | ok deeper => exact ih _ _ _ _
        | error e => exact List.mem_singleton_self _
      | _ => exact List.mem_cons_of_mem _ (List.mem_singleton_self _)
    · refine List.mem_cons_of_mem _ ?_
      cases waiting with
      | nil => exact List.mem_singleton_self _
      | cons entry rest => exact ih _ _ _ _

theorem mem_evaluateMoments (m : Model) (address : String) : (m.evaluate address).2 ∈ m.evaluateMoments address := by
  unfold evaluate evaluateMoments
  cases m.resolve address with
  | ok id => exact mem_resumeMoments _ _ _ _ m
  | error e => exact List.mem_singleton_self _

section
variable {m s : Model} {depth : Nat}

theorem steady_node (room : Nat) (id : NodeId) (m : Model) : m.Steady (Run.node (Run.cell room) id m).2 := by
  rw [performs_node (keeps_cell m room) id m rfl]
  exact perform_steady room _ m

theorem calls_current {room : Nat} (p : Plan α) (listed : (y,s) ∈ p.calls (Run.cell room) m) : s.current = m.current := by
  induction p generalizing m with
  | done r => cases listed
  | ask id next ih =>
    rw [Plan.calls,List.mem_cons] at listed
    rcases listed with here | listed
    · cases here
      rfl
    · have steady := steady_cell room id m
      generalize Run.cell room id m = ran at listed steady
      obtain ⟨r,m'⟩ := ran
      cases r with
      | error e => cases listed
      | ok v => exact (ih v listed).trans steady.current

-- One cell more is nested where a formula runs, and there is room for one less.
theorem moments_bounded (room : Nat) (id : NodeId) (m : Model) (fits : room + m.current.length ≤ depth)
    (listed : s ∈ m.moments room id) : s.current.length ≤ depth := by
  induction room generalizing id m with
  | zero =>
    rw [List.mem_singleton.mp listed]
    omega
  | succ room ih =>
    have here : m.current.length ≤ depth := by omega
    have after : (Run.cell (room + 1) id m).2.current = m.current := (steady_cell (room + 1) id m).current
    rw [moments,List.mem_cons,List.mem_cons] at listed
    rcases listed with rfl | rfl | listed
    · exact here
    · rwa [after]
    · split at listed
      · have nested : (m.begin id).current.length = m.current.length + 1 := by rw [begin_current]; rfl
        rcases List.mem_cons.mp listed with rfl | listed
        · omega
        · obtain ⟨⟨y,m'⟩,called,listed⟩ := List.mem_flatMap.mp listed
          have level := calls_current _ called
          refine ih y m' ?_ listed
          rw [level]
          omega
      · cases listed

@[simp] theorem current_abandon (waiting : List (NodeId × Nat)) (m : Model) : (m.abandon waiting).current = m.current := by
  induction waiting generalizing m with
  | nil => rfl
  | cons entry rest ih => exact ih (m.setEvaluating entry.1 false)

section
variable {P Q : Model → Prop} (begins : ∀ m depth, P m → P {m with depthOffset := depth})
  (passes : ∀ m next, P m → P (Run.node (Run.cell m.room) next m).2) (marks : ∀ m p b, P m → P (m.setEvaluating p b))
  (between : ∀ m, P m → Q m) (ends : ∀ m waiting, P m → Q (m.abandon waiting))
  (during : ∀ m next y m' s, P m → (y,m') ∈ (m.nodePlan next).calls (Run.cell m.room) m → s ∈ moments m.room y m' → Q s)
include begins passes marks between ends during

-- What holds between any two passes tells of every moment. Induction on the steps.
theorem resumeMoments_all (steps : Nat) (next : NodeId) (depth : Nat) (waiting : List (NodeId × Nat)) (m : Model)
    (holds : P m) (listed : s ∈ m.resumeMoments steps next depth waiting) : Q s := by
  induction steps generalizing next depth waiting m with
  | zero => exact List.mem_singleton.mp listed ▸ ends m waiting holds
  | succ steps ih =>
    unfold resumeMoments at listed
    have begun := begins m depth holds
    have passed := passes {m with depthOffset := depth} next begun
    rw [List.cons_append,List.mem_cons,List.mem_append] at listed
    rcases listed with rfl | listed | listed
    · exact between _ begun
    · obtain ⟨⟨y,m'⟩,called,listed⟩ := List.mem_flatMap.mp listed
      exact during _ next y m' s begun called listed
    · generalize Run.node (Run.cell ({m with depthOffset := depth} : Model).room) next {m with depthOffset := depth} = ran
        at listed passed
      obtain ⟨r,m'⟩ := ran
      split at listed
      · rename_i address deeper _ same
        cases same
        rcases List.mem_cons.mp listed with rfl | listed
        · exact between _ passed
        · split at listed
          · exact ih _ _ _ (m'.setEvaluating next true) (marks m' next true passed) listed
          · exact List.mem_singleton.mp listed ▸ ends m' waiting passed
      · rename_i same
        cases same
        rcases List.mem_cons.mp listed with rfl | listed
        · exact between _ passed
        · split at listed
          · exact ih _ _ _ (m'.setEvaluating _ false) (marks m' _ false passed) listed
          · exact List.mem_singleton.mp listed ▸ ends m' [] passed
      · rename_i same
        cases same
        rcases List.mem_pair.mp listed with rfl | rfl
        · exact between _ passed
        · exact ends m' waiting passed

end

theorem resumeMoments_bounded (steps : Nat) (next : NodeId) (below : Nat) (waiting : List (NodeId × Nat)) (m : Model)
    (empty : m.current = []) (fits : m.limits.depth ≤ depth) (listed : s ∈ m.resumeMoments steps next below waiting) :
    s.current.length ≤ depth := by
  refine resumeMoments_all (P := fun m => m.current = [] ∧ m.limits.depth ≤ depth) (Q := fun s => s.current.length ≤ depth)
    (fun _ _ holds => holds) ?_ (fun _ _ _ holds => holds) ?_ ?_ ?_ steps next below waiting m ⟨empty,fits⟩ listed
  · rintro m next ⟨empty,fits⟩
    have steady := steady_node m.room next m
    exact ⟨steady.current.trans empty,(limits_same steady.outline) ▸ fits⟩
  · rintro m ⟨empty,-⟩
    simp [empty]
  · rintro m waiting ⟨empty,-⟩
    simp [empty]
  · rintro m next y m' s ⟨empty,fits⟩ called listed
    have level := calls_current _ called
    refine moments_bounded _ y m' ?_ listed
    rw [level]
    simp only [room,empty,List.length_nil]
    omega

theorem evaluateMoments_bounded (empty : m.current = []) (fits : m.limits.depth ≤ depth)
    (listed : s ∈ m.evaluateMoments address) : s.current.length ≤ depth := by
  unfold evaluateMoments at listed
  split at listed
  · exact resumeMoments_bounded _ _ _ _ m empty fits listed
  · simp [List.mem_singleton.mp listed,empty]

end
end Model
end Recalc
