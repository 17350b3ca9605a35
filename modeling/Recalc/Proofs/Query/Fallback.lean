import Recalc.Proofs.Model.Evaluate.RunResults
import Recalc.Proofs.Query.ExprReads

namespace Recalc

abbrev Runtime (σ : Type) := Query.Source (ExceptT FormulaError (StateM σ))

namespace Query

structure Observed (σ α : Type) where
  result : Except FormulaError α
  state : σ
  reads : List String

def Observed.bind {σ α β : Type} (first : Observed σ α) (f : α → σ → Observed σ β) : Observed σ β :=
  match first.result with
  | .ok a => {f a first.state with reads := first.reads ++ (f a first.state).reads}
  | .error e => ⟨.error e,first.state,first.reads⟩

def observe {σ α : Type} (source : Runtime σ) : Query α → σ → Observed σ α
  | done a, s => ⟨.ok a,s,[]⟩
  | cell bare address next, s =>
    match source.cell bare address s with
    | (.ok v,s) => {(next v).observe source s with reads := address :: ((next v).observe source s).reads}
    | (.error e,s) => ⟨.error e,s,[address]⟩
  | range address next, s =>
    match source.range address s with
    | (.ok r,s) => (next r).observe source s
    | (.error e,s) => ⟨.error e,s,[]⟩

variable {σ α β : Type} {source : Runtime σ}

theorem observe_answer (q : Query α) (s : σ) : q.answer source s = ((q.observe source s).result,(q.observe source s).state) := by
  induction q generalizing s with
  | done a => rfl
  | cell bare address next ih =>
    rw [answer,Run.bind_at,observe]
    split
    · rename_i v s' read
      rw [read,ih]
    · rename_i e s' read
      rw [read]
  | range address next ih =>
    rw [answer,Run.bind_at,observe]
    split
    · rename_i v s' read
      rw [read,ih]
    · rename_i e s' read
      rw [read]

theorem observe_bind (q : Query α) (f : α → Query β) (s : σ) :
    (q.bind f).observe source s = (q.observe source s).bind fun a s => (f a).observe source s := by
  induction q generalizing s with
  | done a => rfl
  | cell bare address next ih =>
    simp only [Query.bind,observe]
    split
    · rw [ih]
      unfold Observed.bind
      dsimp only
      split <;> rfl
    · rfl
  | range address next ih =>
    simp only [Query.bind,observe]
    split
    · exact ih _ _
    · rfl

theorem Observed.bind_result {first : Observed σ α} {f : α → σ → Observed σ β} {b : β} (found : (first.bind f).result = .ok b) :
    ∃ a, first.result = .ok a ∧ (f a first.state).result = .ok b := by
  unfold bind at found
  cases result : first.result with
  | error e =>
    rw [result] at found
    cases found
  | ok a =>
    rw [result] at found
    exact ⟨a,rfl,found⟩

end Query

namespace Expr
open Query
variable {σ : Type} {source : Runtime σ} {s s' : σ} {v f : Expr} {x : Value} {reads : List String}

theorem range_array {address : String} (read : ((range address).query.observe source s).result = .ok x) : x.isArray = true := by
  rw [query,observe] at read
  split at read
  · rename_i r s found
    change ((r.valueGrid.bind fun rows => .done (Value.array rows)).observe source s).result = .ok x at read
    rw [observe_bind] at read
    obtain ⟨rows,-,made⟩ := Observed.bind_result read
    cases made
    rfl
  · cases read

theorem ifError_plain (scalar : x.isArray = false) (sound : x.isError = false) (os : List Operand) :
    Library.ifError (.value x :: os) = .done x := by
  have read : (Library.arg (.value x :: os) 0).scalar = .done x := by
    cases x with
    | array rows => cases scalar
    | _ => rfl
  unfold Library.ifError
  rw [read]
  change (if x.isError = true then _ else Query.done x) = _
  rw [sound]
  rfl

theorem ifError_query (plain : ∀ address, v ≠ range address) (f : Expr) : (call .ifError [v,f]).query =
    v.query.bind fun x => (operands [f]).bind fun os => Library.ifError (.value x :: os) := by
  rw [query,operands_other plain]
  change ((v.query.bind fun x => (operands [f]).bind fun os => .done (.value x :: os)).bind fun os => Library.ifError os) = _
  simp only [bind_assoc]
  rfl

end Expr

-- The fallback is evaluated before the value is looked at: its reads follow those of the value, and where it
-- fails all fails. So nothing of it shows just if it has a result, reads no cell and leaves the state alone.
theorem fallback_evaluated {σ : Type} {source : Runtime σ} {s s' : σ} {v f : Expr} {x : Value} {reads : List String}
    (read : v.query.observe source s = ⟨.ok x,s',reads⟩) (scalar : x.isArray = false) (sound : x.isError = false) :
    let fallback := (Expr.operands [f]).observe source s'
    (Expr.call .ifError [v,f]).query.answer source s = (fallback.result.map fun _ => x,fallback.state) ∧
      (Expr.call .ifError [v,f]).query.observe source s = ⟨fallback.result.map fun _ => x,fallback.state,reads ++ fallback.reads⟩ ∧
      ((Expr.call .ifError [v,f]).query.observe source s = ⟨.ok x,s',reads⟩ ↔ ∃ os, fallback = ⟨.ok os,s',[]⟩) := by
  intro fallback
  have plain : ∀ address, v ≠ .range address := by
    rintro address rfl
    have array := Expr.range_array (congrArg Query.Observed.result read)
    rw [scalar] at array
    cases array
  have after : ((Expr.operands [f]).bind fun os => Library.ifError (.value x :: os)).observe source s' =
      ⟨fallback.result.map fun _ => x,fallback.state,fallback.reads⟩ := by
    rw [Query.observe_bind]
    simp only [Expr.ifError_plain scalar sound]
    change fallback.bind (fun _ s => ⟨.ok x,s,[]⟩) = _
    unfold Query.Observed.bind
    cases fallback.result with
    | error e => rfl
    | ok os => simp [Except.map]
  have observed : (Expr.call .ifError [v,f]).query.observe source s =
      ⟨fallback.result.map fun _ => x,fallback.state,reads ++ fallback.reads⟩ := by
    rw [Expr.ifError_query plain,Query.observe_bind,read]
    unfold Query.Observed.bind
    dsimp only
    rw [after]
  refine ⟨?_,observed,?_⟩
  · rw [Query.observe_answer,observed]
  rw [observed]
  obtain ⟨result,state,more⟩ := fallback
  cases result <;> simp [Except.map]

def Query.Source.table (cells : List (String × Value)) : Runtime Unit where
  cell _ address := fun _ => (((cells.find? fun (known,_) => known == address).map Prod.snd).elim (.error (.unknownCell address)) .ok,())
  range address := fun _ => (Rect.ofAddress address,())

theorem fallback_evaluated_read : (Expr.call .ifError [.cell "S!A1",.cell "S!B1"]).query.observe
    (.table [("S!A1",.number 5.0),("S!B1",.error .na)]) () = ⟨.ok (.number 5.0),(),["S!A1","S!B1"]⟩ := by
  have read : (Expr.cell "S!A1").query.observe (.table [("S!A1",.number 5.0),("S!B1",.error .na)]) () =
      ⟨.ok (.number 5.0),(),["S!A1"]⟩ := rfl
  exact (fallback_evaluated read rfl rfl).2.1

theorem fallback_fails : (Expr.cell "S!A1").query.observe (.table [("S!A1",.number 5.0)]) () = ⟨.ok (.number 5.0),(),["S!A1"]⟩ ∧
    (Expr.call .ifError [.cell "S!A1",.cell "S!B1"]).query.observe (.table [("S!A1",.number 5.0)]) () =
      ⟨.error (.unknownCell "S!B1"),(),["S!A1","S!B1"]⟩ := ⟨rfl,rfl⟩

end Recalc
