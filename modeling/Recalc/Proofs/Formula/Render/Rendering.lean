import Recalc.Proofs.Formula.Compile.Subexpressions
import Recalc.Proofs.Formula.Render.Delimiting

namespace Recalc

def isSpelling (c : Char) : Bool := isWordChar c || c ∈ ['#','/','!','?']

def isLeading (c : Char) : Bool := (isSpelling c && c != 'd') || c ∈ ['"','\x7b']

-- What may follow an expression: the end, or what comes after an item or closes it. An operand
-- may also be followed by its operator.
def stops (operator : Bool) : List Char := [',',')',';','\x7d'] ++ if operator then ['%',' '] else []

def Stops (operator : Bool) (r : List Char) : Prop := ∀ c ∈ r.head?, c ∈ stops operator

theorem Stops.operand {r : List Char} (stop : Stops operator r) : Stops true r := by
  have more : ∀ c ∈ stops operator, c ∈ stops true := Text.each_of_all (by cases operator <;> decide)
  exact fun c first => more c (stop c first)

theorem Stops.unspelled {r : List Char} (stop : Stops operator r) : ∀ c ∈ r.head?, isSpelling c = false := by
  have other : ∀ c ∈ stops true, isSpelling c = false := Text.each_of_all (by decide)
  exact fun c first => other c (stop.operand c first)

theorem Stops.other {r : List Char} (stop : Stops operator r) {c : Char} (other : c ∉ stops operator) (s : List Char) : r ≠ c :: s := by
  rintro rfl
  exact other (stop c rfl)

inductive Head where
  | cell
  | range
  | branch
  | all
  | any
  | not
  | fit
  | library (f : Function)
  deriving DecidableEq

namespace Head

def every : List Head := [.cell,.range,.branch,.all,.any,.not,.fit] ++ Function.all.map .library

def name : Head → String
  | .cell => "eval_cell"
  | .range => "eval_range"
  | .branch => "if"
  | .all => "all"
  | .any => "any"
  | .not => "not"
  | .fit => "linest"
  | .library f => libraryName f.name

theorem mem_every (h : Head) : h ∈ every := by
  cases h with
  | library f => exact List.mem_append_right _ (List.mem_map_of_mem (Function.mem_all f))
  | _ => decide

theorem name_inj {h h' : Head} (same : h.name = h'.name) : h = h' :=
  have distinct : (every.map name).Nodup := by decide +kernel
  List.inj_on_of_nodup_map distinct (mem_every h) (mem_every h') same

theorem name_spelled (h : Head) : (∃ c ∈ h.name.toList.head?, isLeading c = true) ∧ ∀ c ∈ h.name.toList, isSpelling c = true := by
  have each : every.all (fun h => h.name.toList.head?.any isLeading && h.name.toList.all isSpelling) = true := by decide +kernel
  obtain ⟨first,all⟩ := Bool.and_eq_true_iff.mp (List.all_eq_true.mp each h (mem_every h))
  obtain ⟨c,begins,leading⟩ := (Option.any_eq_true _ _).mp first
  exact ⟨⟨c,begins,leading⟩,List.all_eq_true.mp all⟩

end Head

structure Application where
  head : Head
  args : List Expr
  fit : Option (Nat × Option Nat)

namespace Application

def expr : Application → Option Expr
  | ⟨.cell,[.literal (.text address)],_⟩ => some (.cell address)
  | ⟨.range,[.literal (.text address)],_⟩ => some (.range address)
  | ⟨.branch,[c,t],_⟩ => some (.ifThen c t)
  | ⟨.branch,[c,t,e],_⟩ => some (.ifElse c t e)
  | ⟨.all,args,_⟩ => some (.all args)
  | ⟨.any,args,_⟩ => some (.any args)
  | ⟨.not,[e],_⟩ => some (.not e)
  | ⟨.fit,args,some (degree,coefficient)⟩ => some (.linest args degree coefficient)
  | ⟨.library f,args,_⟩ => some (.call f args)
  | _ => none

end Application

namespace Expr

def asApplication : Expr → Option Application
  | .cell address => some ⟨.cell,[.literal (.text address)],none⟩
  | .range address => some ⟨.range,[.literal (.text address)],none⟩
  | .ifThen c t => some ⟨.branch,[c,t],none⟩
  | .ifElse c t e => some ⟨.branch,[c,t,e],none⟩
  | .all args => some ⟨.all,args,none⟩
  | .any args => some ⟨.any,args,none⟩
  | .not e => some ⟨.not,[e],none⟩
  | .call f args => some ⟨.library f,args,none⟩
  | .linest args degree coefficient => some ⟨.fit,args,some (degree,coefficient)⟩
  | _ => none

theorem asCall_expr {e : Expr} {c : Application} (called : e.asApplication = some c) : c.expr = some e := by
  cases e <;> cases called <;> rfl

def chars (operator : Bool) (e : Expr) : List Char := (e.renderUnder operator).toList

def listed (es : List Expr) : List Char := List.intercalate [',',' '] (es.map (chars false))

end Expr

namespace Application

def entry : Option Nat → List Char
  | none => []
  | some index => '[' :: (Nat.toDigits 10 index ++ [']'])

def closing (c : Application) : List Char :=
  match c.fit with
  | none => [')']
  | some (degree,coefficient) => ", degree=".toList ++ (Nat.toDigits 10 degree ++ ')' :: entry coefficient)

def chars (c : Application) : List Char := c.head.name.toList ++ '(' :: (Expr.listed c.args ++ c.closing)

end Application

namespace Expr
variable {operator : Bool} {e : Expr} {r r' : List Char}

@[simp] theorem commas_listed (es : List Expr) : (commas (renderEach es)).toList = listed es := by
  rw [commas,String.toList_intercalate,renderEach_map,List.map_map]
  rfl

@[simp] theorem renderRows_listed (rows : List (List Expr)) : (renderRows rows).map String.toList = rows.map listed := by
  induction rows with
  | nil => rfl
  | cons r rs ih => rw [renderRows,List.map_cons,ih,commas_listed,List.map_cons]

theorem renderUnder_call {c : Application} (called : e.asApplication = some c) (plain : c.fit = none) :
    e.renderUnder operator = Expr.called c.head.name (renderEach c.args) := by
  cases e with
  | linest es degree coefficient =>
    cases called
    cases plain
  | literal | unary | binary | array => cases called
  | _ =>
    cases called
    rfl

theorem chars_call {c : Application} (called : e.asApplication = some c) : e.chars operator = c.chars := by
  rcases e with _ | _ | _ | _ | _ | _ | _ | _ | _ | _ | _ | _ | ⟨es,degree,coefficient⟩
  case linest =>
    cases called
    cases coefficient <;> simp [chars,renderUnder,Application.chars,Application.closing,Application.entry,Head.name]
  case literal | unary | binary | array => cases called
  all_goals
    have plain : c.fit = none := by
      cases called
      rfl
    rw [chars,renderUnder_call called plain,Expr.called,Application.chars,Application.closing,plain]
    simp

theorem chars_array (rows : List (List Expr)) :
    (Expr.array rows).chars operator = '\x7b' :: (List.intercalate [';',' '] (rows.map listed) ++ ['\x7d']) := by
  simp [chars,renderUnder]

theorem chars_text (s : String) : (Expr.literal (.text s)).chars operator = Text.quoteChars s.toList := by
  simp [chars,renderUnder,renderLiteral,Text.quote]

theorem chars_grouped (grouped : e.isOperator = true) : e.chars true = '(' :: (e.chars false ++ [')']) := by
  cases e with
  | unary op x => cases op <;> simp [chars,renderUnder,Expr.grouped]
  | binary op l r => simp [chars,renderUnder,Expr.grouped]
  | _ => cases grouped

theorem chars_alone (alone : e.isOperator = false) : e.chars operator = e.chars false := by
  rw [chars,chars,renderUnder_alone alone operator,render]

end Expr

end Recalc
