namespace Recalc

inductive TokenKind where
  | operand
  | function
  | subexpression
  | argumentList
  | separator
  | prefixOp
  | infixOp
  | postfixOp
  deriving DecidableEq, Repr

inductive TokenSubkind where
  | none
  | start
  | stop
  | text
  | number
  | logical
  | error
  | range
  | math
  | concat
  | comparison
  | intersect
  | union
  deriving DecidableEq, Repr

structure Token where
  kind : TokenKind
  subkind : TokenSubkind
  text : String
  deriving DecidableEq, Repr

namespace Token

def operand (text : String) (subkind : TokenSubkind) : Token := ⟨.operand,subkind,text⟩

def between (symbol : String) : Token :=
  let subkind : TokenSubkind := match symbol with
    | "&" => .concat
    | "=" => .comparison
    | "<" => .comparison
    | ">" => .comparison
    | "<=" => .comparison
    | ">=" => .comparison
    | "<>" => .comparison
    | " " => .intersect
    | "," => .union
    | _ => .math
  ⟨.infixOp,subkind,symbol⟩

def minus : Token := ⟨.prefixOp,.math,"-"⟩
def percent : Token := ⟨.postfixOp,.none,"%"⟩
def functionStart (name : String) : Token := ⟨.function,.start,name⟩
def functionStop : Token := ⟨.function,.stop,")"⟩
def groupStart : Token := ⟨.subexpression,.start,"("⟩
def groupStop : Token := ⟨.subexpression,.stop,")"⟩
def comma : Token := ⟨.separator,.none,","⟩

def isStart (t : Token) : Bool := t.subkind == .start
def isStop (t : Token) : Bool := t.subkind == .stop

def isOperator (t : Token) : Bool := t.kind == .prefixOp || t.kind == .infixOp || t.kind == .postfixOp

-- After such a token a sign stands between operands, and blanks may mean intersection.
def endsOperand (t : Token) : Bool :=
  match t.kind with
  | .operand => true
  | .postfixOp => true
  | .function => t.isStop
  | .subexpression => t.isStop
  | _ => false

end Token
end Recalc
