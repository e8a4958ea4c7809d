import Hsql.Lexer.Token

/-! Expressions, selects and table references, as the parser's actions build them. A pointer is an
`Option`, a field that a constructor leaves unset is a second `Option` around its value. -/

namespace Hsql

inductive ExprType where
  | kExprLiteralFloat | kExprLiteralString | kExprLiteralInt | kExprLiteralNull | kExprStar
  | kExprParameter | kExprColumnRef | kExprFunctionRef | kExprOperator | kExprSelect | kExprHint
  | kExprArray | kExprArrayIndex | kExprCaseList | kExprCaseListElement | kExprNamedParameter
deriving DecidableEq

inductive OperatorType where
  | kOpNone | kOpBetween | kOpCase | kOpCaseList | kOpCaseListElement
  | kOpPlus | kOpMinus | kOpAsterisk | kOpSlash | kOpPercentage | kOpCaret
  | kOpEquals | kOpNotEquals | kOpLess | kOpLessEq | kOpGreater | kOpGreaterEq
  | kOpLike | kOpNotLike | kOpILike | kOpMatch | kOpAnd | kOpOr | kOpIn | kOpConcat
  | kOpNot | kOpUnaryMinus | kOpIsNull | kOpExists
deriving DecidableEq

inductive TableRefType where
  | kTableName | kTableSelect | kTableJoin | kTableCrossProduct
deriving DecidableEq

inductive JoinType where
  | kJoinInner | kJoinFull | kJoinLeft | kJoinRight | kJoinCross | kJoinNatural
deriving DecidableEq

inductive OrderType where
  | kOrderAsc | kOrderDesc
deriving DecidableEq

structure TableName where
  schema : Option Str
  name : Option Str

mutual

/-- `addr` is the address of a `?` node, whose numbers live in its heap cell. A `fval` is the
numeral that `atof` reads. -/
structure Expr where
  type : ExprType
  expr : Option Expr
  expr2 : Option Expr
  exprList : Option (List (Option Expr))
  select : Option SelectStatement
  name : Option Str
  table : Option Str
  «alias» : Option Str
  fval : Str
  ival : Int
  ival2 : Int
  opType : OperatorType
  distinct : Bool
  escape : Option Expr
  addr : Option Nat

structure SelectStatement where
  fromTable : Option TableRef
  selectDistinct : Bool
  selectList : Option (List (Option Expr))
  whereClause : Option Expr
  groupBy : Option GroupByDescription
  unionSelect : Option SelectStatement
  order : Option (List (Option OrderDescription))
  limit : Option LimitDescription
  addr : Nat

structure GroupByDescription where
  columns : Option (List (Option Expr))
  having : Option Expr

structure OrderDescription where
  type : OrderType
  expr : Option Expr
  collation : Option Str
  addr : Nat

structure LimitDescription where
  limit : Option Expr
  offset : Option Expr
  addr : Nat

structure TableRef where
  type : TableRefType
  schema : Option Str
  name : Option Str
  indexedBy : Option (Option Str)
  «alias» : Option Str
  select : Option SelectStatement
  list : Option (List (Option TableRef))
  join : Option JoinDefinition

structure JoinDefinition where
  left : Option TableRef
  right : Option TableRef
  condition : Option Expr
  type : JoinType

end

namespace Expr

def new (type : ExprType) : Expr where
  type := type
  expr := none
  expr2 := none
  exprList := none
  select := none
  name := none
  table := none
  «alias» := none
  fval := ['0']
  ival := 0
  ival2 := 0
  opType := .kOpNone
  distinct := false
  escape := none
  addr := none

def makeOpUnary (op : OperatorType) (expr : Option Expr) : Expr :=
  { new .kExprOperator with opType := op, expr := expr, expr2 := none }

def makeOpBinary (expr1 : Option Expr) (op : OperatorType) (expr2 : Option Expr) : Expr :=
  { new .kExprOperator with opType := op, expr := expr1, expr2 := expr2 }

def makeBetween (expr left right : Option Expr) : Expr :=
  { new .kExprOperator with expr := expr, opType := .kOpBetween, exprList := some [left, right] }

def makeCaseList (caseListElement : Option Expr) : Expr :=
  { new .kExprOperator with opType := .kOpCaseList, exprList := some [caseListElement] }

def makeCaseListElement (when_ then_ : Option Expr) : Expr :=
  { new .kExprOperator with opType := .kOpCaseListElement, expr := when_, expr2 := then_ }

/-- Fails where the source dereferences a null case list. -/
def caseListAppend (caseList caseListElement : Option Expr) : Option Expr := do
  let e ← caseList
  let l ← e.exprList
  some { e with exprList := some (l ++ [caseListElement]) }

def makeCase (expr caseList elseExpr : Option Expr) : Option Expr := do
  let l ← caseList
  some { new .kExprOperator with
    opType := .kOpCase, expr := expr, expr2 := elseExpr, exprList := l.exprList }

def makeLiteralInt (val : Int) : Expr := { new .kExprLiteralInt with ival := val }

def makeLiteralFloat (value : Str) : Expr := { new .kExprLiteralFloat with fval := value }

def makeLiteralString (string : Option Str) : Expr :=
  { new .kExprLiteralString with name := string }

def makeNullLiteral : Expr := new .kExprLiteralNull

def makeColumnRef (name : Option Str) : Expr := { new .kExprColumnRef with name := name }

def makeTableColumnRef (table name : Option Str) : Expr :=
  { new .kExprColumnRef with name := name, table := table }

def makeStar : Expr := new .kExprStar

def makeTableStar (table : Option Str) : Expr := { new .kExprStar with table := table }

def makeFunctionRef (funcName : Option Str) (exprList : Option (List (Option Expr)))
    (distinct : Bool) : Expr :=
  { new .kExprFunctionRef with name := funcName, exprList := exprList, distinct := distinct }

def makeParameter (addr : Nat) : Expr := { new .kExprParameter with addr := some addr }

def makeNamedParameter (name : Option Str) : Expr :=
  { new .kExprNamedParameter with name := name }

def makeSelect (select : Option SelectStatement) : Expr :=
  { new .kExprSelect with select := select }

def makeExists (select : Option SelectStatement) : Expr :=
  { new .kExprOperator with opType := .kOpExists, select := select }

def makeInList (expr : Option Expr) (exprList : Option (List (Option Expr))) : Expr :=
  { new .kExprOperator with opType := .kOpIn, expr := expr, exprList := exprList }

def makeInSelect (expr : Option Expr) (select : Option SelectStatement) : Expr :=
  { new .kExprOperator with opType := .kOpIn, expr := expr, select := select }

def makeInEmpty (expr : Option Expr) : Expr :=
  { new .kExprOperator with opType := .kOpIn, expr := expr }

end Expr

def TableRef.new (type : TableRefType) : TableRef where
  type := type
  schema := none
  name := none
  indexedBy := none
  «alias» := none
  select := none
  list := none
  join := none

def TableRef.getName (t : TableRef) : Option Str :=
  match t.alias with
  | some a => some a
  | none => t.name

def JoinDefinition.new : JoinDefinition where
  left := none
  right := none
  condition := none
  type := .kJoinInner

def SelectStatement.new (addr : Nat) : SelectStatement where
  fromTable := none
  selectDistinct := false
  selectList := none
  whereClause := none
  groupBy := none
  unionSelect := none
  order := none
  limit := none
  addr := addr

end Hsql
