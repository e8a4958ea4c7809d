import Hsql.Parser.Production

/-! Productions of selects and of the tables they read. -/

namespace Hsql
open NT Keyword TokenKind Expr

/-- A limit replaces an earlier one. -/
def SelectStatement.setLimit (s : SelectStatement) (limit : Option LimitDescription) :
    SelectStatement :=
  if limit.isSome then { s with limit := limit } else s

/-- `$1` as the left operand of a set operation. Its order is overwritten even by a null one. -/
def SelectStatement.union (s : SelectStatement) (unionSelect : Option SelectStatement)
    (order : Option (List (Option OrderDescription))) (limit : Option LimitDescription) :
    SelectStatement :=
  { s with unionSelect := unionSelect, order := order }.setLimit limit

def selectStatementRules : List (Production selectStatement) := [
  rule [selectWithParen] fun (s, _) => s,
  rule [selectNoParen] fun (s, _) => s,
  deref [selectWithParen, setOperator, selectParenOrClause, optOrder, optLimit]
    fun (s, _, u, o, l, _) => s.map fun s => some (s.union u o l)]

def selectWithParenRules : List (Production selectWithParen) := [
  rule ['(', selectNoParen, ')'] fun (_, s, _) => s,
  rule ['(', selectWithParen, ')'] fun (_, s, _) => s]

def selectParenOrClauseRules : List (Production selectParenOrClause) := [
  rule [selectWithParen] fun (s, _) => s,
  rule [selectClause] fun (s, _) => s]

def selectNoParenRules : List (Production selectNoParen) := [
  deref [selectClause, optOrder, optLimit] fun (s, o, l, _) =>
    s.map fun s => some ({ s with order := o }.setLimit l),
  deref [selectClause, setOperator, selectParenOrClause, optOrder, optLimit]
    fun (s, _, u, o, l, _) => s.map fun s => some (s.union u o l)]

def setOperatorRules : List (Production setOperator) := [
  rule [setType, optAll] fun _ => ()]

def setTypeRules : List (Production setType) := [
  rule [UNION] fun _ => (),
  rule [INTERSECT] fun _ => (),
  rule [EXCEPT] fun _ => ()]

def optAllRules : List (Production optAll) := [
  rule [ALL] fun _ => (),
  rule [] fun _ => ()]

def selectClauseRules : List (Production selectClause) := [
  effect [SELECT, optDistinct, selectList, fromClause, optWhere, optGroup]
    fun (_, d, l, t, w, g, _) _ s =>
      let (a, s) := s.newSelect
      some (some { SelectStatement.new a with
        selectDistinct := d, selectList := l, fromTable := t, whereClause := w, groupBy := g }, s)]

def optDistinctRules : List (Production optDistinct) := [
  rule [DISTINCT] fun _ => true,
  rule [] fun _ => false]

def selectListRules : List (Production selectList) := [
  rule [exprList] fun (l, _) => l]

def fromClauseRules : List (Production fromClause) := [
  rule [FROM, tableRef] fun (_, t, _) => t]

def optWhereRules : List (Production optWhere) := [
  rule [WHERE, expr] fun (_, e, _) => e,
  rule [] fun _ => none]

def optGroupRules : List (Production optGroup) := [
  rule [GROUP, BY, exprList, optHaving] fun (_, _, l, h, _) => some ⟨l, h⟩,
  rule [] fun _ => none]

def optHavingRules : List (Production optHaving) := [
  rule [HAVING, expr] fun (_, e, _) => e,
  rule [] fun _ => none]

def optOrderRules : List (Production optOrder) := [
  rule [ORDER, BY, orderList] fun (_, _, l, _) => l,
  rule [] fun _ => none]

def orderListRules : List (Production orderList) := [
  rule [orderDesc] fun (o, _) => vector o,
  deref [orderList, ',', orderDesc] fun (l, _, o, _) => pushBack l o]

def orderDescRules : List (Production orderDesc) := [
  effect [expr, COLLATE, IDENTIFIER, optOrderType] fun (e, _, c, t, _) _ s =>
    let (a, s) := s.newOrder
    some (some ⟨t, e, some c, a⟩, s),
  effect [expr, optOrderType] fun (e, t, _) _ s =>
    let (a, s) := s.newOrder
    some (some ⟨t, e, none, a⟩, s)]

def optOrderTypeRules : List (Production optOrderType) := [
  rule [ASC] fun _ => .kOrderAsc,
  rule [DESC] fun _ => .kOrderDesc,
  rule [] fun _ => .kOrderAsc]

def optLimitRules : List (Production optLimit) := [
  effect [LIMIT, expr] fun (_, l, _) _ s =>
    let (a, s) := s.newLimit
    some (some ⟨l, none, a⟩, s),
  effect [LIMIT, expr, OFFSET, expr] fun (_, l, _, o, _) _ s =>
    let (a, s) := s.newLimit
    some (some ⟨l, o, a⟩, s),
  effect [LIMIT, expr, ',', expr] fun (_, o, _, l, _) _ s =>
    let (a, s) := s.newLimit
    some (some ⟨l, o, a⟩, s),
  rule [] fun _ => none]

/-! Tables. -/

def tableRefRules : List (Production tableRef) := [
  rule [tableRefAtomic] fun (t, _) => t,
  deref [tableRefCommalist, ',', tableRefAtomic] fun (l, _, t, _) => (pushBack l t).map fun l =>
    some { TableRef.new .kTableCrossProduct with list := l }]

def tableRefAtomicRules : List (Production tableRefAtomic) := [
  rule [nonjoinTableRefAtomic] fun (t, _) => t,
  rule [joinClause] fun (t, _) => t]

def nonjoinTableRefAtomicRules : List (Production nonjoinTableRefAtomic) := [
  rule [tableRefName] fun (t, _) => t,
  rule ['(', selectStatement, ')', optAlias] fun (_, s, _, a, _) =>
    some { TableRef.new .kTableSelect with select := s, «alias» := a }]

def tableRefCommalistRules : List (Production tableRefCommalist) := [
  rule [tableRefAtomic] fun (t, _) => vector t,
  deref [tableRefCommalist, ',', tableRefAtomic] fun (l, _, t, _) => pushBack l t]

def tableRefNameRules : List (Production tableRefName) := [
  rule [tableName, optIndexedBy, optAlias] fun (n, i, a, _) =>
    some { TableRef.new .kTableName with
      schema := n.schema, name := n.name, indexedBy := some i, «alias» := a }]

def indexedByRules : List (Production indexedBy) := [
  rule [INDEXED, BY, IDENTIFIER] fun (_, _, a, _) => some a,
  rule [INDEXED, BY, STRING] fun (_, _, a, _) => some a]

def optIndexedByRules : List (Production optIndexedBy) := [
  rule [indexedBy] fun (a, _) => a,
  rule [] fun _ => none]

def tableRefNameNoAliasRules : List (Production tableRefNameNoAlias) := [
  rule [tableName] fun (n, _) =>
    some { TableRef.new .kTableName with schema := n.schema, name := n.name }]

def tableNameRules : List (Production tableName) := [
  rule [stringOrToken] fun (a, _) => ⟨none, a⟩,
  rule [stringOrToken, '.', stringOrToken] fun (s, _, a, _) => ⟨s, a⟩]

/-- One side of the condition for `USING`: a copy of the column, in the table of that name. -/
def usingColumn (col : Expr) (getName : Option Str) : Option Expr :=
  col.name.map fun name =>
    let e := makeColumnRef (some name)
    let e := if col.alias.isSome then { e with «alias» := col.alias } else e
    if getName.isSome then { e with table := getName } else e

def joinClauseRules : List (Production joinClause) := [
  rule [tableRefAtomic, NATURAL, JOIN, nonjoinTableRefAtomic] fun (l, _, _, r, _) =>
    some { TableRef.new .kTableJoin with
      join := some { JoinDefinition.new with type := .kJoinNatural, left := l, right := r } },
  rule [tableRefAtomic, optJoinType, JOIN, tableRefAtomic, ON, joinCondition]
    fun (l, t, _, r, _, c, _) =>
      some { TableRef.new .kTableJoin with
        join := some { JoinDefinition.new with type := t, left := l, right := r, condition := c } },
  deref [tableRefAtomic, optJoinType, JOIN, tableRefAtomic, USING, '(', columnName, ')']
    fun (l, t, _, r, _, _, col, _) => do
      let col ← col
      let left ← l
      let leftCol ← usingColumn col left.getName
      let right ← r
      let rightCol ← usingColumn col right.getName
      some (some { TableRef.new .kTableJoin with
        join := some { JoinDefinition.new with
          type := t, left := l, right := r
          condition := makeOpBinary leftCol .kOpEquals rightCol } })]

def optJoinTypeRules : List (Production optJoinType) := [
  rule [INNER] fun _ => .kJoinInner,
  rule [LEFT, OUTER] fun _ => .kJoinLeft,
  rule [LEFT] fun _ => .kJoinLeft,
  rule [RIGHT, OUTER] fun _ => .kJoinRight,
  rule [RIGHT] fun _ => .kJoinRight,
  rule [FULL, OUTER] fun _ => .kJoinFull,
  rule [OUTER] fun _ => .kJoinFull,
  rule [FULL] fun _ => .kJoinFull,
  rule [CROSS] fun _ => .kJoinCross,
  rule [] fun _ => .kJoinInner]

def joinConditionRules : List (Production joinCondition) := [
  rule [expr] fun (e, _) => e]

end Hsql
