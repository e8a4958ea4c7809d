import Hsql.Parser.Production

/-! Productions of the input, of lists of statements and of the other kinds of statement. -/

namespace Hsql
open NT Keyword TokenKind

/-- The action of `input`: the statements go to the result, then the `?` nodes get the numbers of
their places in the list and go to the result too. -/
def ParserState.finish (s : ParserState) (stmts : List (Option SQLStatement)) : ParserState :=
  let result := stmts.foldl SQLParserResult.addStatement s.result
  let result := s.paramList.zipIdx.foldl
    (fun r (param, paramId) => r.addParameter { param with ival := paramId }) result
  { s with result := result }

def inputRules : List (Production input) := [
  effect [statementList, optSemicolon] fun (l, _) _ s => l.map fun l => ((), s.finish l)]

/-- A statement with the length of its text, which restarts the count for the next one. -/
def ParserState.measure (s : ParserState) (yylloc : Location) (stmt : Option SQLStatement) :
    Option (Option SQLStatement × ParserState) :=
  stmt.map fun stmt =>
    (some { stmt with stringLength := some (yylloc.totalColumn - s.lengthStart) },
      { s with lengthStart := yylloc.totalColumn })

def statementListRules : List (Production statementList) := [
  effect [statement] fun (x, _) yylloc s =>
    (s.measure yylloc x).map fun (x, s) => (vector x, s),
  effect [statementList, ';', statement] fun (l, _, x, _) yylloc s => do
    let (x, s) ← s.measure yylloc x
    let l ← pushBack l x
    some (l, s)]

def statementRules : List (Production statement) := [
  rule [selectStatement] fun (s, _) => s.map fun s => .new (.select s),
  rule [createStatement] fun (s, _) => s.map fun s => .new (.create s),
  rule [insertStatement] fun (s, _) => s.map fun s => .new (.insert s),
  rule [deleteStatement] fun (s, _) => s.map fun s => .new (.delete s),
  rule [updateStatement] fun (s, _) => s.map fun s => .new (.update s),
  rule [dropStatement] fun (s, _) => s.map fun s => .new (.drop s),
  rule [pragmaStatement] fun (s, _) => s.map fun s => .new (.pragma s),
  rule [alterStatement] fun (s, _) => s.map fun s => .new (.alter s)]

def alterStatementRules : List (Production alterStatement) := [
  rule [ALTER, TABLE, tableName, RENAME, TO, stringOrToken] fun (_, _, n, _, _, a, _) =>
    some { AlterStatement.new .kAlterRenameTable with
      schema := n.schema, tableName := n.name, newName := a },
  rule [ALTER, TABLE, tableName, RENAME, COLUMN, stringOrToken, TO, stringOrToken]
    fun (_, _, n, _, _, c, _, a, _) =>
      some { AlterStatement.new .kAlterRenameColumn with
        schema := n.schema, tableName := n.name, columnName := c, newName := a },
  rule [ALTER, TABLE, tableName, ADD, columnDef] fun (_, _, n, _, c, _) =>
    some { AlterStatement.new .kAlterAddColumn with
      schema := n.schema, tableName := n.name, columnDefinition := c }]

def pragmaStatementRules : List (Production pragmaStatement) := [
  rule [PRAGMA, expr] fun (_, e, _) => some ⟨none, e⟩]

def dropStatementRules : List (Production dropStatement) := [
  rule [DROP, TABLE, optExists, tableName] fun (_, _, i, n, _) =>
    some { DropStatement.new .kDropTable with
      ifExists := some i, schema := n.schema, name := n.name },
  rule [DROP, VIEW, optExists, tableName] fun (_, _, i, n, _) =>
    some { DropStatement.new .kDropView with
      ifExists := some i, schema := n.schema, name := n.name },
  rule [DROP, TRIGGER, optExists, stringOrToken] fun (_, _, i, a, _) =>
    some { DropStatement.new .kDropTrigger with ifExists := some i, name := a },
  rule [DROP, INDEX, optExists, stringOrToken] fun (_, _, i, a, _) =>
    some { DropStatement.new .kDropIndex with ifExists := some i, name := a }]

def optExistsRules : List (Production optExists) := [
  rule [IF, EXISTS] fun _ => true,
  rule [] fun _ => false]

def deleteStatementRules : List (Production deleteStatement) := [
  rule [DELETE, FROM, tableName, optWhere] fun (_, _, n, w, _) => some ⟨n.schema, n.name, w⟩]

def insertStatementRules : List (Production insertStatement) := [
  rule [INSERT, optOrReplace, INTO, tableName, optColumnList, VALUES, '(', exprList, ')']
    fun (_, r, _, n, c, _, _, l, _) =>
      some { InsertStatement.new .kInsertValues with
        orReplace := some r, schema := n.schema, tableName := n.name, columns := c, values := l },
  rule [INSERT, optOrReplace, INTO, tableName, optColumnList, selectNoParen]
    fun (_, r, _, n, c, s, _) =>
      some { InsertStatement.new .kInsertSelect with
        orReplace := some r, schema := n.schema, tableName := n.name, columns := c, select := s }]

def optOrReplaceRules : List (Production optOrReplace) := [
  rule [OR, REPLACE] fun _ => true,
  rule [] fun _ => false]

def optColumnListRules : List (Production optColumnList) := [
  rule ['(', identCommalist, ')'] fun (_, l, _) => l,
  rule [] fun _ => none]

def updateStatementRules : List (Production updateStatement) := [
  rule [UPDATE, tableRefNameNoAlias, SET, updateClauseCommalist, optWhere]
    fun (_, t, _, l, w, _) => some ⟨t, l, w⟩]

def updateClauseCommalistRules : List (Production updateClauseCommalist) := [
  rule [updateClause] fun (u, _) => vector u,
  deref [updateClauseCommalist, ',', updateClause] fun (l, _, u, _) => pushBack l u]

def updateClauseRules : List (Production updateClause) := [
  rule [stringOrToken, '=', expr] fun (c, _, e, _) => some ⟨c, e⟩]

def optSemicolonRules : List (Production optSemicolon) := [
  rule [';'] fun _ => (),
  rule [] fun _ => ()]

end Hsql
