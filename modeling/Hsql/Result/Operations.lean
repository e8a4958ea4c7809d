import Hsql.Parser.Rows

/-! What a program does with a result besides parsing into it. -/

namespace Hsql
namespace SQLParserResult
variable {S : Type}

/-- A result with a single statement. -/
def ofStatement (stmt : S) : SQLParserResult S := new.addStatement stmt

/-- Gives the statements away. -/
def releaseStatements (result : SQLParserResult S) : List S × SQLParserResult S :=
  (result.statements, { result with statements := [] })

/-- Deletes the statements, which come first. The parameters stay. -/
def reset (result : SQLParserResult S) : List S × SQLParserResult S :=
  (result.statements, { result with
    statements := [], isValid := false, errorMsg := none, errorLine := some (-1)
    errorColumn := some (-1) })

/-- The move constructor: the new result, the statements that resetting the old one deletes, and
the old one. It sets neither the line and column nor the parameters of the new result. -/
def move (moved : SQLParserResult S) : SQLParserResult S × List S × SQLParserResult S :=
  ({ (new : SQLParserResult S) with
      isValid := moved.isValid, errorMsg := moved.errorMsg, statements := moved.statements },
    { moved with statements := [], errorMsg := none }.reset)

/-- Results that calls on a fresh one lead to. -/
inductive Reachable : SQLParserResult → Prop where
  | new : Reachable .new
  | parse {result result' : SQLParserResult} {heap heap' : Heap} {sql : Str}
      (h : Reachable result) (hparse : Parses heap result sql heap' result') : Reachable result'
  | addStatement {result : SQLParserResult} (h : Reachable result) (stmt : SQLStatement) :
      Reachable (result.addStatement (some stmt))
  | addParameter {result : SQLParserResult} (h : Reachable result) (parameter : Parameter) :
      Reachable (result.addParameter parameter)
  | setErrorDetails {result : SQLParserResult} (h : Reachable result) (errorMsg : SyntaxError)
      (errorLine errorColumn : Int) :
      Reachable (result.setErrorDetails errorMsg errorLine errorColumn)
  | releaseStatements {result : SQLParserResult} (h : Reachable result) :
      Reachable result.releaseStatements.2
  | reset {result : SQLParserResult} (h : Reachable result) : Reachable result.reset.2

/-! Moving. -/

end SQLParserResult
end Hsql
