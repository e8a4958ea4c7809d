import Hsql.Sql.Statement

/-! The printers of `sqlhelper`. A printer fails where the source dereferences a null pointer or
reads a field that nothing has written. -/

namespace Hsql

/-- What a line shows after its tabs. The numbers of a `?` node live in its heap cell. -/
inductive Item where
  | text (s : Str)
  | int (i : Int)
  | float (numeral : Str)
  | operator (op : OperatorType)
  | parameter (addr : Option Nat)
  | unrecognized (type : ExprType)

/-- The lines printed so far. -/
abbrev Out := List (Nat × Item)

def Out.line (out : Out) (item : Item) (numIndent : Nat) : Out := out ++ [(numIndent, item)]

/-- `inprint` of a constant. -/
def Out.label (out : Out) (s : String) (numIndent : Nat) : Out := out.line (.text s.toList) numIndent

/-- `inprint` of a pointer to characters. -/
def inprint (val : Option Str) (numIndent : Nat) (out : Out) : Option Out :=
  val.map fun s => out.line (.text s) numIndent

/-- A label with a text below it, where there is one. -/
def inprintUnder (label : String) (val : Option Str) (numIndent : Nat) (out : Out) : Out :=
  match val with
  | none => out
  | some s => (out.label label numIndent).line (.text s) (numIndent + 1)

mutual

def printTableRefInfo : Option TableRef → Nat → Out → Option Out
  | none, _, _ => none
  | some ⟨type, schema, name, _, «alias», select, list, join⟩, numIndent, out => do
    let out ← match type with
      | .kTableName => do
        let out ← inprint name numIndent out
        some (inprintUnder "Schema" schema (numIndent + 1) out)
      | .kTableSelect => printSelectStatementInfo select numIndent out
      | .kTableJoin =>
        match join with
        | none => none
        | some ⟨left, right, condition, _⟩ => do
          let out := (out.label "Join Table" numIndent).label "Left" (numIndent + 1)
          let out ← printTableRefInfo left (numIndent + 2) out
          let out ← printTableRefInfo right (numIndent + 2) (out.label "Right" (numIndent + 1))
          printExpression condition (numIndent + 2) (out.label "Join Condition" (numIndent + 1))
      | .kTableCrossProduct =>
        match list with
        | none => none
        | some l => printTableRefs l numIndent out
    some (inprintUnder "Alias" «alias» (numIndent + 1) out)

def printTableRefs : List (Option TableRef) → Nat → Out → Option Out
  | [], _, out => some out
  | tbl :: l, numIndent, out => do
    let out ← printTableRefInfo tbl numIndent out
    printTableRefs l numIndent out

/-- The cases for operators are those of `printOperatorExpression`. -/
def printExpression : Option Expr → Nat → Out → Option Out
  | none, _, _ => none
  | some ⟨type, expr, expr2, exprList, select, name, table, «alias», fval, ival, _, opType, _, _,
      addr⟩, numIndent, out => do
    let printed ← match type with
      | .kExprStar => some (some (out.label "*" numIndent))
      | .kExprColumnRef => do
        let out ← inprint name numIndent out
        some (some (inprintUnder "Table:" table (numIndent + 1) out))
      | .kExprLiteralFloat => some (some (out.line (.float fval) numIndent))
      | .kExprLiteralInt => some (some (out.line (.int ival) numIndent))
      | .kExprLiteralString => (inprint name numIndent out).map some
      | .kExprFunctionRef => do
        let out ← inprint name numIndent out
        match exprList with
        | none => none
        | some l => (printExpressions l (numIndent + 1) out).map some
      | .kExprOperator => do
        let out := match opType with
          | .kOpAnd => out.label "AND" numIndent
          | .kOpOr => out.label "OR" numIndent
          | .kOpNot => out.label "NOT" numIndent
          | op => out.line (.operator op) numIndent
        let out ← printExpression expr (numIndent + 1) out
        match expr2 with
        | some e => (printExpression (some e) (numIndent + 1) out).map some
        | none =>
          match exprList with
          | some l => (printExpressions l (numIndent + 1) out).map some
          | none => some (some out)
      | .kExprSelect => (printSelectStatementInfo select numIndent out).map some
      | .kExprParameter => some (some (out.line (.parameter addr) numIndent))
      | .kExprArray =>
        match exprList with
        | none => none
        | some l => (printExpressions l (numIndent + 1) out).map some
      | .kExprArrayIndex => do
        let out ← printExpression expr (numIndent + 1) out
        some (some (out.line (.int ival) numIndent))
      | _ => some none
    match printed with
    | none => some (out.line (.unrecognized type) 0)
    | some out => some (inprintUnder "Alias" «alias» (numIndent + 1) out)

def printExpressions : List (Option Expr) → Nat → Out → Option Out
  | [], _, out => some out
  | e :: l, numIndent, out => do
    let out ← printExpression e numIndent out
    printExpressions l numIndent out

def printSelectStatementInfo : Option SelectStatement → Nat → Out → Option Out
  | none, _, _ => none
  | some ⟨fromTable, _, selectList, whereClause, groupBy, unionSelect, order, limit, _⟩, numIndent,
      out => do
    let out := (out.label "SelectStatement" numIndent).label "Fields:" (numIndent + 1)
    let out ← (match selectList with
      | none => none
      | some l => printExpressions l (numIndent + 2) out)
    let out ← (match fromTable with
      | none => some out
      | some t => printTableRefInfo (some t) (numIndent + 2) (out.label "Sources:" (numIndent + 1)))
    let out ← (match whereClause with
      | none => some out
      | some e =>
        printExpression (some e) (numIndent + 2) (out.label "Search Conditions:" (numIndent + 1)))
    let out ← (match groupBy with
      | none => some out
      | some ⟨columns, having⟩ => do
        let out ← (match columns with
          | none => none
          | some l => printExpressions l (numIndent + 2) (out.label "GroupBy:" (numIndent + 1)))
        match having with
        | none => some out
        | some e => printExpression (some e) (numIndent + 2) (out.label "Having:" (numIndent + 1)))
    let out ← (match unionSelect with
      | none => some out
      | some s =>
        printSelectStatementInfo (some s) (numIndent + 2) (out.label "Union:" (numIndent + 1)))
    let out ← (match order with
      | none => some out
      | some (some ⟨type, expr, _, _⟩ :: _) => do
        let out ← printExpression expr (numIndent + 2) (out.label "OrderBy:" (numIndent + 1))
        some (out.label (if type = .kOrderAsc then "ascending" else "descending") (numIndent + 2))
      | _ => none)
    match limit with
    | none => some out
    | some ⟨limit, _, _⟩ => printExpression limit (numIndent + 2) (out.label "Limit:" (numIndent + 1))

end

/-- A round of the loop over the columns of a table. -/
def printColumn (col : ColumnDefinition) (numIndent : Nat) (out : Out) : Option Out := do
  let out ← inprint col.name (numIndent + 2) out
  let out := match col.type with
    | .TEXT => out.label "Type: TEXT" (numIndent + 3)
    | .INTEGER => out.label "Type: INTEGER" (numIndent + 3)
    | .REAL => out.label "Type: REAL" (numIndent + 3)
    | .BLOB => out.label "Type: BLOB" (numIndent + 3)
    | _ => out.label "Type: UNKNOWN" (numIndent + 3)
  let out := if col.isPrimaryKey then out.label "Primary Key" (numIndent + 3) else out
  let out := if col.isUnique then out.label "Unique" (numIndent + 3) else out
  let out := if col.nullable then out.label "Nullable" (numIndent + 3) else out
  match col.defaultVal with
  | none => some out
  | some e => printExpression (some e) (numIndent + 4) (out.label "Default Value" (numIndent + 3))

def printCreateStatementInfo (stmt : CreateStatement) (numIndent : Nat) (out : Out) :
    Option Out := do
  let out ← inprint stmt.tableName (numIndent + 1) (out.label "CreateStatment" numIndent)
  let isVirtual ← stmt.isVirtual
  let out := if isVirtual then out.label "Virtual Table" numIndent else out
  let isTemporary ← stmt.isTemporary
  let out := if isTemporary then out.label "Temporary Table" numIndent else out
  let out := if stmt.ifNotExists then out.label "Create if not exists" numIndent else out
  let out := inprintUnder "Schema" stmt.schema numIndent out
  match stmt.columns with
  | none => some out
  | some l =>
    let out := out.label "Columns" (numIndent + 1)
    l.foldlM (fun out col => col.bind fun col => printColumn col numIndent out) out

def printInsertStatementInfo (stmt : InsertStatement) (numIndent : Nat) (out : Out) :
    Option Out := do
  let out ← inprint stmt.tableName (numIndent + 1) (out.label "InsertStatment" numIndent)
  let out ← (match stmt.columns with
    | none => some out
    | some l =>
      let out := out.label "Columns" (numIndent + 1)
      l.foldlM (fun out name => inprint name (numIndent + 2) out) out)
  match stmt.type with
  | .kInsertValues => do
    let l ← stmt.values
    printExpressions l (numIndent + 2) (out.label "Values" (numIndent + 1))
  | .kInsertSelect => printSelectStatementInfo stmt.select (numIndent + 1) out

def printStatementInfo (stmt : SQLStatement) : Option Out :=
  match stmt.derived with
  | .select s => printSelectStatementInfo (some s) 0 []
  | .insert s => printInsertStatementInfo s 0 []
  | .create s => printCreateStatementInfo s 0 []
  | _ => some []

end Hsql
