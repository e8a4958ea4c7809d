import Mathlib.Data.Char

/-! Tokens of the lexer and the values they carry. -/

namespace Hsql

abbrev Str := List Char

/-- The keywords, in the order of their rules in the lexer. -/
inductive Keyword where
  | CURRENT_TIMESTAMP | AUTOINCREMENT | CURRENT_DATE | CURRENT_TIME | TRANSACTION | CONSTRAINT
  | DEFERRABLE | REFERENCES | EXCLUSIVE | IMMEDIATE | INITIALLY | INTERSECT | RECURSIVE
  | SAVEPOINT | TEMPORARY | CONFLICT | DATABASE | DEFERRED | DISTINCT | RESTRICT | ROLLBACK
  | DATETIME | ANALYZE | BETWEEN | BOOLEAN | CASCADE | COLLATE | DEFAULT | EXPLAIN | FOREIGN
  | INDEXED | INSTEAD | INTEGER | NATURAL | NOTNULL | PRIMARY | REINDEX | RELEASE | REPLACE
  | TRIGGER | VIRTUAL | WITHOUT | VARCHAR | ACTION | ATTACH | BEFORE | COLUMN | COMMIT | CREATE
  | DELETE | DETACH | DOUBLE | ESCAPE | EXCEPT | EXISTS | HAVING | IGNORE | INSERT | ISNULL
  | OFFSET | PRAGMA | REGEXP | RENAME | SELECT | UNIQUE | UPDATE | VACUUM | VALUES | ABORT
  | AFTER | ALTER | BEGIN | CHECK | CROSS | FLOAT | GROUP | INDEX | INNER | LIMIT | MATCH
  | ORDER | OUTER | QUERY | RAISE | RIGHT | TABLE | UNION | USING | WHERE | BLOB | CASE | CAST
  | DESC | DROP | EACH | ELSE | FAIL | FROM | FULL | GLOB | INTO | JOIN | LEFT | LIKE | LONG
  | NULL | PLAN | REAL | TEMP | TEXT | THEN | VIEW | WHEN | WITH | ADD | ALL | AND | ASC | END
  | FOR | INT | KEY | NOT | ROW | SET | AS | BY | IF | IN | IS | NO | OF | ON | OR | TO
deriving DecidableEq

namespace Keyword

def all : List Keyword :=
  [
    .CURRENT_TIMESTAMP, .AUTOINCREMENT, .CURRENT_DATE, .CURRENT_TIME, .TRANSACTION,
    .CONSTRAINT, .DEFERRABLE, .REFERENCES, .EXCLUSIVE, .IMMEDIATE, .INITIALLY, .INTERSECT,
    .RECURSIVE, .SAVEPOINT, .TEMPORARY, .CONFLICT, .DATABASE, .DEFERRED, .DISTINCT, .RESTRICT,
    .ROLLBACK, .DATETIME, .ANALYZE, .BETWEEN, .BOOLEAN, .CASCADE, .COLLATE, .DEFAULT, .EXPLAIN,
    .FOREIGN, .INDEXED, .INSTEAD, .INTEGER, .NATURAL, .NOTNULL, .PRIMARY, .REINDEX, .RELEASE,
    .REPLACE, .TRIGGER, .VIRTUAL, .WITHOUT, .VARCHAR, .ACTION, .ATTACH, .BEFORE, .COLUMN,
    .COMMIT, .CREATE, .DELETE, .DETACH, .DOUBLE, .ESCAPE, .EXCEPT, .EXISTS, .HAVING, .IGNORE,
    .INSERT, .ISNULL, .OFFSET, .PRAGMA, .REGEXP, .RENAME, .SELECT, .UNIQUE, .UPDATE, .VACUUM,
    .VALUES, .ABORT, .AFTER, .ALTER, .BEGIN, .CHECK, .CROSS, .FLOAT, .GROUP, .INDEX, .INNER,
    .LIMIT, .MATCH, .ORDER, .OUTER, .QUERY, .RAISE, .RIGHT, .TABLE, .UNION, .USING, .WHERE,
    .BLOB, .CASE, .CAST, .DESC, .DROP, .EACH, .ELSE, .FAIL, .FROM, .FULL, .GLOB, .INTO, .JOIN,
    .LEFT, .LIKE, .LONG, .NULL, .PLAN, .REAL, .TEMP, .TEXT, .THEN, .VIEW, .WHEN, .WITH, .ADD,
    .ALL, .AND, .ASC, .END, .FOR, .INT, .KEY, .NOT, .ROW, .SET, .AS, .BY, .IF, .IN, .IS, .NO,
    .OF, .ON, .OR, .TO]

def spelling : Keyword → String
  | .CURRENT_TIMESTAMP => "CURRENT_TIMESTAMP"
  | .AUTOINCREMENT => "AUTOINCREMENT"
  | .CURRENT_DATE => "CURRENT_DATE"
  | .CURRENT_TIME => "CURRENT_TIME"
  | .TRANSACTION => "TRANSACTION"
  | .CONSTRAINT => "CONSTRAINT"
  | .DEFERRABLE => "DEFERRABLE"
  | .REFERENCES => "REFERENCES"
  | .EXCLUSIVE => "EXCLUSIVE"
  | .IMMEDIATE => "IMMEDIATE"
  | .INITIALLY => "INITIALLY"
  | .INTERSECT => "INTERSECT"
  | .RECURSIVE => "RECURSIVE"
  | .SAVEPOINT => "SAVEPOINT"
  | .TEMPORARY => "TEMPORARY"
  | .CONFLICT => "CONFLICT"
  | .DATABASE => "DATABASE"
  | .DEFERRED => "DEFERRED"
  | .DISTINCT => "DISTINCT"
  | .RESTRICT => "RESTRICT"
  | .ROLLBACK => "ROLLBACK"
  | .DATETIME => "DATETIME"
  | .ANALYZE => "ANALYZE"
  | .BETWEEN => "BETWEEN"
  | .BOOLEAN => "BOOLEAN"
  | .CASCADE => "CASCADE"
  | .COLLATE => "COLLATE"
  | .DEFAULT => "DEFAULT"
  | .EXPLAIN => "EXPLAIN"
  | .FOREIGN => "FOREIGN"
  | .INDEXED => "INDEXED"
  | .INSTEAD => "INSTEAD"
  | .INTEGER => "INTEGER"
  | .NATURAL => "NATURAL"
  | .NOTNULL => "NOTNULL"
  | .PRIMARY => "PRIMARY"
  | .REINDEX => "REINDEX"
  | .RELEASE => "RELEASE"
  | .REPLACE => "REPLACE"
  | .TRIGGER => "TRIGGER"
  | .VIRTUAL => "VIRTUAL"
  | .WITHOUT => "WITHOUT"
  | .VARCHAR => "VARCHAR"
  | .ACTION => "ACTION"
  | .ATTACH => "ATTACH"
  | .BEFORE => "BEFORE"
  | .COLUMN => "COLUMN"
  | .COMMIT => "COMMIT"
  | .CREATE => "CREATE"
  | .DELETE => "DELETE"
  | .DETACH => "DETACH"
  | .DOUBLE => "DOUBLE"
  | .ESCAPE => "ESCAPE"
  | .EXCEPT => "EXCEPT"
  | .EXISTS => "EXISTS"
  | .HAVING => "HAVING"
  | .IGNORE => "IGNORE"
  | .INSERT => "INSERT"
  | .ISNULL => "ISNULL"
  | .OFFSET => "OFFSET"
  | .PRAGMA => "PRAGMA"
  | .REGEXP => "REGEXP"
  | .RENAME => "RENAME"
  | .SELECT => "SELECT"
  | .UNIQUE => "UNIQUE"
  | .UPDATE => "UPDATE"
  | .VACUUM => "VACUUM"
  | .VALUES => "VALUES"
  | .ABORT => "ABORT"
  | .AFTER => "AFTER"
  | .ALTER => "ALTER"
  | .BEGIN => "BEGIN"
  | .CHECK => "CHECK"
  | .CROSS => "CROSS"
  | .FLOAT => "FLOAT"
  | .GROUP => "GROUP"
  | .INDEX => "INDEX"
  | .INNER => "INNER"
  | .LIMIT => "LIMIT"
  | .MATCH => "MATCH"
  | .ORDER => "ORDER"
  | .OUTER => "OUTER"
  | .QUERY => "QUERY"
  | .RAISE => "RAISE"
  | .RIGHT => "RIGHT"
  | .TABLE => "TABLE"
  | .UNION => "UNION"
  | .USING => "USING"
  | .WHERE => "WHERE"
  | .BLOB => "BLOB"
  | .CASE => "CASE"
  | .CAST => "CAST"
  | .DESC => "DESC"
  | .DROP => "DROP"
  | .EACH => "EACH"
  | .ELSE => "ELSE"
  | .FAIL => "FAIL"
  | .FROM => "FROM"
  | .FULL => "FULL"
  | .GLOB => "GLOB"
  | .INTO => "INTO"
  | .JOIN => "JOIN"
  | .LEFT => "LEFT"
  | .LIKE => "LIKE"
  | .LONG => "LONG"
  | .NULL => "NULL"
  | .PLAN => "PLAN"
  | .REAL => "REAL"
  | .TEMP => "TEMP"
  | .TEXT => "TEXT"
  | .THEN => "THEN"
  | .VIEW => "VIEW"
  | .WHEN => "WHEN"
  | .WITH => "WITH"
  | .ADD => "ADD"
  | .ALL => "ALL"
  | .AND => "AND"
  | .ASC => "ASC"
  | .END => "END"
  | .FOR => "FOR"
  | .INT => "INT"
  | .KEY => "KEY"
  | .NOT => "NOT"
  | .ROW => "ROW"
  | .SET => "SET"
  | .AS => "AS"
  | .BY => "BY"
  | .IF => "IF"
  | .IN => "IN"
  | .IS => "IS"
  | .NO => "NO"
  | .OF => "OF"
  | .ON => "ON"
  | .OR => "OR"
  | .TO => "TO"

def text (k : Keyword) : Str := k.spelling.toList

theorem mem_all (k : Keyword) : k ∈ all := by
  cases k <;> decide

end Keyword

/-- Token codes; `ch` is a character that stands for itself. -/
inductive TokenKind where
  | IDENTIFIER | STRING | FLOATVAL | INTVAL
  | NOTEQUALS | LESSEQ | GREATEREQ | CONCAT
  | EQUALS | ILIKE | LESS | GREATER | UMINUS
  | kw (k : Keyword)
  | ch (c : Char)
deriving DecidableEq

namespace TokenKind

/-- The member of the value union that a token sets. A `fval` is kept as the text `atof` reads. -/
abbrev Val : TokenKind → Type
  | IDENTIFIER => Str
  | STRING => Str
  | FLOATVAL => Str
  | INTVAL => Int
  | _ => Unit

/-- The text of a name or a string with a function run on it. -/
def rename (f : Str → Str) : (t : TokenKind) → t.Val → t.Val
  | IDENTIFIER => f
  | STRING => f
  | _ => id

end TokenKind

structure Token where
  kind : TokenKind
  val : kind.Val

namespace Token

def kw (k : Keyword) : Token := ⟨.kw k, ()⟩

def ch (c : Char) : Token := ⟨.ch c, ()⟩

def rename (f : Str → Str) (t : Token) : Token := ⟨t.kind, t.kind.rename f t.val⟩

end Token
end Hsql
