import Hsql.Parser.Grammar

/-! The tables that Bison makes for the grammar: the LALR(1) automaton, with conflicts resolved by
precedence and associativity, else for the shift or the earlier production, and in each state the
most frequent reduction as its default. -/

namespace Hsql
open Bison Keyword TokenKind

namespace Tables

def reduce (n : NT) (i : Nat) : Act grammar :=
  if h : i < (productions n).length then .reduce ⟨i, h⟩ else .error

def s (t : TokenKind) (q : Nat) : Option TokenKind × Act grammar := (t, .shift q)

def r (t : TokenKind) (n : NT) (i : Nat) : Option TokenKind × Act grammar := (t, reduce n i)

def e (t : TokenKind) : Option TokenKind × Act grammar := (t, .error)

/-- The lists of actions that states share. -/
def actions : List (List (Option TokenKind × Act grammar)) := [
  [s CREATE 1, s DELETE 2, s INSERT 3, s PRAGMA 4, s SELECT 5, s UPDATE 6, s ALTER 7, s DROP 8,
   s '(' 9],
  [s TRIGGER 24, s VIRTUAL 25, s UNIQUE 26, r INDEX .optUnique 1, s VIEW 27],
  [s FROM 30],
  [s OR 31],
  [s IDENTIFIER 33, s STRING 34, s FLOATVAL 35, s INTVAL 36, s RECURSIVE 37, s REPLACE 38,
   s EXISTS 39, s CASE 40, s NULL 41, s TEMP 42, s TEXT 43, s KEY 44, s NOT 45, s ON 46,
   s '-' 47, s '*' 48, s '(' 49, s '?' 50, s ':' 51],
  [s DISTINCT 72],
  [s IDENTIFIER 74, s STRING 34, s RECURSIVE 37, s REPLACE 38, s TEMP 42, s TEXT 43, s KEY 44,
   s ON 46],
  [s TABLE 78],
  [s TRIGGER 79, s INDEX 80, s TABLE 81, s VIEW 82],
  [s SELECT 5, s '(' 9],
  [(none, .accept)],
  [s ';' 86],
  [],
  [s INTERSECT 88, s EXCEPT 89, s UNION 90],
  [s INTERSECT 88, s EXCEPT 89, s ORDER 93, s UNION 90],
  [s IF 96],
  [s INDEX 99],
  [s TEMPORARY 100, s TEMP 101],
  [s REPLACE 104],
  [s INTO 105],
  [r '(' .stringOrToken 0, s '.' 106],
  [s '(' 107],
  [s IDENTIFIER 33, s STRING 34, s FLOATVAL 35, s INTVAL 36, s RECURSIVE 37, s REPLACE 38,
   s EXISTS 39, s CASE 40, s NULL 41, s TEMP 42, s TEXT 43, s WHEN 108, s KEY 44, s NOT 45,
   s ON 46, s '-' 47, s '*' 48, s '(' 49, s '?' 50, s ':' 51],
  [s IDENTIFIER 33, s STRING 34, s FLOATVAL 35, s INTVAL 36, s RECURSIVE 37, s REPLACE 38,
   s EXISTS 111, s CASE 40, s NULL 41, s TEMP 42, s TEXT 43, s KEY 44, s NOT 112, s ON 46,
   s '-' 47, s '*' 48, s '(' 49, s '?' 50, s ':' 51],
  [s IDENTIFIER 33, s STRING 34, s FLOATVAL 35, s INTVAL 36, s RECURSIVE 37, s REPLACE 38,
   s CASE 40, s NULL 41, s TEMP 42, s TEXT 43, s KEY 44, s NOT 112, s ON 46, s '-' 47, s '*' 48,
   s '(' 49, s '?' 50, s ':' 51],
  [s IDENTIFIER 33, s STRING 34, s FLOATVAL 35, s INTVAL 36, s RECURSIVE 37, s REPLACE 38,
   s EXISTS 39, s SELECT 5, s CASE 40, s NULL 41, s TEMP 42, s TEXT 43, s KEY 44, s NOT 45,
   s ON 46, s '-' 47, s '*' 48, s '(' 49, s '?' 50, s ':' 51],
  [s IDENTIFIER 117],
  [s AND 118, s OR 119],
  [s BETWEEN 120, s ISNULL 121, s MATCH 122, s LIKE 123, s NOT 124, s IN 125, s IS 126,
   s '=' 127, s NOTEQUALS 128, s ILIKE 129, s '<' 130, s '>' 131, s LESSEQ 132, s GREATEREQ 133,
   s '+' 134, s '-' 135, s '*' 136, s '/' 137, s '%' 138, s '^' 139, s CONCAT 140],
  [s '(' 141],
  [s SET 146],
  [s '.' 147],
  [s IF 149],
  [s ')' 154],
  [s ')' 155],
  [s ALL 160],
  [s BY 162],
  [s LIMIT 164],
  [s NOT 166],
  [s TABLE 170],
  [s WHERE 171],
  [s IDENTIFIER 74, s STRING 34, s RECURSIVE 37, s REPLACE 38, s TEMP 42, s TEXT 43, s KEY 44,
   s ON 46, s '*' 174],
  [s SELECT 5],
  [s WHEN 108, s AND 118, s OR 119],
  [s ELSE 179, s WHEN 180, s END 181],
  [s '(' 182],
  [s ISNULL 121, s MATCH 122, s LIKE 123, s NOT 183, s IS 126, s '=' 127, s NOTEQUALS 128,
   s ILIKE 129, s '<' 130, s '>' 131, s LESSEQ 132, s GREATEREQ 133, s '+' 134, s '-' 135,
   s '*' 136, s '/' 137, s '%' 138, s '^' 139, s CONCAT 140],
  [s MATCH 122, s '*' 136, s '/' 137, s '%' 138, s '^' 139, s CONCAT 140],
  [s ')' 184],
  [s AND 118, s OR 119, s ')' 185],
  [s LIKE 191, s IN 192],
  [s '(' 193],
  [s NULL 194, s NOT 195],
  [s DISTINCT 72, s ')' 210],
  [s FROM 212],
  [s ',' 214],
  [s IDENTIFIER 215, s STRING 216, s AND 118, s AS 217, s OR 119],
  [s RENAME 224, s ADD 225],
  [s EXISTS 226],
  [s ORDER 93],
  [s EXISTS 237],
  [s INSTEAD 238, s BEFORE 239, s AFTER 240],
  [s '(' 242],
  [s ')' 248],
  [s THEN 249, s AND 118, s OR 119],
  [s ELSE 250, s WHEN 180, s END 251],
  [s LIKE 191],
  [s AND 118],
  [s ISNULL 121, s MATCH 122, s LIKE 123, s AND 255, s NOT 183, s IS 126, s '=' 127,
   s NOTEQUALS 128, s ILIKE 129, s '<' 130, s '>' 131, s LESSEQ 132, s GREATEREQ 133, s '+' 134,
   s '-' 135, s '*' 136, s '/' 137, s '%' 138, s '^' 139, s CONCAT 140],
  [s ESCAPE 256, s ISNULL 121, s MATCH 122, e LIKE, s IS 126, e '=', e NOTEQUALS, e ILIKE,
   s '<' 130, s '>' 131, s LESSEQ 132, s GREATEREQ 133, s '+' 134, s '-' 135, s '*' 136,
   s '/' 137, s '%' 138, s '^' 139, s CONCAT 140],
  [s '(' 258],
  [s IDENTIFIER 33, s STRING 34, s FLOATVAL 35, s INTVAL 36, s RECURSIVE 37, s REPLACE 38,
   s EXISTS 39, s SELECT 5, s CASE 40, s NULL 41, s TEMP 42, s TEXT 43, s KEY 44, s NOT 45,
   s ON 46, s '-' 47, s '*' 48, s '(' 49, s ')' 259, s '?' 50, s ':' 51],
  [s NULL 262],
  [s ISNULL 121, s MATCH 122, e LIKE, s IS 126, e '=', e NOTEQUALS, e ILIKE, s '<' 130,
   s '>' 131, s LESSEQ 132, s GREATEREQ 133, s '+' 134, s '-' 135, s '*' 136, s '/' 137,
   s '%' 138, s '^' 139, s CONCAT 140],
  [s ESCAPE 263, s ISNULL 121, s MATCH 122, e LIKE, s IS 126, e '=', e NOTEQUALS, e ILIKE,
   s '<' 130, s '>' 131, s LESSEQ 132, s GREATEREQ 133, s '+' 134, s '-' 135, s '*' 136,
   s '/' 137, s '%' 138, s '^' 139, s CONCAT 140],
  [s ISNULL 121, s MATCH 122, s IS 126, e '<', e '>', e LESSEQ, e GREATEREQ, s '+' 134,
   s '-' 135, s '*' 136, s '/' 137, s '%' 138, s '^' 139, s CONCAT 140],
  [s MATCH 122, s '^' 139, s CONCAT 140],
  [s MATCH 122, s CONCAT 140],
  [s MATCH 122],
  [s IDENTIFIER 74, s STRING 34, s RECURSIVE 37, s REPLACE 38, s TEMP 42, s TEXT 43, s KEY 44,
   s ON 46, s '(' 265],
  [s IDENTIFIER 275, s STRING 276],
  [s WHERE 171, s ',' 277],
  [s '=' 279],
  [s COLUMN 280, s TO 281],
  [s ',' 285],
  [s COLLATE 286, s DESC 287, s AND 118, s ASC 288, s OR 119],
  [s OFFSET 291, s AND 118, s OR 119, s ',' 292],
  [s OF 293],
  [s DELETE 294, s INSERT 295, s UPDATE 296],
  [s AS 300],
  [s ON 301],
  [s SELECT 5, s VALUES 303],
  [s AND 118, s END 307, s OR 119],
  [s THEN 308, s AND 118, s OR 119],
  [s ')' 309],
  [s ESCAPE 312, s ISNULL 121, s MATCH 122, e LIKE, s IS 126, e '=', e NOTEQUALS, e ILIKE,
   s '<' 130, s '>' 131, s LESSEQ 132, s GREATEREQ 133, s '+' 134, s '-' 135, s '*' 136,
   s '/' 137, s '%' 138, s '^' 139, s CONCAT 140],
  [s IDENTIFIER 33, s STRING 34, s FLOATVAL 35, s INTVAL 36, s RECURSIVE 37, s REPLACE 38,
   s EXISTS 39, s SELECT 5, s CASE 40, s NULL 41, s TEMP 42, s TEXT 43, s KEY 44, s NOT 45,
   s ON 46, s '-' 47, s '*' 48, s '(' 49, s ')' 313, s '?' 50, s ':' 51],
  [s ')' 316],
  [s ')' 317, s ',' 214],
  [s ')' 319, s ',' 214],
  [s NATURAL 321, s CROSS 322, s INNER 323, s OUTER 324, s RIGHT 325, s FULL 326,
   r JOIN .optJoinType 9, s LEFT 327, r ',' .tableRefCommalist 0],
  [s ',' 329],
  [s INDEXED 330],
  [s GROUP 333],
  [s DATETIME 339, s BOOLEAN 340, s VARCHAR 341, s INTEGER 342, s DOUBLE 343, s FLOAT 344,
   s BLOB 345, s LONG 346, s REAL 347, s TEXT 348, s INT 349],
  [s IDENTIFIER 352],
  [s ON 355],
  [s ')' 356, s ',' 357],
  [s '(' 360],
  [s '(' 361],
  [s AND 118, s END 362, s OR 119],
  [s ')' 365],
  [s ')' 366, s ',' 214],
  [s ')' 367],
  [s JOIN 368],
  [s OUTER 369],
  [s OUTER 370],
  [s OUTER 371],
  [s JOIN 372],
  [s BY 374],
  [s IDENTIFIER 215, s STRING 216, s AS 217],
  [s BY 376],
  [s TO 377],
  [s AUTOINCREMENT 378, s REFERENCES 379, s DEFAULT 380, s NOTNULL 381, s PRIMARY 382,
   s UNIQUE 383, s NOT 384, s '(' 385],
  [s DESC 287, s ASC 288],
  [s '(' 393],
  [s NATURAL 321, s CROSS 322, s INNER 323, s OUTER 324, s RIGHT 325, s FULL 326,
   r JOIN .optJoinType 9, s LEFT 327, r ',' .tableRefCommalist 1],
  [s IDENTIFIER 400, s STRING 401],
  [s KEY 406],
  [s NULL 407],
  [s INTVAL 408],
  [s AUTOINCREMENT 378, s REFERENCES 379, s DEFAULT 380, s NOTNULL 381, s PRIMARY 382,
   s UNIQUE 383, s NOT 384],
  [s BEGIN 410],
  [s ',' 414],
  [s ')' 416, s ',' 214],
  [s NATURAL 321, s CROSS 322, s INNER 323, s OUTER 324, s RIGHT 325, s USING 417, s FULL 326,
   s LEFT 327, s ON 418],
  [s HAVING 419, s ',' 214],
  [s ')' 422],
  [s ')' 424, s ',' 425],
  [s COLLATE 426, s DESC 287, s ASC 288],
  [s FOREIGN 429, s PRIMARY 430, s UNIQUE 431, s CHECK 432],
  [s '(' 435],
  [s MATCH 439, s ON 440],
  [s KEY 447],
  [s KEY 448],
  [s '(' 449],
  [s '(' 450],
  [s ')' 451, s ',' 452],
  [s IDENTIFIER 453, s '*' 48],
  [s DELETE 456, s UPDATE 457],
  [s DEFERRABLE 458, s MATCH 439, s NOT 459, s ON 440],
  [s END 462],
  [s '(' 464],
  [s '(' 465],
  [s '.' 106],
  [s ')' 469],
  [s RESTRICT 470, s CASCADE 471, s SET 472, s NO 473],
  [s INITIALLY 476],
  [s DEFERRABLE 477],
  [s ')' 480, s ',' 357],
  [s AND 118, s OR 119, s ')' 481],
  [s DEFAULT 482, s NULL 483],
  [s ACTION 484],
  [s IMMEDIATE 485, s DEFERRED 486],
  [s INITIALLY 487],
  [s ')' 488, s ',' 357],
  [s ')' 489, s ',' 357],
  [s ON 490],
  [s IMMEDIATE 492, s DEFERRED 493],
  [s REFERENCES 379],
  [s CONFLICT 496],
  [s ROLLBACK 497, s REPLACE 498, s IGNORE 499, s ABORT 500, s FAIL 501]]

/-- The list of actions and the default of each state. The end of the input is accepted in state 10,
not shifted to state 85. -/
def states : List (Nat × Act grammar) := [
  (0, .error), (1, reduce .optVirtual 1), (2, .error), (3, reduce .optOrReplace 1), (4, .error),
  (5, reduce .optDistinct 1), (6, .error), (7, .error), (8, .error), (9, .error), (10, .error),
  (11, reduce .optSemicolon 1), (12, reduce .statementList 0), (12, reduce .statement 7),
  (12, reduce .statement 6), (12, reduce .statement 1), (12, reduce .statement 5),
  (12, reduce .statement 3), (12, reduce .statement 2), (12, reduce .statement 4),
  (12, reduce .statement 0), (13, reduce .selectStatement 0), (12, reduce .selectStatement 1),
  (14, reduce .optOrder 1), (15, reduce .optNotExists 1), (12, reduce .optVirtual 0),
  (12, reduce .optUnique 0), (15, reduce .optNotExists 1), (16, .error),
  (17, reduce .optTemporary 2), (6, .error), (18, .error), (19, .error),
  (20, reduce .columnName 0), (12, reduce .stringOrToken 1), (12, reduce .numLiteral 0),
  (12, reduce .intLiteral 0), (12, reduce .stringOrToken 2), (12, reduce .stringOrToken 7),
  (21, .error), (22, .error), (12, reduce .nullLiteral 0), (12, reduce .stringOrToken 6),
  (12, reduce .stringOrToken 3), (12, reduce .stringOrToken 5), (23, .error),
  (12, reduce .stringOrToken 4), (24, .error), (12, reduce .columnName 2), (25, .error),
  (12, reduce .paramExpr 0), (26, .error), (27, reduce .pragmaStatement 0), (28, reduce .expr 0),
  (12, reduce .operand 1), (12, reduce .operand 2), (12, reduce .operand 3),
  (12, reduce .expr 2), (12, reduce .expr 4), (12, reduce .operand 4), (12, reduce .expr 3),
  (12, reduce .binaryExpr 0), (12, reduce .operand 5), (12, reduce .expr 1),
  (12, reduce .scalarExpr 0), (12, reduce .scalarExpr 1), (12, reduce .literal 0),
  (12, reduce .literal 1), (12, reduce .numLiteral 1), (12, reduce .literal 2),
  (12, reduce .literal 3), (29, reduce .stringLiteral 0), (12, reduce .optDistinct 0),
  (4, .error), (12, reduce .stringOrToken 0), (30, .error), (12, reduce .tableRefNameNoAlias 0),
  (31, reduce .tableName 0), (6, .error), (32, reduce .optExists 1), (32, reduce .optExists 1),
  (32, reduce .optExists 1), (32, reduce .optExists 1), (33, .error), (34, .error), (12, .error),
  (0, reduce .optSemicolon 0), (12, reduce .input 0), (12, reduce .setType 1),
  (12, reduce .setType 2), (12, reduce .setType 0), (9, .error), (35, reduce .optAll 1),
  (36, .error), (9, .error), (37, reduce .optLimit 3), (38, .error), (6, .error), (6, .error),
  (15, reduce .optNotExists 1), (12, reduce .optTemporary 1), (12, reduce .optTemporary 0),
  (39, .error), (40, reduce .optWhere 1), (12, reduce .optOrReplace 0), (6, .error),
  (41, .error), (42, .error), (4, .error), (43, .error), (44, .error), (45, .error),
  (24, .error), (46, reduce .unaryExpr 1), (47, reduce .unaryExpr 0), (48, .error), (49, .error),
  (12, reduce .paramExpr 1), (4, .error), (4, .error), (24, .error), (12, reduce .unaryExpr 2),
  (24, .error), (24, .error), (50, .error), (51, .error), (52, .error), (24, .error),
  (24, .error), (24, .error), (24, .error), (24, .error), (24, .error), (24, .error),
  (24, .error), (24, .error), (24, .error), (24, .error), (24, .error), (24, .error),
  (24, .error), (53, reduce .optDistinct 1), (54, .error), (55, reduce .selectList 0),
  (12, reduce .exprList 0), (56, reduce .optAlias 1), (6, .error), (6, .error), (57, .error),
  (58, .error), (6, .error), (6, .error), (6, .error), (6, .error),
  (12, reduce .selectWithParen 1), (12, reduce .selectWithParen 0),
  (12, reduce .statementList 1), (12, reduce .selectParenOrClause 0), (59, reduce .optOrder 1),
  (12, reduce .selectParenOrClause 1), (12, reduce .optAll 0), (12, reduce .setOperator 0),
  (4, .error), (59, reduce .optOrder 1), (4, .error), (12, reduce .selectNoParen 0),
  (60, .error), (61, .error), (62, reduce .optColumnList 1), (6, .error),
  (15, reduce .optNotExists 1), (4, .error), (12, reduce .deleteStatement 0),
  (62, reduce .optColumnList 1), (12, reduce .columnName 3), (12, reduce .columnName 1),
  (63, .error), (64, .error), (65, .error), (4, .error), (4, .error), (12, reduce .caseExpr 2),
  (42, .error), (66, .error), (12, reduce .operand 6), (12, reduce .operand 0),
  (12, reduce .logicExpr 0), (67, reduce .logicExpr 1), (68, .error),
  (46, reduce .binaryExpr 14), (69, reduce .binaryExpr 7), (24, .error), (70, .error),
  (71, .error), (12, reduce .unaryExpr 3), (72, .error), (73, reduce .compExpr 0),
  (73, reduce .compExpr 1), (74, reduce .binaryExpr 9), (75, reduce .compExpr 2),
  (75, reduce .compExpr 3), (75, reduce .compExpr 4), (75, reduce .compExpr 5),
  (47, reduce .binaryExpr 2), (47, reduce .binaryExpr 1), (76, reduce .binaryExpr 4),
  (76, reduce .binaryExpr 3), (76, reduce .binaryExpr 5), (77, reduce .binaryExpr 6),
  (78, reduce .binaryExpr 13), (12, reduce .functionExpr 0), (4, .error), (79, .error),
  (40, reduce .optWhere 1), (4, .error), (12, reduce .«alias» 2), (12, reduce .«alias» 3),
  (80, .error), (12, reduce .optAlias 0), (12, reduce .exprAlias 0), (81, reduce .optWhere 1),
  (12, reduce .updateClauseCommalist 0), (82, .error), (12, reduce .tableName 1), (83, .error),
  (6, .error), (12, reduce .optExists 0), (12, reduce .dropStatement 2),
  (12, reduce .dropStatement 3), (12, reduce .dropStatement 0), (12, reduce .dropStatement 1),
  (37, reduce .optLimit 3), (84, reduce .optOrder 0), (12, reduce .orderList 0),
  (85, reduce .optOrderType 2), (37, reduce .optLimit 3), (86, reduce .optLimit 0),
  (12, reduce .optNotExists 0), (87, .error), (12, reduce .triggerType 0),
  (12, reduce .triggerType 1), (88, .error), (6, .error), (89, .error), (90, .error),
  (6, .error), (27, reduce .optWhere 0), (91, .error), (12, reduce .existsExpr 0), (4, .error),
  (4, .error), (12, reduce .caseExpr 0), (92, .error), (93, .error), (94, .error), (24, .error),
  (24, .error), (95, reduce .binaryExpr 8), (96, .error), (12, reduce .inExpr 4), (97, .error),
  (98, .error), (12, reduce .unaryExpr 4), (24, .error), (99, .error), (9, .error),
  (12, reduce .fromClause 0), (100, reduce .tableRef 0), (12, reduce .tableRefAtomic 0),
  (101, .error), (12, reduce .nonjoinTableRefAtomic 0), (102, reduce .optIndexedBy 1),
  (12, reduce .tableRefAtomic 1), (103, reduce .optGroup 1), (12, reduce .exprList 1),
  (12, reduce .«alias» 0), (12, reduce .«alias» 1), (6, .error), (12, reduce .updateStatement 0),
  (4, .error), (6, .error), (6, .error), (12, reduce .alterStatement 2), (104, .error),
  (12, reduce .selectStatement 2), (4, .error), (105, .error), (12, reduce .optOrderType 1),
  (12, reduce .optOrderType 0), (12, reduce .orderDesc 1), (12, reduce .selectNoParen 1),
  (4, .error), (4, .error), (12, reduce .triggerType 2), (12, reduce .triggerEvent 0),
  (12, reduce .triggerEvent 1), (12, reduce .triggerEvent 2), (106, .error), (107, .error),
  (12, reduce .identCommalist 0), (9, .error), (6, .error), (108, .error), (109, .error),
  (12, reduce .insertStatement 1), (27, reduce .caseList 0), (110, .error),
  (12, reduce .caseExpr 3), (4, .error), (12, reduce .existsExpr 1), (46, reduce .betweenExpr 0),
  (46, reduce .binaryExpr 10), (24, .error), (12, reduce .inExpr 5), (111, .error),
  (112, .error), (12, reduce .inExpr 2), (12, reduce .inExpr 0), (46, reduce .binaryExpr 12),
  (12, reduce .functionExpr 1), (113, .error), (114, .error), (12, reduce .optJoinType 8),
  (12, reduce .optJoinType 0), (12, reduce .optJoinType 6), (115, reduce .optJoinType 4),
  (116, reduce .optJoinType 7), (117, reduce .optJoinType 2), (118, .error), (79, .error),
  (119, .error), (12, reduce .optIndexedBy 0), (120, reduce .optAlias 1), (121, .error),
  (12, reduce .selectClause 0), (12, reduce .updateClauseCommalist 1),
  (27, reduce .updateClause 0), (122, .error), (12, reduce .alterStatement 0),
  (12, reduce .columnType 10), (12, reduce .columnType 3), (12, reduce .columnType 9),
  (12, reduce .columnType 1), (12, reduce .columnType 7), (12, reduce .columnType 8),
  (12, reduce .columnType 5), (12, reduce .columnType 2), (12, reduce .columnType 6),
  (12, reduce .columnType 4), (12, reduce .columnType 0),
  (123, reduce .columnConstraintListNullable 1), (12, reduce .orderList 1),
  (124, reduce .optOrderType 2), (27, reduce .optLimit 1), (27, reduce .optLimit 2), (6, .error),
  (12, reduce .optColumnList 0), (6, .error), (12, reduce .createStatement 1), (125, .error),
  (6, .error), (4, .error), (12, reduce .caseExpr 1), (27, reduce .caseList 1),
  (46, reduce .binaryExpr 11), (12, reduce .inExpr 3), (12, reduce .inExpr 1),
  (120, reduce .optAlias 1), (79, .error), (12, reduce .optJoinType 3),
  (12, reduce .optJoinType 5), (12, reduce .optJoinType 1), (79, .error),
  (126, reduce .tableRef 1), (127, .error), (12, reduce .tableRefName 0), (4, .error),
  (6, .error), (12, reduce .columnConstraint 5), (6, .error), (4, .error),
  (12, reduce .columnConstraint 2), (128, .error), (12, reduce .columnConstraint 3),
  (129, .error), (130, .error), (12, reduce .columnDef 0),
  (131, reduce .columnConstraintListNullable 0), (12, reduce .columnConstraintList 0),
  (12, reduce .columnConstraint 6), (12, reduce .orderDesc 0), (132, .error),
  (12, reduce .identCommalist 1), (6, .error), (133, reduce .optComa 1),
  (12, reduce .columnDefCommalist 0), (134, .error), (12, reduce .nonjoinTableRefAtomic 1),
  (12, reduce .joinClause 0), (135, reduce .optJoinType 9), (12, reduce .indexedBy 0),
  (12, reduce .indexedBy 1), (136, reduce .optHaving 1), (12, reduce .alterStatement 1),
  (62, reduce .optColumnList 1), (27, reduce .columnConstraint 4),
  (12, reduce .columnConstraint 0), (12, reduce .columnConstraint 1), (137, .error),
  (12, reduce .columnConstraintList 1), (0, .error), (138, .error),
  (12, reduce .indexedColumnList 0), (139, reduce .optOrderType 2), (6, reduce .optComa 0),
  (140, reduce .optTableConstraintList 2), (12, reduce .insertStatement 0), (141, .error),
  (4, .error), (4, .error), (12, reduce .optGroup 0), (142, reduce .foreignKeyEventList 2),
  (131, reduce .columnConstraintListNullable 1), (11, reduce .optSemicolon 1),
  (12, reduce .createStatement 2), (6, .error), (6, .error), (12, reduce .indexedColumn 0),
  (12, reduce .columnDefCommalist 1), (143, .error), (144, .error), (145, .error), (146, .error),
  (147, .error), (12, reduce .optTableConstraintList 0), (148, .error),
  (27, reduce .joinCondition 0), (12, reduce .joinClause 1), (27, reduce .optHaving 0),
  (6, .error), (149, .error), (150, reduce .optForeignKeyDeferrable 6),
  (12, reduce .foreignKeyEventList 0), (12, reduce .columnDef 1), (151, .error),
  (12, reduce .indexedColumnList 1), (124, reduce .optOrderType 2), (152, .error), (153, .error),
  (6, .error), (4, .error), (12, reduce .createStatement 0), (140, .error),
  (154, reduce .columnName 0), (155, .error), (12, reduce .foreignKeyEvent 2), (156, .error),
  (156, .error), (157, reduce .optForeignKeyDeferrable 5), (158, .error),
  (12, reduce .foreignKeyConstraint 0), (12, reduce .foreignKeyEventList 1),
  (12, reduce .createStatement 3), (12, reduce .indexedColumn 1), (6, .error), (6, .error),
  (159, .error), (160, .error), (12, reduce .optTableConstraintList 1),
  (12, reduce .joinClause 2), (12, reduce .foreignKeyAction 3), (12, reduce .foreignKeyAction 2),
  (161, .error), (162, .error), (12, reduce .foreignKeyEvent 0), (12, reduce .foreignKeyEvent 1),
  (163, .error), (164, reduce .optForeignKeyDeferrable 3), (165, .error), (166, .error),
  (167, reduce .optConflictClause 5), (12, reduce .tableConstraint 3),
  (12, reduce .foreignKeyAction 1), (12, reduce .foreignKeyAction 0),
  (12, reduce .foreignKeyAction 4), (12, reduce .optForeignKeyDeferrable 4),
  (12, reduce .optForeignKeyDeferrable 0), (168, .error), (169, .error),
  (167, reduce .optConflictClause 5), (170, .error), (12, reduce .tableConstraint 2),
  (12, reduce .optForeignKeyDeferrable 2), (12, reduce .optForeignKeyDeferrable 1),
  (12, reduce .tableConstraint 0), (12, reduce .tableConstraint 1), (171, .error),
  (12, reduce .optConflictClause 0), (12, reduce .optConflictClause 4),
  (12, reduce .optConflictClause 3), (12, reduce .optConflictClause 1),
  (12, reduce .optConflictClause 2)]

/-- The states in which an operand can begin. -/
def operandStates : List Nat := [
  4, 40, 45, 47, 49, 73, 108, 112, 118, 119, 120, 122, 123, 127, 128, 129, 130, 131, 132, 133,
  134, 135, 136, 137, 138, 139, 140, 162, 164, 171, 179, 180, 191, 193, 211, 214, 249, 250, 255,
  256, 258, 263, 279, 285, 291, 292, 308, 312, 361, 376, 380, 418, 419, 450]

/-- The states in which an expression can begin. -/
def exprStates : List Nat := [
  4, 40, 49, 73, 108, 118, 119, 162, 164, 171, 179, 180, 193, 211, 214, 249, 250, 258, 279, 285,
  291, 292, 308, 361, 376, 380, 418, 419, 450]

/-- The states in which a statement can begin. -/
def statementStates : List Nat := [0, 86, 410]

/-- The states that a nonterminal leads on from, with the state it leads to. -/
def gotos : NT → List (Nat × Nat)
  | .input => [(0, 10)]
  | .statementList => [(0, 11), (410, 423)]
  | .statement => [(0, 12), (86, 156), (410, 12)]
  | .alterStatement => statementStates.map (·, 13)
  | .pragmaStatement => statementStates.map (·, 14)
  | .createStatement => statementStates.map (·, 15)
  | .indexedColumnList => [(393, 411)]
  | .indexedColumn => [(393, 412), (425, 445)]
  | .optUnique => [(1, 28)]
  | .optNotExists => [(24, 97), (27, 98), (99, 169), (170, 245)]
  | .optVirtual => [(1, 29)]
  | .optTemporary => [(29, 102)]
  | .columnDefCommalist => [(360, 394)]
  | .columnDef => [(225, 282), (360, 395), (414, 428)]
  | .columnConstraintListNullable => [(350, 386), (422, 443)]
  | .columnConstraintList => [(350, 387), (422, 387)]
  | .columnConstraint => [(350, 388), (387, 409), (422, 388)]
  | .foreignKeyConstraint => [(350, 389), (387, 389), (422, 389), (488, 494)]
  | .optForeignKeyDeferrable => [(441, 460)]
  | .foreignKeyEventList => [(421, 441)]
  | .foreignKeyEvent => [(421, 442), (441, 461)]
  | .foreignKeyAction => [(456, 474), (457, 475)]
  | .columnType => [(283, 350)]
  | .triggerType => [(167, 241)]
  | .triggerEvent => [(241, 297)]
  | .optTableConstraintList => [(415, 433)]
  | .tableConstraint => [(415, 434), (452, 468)]
  | .optConflictClause => [(480, 491), (489, 495)]
  | .dropStatement => statementStates.map (·, 16)
  | .optExists => [(79, 150), (80, 151), (81, 152), (82, 153)]
  | .deleteStatement => statementStates.map (·, 17)
  | .insertStatement => statementStates.map (·, 18)
  | .optOrReplace => [(3, 32)]
  | .optColumnList => [(168, 243), (173, 247), (404, 421)]
  | .updateStatement => statementStates.map (·, 19)
  | .updateClauseCommalist => [(146, 220)]
  | .updateClause => [(146, 221), (277, 335)]
  | .selectStatement => [(0, 20), (86, 20), (265, 320), (300, 358), (410, 20)]
  | .selectWithParen => [
      (0, 21), (9, 83), (86, 21), (91, 157), (94, 157), (265, 21), (300, 21), (410, 21)]
  | .selectParenOrClause => [(91, 158), (94, 163)]
  | .selectNoParen => [
      (0, 22), (9, 84), (49, 115), (86, 22), (107, 176), (182, 254), (193, 260), (247, 304),
      (258, 314), (265, 22), (300, 22), (410, 22)]
  | .setOperator => [(21, 91), (23, 94)]
  | .setType => [(21, 92), (23, 92)]
  | .optAll => [(92, 161)]
  | .selectClause => [
      (0, 23), (9, 23), (49, 23), (86, 23), (91, 159), (94, 159), (107, 23), (182, 23),
      (193, 23), (247, 23), (258, 23), (265, 23), (300, 23), (410, 23)]
  | .optDistinct => [(5, 73), (141, 211)]
  | .selectList => [(73, 142)]
  | .fromClause => [(142, 213)]
  | .optWhere => [(103, 172), (213, 273), (220, 278)]
  | .optGroup => [(273, 334)]
  | .optHaving => [(402, 420)]
  | .optOrder => [(23, 95), (158, 231), (163, 235)]
  | .orderList => [(162, 232)]
  | .orderDesc => [(162, 233), (285, 351)]
  | .optOrderType => [(234, 289), (352, 390), (413, 427), (446, 463)]
  | .optLimit => [(95, 165), (231, 284), (235, 290)]
  | .exprList => [(73, 143), (193, 261), (211, 264), (258, 315), (361, 396), (376, 402)]
  | .exprAlias => [
      (73, 144), (193, 144), (211, 144), (214, 274), (258, 144), (361, 144), (376, 144)]
  | .expr => [
      (4, 52), (40, 109), (49, 116), (73, 145), (108, 177), (118, 186), (119, 187), (162, 234),
      (164, 236), (171, 246), (179, 252), (180, 253), (193, 145), (211, 145), (214, 145),
      (249, 305), (250, 306), (258, 145), (279, 336), (285, 234), (291, 353), (292, 354),
      (308, 363), (361, 145), (376, 145), (380, 405), (418, 436), (419, 438), (450, 467)]
  | .operand => exprStates.map (·, 53) ++ [
      (45, 113), (47, 114), (112, 113), (120, 188), (122, 189), (123, 190), (127, 196),
      (128, 197), (129, 198), (130, 199), (131, 200), (132, 201), (133, 202), (134, 203),
      (135, 204), (136, 205), (137, 206), (138, 207), (139, 208), (140, 209), (191, 257),
      (255, 310), (256, 311), (263, 318), (312, 364)]
  | .scalarExpr => operandStates.map (·, 54)
  | .unaryExpr => operandStates.map (·, 55)
  | .binaryExpr => operandStates.map (·, 56)
  | .logicExpr => exprStates.map (·, 57)
  | .inExpr => exprStates.map (·, 58)
  | .caseExpr => operandStates.map (·, 59)
  | .caseList => [(40, 110), (109, 178)]
  | .existsExpr => exprStates.map (·, 60)
  | .compExpr => operandStates.map (·, 61)
  | .functionExpr => operandStates.map (·, 62)
  | .betweenExpr => exprStates.map (·, 63)
  | .columnName => operandStates.map (·, 64) ++ [(435, 454)]
  | .literal => operandStates.map (·, 65)
  | .stringLiteral => operandStates.map (·, 66)
  | .numLiteral => operandStates.map (·, 67)
  | .intLiteral => operandStates.map (·, 68)
  | .nullLiteral => operandStates.map (·, 69)
  | .paramExpr => operandStates.map (·, 70)
  | .tableRef => [(212, 266)]
  | .tableRefAtomic => [(212, 267), (329, 373), (372, 399)]
  | .nonjoinTableRefAtomic => [(212, 268), (329, 268), (368, 398), (372, 268)]
  | .tableRefCommalist => [(212, 269)]
  | .tableRefName => [(212, 270), (329, 270), (368, 270), (372, 270)]
  | .indexedBy => [(271, 331)]
  | .optIndexedBy => [(271, 332)]
  | .tableRefNameNoAlias => [(6, 75)]
  | .tableName => [
      (6, 76), (30, 103), (78, 148), (98, 168), (105, 173), (152, 229), (153, 230), (212, 271),
      (245, 302), (301, 359), (329, 271), (355, 391), (368, 271), (372, 271)]
  | .«alias» => [(145, 218), (332, 218), (367, 218)]
  | .optAlias => [(145, 219), (332, 375), (367, 397)]
  | .joinClause => [(212, 272), (329, 272), (372, 272)]
  | .optJoinType => [(267, 328), (373, 328), (399, 328)]
  | .joinCondition => [(418, 437)]
  | .optSemicolon => [(11, 87), (423, 444)]
  | .optComa => [(394, 415)]
  | .identCommalist => [(242, 298), (449, 466), (464, 478), (465, 479)]
  | .stringOrToken => operandStates.map (·, 71) ++ [
      (6, 77), (30, 77), (78, 77), (97, 167), (98, 77), (105, 77), (106, 175), (146, 222),
      (147, 223), (150, 227), (151, 228), (152, 77), (153, 77), (169, 244), (212, 77),
      (225, 283), (242, 299), (245, 77), (277, 222), (280, 337), (281, 338), (301, 77),
      (329, 77), (355, 77), (357, 392), (360, 283), (368, 77), (372, 77), (377, 403), (379, 404),
      (393, 413), (414, 283), (425, 413), (426, 446), (439, 455), (449, 299), (464, 299),
      (465, 299)]

end Tables

def automaton : Automaton grammar where
  row q :=
    match Tables.states[q]? with
    | some (i, d) => ⟨Tables.actions.getD i [], d⟩
    | none => ⟨[], .error⟩
  goto q n := (Tables.gotos n).lookup q

end Hsql
