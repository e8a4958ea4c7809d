import Hsql.Parser.Production

/-! Productions of expressions, names and lists of these. -/

namespace Hsql
open NT Keyword TokenKind Expr

def exprListRules : List (Production exprList) := [
  rule [exprAlias] fun (e, _) => vector e,
  deref [exprList, ',', exprAlias] fun (l, _, e, _) => pushBack l e]

def exprAliasRules : List (Production exprAlias) := [
  deref [expr, optAlias] fun (e, a, _) => e.map fun e => some { e with «alias» := a }]

def exprRules : List (Production expr) := [
  rule [operand] fun (e, _) => e,
  rule [betweenExpr] fun (e, _) => e,
  rule [logicExpr] fun (e, _) => e,
  rule [existsExpr] fun (e, _) => e,
  rule [inExpr] fun (e, _) => e]

def operandRules : List (Production operand) := [
  rule ['(', expr, ')'] fun (_, e, _) => e,
  rule [scalarExpr] fun (e, _) => e,
  rule [unaryExpr] fun (e, _) => e,
  rule [binaryExpr] fun (e, _) => e,
  rule [caseExpr] fun (e, _) => e,
  rule [functionExpr] fun (e, _) => e,
  rule ['(', selectNoParen, ')'] fun (_, s, _) => makeSelect s]

def scalarExprRules : List (Production scalarExpr) := [
  rule [columnName] fun (e, _) => e,
  rule [literal] fun (e, _) => e]

def unaryExprRules : List (Production unaryExpr) := [
  rule ['-', operand] fun (_, e, _) => makeOpUnary .kOpUnaryMinus e,
  rule [NOT, operand] fun (_, e, _) => makeOpUnary .kOpNot e,
  rule [operand, ISNULL] fun (e, _) => makeOpUnary .kOpIsNull e,
  rule [operand, IS, NULL] fun (e, _) => makeOpUnary .kOpIsNull e,
  rule [operand, IS, NOT, NULL] fun (e, _) => makeOpUnary .kOpNot (makeOpUnary .kOpIsNull e)]

def binaryExprRules : List (Production binaryExpr) := [
  rule [compExpr] fun (e, _) => e,
  rule [operand, '-', operand] fun (a, _, b, _) => makeOpBinary a .kOpMinus b,
  rule [operand, '+', operand] fun (a, _, b, _) => makeOpBinary a .kOpPlus b,
  rule [operand, '/', operand] fun (a, _, b, _) => makeOpBinary a .kOpSlash b,
  rule [operand, '*', operand] fun (a, _, b, _) => makeOpBinary a .kOpAsterisk b,
  rule [operand, '%', operand] fun (a, _, b, _) => makeOpBinary a .kOpPercentage b,
  rule [operand, '^', operand] fun (a, _, b, _) => makeOpBinary a .kOpCaret b,
  rule [operand, LIKE, operand] fun (a, _, b, _) => makeOpBinary a .kOpLike b,
  rule [operand, NOT, LIKE, operand] fun (a, _, _, b, _) => makeOpBinary a .kOpNotLike b,
  rule [operand, ILIKE, operand] fun (a, _, b, _) => makeOpBinary a .kOpILike b,
  rule [operand, LIKE, operand, ESCAPE, operand] fun (a, _, b, _, c, _) =>
    some { makeOpBinary a .kOpLike b with escape := c },
  rule [operand, NOT, LIKE, operand, ESCAPE, operand] fun (a, _, _, b, _, c, _) =>
    some { makeOpBinary a .kOpNotLike b with escape := c },
  rule [operand, ILIKE, operand, ESCAPE, operand] fun (a, _, b, _, c, _) =>
    some { makeOpBinary a .kOpILike b with escape := c },
  rule [operand, CONCAT, operand] fun (a, _, b, _) => makeOpBinary a .kOpConcat b,
  rule [operand, MATCH, operand] fun (a, _, b, _) => makeOpBinary a .kOpMatch b]

def logicExprRules : List (Production logicExpr) := [
  rule [expr, AND, expr] fun (a, _, b, _) => makeOpBinary a .kOpAnd b,
  rule [expr, OR, expr] fun (a, _, b, _) => makeOpBinary a .kOpOr b]

def inExprRules : List (Production inExpr) := [
  rule [operand, IN, '(', exprList, ')'] fun (e, _, _, l, _) => makeInList e l,
  rule [operand, NOT, IN, '(', exprList, ')'] fun (e, _, _, _, l, _) =>
    makeOpUnary .kOpNot (makeInList e l),
  rule [operand, IN, '(', selectNoParen, ')'] fun (e, _, _, s, _) => makeInSelect e s,
  rule [operand, NOT, IN, '(', selectNoParen, ')'] fun (e, _, _, _, s, _) =>
    makeOpUnary .kOpNot (makeInSelect e s),
  rule [operand, IN, '(', ')'] fun (e, _) => makeInEmpty e,
  rule [operand, NOT, IN, '(', ')'] fun (e, _) => makeOpUnary .kOpNot (makeInEmpty e)]

def caseExprRules : List (Production caseExpr) := [
  deref [CASE, expr, caseList, END] fun (_, e, l, _) => (makeCase e l none).map some,
  deref [CASE, expr, caseList, ELSE, expr, END] fun (_, e, l, _, b, _) =>
    (makeCase e l b).map some,
  deref [CASE, caseList, END] fun (_, l, _) => (makeCase none l none).map some,
  deref [CASE, caseList, ELSE, expr, END] fun (_, l, _, b, _) => (makeCase none l b).map some]

def caseListRules : List (Production caseList) := [
  rule [WHEN, expr, THEN, expr] fun (_, a, _, b, _) => makeCaseList (makeCaseListElement a b),
  deref [caseList, WHEN, expr, THEN, expr] fun (l, _, a, _, b, _) =>
    (caseListAppend l (makeCaseListElement a b)).map some]

def existsExprRules : List (Production existsExpr) := [
  rule [EXISTS, '(', selectNoParen, ')'] fun (_, _, s, _) => makeExists s,
  rule [NOT, EXISTS, '(', selectNoParen, ')'] fun (_, _, _, s, _) =>
    makeOpUnary .kOpNot (makeExists s)]

def compExprRules : List (Production compExpr) := [
  rule [operand, '=', operand] fun (a, _, b, _) => makeOpBinary a .kOpEquals b,
  rule [operand, NOTEQUALS, operand] fun (a, _, b, _) => makeOpBinary a .kOpNotEquals b,
  rule [operand, '<', operand] fun (a, _, b, _) => makeOpBinary a .kOpLess b,
  rule [operand, '>', operand] fun (a, _, b, _) => makeOpBinary a .kOpGreater b,
  rule [operand, LESSEQ, operand] fun (a, _, b, _) => makeOpBinary a .kOpLessEq b,
  rule [operand, GREATEREQ, operand] fun (a, _, b, _) => makeOpBinary a .kOpGreaterEq b]

def functionExprRules : List (Production functionExpr) := [
  rule [stringOrToken, '(', ')'] fun (f, _) => makeFunctionRef f (some []) false,
  rule [stringOrToken, '(', optDistinct, exprList, ')'] fun (f, _, d, l, _) =>
    makeFunctionRef f l d]

def betweenExprRules : List (Production betweenExpr) := [
  rule [operand, BETWEEN, operand, AND, operand] fun (a, _, b, _, c, _) => makeBetween a b c]

def columnNameRules : List (Production columnName) := [
  rule [IDENTIFIER] fun (a, _) => makeColumnRef (some a),
  rule [IDENTIFIER, '.', stringOrToken] fun (t, _, a, _) => makeTableColumnRef (some t) a,
  rule ['*'] fun _ => makeStar,
  rule [IDENTIFIER, '.', '*'] fun (t, _) => makeTableStar (some t)]

def literalRules : List (Production literal) := [
  rule [stringLiteral] fun (e, _) => e,
  rule [numLiteral] fun (e, _) => e,
  rule [nullLiteral] fun (e, _) => e,
  rule [paramExpr] fun (e, _) => e]

def stringLiteralRules : List (Production stringLiteral) := [
  rule [stringOrToken] fun (a, _) => makeLiteralString a]

def numLiteralRules : List (Production numLiteral) := [
  rule [FLOATVAL] fun (a, _) => makeLiteralFloat a,
  rule [intLiteral] fun (e, _) => e]

def intLiteralRules : List (Production intLiteral) := [
  rule [INTVAL] fun (a, _) => makeLiteralInt a]

def nullLiteralRules : List (Production nullLiteral) := [
  rule [NULL] fun _ => makeNullLiteral]

/-- A `?` gets its place in the text as its first number, and its place in the list as its
second. -/
def paramExprRules : List (Production paramExpr) := [
  effect ['?'] fun _ yylloc s =>
    let (a, s) := s.newParam
    let param := { Parameter.new a yylloc.totalColumn with ival2 := s.paramList.length }
    some (some (makeParameter a), { s with paramList := s.paramList ++ [param] }),
  rule [':', IDENTIFIER] fun (_, a, _) => makeNamedParameter (some a)]

def identCommalistRules : List (Production identCommalist) := [
  rule [stringOrToken] fun (a, _) => vector a,
  deref [identCommalist, ',', stringOrToken] fun (l, _, a, _) => pushBack l a]

def stringOrTokenRules : List (Production stringOrToken) := [
  rule [IDENTIFIER] fun (a, _) => some a,
  rule [STRING] fun (a, _) => some a,
  rule [RECURSIVE] fun _ => strdup "recursive",
  rule [TEXT] fun _ => strdup "text",
  rule [ON] fun _ => strdup "ON",
  rule [KEY] fun _ => strdup "key",
  rule [TEMP] fun _ => strdup "temp",
  rule [REPLACE] fun _ => strdup "replace"]

def aliasRules : List (Production «alias») := [
  rule [AS, IDENTIFIER] fun (_, a, _) => some a,
  rule [AS, STRING] fun (_, a, _) => some a,
  rule [IDENTIFIER] fun (a, _) => some a,
  rule [STRING] fun (a, _) => some a]

def optAliasRules : List (Production optAlias) := [
  rule [«alias»] fun (a, _) => a,
  rule [] fun _ => none]

end Hsql
