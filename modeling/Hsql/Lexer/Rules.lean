import Hsql.Flex.Scanner
import Hsql.Lexer.Token
import Mathlib.Algebra.Group.Int.Defs

/-! The rules of the lexer, in their order in the source, and the token sequence of a text. -/

namespace Hsql
open Flex

inductive Start where
  | INITIAL
  | COMMENT
deriving DecidableEq

def substr (source : Str) (start stop : Nat) : Str := (source.drop start).take (stop - start)

def digits (ds : Str) : Nat := ds.foldl (fun n c => 10 * n + (c.toNat - '0'.toNat)) 0

/-- `atol` on an optional minus sign and digits; out of range it clamps as `strtol` does. -/
def atol : Str → Int
  | '-' :: ds => max (-2 ^ 63) (-(digits ds : Int))
  | ds => min (2 ^ 63 - 1) (digits ds : Int)

namespace Lexer

/-- Flex's `case-insensitive` option turns each letter of a literal into both its cases. -/
def letter (c : Char) : CharClass := ⟨false, [(c.toUpper, c.toUpper), (c.toLower, c.toLower)]⟩

def caseInsensitive : Str → Regex
  | [] => .eps
  | c :: cs => .seq (.cls (letter c)) (caseInsensitive cs)

def blank : CharClass := .of [' ', '\t', '\n']

def digit : CharClass := ⟨false, [('0', '9')]⟩

def alpha : CharClass := ⟨false, [('A', 'Z'), ('a', 'z')]⟩

def wordChar : CharClass := ⟨false, [('A', 'Z'), ('a', 'z'), ('0', '9'), ('_', '_')]⟩

def punctuation : CharClass :=
  .of ['-', '+', '*', '/', '(', ')', '{', '}', ',', '.', ';', '<', '>', '=', '^', '%', ':', '?',
    '[', ']', '|']

def quoteChar : CharClass := .of ['"', '`']

/-- Pattern of a string's body: `(?:[^']+|'')*`. -/
def stringBody : Regex :=
  .star (.alt (.plus (.cls (.except ['\'']))) (.lit ['\'', '\'']))

def integer : Regex := .seq (.opt (.chr '-')) (.plus (.cls digit))

def fraction : Regex := .seq (.chr '.') (.star (.cls digit))

abbrev LexRule := Rule Start Token

def always (p : Regex) (a : Str → Action Start Token) : LexRule := ⟨fun _ => true, p, a⟩

def inComment (p : Regex) (a : Action Start Token) : LexRule := ⟨(· == .COMMENT), p, fun _ => a⟩

def commentStart : LexRule := always (.lit ['-', '-']) fun _ => .BEGIN .COMMENT

def commentText : LexRule := inComment (.star (.cls (.except ['\n']))) .skip

def commentEnd : LexRule := inComment (.chr '\n') (.BEGIN .INITIAL)

def whitespace : LexRule := always (.plus (.cls blank)) fun _ => .skip

def keyword (k : Keyword) : LexRule := always (caseInsensitive k.text) fun _ => .token (.kw k)

def operators : List LexRule := [
  always (.lit ['!', '=']) fun _ => .token ⟨.NOTEQUALS, ()⟩,
  always (.lit ['<', '>']) fun _ => .token ⟨.NOTEQUALS, ()⟩,
  always (.lit ['<', '=']) fun _ => .token ⟨.LESSEQ, ()⟩,
  always (.lit ['>', '=']) fun _ => .token ⟨.GREATEREQ, ()⟩,
  always (.lit ['|', '|']) fun _ => .token ⟨.CONCAT, ()⟩]

def character : LexRule := always (.cls punctuation) fun yytext => .token (.ch (yytext.headD ' '))

/-- `-?[0-9]+"."[0-9]*` and `"."[0-9]*` share one action. -/
def floatval (yytext : Str) : Action Start Token := .token ⟨.FLOATVAL, yytext⟩

def decimal : LexRule := always (.seq integer fraction) floatval

def pointDecimal : LexRule := always fraction floatval

def intval : LexRule := always integer fun yytext => .token ⟨.INTVAL, atol yytext⟩

def quotedIdentifier : LexRule :=
  always (.seq (.cls quoteChar) (.seq (.plus (.cls (.except ['"', '\n', '`']))) (.cls quoteChar)))
    fun yytext => .token ⟨.IDENTIFIER, substr yytext 1 (yytext.length - 1)⟩

def identifier : LexRule :=
  always (.seq (.cls alpha) (.star (.cls wordChar))) fun yytext => .token ⟨.IDENTIFIER, yytext⟩

def string : LexRule := always (.seq (.chr '\'') (.seq stringBody (.chr '\''))) fun yytext =>
  .token ⟨.STRING, substr yytext 1 (yytext.length - 1)⟩

/-- The catch-all rule `.` prints a message and returns 0, which the parser reads as the end. -/
def unknown : LexRule := always (.cls (.except ['\n'])) fun _ => .stop

def rules : List LexRule :=
  [commentStart, commentText, commentEnd, whitespace] ++ Keyword.all.map keyword ++ operators ++
    [character, decimal, pointDecimal, intval, quotedIdentifier, identifier, string, unknown]

end Lexer

/-- `sql.c_str()`: what the scanner sees of a text ends at its first NUL. -/
def cStr (sql : Str) : Str := sql.takeWhile (· ≠ '\x00')

def lexemes (sql : Str) : List (Lexeme Start Token) := scan Lexer.rules 0 .INITIAL (cStr sql)

def tokens (sql : Str) : List Token := Flex.tokens (lexemes sql)

end Hsql
