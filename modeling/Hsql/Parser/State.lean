import Hsql.Lexer.Rules
import Hsql.Parser.Symbols
import Mathlib.Data.List.Sort

/-! What the semantic actions work on besides values: the scanner's location, the list of `?` nodes
and the result. -/

namespace Hsql

/-- The counters of a location. `string_length` grows with `total_column` and is kept as the place
where it was last set to 0. -/
structure Location where
  firstLine : Nat
  firstColumn : Nat
  lastLine : Nat
  lastColumn : Nat
  totalColumn : Nat
deriving DecidableEq

namespace Location

/-- The initial action. -/
def zero : Location := ⟨0, 0, 0, 0, 0⟩

def count (l : Location) (c : Char) : Location :=
  if c = '\n' then
    { l with totalColumn := l.totalColumn + 1, lastLine := l.lastLine + 1, lastColumn := 0 }
  else
    { l with totalColumn := l.totalColumn + 1, lastColumn := l.lastColumn + 1 }

/-- `YY_USER_ACTION`, run on every matched text. -/
def advance (l : Location) (yytext : Str) : Location :=
  yytext.foldl count { l with firstLine := l.lastLine, firstColumn := l.lastColumn }

end Location

/-- The location when the scanner has matched the lexemes. -/
def Location.after (l : Location) (L : List (Flex.Lexeme Start Token)) : Location :=
  L.foldl (fun l x => l.advance x.text) l

/-- The tokens that the scanner returns, each with the location when it does. -/
def Location.tokens (l : Location) :
    List (Flex.Lexeme Start Token) → List (Sigma TokenKind.Val × Location)
  | [] => []
  | x :: xs =>
    let l := l.advance x.text
    match x.act with
    | .token t => (⟨t.kind, t.val⟩, l) :: l.tokens xs
    | _ => l.tokens xs

/-- A `?` node as the lists of pointers to such nodes see it. `column` is the number it was made
with, which the renumbering of the last action replaces in `ival`. -/
structure Parameter where
  addr : Nat
  column : Nat
  ival : Nat
  ival2 : Nat
deriving DecidableEq

def Parameter.new (addr id : Nat) : Parameter where
  addr := addr
  column := id
  ival := id
  ival2 := 0

/-- The message of `yyerror`, which Bison renders from these. -/
structure SyntaxError where
  unexpected : Option TokenKind
  state : Nat
deriving DecidableEq

/-- The parser's statements are values; a program that only moves pointers to them around is
followed with other statements. -/
structure SQLParserResult (S : Type := Option SQLStatement) where
  statements : List S
  isValid : Bool
  errorMsg : Option SyntaxError
  errorLine : Option Int
  errorColumn : Option Int
  parameters : List Parameter

namespace SQLParserResult
variable {S : Type}

def new : SQLParserResult S where
  statements := []
  isValid := false
  errorMsg := none
  errorLine := none
  errorColumn := none
  parameters := []

def addStatement (result : SQLParserResult S) (stmt : S) : SQLParserResult S :=
  { result with statements := result.statements ++ [stmt] }

/-- `std::sort` by `ival`, on the pointers with the new one at the end. -/
def addParameter (result : SQLParserResult S) (parameter : Parameter) : SQLParserResult S :=
  { result with
    parameters := (result.parameters ++ [parameter]).insertionSort fun a b => a.ival ≤ b.ival }

def setIsValid (result : SQLParserResult S) (isValid : Bool) : SQLParserResult S :=
  { result with isValid := isValid }

def setErrorDetails (result : SQLParserResult S) (errorMsg : SyntaxError)
    (errorLine errorColumn : Int) : SQLParserResult S :=
  { result with
    errorMsg := some errorMsg, errorLine := some errorLine, errorColumn := some errorColumn }

end SQLParserResult

/-- Numbers of the nodes of four kinds that the program has made so far: the next node's address. -/
structure Heap where
  selects : Nat
  orders : Nat
  limits : Nat
  params : Nat
deriving DecidableEq

structure ParserState where
  heap : Heap
  paramList : List Parameter
  /-- The `total_column` at which `string_length` was last set to 0. -/
  lengthStart : Nat
  result : SQLParserResult

namespace ParserState

def start (heap : Heap) (result : SQLParserResult) : ParserState where
  heap := heap
  paramList := []
  lengthStart := 0
  result := result

/-- Allocations. Each gives the new node's address. -/
def newSelect (s : ParserState) : Nat × ParserState :=
  (s.heap.selects, { s with heap := { s.heap with selects := s.heap.selects + 1 } })

def newOrder (s : ParserState) : Nat × ParserState :=
  (s.heap.orders, { s with heap := { s.heap with orders := s.heap.orders + 1 } })

def newLimit (s : ParserState) : Nat × ParserState :=
  (s.heap.limits, { s with heap := { s.heap with limits := s.heap.limits + 1 } })

def newParam (s : ParserState) : Nat × ParserState :=
  (s.heap.params, { s with heap := { s.heap with params := s.heap.params + 1 } })

end ParserState
end Hsql
