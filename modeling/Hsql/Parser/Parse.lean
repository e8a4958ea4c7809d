import Hsql.Parser.Tables

/-! `SQLParser::parse`: the scanner, the driver on its tokens, and the result. -/

namespace Hsql
open Bison

/-- The end of the input comes with the location behind the last lexeme. -/
def eof (sql : Str) : Location := Location.zero.after (lexemes sql)

def startConfig (M : Semantics grammar TokenKind.Val Location) (sql : Str) (s : M.S) : Config M where
  stack := []
  input := Location.zero.tokens (lexemes sql)
  look := false
  pos := Location.zero
  st := s

/-- `yyerror` on a syntax error, and the validity that `parse` sets. A run that goes wrong has no
result. -/
def conclude : Outcome actions → Option (Heap × SQLParserResult)
  | .accept _ s => some (s.heap, s.result.setIsValid true)
  | .reject stack t yylloc s =>
    let result := s.result.setErrorDetails ⟨t, topState stack⟩ yylloc.firstLine yylloc.firstColumn
    some (s.heap, result.setIsValid false)
  | .crash => none

/-- The outcome of the parser's run on a text. -/
def Outputs (heap : Heap) (result : SQLParserResult) (sql : Str) (o : Outcome actions) : Prop :=
  (startConfig actions sql (.start heap result)).Runs automaton (eof sql) o

/-- `parse(sql, &result)` returns, with this heap and result. -/
def Parses (heap : Heap) (result : SQLParserResult) (sql : Str) (heap' : Heap)
    (result' : SQLParserResult) : Prop :=
  ∃ o, Outputs heap result sql o ∧ conclude o = some (heap', result')

/-- Runs `parse` for at most so many steps of the parser. -/
def parse (steps : Nat) (heap : Heap) (result : SQLParserResult) (sql : Str) :
    Option (Heap × SQLParserResult) :=
  ((startConfig actions sql (.start heap result)).run automaton (eof sql) steps).bind conclude

theorem Parses.of_parse {steps : Nat} {heap heap' : Heap} {result result' : SQLParserResult}
    {sql : Str} (h : parse steps heap result sql = some (heap', result')) :
    Parses heap result sql heap' result' := by
  obtain ⟨o, hrun, ho⟩ := Option.bind_eq_some_iff.mp h
  exact ⟨o, .of_run hrun, ho⟩

theorem Parses.unique {heap h₁ h₂ : Heap} {result r₁ r₂ : SQLParserResult} {sql : Str}
    (h : Parses heap result sql h₁ r₁) (h' : Parses heap result sql h₂ r₂) :
    h₁ = h₂ ∧ r₁ = r₂ := by
  obtain ⟨o, hrun, ho⟩ := h
  obtain ⟨o', hrun', ho'⟩ := h'
  rw [hrun.unique hrun', ho'] at ho
  have hpair := Option.some.inj ho
  exact ⟨(Prod.mk.inj hpair).1.symm, (Prod.mk.inj hpair).2.symm⟩

end Hsql
