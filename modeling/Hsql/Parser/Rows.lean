import Hsql.Data.Rows
import Hsql.Lexer.Letters
import Hsql.Parser.Parse

/-! The tables in rows, on which the parser is quicker to run on a text. -/

namespace Hsql
open Bison Flex

namespace Tables

def stateRows : Rows states := .ofList states 23 22 (by decide) (by decide +kernel)

def actionRows : Rows actions := .ofList actions 14 13 (by decide) (by decide +kernel)

end Tables

/-- The automaton with its tables in rows. -/
def rowwise : Automaton grammar where
  row q :=
    match Tables.stateRows.get? q with
    | some (i, d) => ⟨(Tables.actionRows.get? i).getD [], d⟩
    | none => ⟨[], .error⟩
  goto q n := (Tables.gotos n).lookup q

theorem automaton_eq_rowwise : automaton = rowwise := by
  have hrow : automaton.row = rowwise.row := by
    funext q
    simp only [rowwise, Rows.get?_eq]
    rfl
  exact congrArg (Automaton.mk · automaton.goto) hrow

/-- The action list of an entry of the states. -/
def Tables.actionsOf (x : ℕ × Act grammar) : List (Option TokenKind × Act grammar) :=
  (Tables.actionRows.get? x.1).getD []

theorem Tables.actionsOf_eq (x : ℕ × Act grammar) :
    Tables.actionsOf x = Tables.actions.getD x.1 [] := by
  rw [actionsOf, Rows.get?_eq, List.getD_eq_getElem?_getD]

theorem parse_rowwise (steps : Nat) (heap : Heap) (result : SQLParserResult) (sql : Str) :
    parse steps heap result sql =
      (Config.run rowwise (Location.zero.after (scanBy rulesAt 0 .INITIAL (cStr sql))) steps
        (⟨[], Location.zero.tokens (scanBy rulesAt 0 .INITIAL (cStr sql)), false, .zero,
          .start heap result⟩ : Config actions)).bind conclude := by
  rw [parse, startConfig, eof, lexemes_rulesAt, automaton_eq_rowwise]

end Hsql
