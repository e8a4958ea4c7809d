import Hsql.Flex.Calls
import Hsql.Lexer.Complete

/-! `SQLParser::tokenize`: the scanner called in a loop of its own. Every match takes a character,
in either start condition, so the loop comes to its end. -/

namespace Hsql
open Flex Regex Lexer

/-- The loop on a text, with at most so many calls and so many matches in each. It keeps the codes
of the tokens; beside them stand the lexemes and the text behind them. -/
def tokenize (fuel : Nat) (sql : Str) : Option (List TokenKind × List (Lexeme Start Token) × Str) :=
  (collect rules fuel fuel .INITIAL (cStr sql)).map fun c =>
    (c.tokens.map Token.kind, c.lexemes, c.rest)

/-- In a comment the rule for its text matches nothing in front of the newline. -/
theorem longest_commentText (s : Str) : commentText.longest .COMMENT ('\n' :: s) = some 0 := by
  cases h : commentText.longest .COMMENT ('\n' :: s) with
  | none =>
    obtain ⟨n, hn, -⟩ := Rule.longest_of_mem (r := commentText) (q := .COMMENT) rfl
      (List.nil_prefix (l := '\n' :: s)) ((mem_lang_star_cls _ _).mpr (List.forall_mem_nil _))
    rw [h] at hn
    cases hn
  | some n =>
    cases n with
    | zero => rfl
    | succ n =>
      rw [Rule.longest, Option.ite_none_right_eq_some] at h
      obtain ⟨-, hmem⟩ := Regex.longest_eq_some h.2
      have hline := (mem_lang_star_cls _ _).mp hmem '\n' (by simp)
      simp at hline

/-- The parser and `tokenize` read the same tokens. -/
theorem tokenize_eq (sql : Str) : ∃ rest, tokenize (sql.length + 1) sql =
    some (codes sql, lexemes sql, rest) ∧ cStr sql = texts (lexemes sql) ++ rest ∧
      (codes sql).length ≤ sql.length := by
  have hlen : (cStr sql).length ≤ sql.length := (List.takeWhile_prefix _).length_le
  obtain ⟨c, hc, htext, hlexemes, htokens, hcount⟩ := exists_collect rules_progress (q := .INITIAL)
    (Nat.lt_succ_of_le hlen) (Nat.lt_succ_of_le hlen)
  have hcodes : c.tokens.map Token.kind = codes sql := congrArg (List.map Token.kind) htokens
  refine ⟨c.rest, ?_, ?_, ?_⟩
  · rw [tokenize, hc, Option.map_some, hcodes]
    exact congrArg (fun L => some (codes sql, L, c.rest)) hlexemes
  · rw [htext, hlexemes]
    rfl
  · rw [← hcodes, List.length_map]
    exact hcount.trans hlen

/-- **The lexer makes progress.** The longest match is never empty, although one rule's can be, and
the loop of `tokenize` ends on every text. -/
theorem tokenize_terminates :
    (∀ (q : Start) (s : Str), s ≠ [] → ∃ n r, munch rules q s = some (n, r) ∧ 1 ≤ n) ∧
      (∀ s : Str, commentText.longest .COMMENT ('\n' :: s) = some 0) ∧
        ∀ sql : Str, ∃ kinds L rest, tokenize (sql.length + 1) sql = some (kinds, L, rest) ∧
          kinds.length ≤ sql.length ∧ texts L ++ rest = cStr sql := by
  refine ⟨rules_progress, longest_commentText, fun sql => ?_⟩
  obtain ⟨rest, hrun, htext, hlen⟩ := tokenize_eq sql
  exact ⟨_, _, rest, hrun, hlen, htext.symm⟩

end Hsql
