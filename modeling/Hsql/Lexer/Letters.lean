import Hsql.Flex.Choice
import Hsql.Lexer.Patterns

/-! The keywords letter by letter, and by their first letters: so the scanner is quicker to run on a
text. -/

namespace Hsql
open Flex Lexer

/-- The keywords with their letters. -/
def Keyword.letters : {l : List (Keyword × Str) // l = Keyword.all.map fun k => (k, k.text)} :=
  ⟨_, by
    simp only [Keyword.all, List.map_cons, List.map_nil, Keyword.text, Keyword.spelling,
      String.reduceToList]
    rfl⟩

/-- What holds of the letters of every keyword. -/
theorem Keyword.forall_text {P : Str → Prop} (h : ∀ x ∈ Keyword.letters.1, P x.2) (k : Keyword) :
    P k.text := by
  have hmem : (k, k.text) ∈ Keyword.letters.1 := by
    rw [Keyword.letters.2]
    exact List.mem_map_of_mem k.mem_all
  exact h _ hmem

/-- The letters start with this one, in upper or lower case. -/
def opensWith (c : Char) : Str → Bool
  | [] => true
  | d :: _ => d.toLower == c.toLower

theorem longest_caseInsensitive {w cs : Str} {c : Char} (h : opensWith c w = false) :
    (caseInsensitive w).longest (c :: cs) = none := by
  refine (Regex.longest_eq_none_iff _ _).mpr fun m _ hmem => ?_
  have hlower := (mem_caseInsensitive _ _).mp hmem
  cases w with
  | nil => cases h
  | cons d w =>
    cases m with
    | zero => cases hlower
    | succ m =>
      have hhead : c.toLower = d.toLower := (List.cons.inj hlower).1
      simp [opensWith, hhead] at h

/-- The rules that can match at this character. -/
def rulesAt (c : Char) : List LexRule :=
  [commentStart, commentText, commentEnd, whitespace] ++
    ((Keyword.letters.1.filter fun x => opensWith c x.2).map
      (fun x => always (caseInsensitive x.2) fun _ => .token (.kw x.1)) ++
        (operators ++ [character, decimal, pointDecimal, intval, quotedIdentifier, identifier,
          string, unknown]))

theorem munch_rulesAt (c : Char) (cs : Str) (q : Start) :
    munch (rulesAt c) q (c :: cs) = munch rules q (c :: cs) := by
  have hkeywords : Keyword.all.map keyword = Keyword.letters.1.map fun x =>
      always (caseInsensitive x.2) fun _ => .token (.kw x.1) := by
    rw [Keyword.letters.2, List.map_map]
    rfl
  rw [rules, hkeywords, List.append_assoc, List.append_assoc]
  exact munch_append_congr _ (munch_filter _ _ fun x _ hx => longest_caseInsensitive hx)

/-- A text is scanned by the rules that can match at its characters. -/
theorem lexemes_rulesAt : lexemes = fun sql => scanBy rulesAt 0 .INITIAL (cStr sql) :=
  funext fun _ => (scanBy_eq munch_rulesAt _ _ _).symm

end Hsql
