import Hsql.Flex.Blind
import Hsql.Lexer.RoundTrip

/-! The lexer does not see the case of letters: texts that only differ in it have the same lexemes,
up to the case of letters in these. -/

namespace Hsql
open Flex Regex Lexer

/-! Patterns. -/

/-- The class has both cases of each letter in it, or none. -/
def caseClosed (k : CharClass) : Bool :=
  (List.range 26).all fun n => hasCode k (65 + n) == hasCode k (97 + n)
where
  /-- The class has the character with this code in it. -/
  hasCode (k : CharClass) (n : Nat) : Bool :=
    xor k.neg (k.ranges.any fun r => decide (r.1.toNat ≤ n) && decide (n ≤ r.2.toNat))

theorem isUpper_iff (c : Char) : c.isUpper = true ↔ 65 ≤ c.toNat ∧ c.toNat ≤ 90 := by
  simp only [Char.isUpper, Bool.decide_and, Bool.and_eq_true, decide_eq_true_eq, ge_iff_le,
    UInt32.le_iff_toNat_le]
  rfl

theorem toNat_toLower : ∀ n ∈ List.range 26, (Char.ofNat (65 + n)).toLower.toNat = 97 + n := by
  decide

theorem mem_toLower {k : CharClass} (h : caseClosed k = true) (c : Char) :
    k.mem c.toLower = k.mem c := by
  by_cases hc : c.isUpper
  · obtain ⟨hlo, hhi⟩ := (isUpper_iff c).mp hc
    obtain ⟨n, hn⟩ := Nat.exists_eq_add_of_le hlo
    have hmem : n ∈ List.range 26 := List.mem_range.mpr (by omega)
    have hlower := toNat_toLower n hmem
    rw [← hn, Char.ofNat_toNat] at hlower
    have hcodes := beq_iff_eq.mp (List.all_eq_true.mp h n hmem)
    show caseClosed.hasCode k c.toLower.toNat = caseClosed.hasCode k c.toNat
    rw [hlower, hn, hcodes]
  · rw [Char.toLower_eq_of_not_isUpper hc]

def patternClosed : Regex → Bool
  | .none | .eps => true
  | .cls k => caseClosed k
  | .seq a b | .alt a b => patternClosed a && patternClosed b
  | .star a => patternClosed a

theorem blind_of_closed {r : Regex} (h : patternClosed r = true) : r.Blind Char.toLower := by
  induction r with
  | none | eps => trivial
  | cls k =>
    intro c c' hc
    rw [← mem_toLower h c, hc, mem_toLower h c']
  | seq a b iha ihb | alt a b iha ihb =>
    obtain ⟨ha, hb⟩ := Bool.and_eq_true_iff.mp h
    exact ⟨iha ha, ihb hb⟩
  | star a ih => exact ih h

theorem caseInsensitive_blind (w : Str) : (caseInsensitive w).Blind Char.toLower := by
  induction w with
  | nil => trivial
  | cons c w ih =>
    refine ⟨fun x y hxy => ?_, ih⟩
    rw [Bool.eq_iff_iff, mem_letter, mem_letter, hxy]

theorem rules_blind : ∀ r ∈ rules, r.pattern.Blind Char.toLower := by
  intro r hr
  rcases mem_rules_cases hr with rfl | rfl | rfl | rfl | ⟨k, rfl⟩ | hop | rfl | rfl | rfl | rfl |
    rfl | rfl | rfl | rfl
  case inr.inr.inr.inr.inl => exact caseInsensitive_blind k.text
  case inr.inr.inr.inr.inr.inl =>
    simp only [operators, List.mem_cons, List.not_mem_nil, or_false] at hop
    rcases hop with rfl | rfl | rfl | rfl | rfl <;> exact blind_of_closed (by decide)
  all_goals exact blind_of_closed (by decide)

def upper : CharClass := ⟨false, [('A', 'Z')]⟩

/-- Without letters there is no case. -/
theorem lower_eq_of_avoids {r : Regex} (h : avoids upper r = true) {w : Str} (hw : w ∈ r.lang) :
    lower w = w := by
  have hmem := mem_eq_false_of_avoids h hw
  unfold lower
  conv_rhs => rw [← List.map_id w]
  refine List.map_congr_left fun c hc => Char.toLower_eq_of_not_isUpper fun hupper => ?_
  have hfalse := hmem c hc
  obtain ⟨hlo, hhi⟩ := (isUpper_iff c).mp hupper
  simp [CharClass.mem, upper] at hfalse
  omega

/-! Tokens. -/

theorem lower_substr (w : Str) (i j : Nat) : lower (substr w i j) = substr (lower w) i j := by
  unfold lower substr
  rw [List.map_take, List.map_drop]

theorem action_alike : ∀ r ∈ rules, ∀ w ∈ r.pattern.lang, ∀ w' ∈ r.pattern.lang, lower w = lower w' →
    (r.action w).Alike (Token.rename lower) (r.action w') := by
  intro r hr w hw w' hw' heq
  have hsame (h : avoids upper r.pattern = true) : w = w' := by
    rw [← lower_eq_of_avoids h hw, heq, lower_eq_of_avoids h hw']
  have hlength : w.length = w'.length := by
    have hmap := congrArg List.length heq
    rwa [lower, lower, List.length_map, List.length_map] at hmap
  rcases mem_rules_cases hr with rfl | rfl | rfl | rfl | ⟨k, rfl⟩ | hop | rfl | rfl | rfl | rfl |
    rfl | rfl | rfl | rfl
  · exact rfl
  · trivial
  · exact rfl
  · trivial
  · exact rfl
  · simp only [operators, List.mem_cons, List.not_mem_nil, or_false] at hop
    rcases hop with rfl | rfl | rfl | rfl | rfl <;> exact rfl
  · rw [hsame (by decide)]
    exact rfl
  · rw [hsame (by decide)]
    exact rfl
  · rw [hsame (by decide)]
    exact rfl
  · rw [hsame (by decide)]
    exact rfl
  · show Token.mk .IDENTIFIER (lower (substr w 1 (w.length - 1))) =
      Token.mk .IDENTIFIER (lower (substr w' 1 (w'.length - 1)))
    rw [lower_substr, lower_substr, heq, hlength]
  · show Token.mk .IDENTIFIER (lower w) = Token.mk .IDENTIFIER (lower w')
    rw [heq]
  · show Token.mk .STRING (lower (substr w 1 (w.length - 1))) =
      Token.mk .STRING (lower (substr w' 1 (w'.length - 1)))
    rw [lower_substr, lower_substr, heq, hlength]
  · trivial

def letters : CharClass := ⟨false, [('A', 'Z'), ('a', 'z')]⟩

/-- What is no letter is no letter's lower case. -/
theorem toLower_eq_iff {d : Char} (hd : letters.mem d = false) (c : Char) :
    c.toLower = d ↔ c = d := by
  by_cases hc : c.isUpper
  · have hmem : letters.mem c = true := by
      obtain ⟨hlo, hhi⟩ := (isUpper_iff c).mp hc
      simp [CharClass.mem, letters]
      omega
    have hlower := mem_toLower (k := letters) (by decide) c
    constructor
    · intro h
      rw [h, hd, hmem] at hlower
      cases hlower
    · intro h
      rw [h, hd] at hmem
      cases hmem
  · rw [Char.toLower_eq_of_not_isUpper hc]

theorem lower_cStr (sql : Str) : lower (cStr sql) = cStr (lower sql) := by
  unfold lower cStr
  rw [List.takeWhile_map]
  congr 2
  funext c
  simp [toLower_eq_iff (d := '\x00') (by decide)]

/-- The lexemes of texts that only differ in the case of letters. -/
theorem lexemes_alike {sql sql' : Str} (h : lower sql = lower sql') :
    List.Forall₂ (Lexeme.Alike Char.toLower (Token.rename lower)) (lexemes sql) (lexemes sql') := by
  refine scan_alike rules_blind action_alike 0 .INITIAL ?_
  exact (lower_cStr sql).trans ((congrArg cStr h).trans (lower_cStr sql').symm)

end Hsql
