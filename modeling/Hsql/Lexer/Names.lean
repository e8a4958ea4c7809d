import Hsql.Lexer.Comments
import Hsql.Lexer.RoundTrip

/-! Quoted identifiers. The pattern has one class for both quoting characters, so a name ends at
the next of either kind. -/

namespace Hsql
open Flex Regex Lexer

/-- What the scanner cuts off in front of a quoting character with another one on its line. -/
theorem lexes_quotedName {q q' : Char} {body : Str} (hq : quoteChar.mem q = true)
    (hq' : quoteChar.mem q' = true) (hne : body ≠ []) (hbody : ∀ c ∈ body, c ∉ ['"', '\n', '`'])
    (t : Str) : Lexes rules .INITIAL (q :: (body ++ q' :: t))
      [⟨q :: (body ++ [q']), .token ⟨.IDENTIFIER, body⟩⟩] .INITIAL t := by
  have hmem := (mem_quotedIdentifier _).mpr ⟨q, body, q', hq, hq', hne, hbody, rfl⟩
  have hone := Lexes.single .INITIAL (munch_quotedName hmem t) (Nat.succ_pos _) rfl
  rw [List.take_left, List.drop_left] at hone
  have hact : quotedIdentifier.action (q :: (body ++ [q'])) = .token ⟨.IDENTIFIER, body⟩ := by
    have hcrop := substr_inner q q' body
    simp only [quotedIdentifier, always]
    rw [hcrop]
  rwa [hact, List.cons_append, List.append_assoc, List.singleton_append] at hone

/-- The kind of the token that a rule returns tells the rules of that kind apart. -/
theorem token_rule {r : LexRule} (hr : r ∈ rules) {w : Str} {t : Token}
    (hact : r.action w = .token t) : (∃ k, r = keyword k ∧ t.kind = .kw k) ∨
      r ∈ operators ∨ (r = character ∧ ∃ c, t.kind = .ch c) ∨
      ((r = decimal ∨ r = pointDecimal) ∧ t.kind = .FLOATVAL) ∨ (r = intval ∧ t.kind = .INTVAL) ∨
      ((r = quotedIdentifier ∨ r = identifier) ∧ t.kind = .IDENTIFIER) ∨
      (r = string ∧ t.kind = .STRING) := by
  rcases mem_rules_cases hr with rfl | rfl | rfl | rfl | ⟨k, rfl⟩ | hop | rfl | rfl | rfl | rfl |
    rfl | rfl | rfl | rfl
  · cases hact
  · cases hact
  · cases hact
  · cases hact
  · obtain rfl := Action.token.inj hact
    exact Or.inl ⟨k, rfl, rfl⟩
  · exact Or.inr (Or.inl hop)
  · obtain rfl := Action.token.inj hact
    exact Or.inr (Or.inr (Or.inl ⟨rfl, _, rfl⟩))
  · obtain rfl := Action.token.inj hact
    simp
  · obtain rfl := Action.token.inj hact
    simp
  · obtain rfl := Action.token.inj hact
    simp
  · obtain rfl := Action.token.inj hact
    simp
  · obtain rfl := Action.token.inj hact
    simp
  · obtain rfl := Action.token.inj hact
    simp
  · cases hact

theorem operators_kind {r : LexRule} (hr : r ∈ operators) {w : Str} {t : Token}
    (hact : r.action w = .token t) :
    t.kind ∈ [TokenKind.NOTEQUALS, .LESSEQ, .GREATEREQ, .CONCAT] := by
  simp only [operators, List.mem_cons, List.not_mem_nil, or_false] at hr
  rcases hr with rfl | rfl | rfl | rfl | rfl <;>
  · obtain rfl := Action.token.inj hact
    simp

theorem identifier_rule {r : LexRule} (hr : r ∈ rules) {w v : Str}
    (hact : r.action w = .token ⟨.IDENTIFIER, v⟩) : r = quotedIdentifier ∨ r = identifier := by
  rcases token_rule hr hact with ⟨k, -, h⟩ | hop | ⟨-, c, h⟩ | ⟨-, h⟩ | ⟨-, h⟩ | ⟨h, -⟩ | ⟨-, h⟩
  · cases h
  · have hkind := operators_kind hop hact
    simp at hkind
  · cases h
  · cases h
  · cases h
  · exact h
  · cases h

/-- In a comment the rest of the line is skipped, so a token found there goes past the line. -/
theorem initial_of_token {p : Start} {s : Str} {n : Nat} {r : LexRule}
    (h : munch rules p s = some (n, r)) (hline : '\n' ∉ s.take n) {t : Token}
    (hact : r.action (s.take n) = .token t) : p = .INITIAL := by
  cases p with
  | INITIAL => rfl
  | COMMENT =>
    have hn := (munch_length_le h).2.1
    obtain ⟨m, hm, hle⟩ := Rule.longest_of_mem (r := commentText) (q := .COMMENT) rfl
      (List.take_prefix n s) ((mem_commentText _).mpr hline)
    rw [List.length_take, min_eq_left hn] at hle
    have hsplit : rules = [commentStart] ++ commentText :: rules.drop 2 := rfl
    rw [hsplit] at h
    have hearly := munch_mem_of_le h hm hle
    have htoken : ∀ r ∈ [commentStart, commentText], ∀ w, r.action w ≠ .token t := by
      simp [commentStart, commentText, always, inComment]
    exact absurd hact (htoken r hearly _)

theorem initial_of_quotedName {p : Start} {s : Str} {n : Nat}
    (h : munch rules p s = some (n, quotedIdentifier)) : p = .INITIAL := by
  obtain ⟨-, -, -, hmem⟩ := munch_length_le h
  obtain ⟨q, body, q', hq, hq', -, hbody, heq⟩ := (mem_quotedIdentifier _).mp hmem
  have hquote : ∀ c, quoteChar.mem c = true → c ≠ '\n' := by
    rintro c hc rfl
    exact absurd hc (by decide)
  refine initial_of_token h ?_ rfl
  rw [heq, List.mem_cons, List.mem_append, List.mem_singleton]
  rintro (h | h | h)
  · exact hquote q hq h.symm
  · exact hbody _ h (by decide)
  · exact hquote q' hq' h.symm

/-- The name in quotes is one IDENTIFIER, and the scanner goes on behind its quote. -/
def OneName (q : Char) (s t : Str) : Prop := lexemes (q :: (s ++ q :: t)) =
  ⟨q :: (s ++ [q]), .token ⟨.IDENTIFIER, s⟩⟩ :: lexemes t

/-- The lexeme of an IDENTIFIER that opens with one quoting character and closes with the other. -/
def Mixed (l : Lexeme Start Token) : Prop := ∃ q body q', quoteChar.mem q = true ∧
  quoteChar.mem q' = true ∧ q ≠ q' ∧ l.text = q :: (body ++ [q']) ∧
    ∃ v, l.act = .token ⟨.IDENTIFIER, v⟩

/-- Where the text behind an opening quote has another quoting character on the same line, not at
once, the first such is of the same kind. -/
def Matched (q : Char) (rest : Str) : Prop := ∀ body q' t, rest = body ++ q' :: t → body ≠ [] →
  (∀ c ∈ body, c ∉ ['"', '\n', '`']) → quoteChar.mem q' = true → q' = q

theorem quoteChar_ne {c : Char} (hc : quoteChar.mem c = true) : c ≠ '\n' ∧ c ≠ '\x00' := by
  constructor
  · rintro rfl
    exact absurd hc (by decide)
  · rintro rfl
    exact absurd hc (by decide)

theorem plain_of_noQuote {s : Str} (hline : '\n' ∉ s) (hs : ∀ c ∈ s, quoteChar.mem c = false) :
    ∀ c ∈ s, c ∉ ['"', '\n', '`'] := by
  intro c hc hmem
  have hquote := hs c hc
  simp only [List.mem_cons, List.not_mem_nil, or_false] at hmem
  rcases hmem with rfl | rfl | rfl
  · exact absurd hquote (by decide)
  · exact hline hc
  · exact absurd hquote (by decide)

theorem oneName_iff {q : Char} {s : Str} (hq : quoteChar.mem q = true) (hne : s ≠ [])
    (hline : '\n' ∉ s) (hnul : '\x00' ∉ s) (t : Str) :
    OneName q s t ↔ ∀ c ∈ s, quoteChar.mem c = false := by
  have hcut : cStr (q :: (s ++ q :: t)) = q :: (s ++ q :: cStr t) := by
    have hfront : '\x00' ∉ q :: (s ++ [q]) := by
      have hqn := (quoteChar_ne hq).2
      simp [hnul, hqn.symm]
    have happ := cStr_append (v := t) hfront
    rwa [List.cons_append, List.append_assoc, List.singleton_append, List.cons_append,
      List.append_assoc, List.singleton_append] at happ
  constructor
  · intro h c hc
    have hmem : (⟨q :: (s ++ [q]), .token ⟨.IDENTIFIER, s⟩⟩ : Lexeme Start Token) ∈
        lexemes (q :: (s ++ q :: t)) := by
      rw [h]
      exact List.mem_cons_self
    obtain ⟨L, p, s', n, r, -, hm, -, heq⟩ := mem_scan rules_progress hmem
    obtain ⟨htext, hact⟩ := Lexeme.mk.inj heq
    obtain ⟨hr, -, -, hlang⟩ := munch_length_le hm
    rw [← htext] at hlang
    rcases identifier_rule hr hact.symm with rfl | rfl
    · obtain ⟨p', body, p'', -, -, -, hbody, hword⟩ := (mem_quotedIdentifier _).mp hlang
      have hs := (List.append_inj' (List.cons_eq_cons.mp hword).2 rfl).1
      have hplain := hbody c (hs ▸ hc)
      by_contra hquote
      rw [Bool.not_eq_false, quoteChar, CharClass.mem_of] at hquote
      simp only [List.mem_cons, List.not_mem_nil, or_false, not_or] at hquote hplain
      exact hquote.elim hplain.1 hplain.2.2
    · -- an identifier without quotes does not open with one
      obtain ⟨d, v, hd, -, hword⟩ := (mem_identifier _).mp hlang
      rw [(List.cons_eq_cons.mp hword).1] at hq
      rw [CharClass.mem_of_disjoint (k := alpha) (by decide) hd] at hq
      cases hq
  · intro h
    have hrun := lexes_quotedName hq hq hne (plain_of_noQuote hline h) (cStr t)
    rw [← hcut] at hrun
    exact lexemes_of_lexes hrun

theorem not_mixed_iff (sql : Str) : (∀ l ∈ lexemes sql, ¬ Mixed l) ↔
    ∀ L q rest, Lexes rules .INITIAL (cStr sql) L .INITIAL (q :: rest) →
      quoteChar.mem q = true → Matched q rest := by
  constructor
  · rintro h L q rest hL hq body q' t rfl hne hbody hq'
    by_contra hmix
    have hrun := hL.trans (lexes_quotedName hq hq' hne hbody t)
    refine h ⟨q :: (body ++ [q']), .token ⟨.IDENTIFIER, body⟩⟩ ?_
      ⟨q, body, q', hq, hq', Ne.symm hmix, rfl, body, rfl⟩
    rw [lexemes_of_lexes hrun]
    simp
  · rintro h l hl ⟨q, body, q', hq, hq', hmix, htext, v, hact⟩
    obtain ⟨L, p, s', n, r, hL, hm, -, rfl⟩ := mem_scan rules_progress hl
    obtain ⟨hr, -, -, hlang⟩ := munch_length_le hm
    dsimp only at htext hact
    rw [htext] at hlang
    rcases identifier_rule hr hact with rfl | rfl
    · obtain rfl := initial_of_quotedName hm
      obtain ⟨p', body', p'', -, -, hne, hbody, hword⟩ := (mem_quotedIdentifier _).mp hlang
      have hsame := (List.append_inj' (List.cons_eq_cons.mp hword).2 rfl).1
      have hrest : s' = q :: (body ++ q' :: s'.drop n) := by
        have hcut := List.take_append_drop n s'
        rw [htext, List.cons_append, List.append_assoc, List.singleton_append] at hcut
        exact hcut.symm
      rw [hrest] at hL
      exact hmix (h L q _ hL hq body q' _ rfl (hsame ▸ hne) (hsame ▸ hbody) hq').symm
    · obtain ⟨d, w, hd, -, hword⟩ := (mem_identifier _).mp hlang
      rw [(List.cons_eq_cons.mp hword).1] at hq
      rw [CharClass.mem_of_disjoint (k := alpha) (by decide) hd] at hq
      cases hq

/-- A quoted name is kept exactly when it holds neither quoting character; and no name is closed
by the other character exactly when this holds wherever the scanner comes to an opening quote. -/
theorem quotedNames_iff {q : Char} {s : Str} (hq : quoteChar.mem q = true) (hne : s ≠ [])
    (hline : '\n' ∉ s) (hnul : '\x00' ∉ s) (_ : q ∉ s) (t sql : Str) :
    (OneName q s t ↔ ∀ c ∈ s, quoteChar.mem c = false) ∧
      ((∀ l ∈ lexemes sql, ¬ Mixed l) ↔
        ∀ L q rest, Lexes rules .INITIAL (cStr sql) L .INITIAL (q :: rest) →
          quoteChar.mem q = true → Matched q rest) :=
  ⟨oneName_iff hq hne hline hnul t, not_mixed_iff sql⟩

theorem quotedNames_plain : OneName '"' "a b".toList " x".toList := by
  have hnames := quotedNames_iff (q := '"') (s := "a b".toList) (by decide) (by decide) (by decide)
    (by decide) (by decide) " x".toList []
  exact hnames.1.mpr (by simp [quoteChar, CharClass.mem, CharClass.of])

/-- A backtick ends the name that a double quote opened. -/
theorem quotedNames_backtick :
    ¬ ∀ q s t, quoteChar.mem q = true → s ≠ [] → '\n' ∉ s → '\x00' ∉ s → q ∉ s →
      t.head?.all (fun c => !quoteChar.mem c) = true → OneName q s t := by
  intro h
  have hname := h '"' "a`b".toList [] (by decide) (by decide) (by decide) (by decide) (by decide)
    (by decide)
  have hplain := (oneName_iff (by decide) (by decide) (by decide) (by decide) []).mp hname
  have hquote := hplain '`' (by decide)
  exact absurd hquote (by decide)

end Hsql
