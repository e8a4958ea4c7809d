import Hsql.Bison.Marks
import Hsql.Lexer.Names
import Hsql.Parser.Accept

/-! Integers from the text to the tree. The lexer clamps a literal to 64 bits and the type modifier
of a column keeps the low 32 bits of that. -/

namespace Hsql
open Bison Flex Lexer

/-- What the parser makes of an integer. -/
inductive Role where
  | literal
  | modifier
deriving DecidableEq

namespace Role

def store : Role → Int → Int
  | literal => id
  | modifier => toInt

/-- The value is one of its field's type. -/
def Fits : Role → Int → Prop
  | literal => fun i => -2 ^ 63 ≤ i ∧ i ≤ 2 ^ 63 - 1
  | modifier => fun i => -2 ^ 31 ≤ i ∧ i ≤ 2 ^ 31 - 1

end Role

/-- The integer that a text of digits with an optional minus sign denotes. -/
def written : Str → Int
  | '-' :: ds => -(digits ds : Int)
  | ds => digits ds

theorem atol_eq (w : Str) : atol w = max (-2 ^ 63) (min (2 ^ 63 - 1) (written w)) := by
  by_cases hminus : ∃ ds, w = '-' :: ds
  · obtain ⟨ds, rfl⟩ := hminus
    show max (-2 ^ 63) (-(digits ds : Int)) = max (-2 ^ 63) (min (2 ^ 63 - 1) (-(digits ds : Int)))
    omega
  · have hatol : atol w = min (2 ^ 63 - 1) (digits w : Int) := by
      unfold atol
      split
      · exact absurd ⟨_, rfl⟩ hminus
      · rfl
    have hwritten : written w = digits w := by
      unfold written
      split
      · exact absurd ⟨_, rfl⟩ hminus
      · rfl
    rw [hatol, hwritten]
    omega

/-- Clamped and cut down, the value is the one written exactly if it fits. -/
theorem store_atol_iff (ρ : Role) (w : Str) :
    ρ.store (atol w) = written w ↔ ρ.Fits (written w) := by
  rw [atol_eq]
  cases ρ with
  | literal =>
    show max (-2 ^ 63) (min (2 ^ 63 - 1) (written w)) = written w ↔ _
    unfold Role.Fits
    omega
  | modifier =>
    show (max (-2 ^ 63) (min (2 ^ 63 - 1) (written w))).bmod (2 ^ 32) = written w ↔ _
    unfold Role.Fits
    constructor
    · intro h
      have hle := Int.le_bmod (x := max (-2 ^ 63) (min (2 ^ 63 - 1) (written w))) (m := 2 ^ 32)
        (by decide)
      have hlt := Int.bmod_lt (x := max (-2 ^ 63) (min (2 ^ 63 - 1) (written w))) (m := 2 ^ 32)
        (by decide)
      omega
    · rintro ⟨hle, hlt⟩
      have hclamp : max (-2 ^ 63) (min (2 ^ 63 - 1) (written w)) = written w := by
        omega
      rw [hclamp]
      apply Int.bmod_eq_of_le <;> omega

/-- The integers of a text, as they are written. -/
def integerText (l : Lexeme Start Token) : Option Str :=
  match l.act with
  | .token ⟨.INTVAL, _⟩ => some l.text
  | _ => none

def integerTexts (sql : Str) : List Str := (lexemes sql).filterMap integerText

/-- An integer with the rule it stands in. -/
def integerMark : {n : NT} → grammar.Rule n → Sigma TokenKind.Val → List (Role × Int)
  | .columnDef, _, ⟨.INTVAL, i⟩ => [(.modifier, i)]
  | _, _, ⟨.INTVAL, i⟩ => [(.literal, i)]
  | _, _, _ => []

/-- The field in which the value of the rule has the integer: `ival` or `typemod`. -/
def integerField : {n : NT} → grammar.Rule n → n.Val → Sigma TokenKind.Val → List (Option Int)
  | .columnDef, _, c, ⟨.INTVAL, _⟩ => [c.bind ColumnDefinition.typemod]
  | .intLiteral, _, e, ⟨.INTVAL, _⟩ => [e.map Expr.ival]
  | _, _, _, ⟨.INTVAL, _⟩ => [none]
  | _, _, _, _ => []

theorem mem_tokens {V : NT → Type} {ss : List Sym} {vs : Vals TokenKind.Val V ss}
    {x : Sigma TokenKind.Val} (h : x ∈ vs.tokens) : .terminal x.1 ∈ ss := by
  induction ss with
  | nil => cases h
  | cons sym ss ih =>
    cases sym with
    | terminal t =>
      rcases List.mem_cons.mp h with rfl | h
      · exact List.mem_cons_self
      · exact List.mem_cons_of_mem _ (ih h)
    | nonterminal n => exact List.mem_cons_of_mem _ (ih h)

/-- Integers stand in two rules of the grammar. -/
theorem integer_rules {n : NT} (r : grammar.Rule n) (h : .terminal .INTVAL ∈ grammar.rhs r) :
    n = .columnDef ∨ n = .intLiteral := by
  have hall : ∀ n : NT, n ≠ .columnDef → n ≠ .intLiteral → ∀ r : grammar.Rule n,
      .terminal .INTVAL ∉ grammar.rhs r := by
    intro n
    cases n <;> decide +kernel
  by_contra hn
  rw [not_or] at hn
  exact hall n hn.1 hn.2 r h

theorem keeps_integers :
    actions.Keeps integerField integerMark fun x => some (x.1.store x.2) := by
  intro n r p vs s v s' hact x hx
  obtain ⟨t, i⟩ := x
  by_cases ht : t = .INTVAL
  · subst ht
    rcases integer_rules r (mem_tokens hx) with rfl | rfl
    · match r, vs, hx, hact with
      | ⟨0, _⟩, (_, _, _, _), hx, _ => cases hx
      | ⟨1, _⟩, (a, ty, _, j, _, l, _), hx, hact =>
        obtain ⟨c, hc, heq⟩ := Option.map_eq_some_iff.mp hact
        obtain ⟨column, -, rfl⟩ := Option.map_eq_some_iff.mp hc
        cases heq
        have htokens : (⟨.INTVAL, i⟩ : Sigma TokenKind.Val) ∈
            ([⟨.ch '(', ()⟩, ⟨.INTVAL, j⟩, ⟨.ch ')', ()⟩] : List (Sigma TokenKind.Val)) := hx
        have hij : i = j := by
          simpa using htokens
        subst hij
        rfl
    · match r, vs, hx, hact with
      | ⟨0, _⟩, (j, _), hx, hact =>
        cases hact
        have htokens : (⟨.INTVAL, i⟩ : Sigma TokenKind.Val) ∈
            ([⟨.INTVAL, j⟩] : List (Sigma TokenKind.Val)) := hx
        have hij : i = j := by
          simpa using htokens
        subst hij
        rfl
  · have hnone : integerField r v ⟨t, i⟩ = [] := by
      cases n <;> cases t <;> first | rfl | exact absurd rfl ht
    have hmark : integerMark r ⟨t, i⟩ = [] := by
      cases n <;> cases t <;> first | rfl | exact absurd rfl ht
    show integerField r v ⟨t, i⟩ = (integerMark r ⟨t, i⟩).map _
    rw [hnone, hmark]
    rfl

/-- The number of an integer token; other tokens have none. -/
def integerValue : Sigma TokenKind.Val → List Int
  | ⟨.INTVAL, i⟩ => [i]
  | _ => []

theorem map_integerMark {n : NT} (r : grammar.Rule n) (x : Sigma TokenKind.Val) :
    (integerMark r x).map Prod.snd = integerValue x := by
  obtain ⟨t, i⟩ := x
  cases n <;> cases t <;> rfl

/-- The lexer's conversion, at each integer of the text. -/
theorem integerValue_tokens (sql : Str) :
    ((tokens sql).map fun t => (⟨t.kind, t.val⟩ : Sigma TokenKind.Val)).flatMap integerValue =
      (integerTexts sql).map atol := by
  have hlexeme : ∀ l ∈ lexemes sql, ∀ i : Int, l.act = .token ⟨.INTVAL, i⟩ → i = atol l.text := by
    intro l hl i hact
    obtain ⟨L, q, s, n, r, -, hm, -, rfl⟩ := mem_scan rules_progress hl
    have hr := (munch_length_le hm).1
    rcases token_rule hr hact with ⟨k, -, h⟩ | hop | ⟨-, c, h⟩ | ⟨-, h⟩ | ⟨rfl, -⟩ | ⟨-, h⟩ | ⟨-, h⟩
    · cases h
    · have hkind := operators_kind hop hact
      simp at hkind
    · cases h
    · cases h
    · exact (eq_of_heq (Token.mk.inj (Action.token.inj hact)).2).symm
    · cases h
    · cases h
  unfold tokens integerTexts Flex.tokens
  rw [List.filterMap_eq_flatMap_toList, List.filterMap_eq_flatMap_toList, List.map_flatMap,
    List.flatMap_assoc, List.map_flatMap]
  refine List.flatMap_congr fun l hl => ?_
  have hvalue := hlexeme l hl
  unfold integerText
  cases hact : l.act with
  | token t =>
    obtain ⟨k, v⟩ := t
    cases k with
    | INTVAL =>
      have hv := hvalue v hact
      subst hv
      rfl
    | _ => rfl
  | BEGIN q => rfl
  | skip => rfl
  | stop => rfl

/-- The rules in which the integers of a text stand. -/
def Derivation.roles {n : NT} (d : Derivation n) : List Role :=
  (d.marks integerMark).map Prod.fst

/-- What the fields have of the integers of a text. -/
def Derivation.integers {n : NT} (d : Derivation n) (s : ParserState) : List (Option Int) :=
  d.kept actions integerField s

/-- The integers are in their fields as they are written. -/
def IntegersExact (sql : Str) (d : Derivation .input) (s : ParserState) : Prop :=
  d.integers s = (integerTexts sql).map fun w => some (written w)

theorem map_store_iff {marks : List (Role × Int)} {texts : List Str}
    (h : marks.map Prod.snd = texts.map atol) :
    marks.map (fun x => some (x.1.store x.2)) = texts.map (fun w => some (written w)) ↔
      ∀ x ∈ (marks.map Prod.fst).zip texts, x.1.Fits (written x.2) := by
  induction marks generalizing texts with
  | nil =>
    obtain rfl := List.map_eq_nil_iff.mp h.symm
    simp
  | cons x marks ih =>
    obtain ⟨w, texts', rfl, hw, htexts⟩ := List.map_eq_cons_iff.mp h.symm
    have hrest := ih htexts.symm
    have hfirst := store_atol_iff x.1 w
    rw [hw] at hfirst
    rw [List.map_cons, List.map_cons, List.map_cons, List.zip_cons_cons, List.forall_mem_cons,
      List.cons_eq_cons, hrest, Option.some_inj, hfirst]

/-- Each integer of the text stands in a rule. -/
theorem Builds.length_roles {sql : Str} {d : Derivation .input} (h : Builds sql d) :
    d.roles.length = (integerTexts sql).length := by
  have hmarks := d.map_marks map_integerMark
  rw [h.yield, integerValue_tokens] at hmarks
  have hlen := congrArg List.length hmarks
  rw [List.length_map, List.length_map] at hlen
  unfold Derivation.roles
  rw [List.length_map, hlen]

theorem integersExact_iff {sql : Str} {d : Derivation .input} {s : ParserState}
    {x : Unit × ParserState} (hbuilds : Builds sql d) (h : d.eval actions s = some x) :
    IntegersExact sql d s ↔ ∀ x ∈ d.roles.zip (integerTexts sql), x.1.Fits (written x.2) := by
  have hkept : d.integers s = (d.marks integerMark).map fun x => some (x.1.store x.2) :=
    Tree.kept_eq keeps_integers d h
  have hmarks := d.map_marks map_integerMark
  rw [hbuilds.yield, integerValue_tokens] at hmarks
  unfold IntegersExact
  rw [hkept]
  exact map_store_iff hmarks

/-- **The integers of an accepted text are kept as written exactly if each literal is a 64-bit and
each type modifier a 32-bit number.** -/
theorem integers_exact_iff {sql : Str} {d : Derivation .input} {heap heap' : Heap}
    {result result' : SQLParserResult} (h : Parses heap result sql heap' result')
    (hvalid : result'.isValid = true) (hbuilds : Builds sql d) :
    d.roles.length = (integerTexts sql).length ∧
      (IntegersExact sql d (.start heap result) ↔
        ∀ x ∈ d.roles.zip (integerTexts sql), x.1.Fits (written x.2)) := by
  obtain ⟨d', s', hbuilds', heval, -, -⟩ := parses_valid_iff.mp ⟨h, hvalid⟩
  obtain rfl := hbuilds.unique hbuilds'
  exact ⟨hbuilds.length_roles, integersExact_iff hbuilds heval⟩

theorem integers_exact_modifier : ∃ d heap' result',
    Parses ⟨0, 0, 0, 0⟩ .new "CREATE TABLE t (a VARCHAR (20) DEFAULT -1)".toList heap' result' ∧
      d.roles = [.modifier, .literal] ∧
      (IntegersExact "CREATE TABLE t (a VARCHAR (20) DEFAULT -1)".toList d
          (.start ⟨0, 0, 0, 0⟩ .new) ↔
        ∀ x ∈ d.roles.zip (integerTexts "CREATE TABLE t (a VARCHAR (20) DEFAULT -1)".toList),
          x.1.Fits (written x.2)) := by
  have hrun : ((derive 200 "CREATE TABLE t (a VARCHAR (20) DEFAULT -1)".toList).any fun d =>
      (d.eval actions (.start ⟨0, 0, 0, 0⟩ .new)).isSome &&
        decide (d.roles = [.modifier, .literal])) = true := by
    rw [derive_rowwise]
    decide +kernel
  obtain ⟨d, hd, hboth⟩ := (Option.any_eq_true _ _).mp hrun
  rw [Bool.and_eq_true, decide_eq_true_eq] at hboth
  obtain ⟨x, hx⟩ := Option.isSome_iff_exists.mp hboth.1
  have hbuilds := Builds.of_derive hd
  obtain ⟨hparses, hvalid⟩ := parses_valid_iff.mpr ⟨d, x.2, hbuilds, hx, rfl, rfl⟩
  exact ⟨d, _, _, hparses, hboth.2, (integers_exact_iff hparses hvalid hbuilds).2⟩

/-- `9223372036854775808` is stored as `9223372036854775807`. -/
theorem integers_exact_clamped : ¬ ∀ (sql : Str) (d : Derivation .input) (heap heap' : Heap)
    (result result' : SQLParserResult), Parses heap result sql heap' result' →
      result'.isValid = true → Builds sql d → IntegersExact sql d (.start heap result) := by
  intro h
  have hrun : ((derive 200 "SELECT 9223372036854775808 FROM t".toList).any fun d =>
      (d.eval actions (.start ⟨0, 0, 0, 0⟩ .new)).isSome &&
        decide (d.integers (.start ⟨0, 0, 0, 0⟩ .new) = [some 9223372036854775807])) = true := by
    rw [derive_rowwise]
    decide +kernel
  obtain ⟨d, hd, hboth⟩ := (Option.any_eq_true _ _).mp hrun
  rw [Bool.and_eq_true, decide_eq_true_eq] at hboth
  obtain ⟨x, hx⟩ := Option.isSome_iff_exists.mp hboth.1
  have hbuilds := Builds.of_derive hd
  obtain ⟨hparses, hvalid⟩ := parses_valid_iff.mpr ⟨d, x.2, hbuilds, hx, rfl, rfl⟩
  have hexact := h _ d _ _ _ _ hparses hvalid hbuilds
  unfold IntegersExact at hexact
  rw [hboth.2] at hexact
  exact absurd hexact (by decide +kernel)

end Hsql
