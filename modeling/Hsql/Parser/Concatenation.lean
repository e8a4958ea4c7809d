import Hsql.Lexer.Numbers
import Hsql.Parser.Behind
import Hsql.Parser.Parameters
import Hsql.Parser.Places

/-! Two texts with a semicolon between them: the statements of both, and the parameters of the
second with their numbers shifted. -/

namespace Hsql
open Bison Flex Flex.Regex Lexer

/-! Texts. -/

/-- No match extends across the semicolon. -/
theorem tokens_semicolon {P : Str} (hP : Complete P) (hno : NoComment (lexemes P)) (Q : Str) :
    tokens (P ++ ';' :: Q) = tokens P ++ .ch ';' :: tokens Q := by
  have hnul : '\x00' ∉ P := (cStr_eq_self_iff P).mp hP.lexes.1
  have hcut : cStr (P ++ ';' :: Q) = P ++ ';' :: cStr Q := by
    rw [cStr_append hnul]
    rfl
  have hrun : Lexes rules .INITIAL (P ++ ';' :: cStr Q) (lexemes P) .INITIAL (';' :: cStr Q) :=
    hP.lexes_append hno fun v _ _ =>
      ⟨by decide, fun h => absurd h (by decide), .inl (by decide)⟩
  have hone : Lexes rules .INITIAL (';' :: cStr Q) [⟨[';'], .token (.ch ';')⟩] .INITIAL (cStr Q) := by
    have hone := Lexes.single .INITIAL (munch_separator (c := ';') (by decide) (cStr Q)) Nat.one_pos rfl
    exact hone
  have hall := hrun.trans hone
  rw [← hcut] at hall
  rw [tokens, lexemes_of_lexes hall, Flex.tokens_append, Flex.tokens_append, List.append_assoc]
  rfl

/-! Derivations. -/

theorem eval_semicolon (d : Derivation .optSemicolon) (s : ParserState) :
    d.eval actions s = some ((), s) := by
  match d with
  | .node ⟨0, _⟩ p (.token a .nil) => rfl
  | .node ⟨1, _⟩ p .nil => rfl

section
variable (p : Location) (l : Derivation .statementList) (b : TokenKind.Val (.ch ';'))
  (d : Derivation .statement) (s : ParserState)

theorem eval_first : (Bison.Tree.node ⟨0, by decide⟩ p (.tree d .nil) :
    Derivation .statementList).eval actions s = (d.eval actions s).bind fun x =>
      (x.2.measure p x.1).map fun y => (vector y.1, y.2) := by
  show ((d.eval actions s).bind _).bind _ = _
  cases d.eval actions s <;> rfl

theorem eval_next : (Bison.Tree.node ⟨1, by decide⟩ p (.tree l (.token b (.tree d .nil))) :
    Derivation .statementList).eval actions s = (l.eval actions s).bind fun x =>
      (d.eval actions x.2).bind fun y => (y.2.measure p y.1).bind fun z =>
        (pushBack x.1 z.1).map fun v => (v, z.2) := by
  show ((l.eval actions s).bind _).bind _ = _
  cases l.eval actions s with
  | none => rfl
  | some x =>
    show ((((d.eval actions x.2).bind _).map _).map _).bind _ = (d.eval actions x.2).bind _
    cases d.eval actions x.2 with
    | none => rfl
    | some y =>
      show (y.2.measure p y.1).bind _ = (y.2.measure p y.1).bind _
      refine congrArg _ (funext fun z => ?_)
      cases x.1 <;> rfl

end

/-- The statements of both lists, one after the other. -/
theorem Grafted.eval {l₁ l l' : Derivation .statementList} {a : TokenKind.Val (.ch ';')}
    (h : Grafted l₁ a l l') {s s₁ : ParserState} {stmts₁ : List (Option SQLStatement)}
    (h₁ : l₁.eval actions s = some (some stmts₁, s₁)) {s₂ : ParserState}
    {stmts : List (Option SQLStatement)} (h₂ : l.eval actions s₁ = some (some stmts, s₂)) :
    l'.eval actions s = some (some (stmts₁ ++ stmts), s₂) := by
  induction h generalizing s₂ stmts with
  | first p d =>
    rw [eval_first] at h₂
    obtain ⟨x, hd, h₂⟩ := Option.bind_eq_some_iff.mp h₂
    obtain ⟨y, hmeasure, heq⟩ := Option.map_eq_some_iff.mp h₂
    cases heq
    rw [eval_next, h₁, Option.bind_some, hd, Option.bind_some, hmeasure]
    rfl
  | next p b d h ih =>
    rw [eval_next] at h₂
    obtain ⟨x, hl, h₂⟩ := Option.bind_eq_some_iff.mp h₂
    obtain ⟨y, hd, h₂⟩ := Option.bind_eq_some_iff.mp h₂
    obtain ⟨z, hmeasure, h₂⟩ := Option.bind_eq_some_iff.mp h₂
    obtain ⟨v, hpush, heq⟩ := Option.map_eq_some_iff.mp h₂
    cases heq
    obtain ⟨stmts', hx, heq⟩ := Option.map_eq_some_iff.mp hpush
    cases heq
    rw [eval_next, ih (hl.trans (congrArg (fun w => some (w, x.2)) hx)), Option.bind_some, hd,
      Option.bind_some, hmeasure, ← List.append_assoc]
    rfl

/-- A derivation of the input from its parts. -/
abbrev inputTree (p : Location) (l : Derivation .statementList) (o : Derivation .optSemicolon) :
    Derivation .input := .node ⟨0, by decide⟩ p (.tree l (.tree o .nil))

theorem eval_inputTree (p : Location) (l : Derivation .statementList)
    (o : Derivation .optSemicolon) (s : ParserState) : (inputTree p l o).eval actions s =
      (l.eval actions s).bind fun x => x.1.map fun stmts => ((), x.2.finish stmts) := by
  show ((l.eval actions s).bind _).bind _ = _
  cases l.eval actions s with
  | none => rfl
  | some x =>
    show (((o.eval actions x.2).bind _).map _).bind _ = _
    rw [eval_semicolon]
    rfl

section
variable {p₁ p₂ : Location} {l₁ l₂ l : Derivation .statementList}
  {o₁ o₂ : Derivation .optSemicolon} {a : TokenKind.Val (.ch ';')} {d : Derivation .input}

theorem eval_grafted (h : Grafted l₁ a l₂ l)
    (hd : d.tokensOnly = (inputTree p₂ l o₂).tokensOnly) {heap : Heap} {s₁ s₂ : ParserState}
    (h₁ : (inputTree p₁ l₁ o₁).eval
      actions (.start heap .new) = some ((), s₁))
    (h₂ : (inputTree p₂ l₂ o₂).eval
      actions (.start s₁.heap .new) = some ((), s₂)) : ∃ s,
    d.eval actions (.start heap .new) = some ((), s) ∧ s.heap = s₂.heap ∧
      withoutLengths s.result.statements =
        withoutLengths (s₁.result.statements ++ s₂.result.statements) := by
  obtain ⟨p, list, semicolon, stmts₁, t₁, t₁', heq, hl₁, hsemi₁, rfl⟩ := Derivation.eval_input h₁
  cases heq
  obtain ⟨p, list, semicolon, stmts₂, t₂, t₂', heq, hl₂, hsemi₂, rfl⟩ := Derivation.eval_input h₂
  cases heq
  obtain rfl : t₁ = t₁' := (Prod.mk.inj (Option.some.inj ((eval_semicolon ..).symm.trans hsemi₁))).2
  obtain rfl : t₂ = t₂' := (Prod.mk.inj (Option.some.inj ((eval_semicolon ..).symm.trans hsemi₂))).2
  -- the second list, where the first one ends
  obtain ⟨stmts, t, heval, hheap, hstmts⟩ := eval_list_of_tokens
    (show l₂.tokensOnly = l₂.tokensOnly from rfl)
    (show (ParserState.start (t₁.finish stmts₁).heap .new).heap = t₁.heap from rfl) hl₂
  have hlist := h.eval hl₁ heval
  have hnode : (inputTree p₂ l o₂).eval
      actions (.start heap .new) = some ((), t.finish (stmts₁ ++ stmts)) := by
    rw [eval_inputTree, hlist]
    rfl
  obtain ⟨s, hs, hheap', hstatements⟩ := eval_of_tokens hd hnode
  refine ⟨s, hs, hheap'.trans hheap, hstatements.trans ?_⟩
  have hresult {l : Derivation .statementList} {s s' : ParserState}
      {stmts : List (Option SQLStatement)} (h : l.eval actions s = some (some stmts, s'))
      (hnew : s.result = .new) : (s'.finish stmts).result.statements = stmts := by
    rw [ParserState.statements_finish, Derivation.result_eq (by decide) l h, hnew]
    rfl
  rw [hresult hlist rfl, hresult hl₁ rfl, hresult hl₂ rfl, withoutLengths_append,
    withoutLengths_append, hstmts]

end

/-! Parameters. -/

/-- What a parameter holds in the end: the number that it was made with is replaced. -/
def Parameter.fields (p : Parameter) : Nat × Nat × Nat := (p.addr, p.ival, p.ival2)

def Parameter.shift (k : Nat) (p : Parameter) : Parameter :=
  { p with ival := p.ival + k, ival2 := p.ival2 + k }

theorem Builds.fields_parameters {heap : Heap} {sql : Str} {d : Derivation .input}
    {s' : ParserState} (h : Builds sql d)
    (heval : d.eval actions (.start heap .new) = some ((), s')) :
    s'.result.parameters.map Parameter.fields =
      (List.range ((codes sql).count (.ch '?'))).map fun i => (heap.params + i, i, i) := by
  rw [h.parameters_eq heval, ← length_questions]
  generalize questions (Location.zero.tokens (lexemes sql)) = locs
  induction locs using List.reverseRecOn with
  | nil => rfl
  | append_singleton locs l ih =>
    rw [List.mapIdx_concat, List.map_append, ih, List.length_append]
    show _ = (List.range (locs.length + 1)).map _
    rw [List.range_succ, List.map_append]
    rfl

/-! Both. -/

theorem input_last {sql : Str} (h : (codes sql).getLast? ≠ some (.ch ';')) :
    ∀ x ∈ (Location.zero.tokens (lexemes sql)).getLast?, x.1.1 ≠ .ch ';' := by
  intro x hx hsemicolon
  refine h ?_
  rw [← input_codes, List.getLast?_map, Option.mem_def.mp hx]
  exact congrArg some hsemicolon

/-- The derivation that the parser builds for both texts. -/
theorem Builds.concat {s₁ s₂ : Str} {d₁ d₂ : Derivation .input} (hd₁ : Builds s₁ d₁)
    (hd₂ : Builds s₂ d₂) (hlast : (codes s₁).getLast? ≠ some (.ch ';'))
    (htokens : tokens (s₁ ++ ';' :: s₂) = tokens s₁ ++ .ch ';' :: tokens s₂) :
    ∃ d p₁ l₁ o₁ p₂ l₂ l o₂, Builds (s₁ ++ ';' :: s₂) d ∧
      d₁ = inputTree p₁ l₁ o₁ ∧ d₂ = inputTree p₂ l₂ o₂ ∧ Grafted l₁ () l₂ l ∧
        d.tokensOnly = (inputTree p₂ l o₂).tokensOnly := by
  obtain ⟨p₁, l₁, o₁, p₂, l₂, l, o₂, h₁, h₂, hgraft, hrun⟩ :=
    runs_behind () hd₁ (input_last hlast) hd₂
  have hinput : (Location.zero.tokens (lexemes s₁) ++ (⟨.ch ';', ()⟩, eof s₁) ::
      Location.zero.tokens (lexemes s₂)).map Prod.fst =
        (Location.zero.tokens (lexemes (s₁ ++ ';' :: s₂))).map Prod.fst := by
    rw [tokens_map_fst, List.map_append, List.map_cons, tokens_map_fst, tokens_map_fst]
    exact (congrArg (List.map _) htokens).trans List.map_append |>.symm
  have halike : Config.Alike (viewImage grammar forgetImage.token forgetImage.place)
      (inputConfig (Location.zero.tokens (lexemes s₁) ++ (⟨.ch ';', ()⟩, eof s₁) ::
        Location.zero.tokens (lexemes s₂)))
      (startConfig (trees grammar TokenKind.Val Location) (s₁ ++ ';' :: s₂) ()) :=
    ⟨rfl, input_forget hinput, rfl, rfl, rfl⟩
  obtain ⟨d, hbuilds, hview⟩ := runs_alike
    (viewImage_respected (G := grammar) forgetImage.token forgetImage.place)
    (show forgetImage.place (eof s₂) = forgetImage.place (eof (s₁ ++ ';' :: s₂)) from rfl) hrun
    halike trivial
  exact ⟨d, p₁, l₁, o₁, p₂, l₂, l, o₂, hbuilds, h₁, h₂, hgraft, hview.symm⟩

theorem codes_semicolon {s₁ s₂ : Str}
    (htokens : tokens (s₁ ++ ';' :: s₂) = tokens s₁ ++ .ch ';' :: tokens s₂) :
    (codes (s₁ ++ ';' :: s₂)).count (.ch '?') =
      (codes s₁).count (.ch '?') + (codes s₂).count (.ch '?') := by
  rw [codes, htokens, List.map_append, List.map_cons, List.count_append, List.count_cons]
  rfl

/-- **Parsing takes a semicolon between texts to the one after the other.** The second text is
parsed alone on the heap that the first one leaves. -/
theorem parses_concat {s₁ s₂ : Str} (hs₁ : Complete s₁) (hno : NoComment (lexemes s₁))
    (hlast : (codes s₁).getLast? ≠ some (.ch ';')) (hvalid₁ : Valid s₁) (hvalid₂ : Valid s₂) :
    Valid (s₁ ++ ';' :: s₂) ∧ ∀ heap heap₁ heap₂ r₁ r₂, Parses heap .new s₁ heap₁ r₁ →
      Parses heap₁ .new s₂ heap₂ r₂ → ∃ r, Parses heap .new (s₁ ++ ';' :: s₂) heap₂ r ∧
        r.isValid = true ∧
        withoutLengths r.statements = withoutLengths (r₁.statements ++ r₂.statements) ∧
        r.parameters.map Parameter.fields = (r₁.parameters ++
          r₂.parameters.map (Parameter.shift r₁.parameters.length)).map Parameter.fields := by
  have htokens := tokens_semicolon hs₁ hno s₂
  have hparses : ∀ heap heap₁ heap₂ r₁ r₂, Parses heap .new s₁ heap₁ r₁ →
      Parses heap₁ .new s₂ heap₂ r₂ → ∃ r, Parses heap .new (s₁ ++ ';' :: s₂) heap₂ r ∧
        r.isValid = true ∧
        withoutLengths r.statements = withoutLengths (r₁.statements ++ r₂.statements) ∧
        r.parameters.map Parameter.fields = (r₁.parameters ++
          r₂.parameters.map (Parameter.shift r₁.parameters.length)).map Parameter.fields := by
    intro heap heap₁ heap₂ r₁ r₂ hparses₁ hparses₂
    have hisValid {sql : Str} {heap heap' : Heap} {r : SQLParserResult} (hvalid : Valid sql)
        (h : Parses heap .new sql heap' r) : r.isValid = true := by
      obtain ⟨heap'', r', h', hr'⟩ := hvalid.exists_parses heap .new
      rwa [(h.unique h').2]
    obtain ⟨d₁, s₁', hd₁, heval₁, rfl, rfl⟩ :=
      parses_valid_iff.mp ⟨hparses₁, hisValid hvalid₁ hparses₁⟩
    obtain ⟨d₂, s₂', hd₂, heval₂, rfl, rfl⟩ :=
      parses_valid_iff.mp ⟨hparses₂, hisValid hvalid₂ hparses₂⟩
    obtain ⟨d, p₁, l₁, o₁, p₂, l₂, l, o₂, hd, rfl, rfl, hgraft, htree⟩ :=
      hd₁.concat hd₂ hlast htokens
    obtain ⟨s, heval, hheap, hstatements⟩ := eval_grafted hgraft htree heval₁ heval₂
    obtain ⟨hparses, hvalid⟩ := parses_valid_iff.mpr ⟨d, s, hd, heval, hheap.symm, rfl⟩
    refine ⟨_, hparses, hvalid, hstatements, ?_⟩
    have hmade : s₁'.heap.params = heap.params + (codes s₁).count (.ch '?') := by
      rw [(hd₁.made heval₁).params, length_questions]
    have hfields₁ := hd₁.fields_parameters heval₁
    have hlength : s₁'.result.parameters.length = (codes s₁).count (.ch '?') := by
      have hlengths := congrArg List.length hfields₁
      rwa [List.length_map, List.length_map, List.length_range] at hlengths
    show s.result.parameters.map Parameter.fields = (s₁'.result.parameters ++
      s₂'.result.parameters.map (Parameter.shift s₁'.result.parameters.length)).map Parameter.fields
    have hshift : (s₂'.result.parameters.map (Parameter.shift s₁'.result.parameters.length)).map
        Parameter.fields = (s₂'.result.parameters.map Parameter.fields).map fun x =>
          (x.1, x.2.1 + s₁'.result.parameters.length, x.2.2 + s₁'.result.parameters.length) := by
      rw [List.map_map, List.map_map]
      rfl
    rw [hd.fields_parameters heval, codes_semicolon htokens, List.range_add, List.map_append,
      List.map_append, hfields₁, hshift, hd₂.fields_parameters heval₂, hlength, hmade, List.map_map,
      List.map_map]
    -- the nodes of the second text are made after those of the first
    refine congrArg (_ ++ ·) (List.map_congr_left fun i _ => ?_)
    simp only [Function.comp_apply, Nat.add_assoc, Nat.add_comm i]
  refine ⟨?_, hparses⟩
  obtain ⟨heap₁, r₁, hparses₁, -⟩ := hvalid₁.exists_parses ⟨0, 0, 0, 0⟩ .new
  obtain ⟨heap₂, r₂, hparses₂, -⟩ := hvalid₂.exists_parses heap₁ .new
  obtain ⟨r, hr, hisValid, -⟩ := hparses _ _ _ _ _ hparses₁ hparses₂
  exact ⟨_, _, _, _, hr, hisValid⟩

theorem parses_concat_two : ∃ heap' r, Parses ⟨0, 0, 0, 0⟩ .new
    ("SELECT ? FROM t".toList ++ ';' :: "DELETE FROM u WHERE a = ?;".toList) heap' r ∧
      r.isValid = true ∧ r.parameters.map Parameter.fields = [(0, 0, 0), (1, 1, 1)] := by
  have hrun : ((parse 100 ⟨0, 0, 0, 0⟩ .new "SELECT ? FROM t".toList).bind fun x =>
      (parse 100 x.1 .new "DELETE FROM u WHERE a = ?;".toList).map fun y =>
        (x.2.isValid && y.2.isValid, (x.2.parameters ++ y.2.parameters.map
          (Parameter.shift x.2.parameters.length)).map Parameter.fields)) =
            some (true, [(0, 0, 0), (1, 1, 1)]) := by
    simp only [parse_rowwise]
    decide +kernel
  obtain ⟨x, hx, hrun⟩ := Option.bind_eq_some_iff.mp hrun
  obtain ⟨y, hy, heq⟩ := Option.map_eq_some_iff.mp hrun
  obtain ⟨hvalid, hfields⟩ := Prod.mk.inj heq
  obtain ⟨hvalid₁, hvalid₂⟩ := (Bool.and_eq_true _ _).mp hvalid
  have hcomplete : Complete "SELECT ? FROM t".toList := by
    rw [complete_rulesAt]
    decide +kernel
  have hno : NoComment (lexemes "SELECT ? FROM t".toList) := by
    rw [lexemes_rulesAt]
    decide +kernel
  have hlast : (codes "SELECT ? FROM t".toList).getLast? ≠ some (.ch ';') := by
    rw [codes_rulesAt]
    decide +kernel
  obtain ⟨-, hparses⟩ := parses_concat hcomplete hno hlast
    ⟨_, _, _, _, .of_parse hx, hvalid₁⟩ ⟨_, _, _, _, .of_parse hy, hvalid₂⟩
  obtain ⟨r, hr, hisValid, -, hparameters⟩ := hparses _ _ _ _ _ (.of_parse hx) (.of_parse hy)
  exact ⟨y.1, r, hr, hisValid, hparameters.trans hfields⟩

end Hsql
