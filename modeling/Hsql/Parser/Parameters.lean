import Hsql.Parser.Locations
import Hsql.Parser.WellFormed

/-! The numbers of the `?` nodes. A `?` is reduced as soon as it is shifted, so the list of these
nodes grows in the order of the text. -/

namespace Hsql
open Bison

/-- Where the `?` tokens are, each as the location behind it. -/
def questions (l : List (Sigma TokenKind.Val × Location)) : List Location :=
  l.filterMap fun x => if x.1.1 = .ch '?' then some x.2 else none

theorem questions_append (l l' : List (Sigma TokenKind.Val × Location)) :
    questions (l ++ l') = questions l ++ questions l' := List.filterMap_append

/-- The `?` nodes made for tokens with these locations, from an address on. -/
def madeParams (base : Nat) (locs : List Location) : List Parameter :=
  locs.mapIdx fun i l => ⟨base + i, l.totalColumn, l.totalColumn, i⟩

theorem madeParams_append (base : Nat) (locs : List Location) (l : Location) :
    madeParams base (locs ++ [l]) = madeParams base locs ++
      [⟨base + locs.length, l.totalColumn, l.totalColumn, locs.length⟩] := List.mapIdx_concat

theorem length_madeParams (base : Nat) (locs : List Location) :
    (madeParams base locs).length = locs.length := List.length_mapIdx

/-- The state holds the nodes of these tokens. -/
structure ParserState.Made (base : Nat) (locs : List Location) (s : ParserState) : Prop where
  paramList : s.paramList = madeParams base locs
  params : s.heap.params = base + locs.length

theorem ParserState.Made.push {base : Nat} {locs : List Location} {s : ParserState}
    (h : s.Made base locs) (l : Location) : (s.pushParam l).Made base (locs ++ [l]) := by
  constructor
  · show s.paramList ++ [_] = _
    rw [madeParams_append, h.paramList, length_madeParams, ← h.params]
    rfl
  · show s.heap.params + 1 = _
    rw [h.params, List.length_append]
    rfl

/-- Other actions leave the list and the heap's `?` nodes alone. -/
theorem Made.keep {base : Nat} {locs : List Location} {n : NT} {l : Location} {s s' : ParserState}
    (h : s.Made base locs) (hchanges : n.Changes l s s') (hn : n ≠ .paramExpr) :
    s'.Made base locs := by
  unfold NT.Changes at hchanges
  split at hchanges
  · obtain ⟨stmts, rfl⟩ := hchanges
    exact ⟨h.paramList, h.params⟩
  · rw [hchanges]
    exact ⟨h.paramList, h.params⟩
  · rw [hchanges]
    exact ⟨h.paramList, h.params⟩
  · rw [hchanges]
    exact ⟨h.paramList, h.params⟩
  · rcases hchanges with rfl | rfl
    · exact ⟨h.paramList, h.params⟩
    · exact h
  · exact absurd rfl hn
  · rwa [hchanges]

/-! Facts about the tables. -/

theorem act_shift_question {q p : Nat} (h : (automaton.row q).act (some (.ch '?')) = .shift p) :
    p = 50 ∧ (automaton.row q).acts.isEmpty = false := by
  have hrow := row_all (fun _ row => shiftsOn (fun _ => false) row.default &&
    row.acts.all fun x => x.1 != some (.ch '?') || shiftsOn (· == 50) x.2) (fun _ _ => rfl)
    (by decide +kernel) q
  rw [Bool.and_eq_true, List.all_eq_true] at hrow
  rcases act_cases (automaton.row q) (some (.ch '?')) with hmem | hdefault
  · have hentry := hrow.2 _ hmem
    rw [h] at hentry
    refine ⟨by simpa [shiftsOn] using hentry, ?_⟩
    by_contra hempty
    rw [Bool.not_eq_false, List.isEmpty_iff] at hempty
    rw [hempty] at hmem
    cases hmem
  · rw [hdefault] at h
    rw [h] at hrow
    cases hrow.1

/-- Behind a `?` the parser does not wait for another token. -/
theorem row_question : automaton.row 50 = ⟨[], Tables.reduce .paramExpr 0⟩ := rfl

/-! The invariant of a run. -/

def Entry.isQuestion {V : NT → Type} : Entry TokenKind.Val V → Bool
  | .token _ t _ => t == .ch '?'
  | .value _ _ _ => false

/-- The `?` that have been read have their nodes, but for one on top of the stack. -/
def Numbered (base : Nat) (input : List (Sigma TokenKind.Val × Location)) (c : Config actions) :
    Prop :=
  ∃ pre, input = pre ++ c.input ∧
    ((∀ e ∈ c.stack, Entry.isQuestion e = false) ∧ c.st.Made base (questions pre) ∨
      ∃ a rest pre', c.stack = .token 50 (.ch '?') a :: rest ∧
        (∀ e ∈ rest, Entry.isQuestion e = false) ∧
          pre = pre' ++ [(⟨.ch '?', a⟩, c.pos)] ∧ c.st.Made base (questions pre'))

theorem step_numbered {base : Nat} {input : List (Sigma TokenKind.Val × Location)} {eof : Location}
    {c c' : Config actions} (hc : Numbered base input c) (hlooks : c.Looks eof)
    (h : c.step automaton eof = .inl c') : Numbered base input c' := by
  obtain ⟨pre, hpre, ⟨hno, hmade⟩ | ⟨a, rest, pre', hstack, hno, rfl, hmade⟩⟩ := hc
  · rcases Config.step_cases h with ⟨q, t, a, p, rest, hact, hin, rfl⟩ |
      ⟨n, r, vs, rest, q, v, s, -, hpop, -, hv, rfl⟩
    · refine ⟨pre ++ [(⟨t, a⟩, p)], ?_, ?_⟩
      · rw [hpre, hin, List.append_assoc]
        rfl
      · by_cases ht : t = .ch '?'
        · subst ht
          right
          have hact' : (automaton.row (topState c.stack)).act (some (.ch '?')) = .shift q := by
            unfold Config.action Config.kind at hact
            rwa [hin] at hact
          obtain ⟨rfl, hacts⟩ := act_shift_question hact'
          refine ⟨a, c.stack, pre, rfl, hno, ?_, ?_⟩
          · have hpos : (c.ahead automaton eof).pos = p := by
              unfold Config.ahead
              rw [hacts]
              have hread := Config.looks_read hlooks
              rwa [hin] at hread
            rw [← hpos]
          · have hst : (c.ahead automaton eof).st = c.st := Config.ahead_st
            rwa [← hst] at hmade
        · left
          refine ⟨?_, ?_⟩
          · intro e he
            rcases List.mem_cons.mp he with rfl | he
            · exact beq_eq_false_iff_ne.mpr ht
            · exact hno e he
          · have hsame : questions (pre ++ [(⟨t, a⟩, p)]) = questions pre := by
              rw [questions_append]
              simp [questions, ht]
            have hst : (c.ahead automaton eof).st = c.st := Config.ahead_st
            rw [hsame]
            rwa [← hst] at hmade
    · refine ⟨pre, by rw [hpre]; exact congrArg _ Config.ahead_input.symm, .inl ⟨?_, ?_⟩⟩
      · intro e he
        rcases List.mem_cons.mp he with rfl | he
        · rfl
        · exact hno e ((pop_suffix hpop).subset he)
      · have hchanges := changes (List.get_mem _ r) hv
        by_cases hn : n = .paramExpr
        · subst hn
          match r, vs, hpop, hv with
          | ⟨0, _⟩, vs, hpop, hv =>
            -- there is no `?` to take off the stack
            obtain ⟨x, hx, hpop⟩ := Option.bind_eq_some_iff.mp hpop
            obtain ⟨y, hy, -⟩ := Option.map_eq_some_iff.mp hpop
            cases hx
            obtain ⟨q', hq'⟩ := popToken_eq_some (show _ = some (y.1, y.2) from hy)
            have hquestion := hno _ (hq' ▸ List.mem_cons_self)
            cases hquestion
          | ⟨1, _⟩, vs, hpop, hv =>
            cases hv
            exact hmade
        · exact Made.keep hmade hchanges hn
  · have hrow : automaton.row (topState c.stack) = ⟨[], Tables.reduce .paramExpr 0⟩ := by
      rw [hstack]
      exact row_question
    have hahead : c.ahead automaton eof = c := by
      unfold Config.ahead
      rw [hrow]
      rfl
    have hact : c.action automaton = .reduce (⟨0, by decide⟩ : grammar.Rule .paramExpr) := by
      unfold Config.action
      rw [hrow]
      rfl
    rcases Config.step_cases h with ⟨q, t, a, p, rest, hshift, -, -⟩ |
      ⟨n, r, vs, rest', q, v, s, hreduce, hpop, -, hv, rfl⟩
    · rw [hact] at hshift
      cases hshift
    · rw [hact] at hreduce
      cases hreduce
      rw [hahead] at hv ⊢
      obtain ⟨x, hx, hpop⟩ := Option.bind_eq_some_iff.mp hpop
      obtain ⟨y, hy, heq⟩ := Option.map_eq_some_iff.mp hpop
      cases hx
      cases heq
      obtain ⟨q', hq'⟩ := popToken_eq_some (show _ = some (y.1, y.2) from hy)
      rw [hstack] at hq'
      cases hq'
      refine ⟨_, hpre, .inl ⟨?_, ?_⟩⟩
      · intro e he
        rcases List.mem_cons.mp he with rfl | he
        · rfl
        · exact hno e he
      · have hone (a : TokenKind.Val (.ch '?')) :
            questions (pre' ++ [(⟨.ch '?', a⟩, c.pos)]) = questions pre' ++ [c.pos] :=
          questions_append _ _
        rw [hone]
        cases hv
        exact hmade.push c.pos

/-! The last action. -/

theorem addParameter_sorted {S : Type} (result : SQLParserResult S) (parameter : Parameter)
    (hsorted : result.parameters.Pairwise fun a b => a.ival ≤ b.ival)
    (hlast : ∀ a ∈ result.parameters, a.ival ≤ parameter.ival) :
    (result.addParameter parameter).parameters = result.parameters ++ [parameter] := by
  unfold SQLParserResult.addParameter
  apply List.Pairwise.insertionSort_eq
  rw [List.pairwise_append]
  refine ⟨hsorted, List.pairwise_singleton _ _, fun a ha b hb => ?_⟩
  obtain rfl := List.mem_singleton.mp hb
  exact hlast a ha

/-- Renumbering appends the nodes in their order, since each gets a larger number than those
before. -/
theorem parameters_foldl {S : Type} (l : List Parameter) (result : SQLParserResult S) (k : Nat)
    (hsorted : result.parameters.Pairwise fun a b => a.ival ≤ b.ival)
    (hbelow : ∀ a ∈ result.parameters, a.ival ≤ k) :
    ((l.zipIdx k).foldl (fun (r : SQLParserResult S) (x : Parameter × Nat) =>
      r.addParameter { x.1 with ival := x.2 }) result).parameters =
      result.parameters ++ (l.zipIdx k).map fun x => { x.1 with ival := x.2 } := by
  induction l generalizing result k with
  | nil => exact (List.append_nil _).symm
  | cons a l ih =>
    have hadd := addParameter_sorted result { a with ival := k } hsorted hbelow
    rw [List.zipIdx_cons, List.foldl_cons, ih _ _ ?_ ?_, hadd, List.map_cons, List.append_assoc]
    · rfl
    · rw [hadd, List.pairwise_append]
      refine ⟨hsorted, List.pairwise_singleton _ _, fun b hb c hc => ?_⟩
      obtain rfl := List.mem_singleton.mp hc
      exact hbelow b hb
    · rw [hadd]
      intro b hb
      rcases List.mem_append.mp hb with hb | hb
      · exact (hbelow b hb).trans (Nat.le_succ k)
      · obtain rfl := List.mem_singleton.mp hb
        exact Nat.le_succ k

theorem parameters_foldl_addStatement (result : SQLParserResult)
    (stmts : List (Option SQLStatement)) :
    (stmts.foldl SQLParserResult.addStatement result).parameters = result.parameters := by
  induction stmts generalizing result with
  | nil => rfl
  | cons x stmts ih => exact ih _

theorem ParserState.Made.parameters_finish {base : Nat} {locs : List Location} {s : ParserState}
    (h : s.Made base locs) (hresult : s.result.parameters = []) (stmts : List (Option SQLStatement)) :
    (s.finish stmts).result.parameters =
      locs.mapIdx fun i l => ⟨base + i, l.totalColumn, i, i⟩ := by
  have hfold := parameters_foldl s.paramList (stmts.foldl SQLParserResult.addStatement s.result) 0
    (by rw [parameters_foldl_addStatement, hresult]; exact .nil)
    (by rw [parameters_foldl_addStatement, hresult]; exact fun a ha => by cases ha)
  unfold ParserState.finish
  rw [hfold, parameters_foldl_addStatement, hresult, List.nil_append, h.paramList]
  unfold madeParams
  apply List.ext_getElem?
  intro i
  simp only [List.getElem?_map, List.getElem?_zipIdx, List.getElem?_mapIdx, Option.map_map]
  cases locs[i]? with
  | none => rfl
  | some l => simp

theorem Builds.made {heap : Heap} {sql : Str} {d : Derivation .input} {s' : ParserState}
    (h : Builds sql d) (heval : d.eval actions (.start heap .new) = some ((), s')) :
    s'.Made heap.params (questions (Location.zero.tokens (lexemes sql))) := by
  have hrun := Config.Runs.eval (M := actions) (s := .start heap .new) h rfl
  rw [eval_accept, heval] at hrun
  obtain ⟨c, ⟨hlink, -, pre, hpre, hcases⟩, hstep⟩ := hrun.last
    (I := fun c => Linked automaton c.stack ∧ c.Looks (eof sql) ∧
      Numbered heap.params (Location.zero.tokens (lexemes sql)) c)
    (fun hc hstep => ⟨Config.step_linked hc.1 hstep, Config.step_looks hc.2.1 hstep,
      step_numbered hc.2.2 hc.2.1 hstep⟩)
    ⟨trivial, start_looks _ _ _, [], rfl, .inl ⟨fun e he => absurd he List.not_mem_nil, rfl, rfl⟩⟩
  obtain ⟨hin, rfl, v, hstack, -⟩ := accepts_at hlink hstep
  rw [hin, List.append_nil] at hpre
  rw [hpre]
  rcases hcases with ⟨-, hmade⟩ | ⟨a, rest, pre', hquestion, -⟩
  · exact hmade
  · rw [hstack] at hquestion
    cases hquestion

/-- The parameters of an accepted text: one for each `?` token. -/
theorem Builds.parameters_eq {heap : Heap} {sql : Str} {d : Derivation .input} {s' : ParserState}
    (h : Builds sql d) (heval : d.eval actions (.start heap .new) = some ((), s')) :
    s'.result.parameters = (questions (Location.zero.tokens (lexemes sql))).mapIdx fun i l =>
      ⟨heap.params + i, l.totalColumn, i, i⟩ := by
  have hmade := h.made heval
  obtain ⟨p, list, semicolon, stmts, s₁, s₂, rfl, hlist, hsemi, rfl⟩ := Derivation.eval_input heval
  have hresult : s₂.result.parameters = [] := by
    rw [Derivation.result_eq (by decide) semicolon hsemi, Derivation.result_eq (by decide) list hlist]
    rfl
  have hmade₂ : s₂.Made heap.params (questions (Location.zero.tokens (lexemes sql))) :=
    ⟨hmade.paramList, hmade.params⟩
  exact hmade₂.parameters_finish hresult stmts

theorem length_questions (sql : Str) :
    (questions (Location.zero.tokens (lexemes sql))).length = (codes sql).count (.ch '?') := by
  have hfst := tokens_map_fst Location.zero (lexemes sql)
  have hcodes : codes sql =
      (Location.zero.tokens (lexemes sql)).map fun x => x.1.1 := by
    have hmap := congrArg (List.map Sigma.fst) hfst
    rw [List.map_map, List.map_map] at hmap
    exact hmap.symm
  rw [hcodes]
  induction Location.zero.tokens (lexemes sql) with
  | nil => rfl
  | cons x l ih =>
    rw [List.map_cons, List.count_cons, ← ih]
    by_cases hx : x.1.1 = .ch '?' <;> simp [questions, hx]

/-- The parameters of an accepted text: one for each `?` token, in the order of the text, with
the number of its place. -/
theorem parameters_numbered {heap heap' : Heap} {result' : SQLParserResult} {sql : Str}
    (h : Parses heap .new sql heap' result') (hvalid : result'.isValid = true) :
    result'.parameters.length = (codes sql).count (.ch '?') ∧
      ∀ i l, (questions (Location.zero.tokens (lexemes sql)))[i]? = some l →
        result'.parameters[i]? = some (⟨heap.params + i, l.totalColumn, i, i⟩ : Parameter) := by
  obtain ⟨d, s', hbuilds, heval, rfl, rfl⟩ := parses_valid_iff.mp ⟨h, hvalid⟩
  have hparameters := hbuilds.parameters_eq heval
  refine ⟨?_, fun i l hl => ?_⟩
  · show s'.result.parameters.length = _
    rw [hparameters, List.length_mapIdx, length_questions]
  · show s'.result.parameters[i]? = _
    rw [hparameters, List.getElem?_mapIdx, hl]
    rfl

theorem parameters_numbered_limit : ∃ heap' result',
    Parses ⟨0, 0, 0, 0⟩ .new "SELECT ? FROM t LIMIT ?, ?".toList heap' result' ∧
      result'.parameters.length = (codes "SELECT ? FROM t LIMIT ?, ?".toList).count (.ch '?') := by
  have hrun : ((parse 100 ⟨0, 0, 0, 0⟩ .new "SELECT ? FROM t LIMIT ?, ?".toList).map fun x =>
      x.2.isValid) = some true := by
    rw [parse_rowwise]
    decide +kernel
  obtain ⟨x, hx, hvalid⟩ := Option.map_eq_some_iff.mp hrun
  have hparse := Parses.of_parse hx
  exact ⟨x.1, x.2, hparse, (parameters_numbered hparse hvalid).1⟩

end Hsql
