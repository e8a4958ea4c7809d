import Hsql.Flex.Scanner

/-! The scanner as a function that is called for one token after the other, and a loop that calls
it up to the end. Nothing here is structural: a call goes on while actions return nothing, and it
would go on forever where an empty match is the longest. -/

namespace Flex
variable {σ τ : Type}

/-- What a call comes back with: the token, or `none` for the 0 that stands for the end, the lexemes
it has matched, and the start condition and the text it leaves behind. -/
structure Returned (σ τ : Type) where
  token : Option τ
  lexemes : List (Lexeme σ τ)
  start : σ
  rest : List Char

def Returned.behind (l : Lexeme σ τ) (r : Returned σ τ) : Returned σ τ :=
  { r with lexemes := l :: r.lexemes }

/-- One call, with at most so many matches. A character that no rule matches is echoed. -/
def lex (rs : List (Rule σ τ)) : Nat → σ → List Char → Option (Returned σ τ)
  | 0, _, _ => none
  | _ + 1, q, [] => some ⟨none, [], q, []⟩
  | fuel + 1, q, c :: cs =>
    match munch rs q (c :: cs) with
    | none => (lex rs fuel q cs).map (.behind ⟨[c], .skip⟩)
    | some (n, r) =>
      let l : Lexeme σ τ := ⟨(c :: cs).take n, r.action ((c :: cs).take n)⟩
      let rest := (c :: cs).drop n
      match l.act with
      | .BEGIN q' => (lex rs fuel q' rest).map (.behind l)
      | .skip => (lex rs fuel q rest).map (.behind l)
      | .token t => some ⟨some t, [l], q, rest⟩
      | .stop => some ⟨none, [l], q, rest⟩

structure Collected (σ τ : Type) where
  tokens : List τ
  lexemes : List (Lexeme σ τ)
  rest : List Char

def Collected.behind (t : τ) (L : List (Lexeme σ τ)) (c : Collected σ τ) : Collected σ τ :=
  { c with tokens := t :: c.tokens, lexemes := L ++ c.lexemes }

/-- Calls the scanner until it returns the end; at most so many calls, and so many matches in each. -/
def collect (rs : List (Rule σ τ)) (steps : Nat) : Nat → σ → List Char → Option (Collected σ τ)
  | 0, _, _ => none
  | fuel + 1, q, s =>
    (lex rs steps q s).bind fun r =>
      match r.token with
      | none => some ⟨[], r.lexemes, r.rest⟩
      | some t => (collect rs steps fuel r.start r.rest).map (.behind t r.lexemes)

section
variable {rs : List (Rule σ τ)} (hrs : Progress rs)
include hrs

/-- A call ends. It returns a token at the end of a run over lexemes without one, or the end of the
input behind all lexemes. -/
theorem exists_lex {fuel : Nat} {q : σ} {s : List Char} (hfuel : s.length < fuel) :
    ∃ r, lex rs fuel q s = some r ∧ s = texts r.lexemes ++ r.rest ∧
      (∀ t, r.token = some t → Lexes rs q s r.lexemes r.start r.rest ∧ Flex.tokens r.lexemes = [t] ∧
        r.rest.length < s.length) ∧
      (r.token = none → r.lexemes = scan rs 0 q s ∧ Flex.tokens r.lexemes = []) := by
  induction fuel generalizing q s with
  | zero => exact absurd hfuel (Nat.not_lt_zero _)
  | succ fuel ih =>
    cases s with
    | nil => exact ⟨⟨none, [], q, []⟩, rfl, rfl, nofun, fun _ => ⟨(scan_nil rs q).symm, rfl⟩⟩
    | cons c cs =>
      obtain ⟨n, r, hm, hn⟩ := hrs q (c :: cs) (List.cons_ne_nil _ _)
      have hlt : ((c :: cs).drop n).length < (c :: cs).length := by
        rw [List.length_drop, List.length_cons]
        omega
      have hscan := scan_eq hm hn
      -- an action without a token goes on behind its lexeme
      have hgo {q' : σ} {act : Action σ τ} (hact : r.action ((c :: cs).take n) = act)
          (hnext : act.next q = some q') (htoken : act.token? = none)
          (hlex : lex rs (fuel + 1) q (c :: cs) =
            (lex rs fuel q' ((c :: cs).drop n)).map (.behind ⟨(c :: cs).take n, act⟩)) :
          ∃ r', lex rs (fuel + 1) q (c :: cs) = some r' ∧
            c :: cs = texts r'.lexemes ++ r'.rest ∧
            (∀ t, r'.token = some t → Lexes rs q (c :: cs) r'.lexemes r'.start r'.rest ∧
              Flex.tokens r'.lexemes = [t] ∧ r'.rest.length < (c :: cs).length) ∧
            (r'.token = none → r'.lexemes = scan rs 0 q (c :: cs) ∧
              Flex.tokens r'.lexemes = []) := by
        subst hact
        obtain ⟨r', hr', htext, hsome, hnone⟩ := ih (q := q') (Nat.lt_of_lt_of_le hlt
          (Nat.le_of_lt_succ hfuel))
        refine ⟨_, hlex.trans (congrArg (Option.map _) hr'), ?_, fun t ht => ?_, fun ht => ?_⟩
        · show c :: cs = (c :: cs).take n ++ texts r'.lexemes ++ r'.rest
          rw [List.append_assoc, ← htext, List.take_append_drop]
        · obtain ⟨hrun, htokens, hrest⟩ := hsome t ht
          refine ⟨.cons hm hn hnext hrun, ?_, hrest.trans hlt⟩
          rw [← htokens]
          exact List.filterMap_cons_none htoken
        · obtain ⟨hall, htokens⟩ := hnone ht
          refine ⟨?_, ?_⟩
          · rw [hscan, hnext, Option.elim_some, ← hall]
            rfl
          · rw [← htokens]
            exact List.filterMap_cons_none htoken
      have hdef : lex rs (fuel + 1) q (c :: cs) =
          match r.action ((c :: cs).take n) with
          | .BEGIN q' => (lex rs fuel q' ((c :: cs).drop n)).map
              (.behind ⟨(c :: cs).take n, r.action ((c :: cs).take n)⟩)
          | .skip => (lex rs fuel q ((c :: cs).drop n)).map
              (.behind ⟨(c :: cs).take n, r.action ((c :: cs).take n)⟩)
          | .token t => some ⟨some t, [⟨(c :: cs).take n, r.action ((c :: cs).take n)⟩], q,
              (c :: cs).drop n⟩
          | .stop => some ⟨none, [⟨(c :: cs).take n, r.action ((c :: cs).take n)⟩], q,
              (c :: cs).drop n⟩ := by
        rw [lex, hm]
      have hone (a : Action σ τ) : c :: cs = texts [⟨(c :: cs).take n, a⟩] ++ (c :: cs).drop n := by
        rw [texts_cons, texts_nil, List.append_nil, List.take_append_drop]
      -- what the action of the longest match returns
      cases hact : r.action ((c :: cs).take n) with
      | BEGIN q' =>
        rw [hact] at hdef
        exact hgo hact rfl rfl hdef
      | skip =>
        rw [hact] at hdef
        exact hgo hact rfl rfl hdef
      | token t =>
        rw [hact] at hdef
        refine ⟨_, hdef, hone _, fun t' ht => ?_, nofun⟩
        obtain rfl := Option.some.inj ht
        have hsingle := Lexes.single q hm hn (by rw [hact]; rfl)
        rw [hact] at hsingle
        exact ⟨hsingle, rfl, hlt⟩
      | stop =>
        rw [hact] at hdef
        refine ⟨_, hdef, hone _, nofun, fun _ => ⟨?_, rfl⟩⟩
        rw [hscan, hact]
        rfl

/-- The loop of calls ends. It has matched the lexemes that the scanner cuts the text into and has
the token of each that has one. -/
theorem exists_collect {steps fuel : Nat} {q : σ} {s : List Char} (hsteps : s.length < steps)
    (hfuel : s.length < fuel) : ∃ c, collect rs steps fuel q s = some c ∧
      s = texts c.lexemes ++ c.rest ∧ c.lexemes = scan rs 0 q s ∧
        c.tokens = Flex.tokens (scan rs 0 q s) ∧ c.tokens.length ≤ s.length := by
  induction fuel generalizing q s with
  | zero => exact absurd hfuel (Nat.not_lt_zero _)
  | succ fuel ih =>
    obtain ⟨r, hr, htext, hsome, hnone⟩ := exists_lex hrs (q := q) hsteps
    cases htoken : r.token with
    | none =>
      obtain ⟨hall, htokens⟩ := hnone htoken
      refine ⟨⟨[], r.lexemes, r.rest⟩, ?_, htext, hall, ?_, Nat.zero_le _⟩
      · rw [collect, hr, Option.bind_some, htoken]
      · rw [← hall, htokens]
    | some t =>
      -- the next call starts where the run to the token ends
      obtain ⟨hrun, htokens, hlt⟩ := hsome t htoken
      obtain ⟨c, hc, hrest, hlexemes, hct, hlen⟩ := ih (q := r.start) (s := r.rest)
        (hlt.trans hsteps) (Nat.lt_of_lt_of_le hlt (Nat.le_of_lt_succ hfuel))
      have hscan := hrun.scan_eq
      refine ⟨c.behind t r.lexemes, ?_, ?_, ?_, ?_, ?_⟩
      · rw [collect, hr, Option.bind_some, htoken]
        dsimp only
        rw [hc, Option.map_some]
      · show s = texts (r.lexemes ++ c.lexemes) ++ c.rest
        rw [texts_append, List.append_assoc, ← hrest, ← htext]
      · rw [hscan, ← hlexemes]
        rfl
      · rw [hscan, tokens_append, htokens, ← hct]
        rfl
      · exact (Nat.succ_le_succ hlen).trans hlt

end

end Flex
