import Hsql.Bison.Runs

/-! Stretches of a run over another bottom of the stack, and with more input behind. -/

namespace Bison
variable {T N : Type} {G : Grammar T N} {A : T → Type} {P : Type}

def Entry.symbol {V : N → Type} : Entry A V → Symbol T N
  | token _ t _ => .terminal t
  | value _ n _ => .nonterminal n

variable [DecidableEq T] [DecidableEq N]

section
variable {V : N → Type} {ss : List (Symbol T N)} {st rest : List (Entry A V)} {vs : Vals A V ss}

theorem pop_append (base : List (Entry A V)) :
    pop ss (st ++ base) = some (vs, rest ++ base) ↔ pop ss st = some (vs, rest) := by
  induction ss generalizing rest with
  | nil =>
    constructor
    · intro h
      obtain ⟨hvs, hst⟩ := Prod.mk.inj (Option.some.inj h)
      rw [← List.append_cancel_right hst]
      rfl
    · intro h
      cases h
      rfl
  | cons sym ss ih =>
    cases sym with
    | terminal t =>
      simp only [pop, Option.bind_eq_some_iff, Option.map_eq_some_iff]
      constructor
      · rintro ⟨⟨us, st₁⟩, hss, ⟨a, st₂⟩, ht, heq⟩
        cases heq
        obtain ⟨q, rfl⟩ := popToken_eq_some ht
        exact ⟨(us, .token q t a :: rest), ih.mp (show pop ss (st ++ base) =
          some (us, (.token q t a :: rest) ++ base) from hss), (a, rest),
          by simp [popToken], rfl⟩
      · rintro ⟨⟨us, st₁⟩, hss, ⟨a, st₂⟩, ht, heq⟩
        cases heq
        obtain ⟨q, rfl⟩ := popToken_eq_some ht
        exact ⟨_, ih.mpr hss, (a, st₂ ++ base), by simp [popToken], rfl⟩
    | nonterminal n =>
      simp only [pop, Option.bind_eq_some_iff, Option.map_eq_some_iff]
      constructor
      · rintro ⟨⟨us, st₁⟩, hss, ⟨v, st₂⟩, hn, heq⟩
        cases heq
        obtain ⟨q, rfl⟩ := popValue_eq_some hn
        exact ⟨(us, .value q n v :: rest), ih.mp (show pop ss (st ++ base) =
          some (us, (.value q n v :: rest) ++ base) from hss), (v, rest),
          by simp [popValue], rfl⟩
      · rintro ⟨⟨us, st₁⟩, hss, ⟨v, st₂⟩, hn, heq⟩
        cases heq
        obtain ⟨q, rfl⟩ := popValue_eq_some hn
        exact ⟨_, ih.mpr hss, (v, st₂ ++ base), by simp [popValue], rfl⟩

/-- A right-hand side that takes the whole stack starts with the bottom. -/
theorem pop_getLast (h : pop ss st = some (vs, [])) :
    ss.head? = st.getLast?.map Entry.symbol := by
  have hlast {e : Entry A V} {sym : Symbol T N} {st₁ : List (Entry A V)} {us : Vals A V ss.tail}
      (hss : pop ss.tail st = some (us, st₁)) (he : st₁ = [e]) (hsym : e.symbol = sym) :
      st.getLast?.map Entry.symbol = some sym := by
    obtain ⟨u, hu⟩ := pop_suffix hss
    rw [← hu, he, List.getLast?_concat, Option.map_some, hsym]
  cases ss with
  | nil =>
    cases h
    rfl
  | cons sym ss =>
    cases sym with
    | terminal t =>
      obtain ⟨⟨us, st₁⟩, hss, h⟩ := Option.bind_eq_some_iff.mp h
      obtain ⟨⟨a, st₂⟩, ht, heq⟩ := Option.map_eq_some_iff.mp h
      cases heq
      obtain ⟨q, hq⟩ := popToken_eq_some ht
      exact (hlast hss hq rfl).symm
    | nonterminal n =>
      obtain ⟨⟨us, st₁⟩, hss, h⟩ := Option.bind_eq_some_iff.mp h
      obtain ⟨⟨v, st₂⟩, hn, heq⟩ := Option.map_eq_some_iff.mp h
      cases heq
      obtain ⟨q, hq⟩ := popValue_eq_some hn
      exact (hlast hss hq rfl).symm

end

namespace Config
variable {M : Semantics G A P} {auto : Automaton G} {eof eof' : P} {c d : Config M}

/-- The steps that the parts of a configuration allow. -/
theorem step_shift {q : Nat} {t : T} {a : A t} {p : P} {rest : List (Sigma A × P)}
    (hact : c.action auto = .shift q) (hin : c.input = (⟨t, a⟩, p) :: rest) :
    c.step auto eof = .inl { c.ahead auto eof with
      stack := .token q t a :: c.stack, input := rest, look := false } := by
  rw [step_eq, hact, apply, ahead_input, hin]
  dsimp only
  rw [ahead_stack]

theorem step_reduce {n : N} {r : G.Rule n} {vs : Vals A M.V (G.rhs r)}
    {rest : List (Entry A M.V)} {q : Nat} {v : M.V n} {s : M.S} (hact : c.action auto = .reduce r)
    (hpop : pop (G.rhs r) c.stack = some (vs, rest)) (hgoto : auto.goto (topState rest) n = some q)
    (hv : M.act r vs (c.ahead auto eof).pos c.st = some (v, s)) :
    c.step auto eof = .inl { c.ahead auto eof with stack := .value q n v :: rest, st := s } := by
  rw [step_eq, hact, apply, reduce, ahead_stack, hpop]
  dsimp only
  rw [hgoto]
  dsimp only
  rw [ahead_st, hv]

/-! More input. -/

def extend (c : Config M) (ext : List (Sigma A × P)) : Config M :=
  { c with input := c.input ++ ext }

omit [DecidableEq T] [DecidableEq N] in
theorem ahead_extend {x : Sigma A × P} {ext : List (Sigma A × P)} (hx : x.2 = eof) :
    (c.extend (x :: ext)).ahead auto eof' = (c.ahead auto eof).extend (x :: ext) := by
  unfold ahead
  show (if (auto.row (topState c.stack)).acts.isEmpty then _ else _) = _
  split_ifs
  · rfl
  · obtain ⟨stack, input, look, pos, st⟩ := c
    cases look with
    | true => rfl
    | false =>
      cases input with
      | nil =>
        subst hx
        rfl
      | cons y input => rfl

/-- A token behind the input that is answered like its end. -/
theorem step_extend {x : Sigma A × P} {ext : List (Sigma A × P)} (hx : x.2 = eof)
    (hlike : c.input = [] → (auto.row (topState c.stack)).act (some x.1.1) =
      (auto.row (topState c.stack)).act none) (h : c.step auto eof = .inl d) :
    (c.extend (x :: ext)).step auto eof' = .inl (d.extend (x :: ext)) := by
  have haction : (c.extend (x :: ext)).action auto = c.action auto := by
    unfold action kind extend
    cases hin : c.input with
    | nil => exact hlike hin
    | cons y input => rfl
  have hahead : (c.extend (x :: ext)).ahead auto eof' = (c.ahead auto eof).extend (x :: ext) :=
    ahead_extend hx
  rcases step_cases h with ⟨q, t, a, p, rest, hact, hin, rfl⟩ |
    ⟨n, r, vs, rest, q, v, s, hact, hpop, hgoto, hv, rfl⟩
  · have hinput : (c.extend (x :: ext)).input = (⟨t, a⟩, p) :: (rest ++ x :: ext) := by
      rw [extend, hin]
      rfl
    rw [step_shift (haction.trans hact) hinput, hahead]
    rfl
  · have hstep : (c.extend (x :: ext)).step auto eof' = _ :=
      step_reduce (haction.trans hact) hpop hgoto (v := v) (s := s)
      (by rw [hahead]; exact hv)
    rw [hstep, hahead]
    rfl

end Config
end Bison
