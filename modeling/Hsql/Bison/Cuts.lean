import Hsql.Bison.Bases

/-! Runs cut where a token is shifted: in front of it they are runs of the input up to there, where
the token is answered like the end. Derivations that end where no lookahead is read. -/

namespace Bison
variable {T N : Type} {G : Grammar T N} {A : T → Type} {P : Type}
variable [DecidableEq T] [DecidableEq N]

/-! What is taken off a stack depends on the symbols on it. -/

section
variable {V V' : N → Type} {ss : List (Symbol T N)} {st rest : List (Entry A V)}

theorem pop_symbols {vs : Vals A V ss} (h : pop ss st = some (vs, rest)) :
    st.map Entry.symbol = ss.reverse ++ rest.map Entry.symbol := by
  induction ss generalizing rest with
  | nil =>
    cases h
    rfl
  | cons sym ss ih =>
    cases sym with
    | terminal t =>
      obtain ⟨⟨us, st₁⟩, hss, h⟩ := Option.bind_eq_some_iff.mp h
      obtain ⟨⟨a, st₂⟩, ht, heq⟩ := Option.map_eq_some_iff.mp h
      cases heq
      obtain ⟨q, rfl⟩ := popToken_eq_some ht
      rw [ih hss, List.reverse_cons, List.append_assoc]
      rfl
    | nonterminal n =>
      obtain ⟨⟨us, st₁⟩, hss, h⟩ := Option.bind_eq_some_iff.mp h
      obtain ⟨⟨v, st₂⟩, hn, heq⟩ := Option.map_eq_some_iff.mp h
      cases heq
      obtain ⟨q, rfl⟩ := popValue_eq_some hn
      rw [ih hss, List.reverse_cons, List.append_assoc]
      rfl

/-- A right-hand side that is on top of the stack is taken off. -/
theorem exists_pop {syms : List (Symbol T N)}
    (h : st.map Entry.symbol = ss.reverse ++ syms) : ∃ vs rest : _,
      pop ss st = some (vs, rest) ∧ rest <:+ st ∧ rest.map Entry.symbol = syms := by
  induction ss generalizing syms with
  | nil => exact ⟨(), st, rfl, List.suffix_rfl, h⟩
  | cons sym ss ih =>
    rw [List.reverse_cons, List.append_assoc] at h
    obtain ⟨us, st₁, hpop, hsuffix, hst⟩ := ih h
    obtain ⟨e, rest, rfl, he, hrest⟩ := List.map_eq_cons_iff.mp hst
    have hbelow := (List.suffix_cons e rest).trans hsuffix
    cases sym with
    | terminal t =>
      cases e with
      | token q t' a =>
        obtain rfl : t' = t := Symbol.terminal.inj he
        exact ⟨(a, us), rest, by simp [pop, hpop, popToken], hbelow, hrest⟩
      | value q n v => cases he
    | nonterminal n =>
      cases e with
      | token q t a => cases he
      | value q n' v =>
        obtain rfl : n' = n := Symbol.nonterminal.inj he
        exact ⟨(v, us), rest, by simp [pop, hpop, popValue], hbelow, hrest⟩

end

namespace Config
variable {M : Semantics G A P} {auto : Automaton G} {eof eof' : P} {c d : Config M}
  {x : Sigma A × P} {ext : List (Sigma A × P)}

/-- A step that leaves a token and what is behind it is one of the input in front of it. -/
theorem step_cut (hx : x.2 = eof) (hlike : ∀ {q : Nat} {n : N} {r : G.Rule n},
      (auto.row q).act (some x.1.1) = .reduce r → (auto.row q).act none = .reduce r)
    (h : (c.extend (x :: ext)).step auto eof' = .inl d) (hd : x :: ext <:+ d.input) :
    ∃ d', c.step auto eof = .inl d' ∧ d = d'.extend (x :: ext) := by
  have hahead : (c.extend (x :: ext)).ahead auto eof' = (c.ahead auto eof).extend (x :: ext) :=
    ahead_extend hx
  rcases step_cases h with ⟨q, t, a, p, rest, hact, hin, rfl⟩ |
    ⟨n, r, vs, rest, q, v, s, hact, hpop, hgoto, hv, rfl⟩
  · cases hinput : c.input with
    | nil =>
      -- the token itself would be shifted
      obtain ⟨u, hu⟩ := hd
      have hlen := congrArg List.length (hu.trans (List.cons_eq_cons.mp
        (((congrArg (· ++ x :: ext) hinput).symm.trans hin).trans rfl)).2.symm)
      simp at hlen
      omega
    | cons y input =>
      have hcons : y :: (input ++ x :: ext) = (⟨t, a⟩, p) :: rest :=
        (congrArg (· ++ x :: ext) hinput).symm.trans hin
      obtain ⟨rfl, rfl⟩ := List.cons_eq_cons.mp hcons
      have haction : c.action auto = .shift q := by
        unfold action kind at hact ⊢
        rw [hinput]
        rw [hin] at hact
        exact hact
      refine ⟨_, step_shift haction hinput, ?_⟩
      rw [hahead]
      rfl
  · have haction : c.action auto = .reduce r := by
      unfold action kind at hact ⊢
      rw [extend] at hact
      cases hin : c.input with
      | nil =>
        rw [hin] at hact
        exact hlike hact
      | cons y input =>
        rw [hin] at hact
        exact hact
    rw [hahead] at hv
    refine ⟨_, step_reduce haction hpop hgoto hv, ?_⟩
    rw [hahead]
    rfl

theorem Steps.suffix {c d : Config M} (h : c.Steps auto eof d) : d.input <:+ c.input := by
  induction h with
  | refl => exact List.suffix_rfl
  | tail _ hstep ih =>
    refine List.IsSuffix.trans ?_ ih
    rcases step_cases hstep with ⟨q, t, a, p, rest, -, hin, rfl⟩ | ⟨n, r, vs, rest, q, v, s, -, -, -, -, rfl⟩
    · rw [hin]
      exact List.suffix_cons _ _
    · exact ahead_input.symm ▸ List.suffix_rfl

theorem Steps.cut (hx : x.2 = eof) (hlike : ∀ {q : Nat} {n : N} {r : G.Rule n},
      (auto.row q).act (some x.1.1) = .reduce r → (auto.row q).act none = .reduce r)
    (h : (c.extend (x :: ext)).Steps auto eof' d) (hd : x :: ext <:+ d.input) :
    ∃ d', c.Steps auto eof d' ∧ d = d'.extend (x :: ext) := by
  induction h with
  | refl => exact ⟨c, .refl c, rfl⟩
  | tail hsteps hstep ih =>
    have hbefore := Steps.suffix (.tail (.refl _) hstep)
    obtain ⟨d₁, hd₁, rfl⟩ := ih (hd.trans hbefore)
    obtain ⟨d₂, hd₂, rfl⟩ := step_cut hx hlike hstep hd
    exact ⟨d₂, .tail hd₁ hd₂, rfl⟩

/-- An accepted run shifts every token of its input. -/
theorem Runs.exists_shift {stack : List (Entry A M.V)} {s : M.S}
    (haccept : ∀ {q : Nat} {t : T}, (auto.row q).act (some t) ≠ .accept)
    (h : c.Runs auto eof (.accept stack s)) (hc : x :: ext <:+ c.input) :
    ∃ d q, c.Steps auto eof d ∧ d.input = x :: ext ∧ d.action auto = .shift q ∧
      Runs auto eof { d.ahead auto eof with
        stack := .token q x.1.1 x.1.2 :: d.stack, input := ext, look := false }
          (.accept stack s) := by
  generalize ho : Outcome.accept stack s = o at h
  induction h with
  | @stop c o hstop =>
    subst ho
    obtain ⟨hact, -, -⟩ := step_accept hstop
    obtain ⟨u, hu⟩ := hc
    unfold action kind at hact
    cases u with
    | nil =>
      rw [← hu] at hact
      exact absurd hact haccept
    | cons y u =>
      rw [← hu] at hact
      exact absurd hact haccept
  | @next c c' o hstep hrun ih =>
    subst ho
    by_cases hrest : x :: ext <:+ c'.input
    · obtain ⟨d, q, hsteps, hd⟩ := ih hrest rfl
      exact ⟨d, q, hsteps.head hstep, hd⟩
    · rcases step_cases hstep with ⟨q, t, a, p, rest, hact, hin, rfl⟩ |
        ⟨n, r, vs, rest, q, v, s, -, -, -, -, rfl⟩
      · -- the step that loses the token shifts it
        rw [hin] at hc
        rcases List.suffix_cons_iff.mp hc with heq | hsuffix
        · obtain ⟨rfl, rfl⟩ := List.cons_eq_cons.mp heq
          exact ⟨c, q, .refl c, hin, hact, hrun⟩
        · exact absurd hsuffix hrest
      · exact absurd (hc.trans (ahead_input.symm ▸ List.suffix_rfl)) hrest

end Config
end Bison
