import Hsql.Bison.Control

/-! Two inputs with different tokens in one place. As long as the tokens call for the same
reductions the runs stay alike, up to where the first of them is shifted. -/

namespace Bison
variable {T N : Type} {G : Grammar T N} {A : T → Type} {P : Type} [DecidableEq T] [DecidableEq N]

namespace Config
variable {M : Semantics G A P} {auto : Automaton G} {eof eof' : P} {c c' d : Config M}

/-- No accepted run stands in a state barred to the token ahead. -/
theorem Runs.not_barred {u : T} {C : Nat → Prop} (hbarred : Barred auto u C)
    (haccept : ∀ {q : Nat} {t : T}, (auto.row q).act (some t) ≠ .accept)
    {stack : List (Entry A M.V)} {s : M.S} (h : c.Runs auto eof (.accept stack s))
    (hkind : c.kind = some u) : ¬ C (topState c.stack) := by
  intro hstate
  obtain ⟨c', ⟨hkind', -⟩, hlast⟩ := h.last
    (I := fun c => c.kind = some u ∧ C (topState c.stack))
    (fun {c c'} hc hstep => by
      rcases step_cases hstep with ⟨q, t', a, p, rest, hshift, -, rfl⟩ |
        ⟨n, r, vs, rest, q, v, s, hreduce, -, hgoto, -, rfl⟩
      · rw [action, hc.1] at hshift
        exact absurd hshift (hbarred.not_shift hc.2)
      · rw [action, hc.1] at hreduce
        refine ⟨?_, hbarred.goto hc.2 hreduce hgoto⟩
        rw [← hc.1, kind, kind, ahead_input])
    ⟨hkind, hstate⟩
  obtain ⟨hact, -, -⟩ := step_accept hlast
  rw [action, hkind'] at hact
  exact haccept hact

/-- A reduction of a stack that looks the same. -/
theorem step_reduce_alike (eof' : P) {I : Image M} (hI : I.Respected)
    (hplace : ∀ p p', I.place p = I.place p')
    (hstack : c.stack.map I.entry = c'.stack.map I.entry) (hst : I.state c.st = I.state c'.st)
    {n : N} {r : G.Rule n} {vs : Vals A M.V (G.rhs r)} {rest : List (Entry A M.V)} {q : Nat}
    {p : P} {v : M.V n} {s : M.S} (hpop : pop (G.rhs r) c.stack = some (vs, rest))
    (hgoto : auto.goto (topState rest) n = some q) (hact : M.act r vs p c.st = some (v, s))
    (haction : c'.action auto = .reduce r) :
    ∃ rest' v' s', c'.step auto eof' =
        .inl { c'.ahead auto eof' with stack := .value q n v' :: rest', st := s' } ∧
      (Entry.value q n v :: rest).map I.entry = (Entry.value q n v' :: rest').map I.entry ∧
      I.state s = I.state s' := by
  -- the stacks pop alike, and the action looks the same on what it gets
  have hpop' := I.pop_map (G.rhs r) c'.stack
  rw [← hstack, I.pop_map, hpop, Option.map_some] at hpop'
  obtain ⟨⟨vs', rest'⟩, hpop', heq⟩ := Option.map_eq_some_iff.mp hpop'.symm
  obtain ⟨hvals, hrest⟩ := Prod.mk.inj heq
  have htop : topState rest' = topState rest := by
    rw [← I.topState_map, hrest, I.topState_map]
  have hresult := hI r vs vs' p (c'.ahead auto eof').pos c.st c'.st hvals.symm (hplace _ _) hst
  rw [hact, Option.map_some] at hresult
  obtain ⟨⟨v', s'⟩, hact', heq⟩ := Option.map_eq_some_iff.mp hresult.symm
  obtain ⟨hvalue, hstate⟩ := Prod.mk.inj heq
  refine ⟨rest', v', s', ?_, ?_, hstate.symm⟩
  · rw [step_eq, haction, apply, reduce, ahead_stack, hpop']
    simp only [htop, hgoto, ahead_st, hact']
  · simp only [List.map_cons, Image.entry, hrest, hvalue]

/-- Configurations that look the same in front of `X` in one and `Y` in the other. -/
structure Apart (I : Image M) (X Y : List (Sigma A × P)) (c c' : Config M) : Prop where
  stack : c.stack.map I.entry = c'.stack.map I.entry
  st : I.state c.st = I.state c'.st
  input : ∃ pre pre', c.input = pre ++ X ∧ c'.input = pre' ++ Y ∧ pre.map I.input = pre'.map I.input

/-- `X` and `Y` are next. -/
structure Met (I : Image M) (X Y : List (Sigma A × P)) (c c' : Config M) : Prop where
  stack : c.stack.map I.entry = c'.stack.map I.entry
  st : I.state c.st = I.state c'.st
  input : c.input = X
  input' : c'.input = Y

end Config

/-- In front of the second token the parser makes the reductions that it makes in front of the
first, in each state where inputs with these tokens can be accepted. -/
structure Interchange (auto : Automaton G) (t u : T) (C C' : Nat → Prop) : Prop where
  barred : Barred auto t C
  barred' : Barred auto u C'
  row : ∀ q, (∃ p, (auto.row q).act (some t) = .shift p) ∨
    (auto.row q).act (some t) = (auto.row q).act (some u) ∨ C q ∨ C' q
  accept : ∀ {q : Nat} {t : T}, (auto.row q).act (some t) ≠ .accept

namespace Config
variable {M : Semantics G A P} {auto : Automaton G} {eof eof' : P} {I : Image M}

omit [DecidableEq T] [DecidableEq N] in
theorem kind_cons {c : Config M} {x : Sigma A × P} {rest : List (Sigma A × P)}
    (h : c.input = x :: rest) : c.kind = some x.1.1 := by
  rw [kind, h]
  rfl

theorem Runs.exists_step {c : Config M} {stack : List (Entry A M.V)} {s : M.S}
    (h : c.Runs auto eof (.accept stack s)) (haction : c.action auto ≠ .accept) :
    ∃ d, c.step auto eof = .inl d ∧ d.Runs auto eof (.accept stack s) := by
  cases h with
  | stop hstop => exact absurd (step_accept hstop).1 haction
  | next hstep hrun => exact ⟨_, hstep, hrun⟩

/-- Where the state's row has an entry, the token may as well be read already. -/
theorem Runs.read {c : Config M} {o : Outcome M} (h : c.Runs auto eof o)
    (hrow : (auto.row (topState c.stack)).acts.isEmpty = false) : (c.read eof).Runs auto eof o := by
  have hread : (c.read eof).read eof = c.read eof := by
    unfold Config.read
    split_ifs <;> rfl
  have hstack : (c.read eof).stack = c.stack := read_stack c
  have hahead : (c.read eof).ahead auto eof = c.ahead auto eof := by
    unfold Config.ahead
    rw [hstack, hrow, hread]
    rfl
  have haction : (c.read eof).action auto = c.action auto := by
    unfold action kind
    rw [hstack, read_input]
  have hstep : (c.read eof).step auto eof = c.step auto eof := by
    rw [step_eq, step_eq, hahead, haction]
  cases h with
  | stop hstop => exact .stop (hstep.trans hstop)
  | next hnext hrun => exact .next (hstep.trans hnext) hrun

/-- A step on both sides, up to where the first of the tokens is shifted. -/
theorem Apart.step {t u : T} {a : A t} {b : A u} {p p' : P} {X Y : List (Sigma A × P)}
    {C C' : Nat → Prop}
    (hauto : Interchange auto t u C C') (hI : I.Respected)
    (hplace : ∀ p p', I.place p = I.place p') {c c' : Config M} {stack stack' : List (Entry A M.V)}
    {s s' : M.S} (hrun : c.Runs auto eof (.accept stack s))
    (hrun' : c'.Runs auto eof' (.accept stack' s'))
    (h : Apart I ((⟨t, a⟩, p) :: X) ((⟨u, b⟩, p') :: Y) c c') :
    (Met I ((⟨t, a⟩, p) :: X) ((⟨u, b⟩, p') :: Y) c c' ∧
      ∃ q, (auto.row (topState c.stack)).act (some t) = .shift q) ∨
    ∃ d d', c.step auto eof = .inl d ∧ c'.step auto eof' = .inl d' ∧
      Apart I ((⟨t, a⟩, p) :: X) ((⟨u, b⟩, p') :: Y) d d' := by
  have htop : topState c.stack = topState c'.stack := by
    rw [← I.topState_map, h.stack, I.topState_map]
  obtain ⟨pre, pre', hin, hin', hpre⟩ := h.input
  -- a reduction of `c` is one of `c'`
  have hreduces {d : Config M} {n : N} {r : G.Rule n} {vs : Vals A M.V (G.rhs r)}
      {rest : List (Entry A M.V)} {q : Nat} {v : M.V n} {s : M.S}
      (hpop : pop (G.rhs r) c.stack = some (vs, rest))
      (hgoto : auto.goto (topState rest) n = some q)
      (hact : M.act r vs (c.ahead auto eof).pos c.st = some (v, s))
      (hd : d = { c.ahead auto eof with stack := .value q n v :: rest, st := s })
      (haction : c'.action auto = .reduce r) :
      ∃ d', c'.step auto eof' = .inl d' ∧ Apart I ((⟨t, a⟩, p) :: X) ((⟨u, b⟩, p') :: Y) d d' := by
    obtain ⟨rest', v', s', hstep', hstack, hst⟩ := step_reduce_alike eof' hI hplace
      h.stack h.st hpop hgoto hact haction
    refine ⟨_, hstep', ?_, ?_, ?_⟩
    · rw [hd]
      exact hstack
    · rw [hd]
      exact hst
    · rw [hd]
      exact ⟨pre, pre', ahead_input.trans hin, ahead_input.trans hin', hpre⟩
  cases pre with
  | nil =>
    -- the tokens that differ are next
    obtain rfl := List.map_eq_nil_iff.mp hpre.symm
    have hkind : c.kind = some t := kind_cons hin
    have hkind' : c'.kind = some u := kind_cons hin'
    have hmet : Met I ((⟨t, a⟩, p) :: X) ((⟨u, b⟩, p') :: Y) c c' :=
      ⟨h.stack, h.st, hin, hin'⟩
    rcases hauto.row (topState c.stack) with hshift | hsame | hC | hC'
    · exact .inl ⟨hmet, hshift⟩
    · have haction : c.action auto = c'.action auto := by
        rw [action, action, hkind, hkind', ← htop, hsame]
      obtain ⟨d, hstep, -⟩ := hrun.exists_step (by
        rw [action, hkind]
        exact hauto.accept)
      rcases step_cases hstep with ⟨q, t', a', p'', rest, hshift, -, -⟩ |
        ⟨n, r, vs, rest, q, v, s, hreduce, hpop, hgoto, hact, hd⟩
      · rw [action, hkind] at hshift
        exact .inl ⟨hmet, q, hshift⟩
      · obtain ⟨d', hstep', happart⟩ := hreduces hpop hgoto hact hd (haction ▸ hreduce)
        exact .inr ⟨d, d', hstep, hstep', happart⟩
    · exact absurd hC (hrun.not_barred hauto.barred hauto.accept hkind)
    · exact absurd (htop ▸ hC') (hrun'.not_barred hauto.barred' hauto.accept hkind')
  | cons z pre =>
    right
    -- both runs have the same token next
    obtain ⟨⟨⟨t₁, a₁⟩, p₁⟩, pre₁, rfl, hz, hrest⟩ := List.map_eq_cons_iff.mp hpre.symm
    obtain ⟨⟨t₂, a₂⟩, p₂⟩ := z
    simp only [Image.input, Prod.mk.injEq, Sigma.mk.injEq] at hz
    obtain ⟨⟨rfl, htoken⟩, -⟩ := hz
    have hkind : c.kind = some t₁ := kind_cons hin
    have hkind' : c'.kind = some t₁ := kind_cons hin'
    have haction : c.action auto = c'.action auto := by
      rw [action, action, hkind, hkind', htop]
    obtain ⟨d, hstep, -⟩ := hrun.exists_step (by
      rw [action, hkind]
      exact hauto.accept)
    rcases step_cases hstep with ⟨q, t', a', p'', rest, hshift, hcons, rfl⟩ |
      ⟨n, r, vs, rest, q, v, s, hreduce, hpop, hgoto, hact, hd⟩
    · rw [hin] at hcons
      obtain ⟨hfirst, rfl⟩ := List.cons_eq_cons.mp hcons
      cases hfirst
      rw [haction] at hshift
      refine ⟨_, { c'.ahead auto eof' with
        stack := .token q t₁ a₁ :: c'.stack, input := pre₁ ++ (⟨u, b⟩, p') :: Y, look := false },
        hstep, ?_, ?_, ?_, pre, pre₁, rfl, rfl, hrest.symm⟩
      · rw [step_eq, hshift, apply, ahead_input, hin', ahead_stack]
        rfl
      · simp only [List.map_cons, Image.entry, h.stack, eq_of_heq htoken]
      · exact (congrArg I.state ahead_st).trans (h.st.trans (congrArg I.state ahead_st.symm))
    · obtain ⟨d', hstep', happart⟩ := hreduces hpop hgoto hact hd (haction ▸ hreduce)
      exact ⟨d, d', hstep, hstep', happart⟩

/-- Accepted runs on such inputs come to where the tokens are next, alike. -/
theorem Runs.meet {t u : T} {a : A t} {b : A u} {p p' : P} {X Y : List (Sigma A × P)}
    {C C' : Nat → Prop}
    (hauto : Interchange auto t u C C') (hI : I.Respected)
    (hplace : ∀ p p', I.place p = I.place p') {c c' : Config M} {stack stack' : List (Entry A M.V)}
    {s s' : M.S} (hrun : c.Runs auto eof (.accept stack s))
    (hrun' : c'.Runs auto eof' (.accept stack' s'))
    (h : Apart I ((⟨t, a⟩, p) :: X) ((⟨u, b⟩, p') :: Y) c c') :
    ∃ d d' q, c.Steps auto eof d ∧ c'.Steps auto eof' d' ∧ d.Runs auto eof (.accept stack s) ∧
      d'.Runs auto eof' (.accept stack' s') ∧ Met I ((⟨t, a⟩, p) :: X) ((⟨u, b⟩, p') :: Y) d d' ∧
      (auto.row (topState d.stack)).act (some t) = .shift q := by
  have hstart := hrun
  generalize ho : Outcome.accept stack s = o at hrun
  induction hrun generalizing c' with
  | @stop c o hstop =>
    subst ho
    rcases h.step hauto hI hplace hstart hrun' with ⟨hmet, q, hq⟩ | ⟨d, d', hstep, -, -⟩
    · exact ⟨c, c', q, .refl _, .refl _, hstart, hrun', hmet, hq⟩
    · rw [hstep] at hstop
      cases hstop
  | @next c c₁ o hstep hrun ih =>
    subst ho
    rcases h.step hauto hI hplace hstart hrun' with ⟨hmet, q, hq⟩ | ⟨d, d', hstep₁, hstep', hd⟩
    · exact ⟨c, c', q, .refl _, .refl _, hstart, hrun', hmet, hq⟩
    · rw [hstep] at hstep₁
      obtain rfl := Sum.inl.inj hstep₁
      -- the second run goes on from where its step leads
      have hrun₁ : d'.Runs auto eof' (.accept stack' s') := by
        cases hrun' with
        | stop hstop =>
          rw [hstep'] at hstop
          cases hstop
        | next hnext hrun' =>
          rw [hstep'] at hnext
          obtain rfl := Sum.inl.inj hnext
          exact hrun'
      obtain ⟨e, e', q, he, he', hrest⟩ := ih hrun₁ hd hrun rfl
      exact ⟨e, e', q, he.head hstep, he'.head hstep', hrest⟩

end Config

end Bison
