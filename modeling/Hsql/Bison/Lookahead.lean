import Hsql.Bison.Runs

/-! Where derivations end: behind their last token, or with the lookahead behind it read. What
evaluating a derivation without certain tokens leaves alone. -/

namespace Bison
variable {T N : Type} {G : Grammar T N} {A : T → Type} {P : Type}

def Tree.place {n : N} : Tree G A P n → P
  | .node _ p _ => p

mutual

/-- Down the right edge each rule is one that can be reduced without a lookahead. -/
def Tree.endsUnread (quick : {n : N} → G.Rule n → Bool) {n : N} : Tree G A P n → Bool
  | .node r _ kids => quick r && kids.endsUnread quick

def Forest.endsUnread (quick : {n : N} → G.Rule n → Bool) {ss : List (Symbol T N)} :
    Forest G A P ss → Bool
  | .nil => true
  | .token _ f => f.endsUnread quick
  | @Forest.tree _ _ _ _ _ _ ss d f =>
    if ss.isEmpty then d.endsUnread quick else f.endsUnread quick

end

/-! Evaluation. -/

theorem Forest.terminal_mem_yield {t : T} {ss : List (Symbol T N)} (h : .terminal t ∈ ss) :
    ∀ k : Forest G A P ss, t ∈ k.yield.map Sigma.fst
  | .token a k => by
    rcases List.mem_cons.mp h with heq | hmem
    · obtain rfl := Symbol.terminal.inj heq
      exact List.mem_cons_self
    · exact List.mem_cons_of_mem _ (k.terminal_mem_yield hmem)
  | .tree d k => by
    rcases List.mem_cons.mp h with heq | hmem
    · cases heq
    · rw [Forest.yield, List.map_append]
      exact List.mem_append_right _ (k.terminal_mem_yield hmem)

section
variable {M : Semantics G A P} {B : T → Prop} {K : N → Prop} {Q : M.S → M.S → Prop}
  (hrefl : ∀ s, Q s s) (htrans : ∀ {s s' s''}, Q s s' → Q s' s'' → Q s s'')
  (hK : ∀ {n : N} (r : G.Rule n), K n → (∀ t, .terminal t ∈ G.rhs r → ¬ B t) →
    ∀ m, .nonterminal m ∈ G.rhs r → K m)
  (hQ : M.Moves K Q)
include hrefl htrans hK hQ

mutual

theorem Tree.eval_moves_of_yield {n : N} (hn : K n) : ∀ (d : Tree G A P n) {s : M.S} {v : M.V n}
    {s' : M.S}, (∀ t ∈ d.yield.map Sigma.fst, ¬ B t) → d.eval M s = some (v, s') → Q s s'
  | .node r p kids, s, v, s', hd, h => by
    rw [Tree.eval, Option.bind_eq_some_iff] at h
    obtain ⟨⟨vs, s₁⟩, hkids, hact⟩ := h
    have hbelow := hK r hn fun t ht => hd t (kids.terminal_mem_yield ht)
    exact htrans (kids.eval_moves_of_yield hbelow hd hkids) (hQ r p vs s₁ v s' hn hact)

theorem Forest.eval_moves_of_yield {ss : List (Symbol T N)} (hss : ∀ m, .nonterminal m ∈ ss → K m) :
    ∀ (k : Forest G A P ss) {s : M.S} {vs : Vals A M.V ss} {s' : M.S},
      (∀ t ∈ k.yield.map Sigma.fst, ¬ B t) → k.eval M s = some (vs, s') → Q s s'
  | .nil, s, vs, s', _, h => by
    cases h
    exact hrefl s
  | .token a k, s, vs, s', hk, h => by
    rw [Forest.eval, Option.map_eq_some_iff] at h
    obtain ⟨⟨us, s₁⟩, hrest, heq⟩ := h
    cases heq
    exact k.eval_moves_of_yield (fun m hm => hss m (List.mem_cons_of_mem _ hm))
      (fun t ht => hk t (List.mem_cons_of_mem _ ht)) hrest
  | .tree d k, s, vs, s', hk, h => by
    rw [Forest.yield, List.map_append, List.forall_mem_append] at hk
    rw [Forest.eval, Option.bind_eq_some_iff] at h
    obtain ⟨⟨v, s₁⟩, hd, h⟩ := h
    rw [Option.map_eq_some_iff] at h
    obtain ⟨⟨us, s₂⟩, hrest, heq⟩ := h
    cases heq
    exact htrans (d.eval_moves_of_yield (hss _ List.mem_cons_self) hk.1 hd)
      (k.eval_moves_of_yield (fun m hm => hss m (List.mem_cons_of_mem _ hm)) hk.2 hrest)

end

end

/-! Where derivations end. -/

variable [DecidableEq T] [DecidableEq N] {quick : {n : N} → G.Rule n → Bool}

theorem endsUnread_pop {ss : List (Symbol T N)} {st rest : List (Entry A (Tree G A P))}
    {vs : Vals A (Tree G A P) ss} (h : pop ss st = some (vs, rest))
    (htop : ∀ q n d st', st = .value q n d :: st' → d.endsUnread quick = true) :
    (Forest.ofVals vs).endsUnread quick = true := by
  induction ss generalizing rest with
  | nil => rfl
  | cons sym ss ih =>
    cases sym with
    | terminal t =>
      obtain ⟨⟨us, st₁⟩, hss, h⟩ := Option.bind_eq_some_iff.mp h
      obtain ⟨⟨a, st₂⟩, ht, heq⟩ := Option.map_eq_some_iff.mp h
      cases heq
      exact ih hss
    | nonterminal n =>
      obtain ⟨⟨us, st₁⟩, hss, h⟩ := Option.bind_eq_some_iff.mp h
      obtain ⟨⟨d, st₂⟩, hn, heq⟩ := Option.map_eq_some_iff.mp h
      cases heq
      rw [Forest.ofVals, Forest.endsUnread]
      split_ifs with hempty
      · -- the last symbol is on top
        obtain rfl := List.isEmpty_iff.mp hempty
        cases hss
        obtain ⟨q, rfl⟩ := popValue_eq_some hn
        exact htop q n d _ rfl
      · exact ih hss

namespace Config
variable {auto : Automaton G} {eof start : P} {c c' : Config (trees G A P)}

/-- What is on top of the stack was built at this place, and without a lookahead it ends unread. -/
structure Placed (quick : {n : N} → G.Rule n → Bool) (c : Config (trees G A P)) : Prop where
  place : ∀ q n d st, c.stack = .value q n d :: st → d.place = c.pos
  unread : c.look = false → ∀ q n d st, c.stack = .value q n d :: st → d.endsUnread quick = true

theorem step_placed (hquick : ∀ {q : Nat} {n : N} {r : G.Rule n},
      (auto.row q).acts.isEmpty = true → (auto.row q).default = .reduce r → quick r = true)
    (hc : c.Placed quick) (h : c.step auto eof = .inl c') : c'.Placed quick := by
  rcases step_cases h with ⟨q, t, a, p, rest, -, -, rfl⟩ |
    ⟨n, r, vs, rest, q, v, s, hact, hpop, -, hv, rfl⟩
  · constructor
    · rintro q' n d st ⟨⟩
    · rintro - q' n d st ⟨⟩
  · obtain ⟨rfl, -⟩ := Prod.mk.inj (Option.some.inj hv)
    constructor
    · rintro q' m d st ⟨⟩
      rfl
    · rintro hlook q' m d st ⟨⟩
      have hempty : (auto.row (topState c.stack)).acts.isEmpty = true ∧ c.look = false := by
        unfold ahead read at hlook
        split_ifs at hlook with hempty hread
        · exact ⟨hempty, hlook⟩
        · rw [hread] at hlook
          cases hlook
      have hdefault : (auto.row (topState c.stack)).default = .reduce r := by
        rw [← hact]
        unfold action Row.act
        rw [List.isEmpty_iff.mp hempty.1]
        rfl
      rw [Tree.endsUnread, hquick hempty.1 hdefault, Bool.true_and]
      exact endsUnread_pop hpop (hc.unread hempty.2)

/-- Without a lookahead the scanner stands behind the last token that was shifted. -/
def Behind (start : P) (input : List (Sigma A × P)) (c : Config (trees G A P)) : Prop :=
  ∃ pre, input = pre ++ c.input ∧
    (c.look = false → c.pos = (pre.getLast?.map Prod.snd).getD start)

theorem step_behind {input : List (Sigma A × P)} (hlooks : c.Looks eof)
    (hshift : ∀ {q p : Nat} {t : T}, (auto.row q).act (some t) = .shift p →
      (auto.row q).acts.isEmpty = false)
    (hc : c.Behind start input) (h : c.step auto eof = .inl c') : c'.Behind start input := by
  obtain ⟨pre, hpre, hpos⟩ := hc
  rcases step_cases h with ⟨q, t, a, p, rest, hact, hin, rfl⟩ |
    ⟨n, r, vs, rest, q, v, s, -, -, -, -, rfl⟩
  · refine ⟨pre ++ [(⟨t, a⟩, p)], ?_, fun _ => ?_⟩
    · rw [hpre, hin]
      exact List.append_cons pre _ rest
    · -- the token was the lookahead
      have hacts : (auto.row (topState c.stack)).acts.isEmpty = false := by
        unfold action kind at hact
        rw [hin] at hact
        exact hshift hact
      have hread := looks_read hlooks
      rw [hin] at hread
      have hahead : c.ahead auto eof = c.read eof := by
        unfold ahead
        rw [hacts]
        rfl
      rw [List.getLast?_concat]
      exact (congrArg Config.pos hahead).trans hread
  · refine ⟨pre, hpre.trans (congrArg _ ahead_input.symm), fun hlook => ?_⟩
    have hsame : c.ahead auto eof = c := by
      have hlook' : (c.ahead auto eof).look = false := hlook
      unfold ahead read at hlook' ⊢
      split_ifs at hlook' ⊢ with hempty hread
      · rfl
      · rfl
    have hlook' : (c.ahead auto eof).look = false := hlook
    rw [hsame] at hlook'
    exact (congrArg Config.pos hsame).trans (hpos hlook')

end Config
end Bison
