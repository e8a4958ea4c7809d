import Hsql.Bison.Grammar

/-! Tokens read together with the rule they stand in: what the value of that rule keeps of them. -/

namespace Bison
variable {T N : Type} {G : Grammar T N} {A : T → Type} {P : Type} {L : Type}

/-- The tokens of a right-hand side. -/
def Vals.tokens {V : N → Type} : {ss : List (Symbol T N)} → Vals A V ss → List (Sigma A)
  | [], _ => []
  | .terminal t :: _, (a, vs) => ⟨t, a⟩ :: tokens vs
  | .nonterminal _ :: _, (_, vs) => tokens vs

mutual

/-- Each token as its rule reads it, from left to right. -/
def Tree.marks (own : {n : N} → G.Rule n → Sigma A → List L) {n : N} : Tree G A P n → List L
  | .node r _ kids => kids.marks own (own r)

def Forest.marks (own : {n : N} → G.Rule n → Sigma A → List L) (here : Sigma A → List L)
    {ss : List (Symbol T N)} : Forest G A P ss → List L
  | .nil => []
  | .token a f => here ⟨_, a⟩ ++ f.marks own here
  | .tree d f => d.marks own ++ f.marks own here

end

mutual

/-- Each token as the value of its rule keeps it. -/
def Tree.kept (M : Semantics G A P) (own : {n : N} → G.Rule n → M.V n → Sigma A → List L) {n : N} :
    Tree G A P n → M.S → List L
  | .node r p kids, s => kids.kept M own
      (fun x => ((Tree.node r p kids).eval M s).elim [] fun y => own r y.1 x) s

def Forest.kept (M : Semantics G A P) (own : {n : N} → G.Rule n → M.V n → Sigma A → List L)
    (here : Sigma A → List L) {ss : List (Symbol T N)} : Forest G A P ss → M.S → List L
  | .nil, _ => []
  | .token a f, s => here ⟨_, a⟩ ++ f.kept M own here s
  | .tree d f, s => d.kept M own s ++ (d.eval M s).elim [] fun x => f.kept M own here x.2

end

/-- What a rule's value keeps of its tokens is a function of how the rule reads them. -/
def Semantics.Keeps (M : Semantics G A P) {K : Type}
    (own : {n : N} → G.Rule n → M.V n → Sigma A → List L) (mark : {n : N} → G.Rule n → Sigma A → List K)
    (f : K → L) : Prop :=
  ∀ {n : N} (r : G.Rule n) (p : P) (vs : Vals A M.V (G.rhs r)) (s : M.S) (v : M.V n) (s' : M.S),
    M.act r vs p s = some (v, s') → ∀ x ∈ vs.tokens, own r v x = (mark r x).map f

section
variable {M : Semantics G A P} {K : Type}
  {own : {n : N} → G.Rule n → M.V n → Sigma A → List L}
  {mark : {n : N} → G.Rule n → Sigma A → List K} {f : K → L} (hM : M.Keeps own mark f)
include hM

mutual

theorem Tree.kept_eq {n : N} : ∀ (d : Tree G A P n) {s : M.S} {v : M.V n} {s' : M.S},
    d.eval M s = some (v, s') → d.kept M own s = (d.marks mark).map f
  | .node r p kids, s, v, s', h => by
    have hnode := h
    rw [Tree.eval, Option.bind_eq_some_iff] at h
    obtain ⟨⟨vs, s₁⟩, hkids, hact⟩ := h
    have hown := hM r p vs s₁ v s' hact
    rw [Tree.kept, Tree.marks, hnode]
    exact kids.kept_eq hkids hown

theorem Forest.kept_eq {ss : List (Symbol T N)} : ∀ (k : Forest G A P ss) {s : M.S}
    {vs : Vals A M.V ss} {s' : M.S} {here : Sigma A → List L} {here' : Sigma A → List K},
    k.eval M s = some (vs, s') → (∀ x ∈ vs.tokens, here x = (here' x).map f) →
      k.kept M own here s = (k.marks mark here').map f
  | .nil, _, _, _, _, _, _, _ => rfl
  | .token a k, s, vs, s', here, here', h, hhere => by
    rw [Forest.eval, Option.map_eq_some_iff] at h
    obtain ⟨⟨us, s₁⟩, hk, heq⟩ := h
    cases heq
    obtain ⟨hfirst, hrest⟩ := List.forall_mem_cons.mp hhere
    rw [Forest.kept, Forest.marks, List.map_append, hfirst, k.kept_eq hk hrest]
  | .tree d k, s, vs, s', here, here', h, hhere => by
    rw [Forest.eval, Option.bind_eq_some_iff] at h
    obtain ⟨⟨v, s₁⟩, hd, h⟩ := h
    rw [Option.map_eq_some_iff] at h
    obtain ⟨⟨us, s₂⟩, hk, heq⟩ := h
    cases heq
    have hv := d.kept_eq hd
    have hus := k.kept_eq hk hhere
    rw [Forest.kept, Forest.marks, List.map_append, hv, hd]
    exact congrArg (_ ++ ·) hus

end

end

section
variable {mark : {n : N} → G.Rule n → Sigma A → List L} {K : Type} {g : L → K}
  {read : Sigma A → List K} (hread : ∀ {n : N} (r : G.Rule n) x, (mark r x).map g = read x)
include hread

mutual

/-- What does not depend on the rule is read off the yield. -/
theorem Tree.map_marks {n : N} : ∀ d : Tree G A P n, (d.marks mark).map g = d.yield.flatMap read
  | .node r p kids => by
    rw [Tree.marks, Tree.yield]
    exact kids.map_marks (hread r)

theorem Forest.map_marks {ss : List (Symbol T N)} {here : Sigma A → List L}
    (hhere : ∀ x, (here x).map g = read x) :
    ∀ k : Forest G A P ss, (k.marks mark here).map g = k.yield.flatMap read
  | .nil => rfl
  | .token a k => by
    have hk := k.map_marks hhere
    rw [Forest.marks, Forest.yield, List.map_append, List.flatMap_cons, hhere, hk]
  | .tree d k => by
    have hd := d.map_marks
    have hk := k.map_marks hhere
    rw [Forest.marks, Forest.yield, List.map_append, List.flatMap_append, hd, hk]

end

end

end Bison
