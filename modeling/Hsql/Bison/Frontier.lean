import Hsql.Bison.Grammar

/-! Derivations seen down to some of their parts only: what they spell when these parts count as
leaves, and nonterminals whose derivations are told by what they spell. -/

namespace Bison
variable {T N : Type} {G : Grammar T N} {A : T → Type} {P : Type}

inductive Leaf (G : Grammar T N) (A : T → Type) (P : Type) where
  | token (x : Sigma A)
  | tree (n : N) (d : Tree G A P n)

section
variable [SizeOf T] [SizeOf N] [∀ t, SizeOf (A t)] [SizeOf P]

theorem Tree.sizeOf_lt_node {n : N} (r : G.Rule n) (p : P) (kids : Forest G A P (G.rhs r)) :
    sizeOf kids < sizeOf (Tree.node r p kids) := by
  rw [Tree.node.sizeOf_spec]
  omega

theorem Forest.sizeOf_lt_tree {n : N} {ss : List (Symbol T N)} (d : Tree G A P n)
    (f : Forest G A P ss) : sizeOf d < sizeOf (Forest.tree d f) := by
  rw [Forest.tree.sizeOf_spec]
  omega

end

mutual

/-- Tokens and, for the nonterminals that count as leaves, their derivations. -/
def Tree.frontier (leaf : N → Bool) {n : N} : Tree G A P n → List (Leaf G A P)
  | .node r p kids => if leaf n then [.tree n (.node r p kids)] else kids.frontier leaf

def Forest.frontier (leaf : N → Bool) {ss : List (Symbol T N)} :
    Forest G A P ss → List (Leaf G A P)
  | .nil => []
  | .token a f => .token ⟨_, a⟩ :: f.frontier leaf
  | .tree d f => d.frontier leaf ++ f.frontier leaf

end

/-- In front of what may follow, a derivation's frontier ends where it does for one reading only,
and tells how the derivation is evaluated. -/
def Semantics.Decides (M : Semantics G A P) (leaf : N → Bool) (n : N)
    (follow : Option (Leaf G A P) → Prop) : Prop :=
  ∀ (d d' : Tree G A P n) (rest rest' : List (Leaf G A P)), follow rest.head? → follow rest'.head? →
    d.frontier leaf ++ rest = d'.frontier leaf ++ rest' → d.eval M = d'.eval M ∧ rest = rest'

/-- A reader that stops in front of what may follow, with the value that the actions give. -/
def Semantics.Reads (M : Semantics G A P) (leaf : N → Bool) (n : N)
    (follow : Option (Leaf G A P) → Prop)
    (read : List (Leaf G A P) → M.V n × List (Leaf G A P)) : Prop :=
  ∀ (d : Tree G A P n) (rest : List (Leaf G A P)), follow rest.head? →
    ∃ v, read (d.frontier leaf ++ rest) = (v, rest) ∧ ∀ s, d.eval M s = some (v, s)

namespace Semantics.Reads
variable {M : Semantics G A P} {leaf : N → Bool} {n : N} {follow : Option (Leaf G A P) → Prop}
  {read : List (Leaf G A P) → M.V n × List (Leaf G A P)}

theorem decides (h : M.Reads leaf n follow read) : M.Decides leaf n follow := by
  intro d d' rest rest' hrest hrest' heq
  obtain ⟨v, hread, hv⟩ := h d rest hrest
  obtain ⟨v', hread', hv'⟩ := h d' rest' hrest'
  rw [heq, hread'] at hread
  obtain ⟨rfl, rfl⟩ := Prod.mk.inj hread
  exact ⟨funext fun s => (hv s).trans (hv' s).symm, rfl⟩

/-- Where nothing follows. -/
theorem eval (h : M.Reads leaf n follow read) (hnone : follow none) (d : Tree G A P n) (s : M.S) :
    d.eval M s = some ((read (d.frontier leaf)).1, s) := by
  obtain ⟨v, hread, hv⟩ := h d [] hnone
  rw [List.append_nil] at hread
  rw [hread]
  exact hv s

end Semantics.Reads

theorem Tree.eval_of_kids {M : Semantics G A P} {n : N} {r : G.Rule n} {p : P}
    {kids : Forest G A P (G.rhs r)} {s s' : M.S} {vs : Vals A M.V (G.rhs r)}
    (h : kids.eval M s = some (vs, s')) : (Tree.node r p kids).eval M s = M.act r vs p s' := by
  rw [Tree.eval, h, Option.bind_some]

theorem Tree.frontier_leaf {leaf : N → Bool} {n : N} (hn : leaf n = true) (d : Tree G A P n) :
    d.frontier leaf = [.tree n d] := by
  cases d
  rw [Tree.frontier, if_pos hn]

theorem Semantics.decides_leaf (M : Semantics G A P) {leaf : N → Bool} {n : N} (hn : leaf n = true)
    (follow : Option (Leaf G A P) → Prop) : M.Decides leaf n follow := by
  intro d d' rest rest' _ _ h
  rw [d.frontier_leaf hn, d'.frontier_leaf hn] at h
  obtain ⟨hd, hrest⟩ := List.cons_eq_cons.mp h
  exact ⟨congrArg _ (eq_of_heq (Leaf.tree.inj hd).2), hrest⟩

/-! What a derivation that is evaluated has evaluated before. -/

theorem Tree.eval_eq_some {M : Semantics G A P} {n : N} {r : G.Rule n} {p : P}
    {kids : Forest G A P (G.rhs r)} {s s' : M.S} {v : M.V n}
    (h : (Tree.node r p kids).eval M s = some (v, s')) :
    ∃ vs s₁, kids.eval M s = some (vs, s₁) ∧ M.act r vs p s₁ = some (v, s') := by
  rw [Tree.eval, Option.bind_eq_some_iff] at h
  obtain ⟨x, hx, hact⟩ := h
  exact ⟨x.1, x.2, hx, hact⟩

theorem Forest.eval_token_eq_some {M : Semantics G A P} {t : T} {ss : List (Symbol T N)} {a : A t}
    {f : Forest G A P ss} {s s' : M.S} {vs : Vals A M.V (.terminal t :: ss)}
    (h : (Forest.token a f).eval M s = some (vs, s')) : f.eval M s = some (vs.2, s') := by
  rw [Forest.eval, Option.map_eq_some_iff] at h
  obtain ⟨x, hx, heq⟩ := h
  cases heq
  exact hx

theorem Forest.eval_tree_eq_some {M : Semantics G A P} {n : N} {ss : List (Symbol T N)}
    {d : Tree G A P n} {f : Forest G A P ss} {s s' : M.S} {vs : Vals A M.V (.nonterminal n :: ss)}
    (h : (Forest.tree d f).eval M s = some (vs, s')) :
    ∃ s₁, d.eval M s = some (vs.1, s₁) ∧ f.eval M s₁ = some (vs.2, s') := by
  rw [Forest.eval, Option.bind_eq_some_iff] at h
  obtain ⟨x, hx, hf⟩ := h
  obtain ⟨y, hy, heq⟩ := Option.map_eq_some_iff.mp hf
  cases heq
  exact ⟨x.2, hx, hy⟩

end Bison
