import Mathlib.Computability.ContextFreeGrammar
import Mathlib.Algebra.Order.Monoid.Defs

/-! Attributed grammars: derivation trees, the semantic actions run on them from the bottom up and
from left to right, and the rules for reasoning about a run one production at a time. -/

namespace Bison
variable {T N : Type}

/-- The values of the symbols of a right-hand side, `$1` to `$n`. -/
def Vals (A : T → Type) (V : N → Type) : List (Symbol T N) → Type
  | [] => Unit
  | .terminal t :: ss => A t × Vals A V ss
  | .nonterminal n :: ss => V n × Vals A V ss

structure Grammar (T N : Type) where
  Rule : N → Type
  rhs : {n : N} → Rule n → List (Symbol T N)

variable {G : Grammar T N} {A : T → Type} {P : Type}

mutual

/-- A derivation from a nonterminal. Each node keeps what the scanner had read when the rule was
reduced. -/
inductive Tree (G : Grammar T N) (A : T → Type) (P : Type) : N → Type
  | node {n : N} (r : G.Rule n) (p : P) (kids : Forest G A P (G.rhs r)) : Tree G A P n

inductive Forest (G : Grammar T N) (A : T → Type) (P : Type) : List (Symbol T N) → Type
  | nil : Forest G A P []
  | token {t : T} {ss : List (Symbol T N)} (a : A t) (f : Forest G A P ss) :
      Forest G A P (.terminal t :: ss)
  | tree {n : N} {ss : List (Symbol T N)} (d : Tree G A P n) (f : Forest G A P ss) :
      Forest G A P (.nonterminal n :: ss)

end

/-- Semantic actions. An action fails where the program would go wrong. -/
structure Semantics (G : Grammar T N) (A : T → Type) (P : Type) where
  V : N → Type
  S : Type
  act : {n : N} → (r : G.Rule n) → Vals A V (G.rhs r) → P → S → Option (V n × S)

mutual

def Tree.eval (M : Semantics G A P) {n : N} : Tree G A P n → M.S → Option (M.V n × M.S)
  | .node r p kids, s => (kids.eval M s).bind fun x => M.act r x.1 p x.2

def Forest.eval (M : Semantics G A P) {ss : List (Symbol T N)} :
    Forest G A P ss → M.S → Option (Vals A M.V ss × M.S)
  | .nil, s => some ((), s)
  | .token a f, s => (f.eval M s).map fun x => ((a, x.1), x.2)
  | .tree d f, s => (d.eval M s).bind fun x => (f.eval M x.2).map fun y => ((x.1, y.1), y.2)

end

/-! Attributes without state: a value for each derivation, from those of its parts. -/

mutual

def Tree.fold (V : N → Type) (f : {n : N} → (r : G.Rule n) → P → Vals A V (G.rhs r) → V n)
    {n : N} : Tree G A P n → V n
  | .node r p kids => f r p (kids.fold V f)

def Forest.fold (V : N → Type) (f : {n : N} → (r : G.Rule n) → P → Vals A V (G.rhs r) → V n)
    {ss : List (Symbol T N)} : Forest G A P ss → Vals A V ss
  | .nil => ()
  | .token a k => (a, k.fold V f)
  | .tree d k => (d.fold V f, k.fold V f)

end

mutual

def Tree.yield {n : N} : Tree G A P n → List (Sigma A)
  | .node _ _ kids => kids.yield

def Forest.yield {ss : List (Symbol T N)} : Forest G A P ss → List (Sigma A)
  | .nil => []
  | .token a f => ⟨_, a⟩ :: f.yield
  | .tree d f => d.yield ++ f.yield

end

namespace Vals

/-! A statement about all values of a right-hand side, one symbol after the other. -/

theorem forall_nil {V : N → Type} {p : Vals A V [] → Prop} : (∀ vs, p vs) ↔ p () :=
  ⟨fun h => h (), fun h _ => h⟩

theorem forall_terminal {V : N → Type} {t : T} {ss : List (Symbol T N)}
    {p : Vals A V (.terminal t :: ss) → Prop} :
    (∀ vs, p vs) ↔ ∀ (a : A t) (vs : Vals A V ss), p (a, vs) :=
  ⟨fun h a vs => h (a, vs), fun h vs => h vs.1 vs.2⟩

theorem forall_nonterminal {V : N → Type} {n : N} {ss : List (Symbol T N)}
    {p : Vals A V (.nonterminal n :: ss) → Prop} :
    (∀ vs, p vs) ↔ ∀ (v : V n) (vs : Vals A V ss), p (v, vs) :=
  ⟨fun h v vs => h (v, vs), fun h vs => h vs.1 vs.2⟩

/-- Values related symbol by symbol; tokens have to be equal. -/
def Rel {V V' : N → Type} (R : ∀ n, V n → V' n → Prop) :
    {ss : List (Symbol T N)} → Vals A V ss → Vals A V' ss → Prop
  | [], _, _ => True
  | .terminal _ :: _, (a, vs), (a', vs') => a = a' ∧ Rel R vs vs'
  | .nonterminal n :: _, (v, vs), (v', vs') => R n v v' ∧ Rel R vs vs'

def All {V : N → Type} (I : ∀ n, V n → Prop) : {ss : List (Symbol T N)} → Vals A V ss → Prop
  | [], _ => True
  | .terminal _ :: _, (_, vs) => All I vs
  | .nonterminal n :: _, (v, vs) => I n v ∧ All I vs

theorem all_imp {V : N → Type} {I J : ∀ n, V n → Prop} (h : ∀ n v, I n v → J n v)
    {ss : List (Symbol T N)} {vs : Vals A V ss} (hI : vs.All I) : vs.All J := by
  induction ss with
  | nil => trivial
  | cons sym ss ih =>
    cases sym with
    | terminal t => exact ih hI
    | nonterminal n => exact ⟨h n _ hI.1, ih hI.2⟩

/-- A relation to other values, where it says something about these alone. -/
theorem Rel.all {V V' : N → Type} {R : ∀ n, V n → V' n → Prop} {I : ∀ n, V' n → Prop}
    (h : ∀ n v v', R n v v' → I n v') {ss : List (Symbol T N)} {vs : Vals A V ss}
    {vs' : Vals A V' ss} (hR : vs.Rel R vs') : vs'.All I := by
  induction ss with
  | nil => trivial
  | cons sym ss ih =>
    cases sym with
    | terminal t => exact ih hR.2
    | nonterminal n => exact ⟨h n _ _ hR.1, ih hR.2⟩

def sum {V : N → Type} {M : Type} [AddMonoid M] (w : ∀ n, V n → M) :
    {ss : List (Symbol T N)} → Vals A V ss → M
  | [], _ => 0
  | .terminal _ :: _, (_, vs) => sum w vs
  | .nonterminal n :: _, (v, vs) => w n v + sum w vs

end Vals

/-! Reading a derivation from left to right. -/

mutual

/-- What the outermost leaves of a derivation read as, each by the value that its own actions give
it. A nonterminal without a reading is no leaf: its parts are read. -/
def Tree.leaves (M : Semantics G A P) {L : Type} (leaf : ∀ n, Option (M.V n → List L)) {n : N} :
    Tree G A P n → M.S → List L
  | .node r p kids, s =>
    match leaf n with
    | some f => ((Tree.node r p kids).eval M s).elim [] fun x => f x.1
    | none => kids.leaves M leaf s

def Forest.leaves (M : Semantics G A P) {L : Type} (leaf : ∀ n, Option (M.V n → List L))
    {ss : List (Symbol T N)} : Forest G A P ss → M.S → List L
  | .nil, _ => []
  | .token _ f, s => f.leaves M leaf s
  | .tree d f, s => d.leaves M leaf s ++ (d.eval M s).elim [] fun x => f.leaves M leaf x.2

end

/-- The readings of values, one after the other. -/
def Vals.read {V : N → Type} {L : Type} (w : ∀ n, V n → List L) :
    {ss : List (Symbol T N)} → Vals A V ss → List L
  | [], _ => []
  | .terminal _ :: _, (_, vs) => read w vs
  | .nonterminal n :: _, (v, vs) => w n v ++ read w vs

/-! Rules for a run of the actions. Each asks for a fact about one production and gives it for
every derivation. -/

section
variable {M : Semantics G A P}

/-- An invariant of the values. -/
def Semantics.Preserves (M : Semantics G A P) (I : ∀ n, M.V n → Prop) : Prop :=
  ∀ {n : N} (r : G.Rule n) (p : P) (vs : Vals A M.V (G.rhs r)) (s : M.S) (v : M.V n) (s' : M.S),
    vs.All I → M.act r vs p s = some (v, s') → I n v

mutual

theorem Tree.eval_all {I : ∀ n, M.V n → Prop} (hI : M.Preserves I) {n : N} :
    ∀ (d : Tree G A P n) {s : M.S} {v : M.V n} {s' : M.S}, d.eval M s = some (v, s') → I n v
  | .node r p kids, s, v, s', h => by
    rw [Tree.eval, Option.bind_eq_some_iff] at h
    obtain ⟨⟨vs, s₁⟩, hkids, hact⟩ := h
    exact hI r p vs s₁ v s' (kids.eval_all hI hkids) hact

theorem Forest.eval_all {I : ∀ n, M.V n → Prop} (hI : M.Preserves I) {ss : List (Symbol T N)} :
    ∀ (f : Forest G A P ss) {s : M.S} {vs : Vals A M.V ss} {s' : M.S},
      f.eval M s = some (vs, s') → vs.All I
  | .nil, _, _, _, _ => trivial
  | .token a f, s, vs, s', h => by
    rw [Forest.eval, Option.map_eq_some_iff] at h
    obtain ⟨⟨us, s₁⟩, hf, heq⟩ := h
    cases heq
    exact f.eval_all hI hf
  | .tree d f, s, vs, s', h => by
    rw [Forest.eval, Option.bind_eq_some_iff] at h
    obtain ⟨⟨v, s₁⟩, hd, h⟩ := h
    rw [Option.map_eq_some_iff] at h
    obtain ⟨⟨us, s₂⟩, hf, heq⟩ := h
    cases heq
    exact ⟨d.eval_all hI hd, f.eval_all hI hf⟩

end

/-- An attribute that describes the values. -/
def Semantics.Describes (M : Semantics G A P) {V : N → Type}
    (f : {n : N} → (r : G.Rule n) → P → Vals A V (G.rhs r) → V n)
    (R : ∀ n, V n → M.V n → Prop) : Prop :=
  ∀ {n : N} (r : G.Rule n) (p : P) (as : Vals A V (G.rhs r)) (vs : Vals A M.V (G.rhs r)) (s : M.S)
    (v : M.V n) (s' : M.S),
    Vals.Rel R as vs → M.act r vs p s = some (v, s') → R n (f r p as) v

mutual

theorem Tree.eval_fold {V : N → Type}
    {f : {n : N} → (r : G.Rule n) → P → Vals A V (G.rhs r) → V n}
    {R : ∀ n, V n → M.V n → Prop} (hR : M.Describes f R) {n : N} :
    ∀ (d : Tree G A P n) {s : M.S} {v : M.V n} {s' : M.S},
      d.eval M s = some (v, s') → R n (d.fold V f) v
  | .node r p kids, s, v, s', h => by
    rw [Tree.eval, Option.bind_eq_some_iff] at h
    obtain ⟨⟨vs, s₁⟩, hkids, hact⟩ := h
    exact hR r p _ vs s₁ v s' (kids.eval_fold hR hkids) hact

theorem Forest.eval_fold {V : N → Type}
    {f : {n : N} → (r : G.Rule n) → P → Vals A V (G.rhs r) → V n}
    {R : ∀ n, V n → M.V n → Prop} (hR : M.Describes f R) {ss : List (Symbol T N)} :
    ∀ (k : Forest G A P ss) {s : M.S} {vs : Vals A M.V ss} {s' : M.S},
      k.eval M s = some (vs, s') → Vals.Rel R (k.fold V f) vs
  | .nil, _, _, _, _ => trivial
  | .token a k, s, vs, s', h => by
    rw [Forest.eval, Option.map_eq_some_iff] at h
    obtain ⟨⟨us, s₁⟩, hk, heq⟩ := h
    cases heq
    exact ⟨rfl, k.eval_fold hR hk⟩
  | .tree d k, s, vs, s', h => by
    rw [Forest.eval, Option.bind_eq_some_iff] at h
    obtain ⟨⟨v, s₁⟩, hd, h⟩ := h
    rw [Option.map_eq_some_iff] at h
    obtain ⟨⟨us, s₂⟩, hk, heq⟩ := h
    cases heq
    exact ⟨d.eval_fold hR hd, k.eval_fold hR hk⟩

end

mutual

/-- Every node of the derivation meets `ok`, which sees the attributes of its parts. -/
def Tree.Each {V : N → Type} (f : {n : N} → (r : G.Rule n) → P → Vals A V (G.rhs r) → V n)
    (ok : {n : N} → (r : G.Rule n) → Vals A V (G.rhs r) → Prop) {n : N} : Tree G A P n → Prop
  | .node r _ kids => kids.Each f ok ∧ ok r (kids.fold V f)

def Forest.Each {V : N → Type} (f : {n : N} → (r : G.Rule n) → P → Vals A V (G.rhs r) → V n)
    (ok : {n : N} → (r : G.Rule n) → Vals A V (G.rhs r) → Prop) {ss : List (Symbol T N)} :
    Forest G A P ss → Prop
  | .nil => True
  | .token _ k => k.Each f ok
  | .tree d k => d.Each f ok ∧ k.Each f ok

end

/-- An action goes through exactly where `ok` holds of the attributes. -/
def Semantics.SucceedsOn (M : Semantics G A P) {V : N → Type} (R : ∀ n, V n → M.V n → Prop)
    (ok : {n : N} → (r : G.Rule n) → Vals A V (G.rhs r) → Prop) : Prop :=
  ∀ {n : N} (r : G.Rule n) (p : P) (as : Vals A V (G.rhs r)) (vs : Vals A M.V (G.rhs r)) (s : M.S),
    Vals.Rel R as vs → ((M.act r vs p s).isSome ↔ ok r as)

mutual

theorem Tree.eval_isSome_iff {V : N → Type}
    {f : {n : N} → (r : G.Rule n) → P → Vals A V (G.rhs r) → V n}
    {R : ∀ n, V n → M.V n → Prop} {ok : {n : N} → (r : G.Rule n) → Vals A V (G.rhs r) → Prop}
    (hR : M.Describes f R) (hok : M.SucceedsOn R ok) {n : N} :
    ∀ (d : Tree G A P n) (s : M.S), (d.eval M s).isSome ↔ d.Each f ok
  | .node r p kids, s => by
    have hkids := kids.eval_isSome_iff hR hok s
    rw [Tree.eval, Tree.Each, ← hkids]
    cases h : kids.eval M s with
    | none => simp
    | some x =>
      have hrel : Vals.Rel R (kids.fold V f) x.1 := kids.eval_fold hR h
      simpa using hok r p _ x.1 x.2 hrel

theorem Forest.eval_isSome_iff {V : N → Type}
    {f : {n : N} → (r : G.Rule n) → P → Vals A V (G.rhs r) → V n}
    {R : ∀ n, V n → M.V n → Prop} {ok : {n : N} → (r : G.Rule n) → Vals A V (G.rhs r) → Prop}
    (hR : M.Describes f R) (hok : M.SucceedsOn R ok) {ss : List (Symbol T N)} :
    ∀ (k : Forest G A P ss) (s : M.S), (k.eval M s).isSome ↔ k.Each f ok
  | .nil, s => by simp [Forest.eval, Forest.Each]
  | .token a k, s => by
    rw [Forest.eval, Forest.Each, Option.isSome_map]
    exact k.eval_isSome_iff hR hok s
  | .tree d k, s => by
    have hd := d.eval_isSome_iff hR hok s
    rw [Forest.eval, Forest.Each, ← hd]
    cases h : d.eval M s with
    | none => simp
    | some x =>
      have hk := k.eval_isSome_iff hR hok x.2
      simpa using hk

end

/-- Every action that a derivation can run takes the state along a relation. -/
def Semantics.Moves (M : Semantics G A P) (K : N → Prop) (Q : M.S → M.S → Prop) : Prop :=
  ∀ {n : N} (r : G.Rule n) (p : P) (vs : Vals A M.V (G.rhs r)) (s : M.S) (v : M.V n) (s' : M.S),
    K n → M.act r vs p s = some (v, s') → Q s s'

section
variable {K : N → Prop} {Q : M.S → M.S → Prop} (hrefl : ∀ s, Q s s)
    (htrans : ∀ {s s' s''}, Q s s' → Q s' s'' → Q s s'')
    (hK : ∀ {n : N} (r : G.Rule n), K n → ∀ m, .nonterminal m ∈ G.rhs r → K m)
    (hQ : M.Moves K Q)
include hrefl htrans hK hQ

mutual

theorem Tree.eval_moves {n : N} (hn : K n) :
    ∀ (d : Tree G A P n) {s : M.S} {v : M.V n} {s' : M.S}, d.eval M s = some (v, s') → Q s s'
  | .node r p kids, s, v, s', h => by
    rw [Tree.eval, Option.bind_eq_some_iff] at h
    obtain ⟨⟨vs, s₁⟩, hkids, hact⟩ := h
    exact htrans (kids.eval_moves (hK r hn) hkids) (hQ r p vs s₁ v s' hn hact)

theorem Forest.eval_moves {ss : List (Symbol T N)} (hss : ∀ m, .nonterminal m ∈ ss → K m) :
    ∀ (k : Forest G A P ss) {s : M.S} {vs : Vals A M.V ss} {s' : M.S},
      k.eval M s = some (vs, s') → Q s s'
  | .nil, s, vs, s', h => by
    cases h
    exact hrefl s
  | .token a k, s, vs, s', h => by
    rw [Forest.eval, Option.map_eq_some_iff] at h
    obtain ⟨⟨us, s₁⟩, hk, heq⟩ := h
    cases heq
    exact k.eval_moves (fun m hm => hss m (List.mem_cons_of_mem _ hm)) hk
  | .tree d k, s, vs, s', h => by
    rw [Forest.eval, Option.bind_eq_some_iff] at h
    obtain ⟨⟨v, s₁⟩, hd, h⟩ := h
    rw [Option.map_eq_some_iff] at h
    obtain ⟨⟨us, s₂⟩, hk, heq⟩ := h
    cases heq
    exact htrans (d.eval_moves (hss _ List.mem_cons_self) hd)
      (k.eval_moves (fun m hm => hss m (List.mem_cons_of_mem _ hm)) hk)

end

end

/-- What a value owns is at most what its parts owned and what was made since. -/
def Semantics.Owns (M : Semantics G A P) (I : ∀ n, M.V n → Prop) {W : Type} [AddCommMonoid W]
    [LE W] (w : ∀ n, M.V n → W) (made : M.S → W) : Prop :=
  ∀ {n : N} (r : G.Rule n) (p : P) (vs : Vals A M.V (G.rhs r)) (s : M.S) (v : M.V n) (s' : M.S),
    vs.All I → M.act r vs p s = some (v, s') → w n v + made s ≤ vs.sum w + made s'

mutual

theorem Tree.eval_owns {I : ∀ n, M.V n → Prop} {W : Type} [AddCommMonoid W] [PartialOrder W]
    [IsOrderedCancelAddMonoid W] {w : ∀ n, M.V n → W} {made : M.S → W} (hI : M.Preserves I)
    (hw : M.Owns I w made) {n : N} :
    ∀ (d : Tree G A P n) {s : M.S} {v : M.V n} {s' : M.S},
      d.eval M s = some (v, s') → w n v + made s ≤ made s'
  | .node r p kids, s, v, s', h => by
    rw [Tree.eval, Option.bind_eq_some_iff] at h
    obtain ⟨⟨vs, s₁⟩, hkids, hact⟩ := h
    have hsum := kids.eval_owns hI hw hkids
    have hnode := hw r p vs s₁ v s' (kids.eval_all hI hkids) hact
    have htotal : vs.sum w + (w n v + made s) ≤ vs.sum w + made s' := by
      calc vs.sum w + (w n v + made s) = w n v + (vs.sum w + made s) := by
            rw [add_left_comm]
        _ ≤ w n v + made s₁ := add_le_add_right hsum _
        _ ≤ vs.sum w + made s' := hnode
    exact le_of_add_le_add_left htotal

theorem Forest.eval_owns {I : ∀ n, M.V n → Prop} {W : Type} [AddCommMonoid W] [PartialOrder W]
    [IsOrderedCancelAddMonoid W] {w : ∀ n, M.V n → W} {made : M.S → W} (hI : M.Preserves I)
    (hw : M.Owns I w made) {ss : List (Symbol T N)} :
    ∀ (k : Forest G A P ss) {s : M.S} {vs : Vals A M.V ss} {s' : M.S},
      k.eval M s = some (vs, s') → vs.sum w + made s ≤ made s'
  | .nil, s, vs, s', h => by
    cases h
    exact (zero_add _).le
  | .token a k, s, vs, s', h => by
    rw [Forest.eval, Option.map_eq_some_iff] at h
    obtain ⟨⟨us, s₁⟩, hk, heq⟩ := h
    cases heq
    exact k.eval_owns hI hw hk
  | .tree d k, s, vs, s', h => by
    rw [Forest.eval, Option.bind_eq_some_iff] at h
    obtain ⟨⟨v, s₁⟩, hd, h⟩ := h
    rw [Option.map_eq_some_iff] at h
    obtain ⟨⟨us, s₂⟩, hk, heq⟩ := h
    cases heq
    have hv := d.eval_owns hI hw hd
    have hus := k.eval_owns hI hw hk
    calc w _ v + us.sum w + made s = us.sum w + (w _ v + made s) := by
          rw [add_comm (w _ v), add_assoc]
      _ ≤ us.sum w + made s₁ := add_le_add_right hv _
      _ ≤ made s₂ := hus

end

/-- The actions keep the order of their parts: a value reads as the parts do, one after the other. -/
def Semantics.KeepsOrder (M : Semantics G A P) {L : Type} (leaf : ∀ n, Option (M.V n → List L))
    (w : ∀ n, M.V n → List L) : Prop :=
  ∀ {n : N} (r : G.Rule n) (p : P) (vs : Vals A M.V (G.rhs r)) (s : M.S) (v : M.V n) (s' : M.S),
    leaf n = none → M.act r vs p s = some (v, s') → w n v = vs.read w

section
variable {L : Type} {leaf : ∀ n, Option (M.V n → List L)} {w : ∀ n, M.V n → List L}
    {I : ∀ n, M.V n → Prop} (hI : M.Preserves I)
    (hleaf : ∀ n f, leaf n = some f → ∀ v, I n v → f v = w n v) (hw : M.KeepsOrder leaf w)
include hI hleaf hw

mutual

theorem Tree.eval_leaves {n : N} :
    ∀ (d : Tree G A P n) {s : M.S} {v : M.V n} {s' : M.S}, d.eval M s = some (v, s') →
      d.leaves M leaf s = w n v
  | .node r p kids, s, v, s', h => by
    rw [Tree.leaves]
    split
    next f hf =>
      rw [h]
      exact hleaf n f hf v (Tree.eval_all hI (.node r p kids) h)
    next hnone =>
      rw [Tree.eval, Option.bind_eq_some_iff] at h
      obtain ⟨⟨vs, s₁⟩, hkids, hact⟩ := h
      have hread := kids.eval_leaves hkids
      rw [hread]
      exact (hw r p vs s₁ v s' hnone hact).symm

theorem Forest.eval_leaves {ss : List (Symbol T N)} :
    ∀ (k : Forest G A P ss) {s : M.S} {vs : Vals A M.V ss} {s' : M.S},
      k.eval M s = some (vs, s') → k.leaves M leaf s = vs.read w
  | .nil, _, _, _, _ => by
    rw [Forest.leaves, Vals.read]
  | .token a k, s, vs, s', h => by
    rw [Forest.eval, Option.map_eq_some_iff] at h
    obtain ⟨⟨us, s₁⟩, hk, heq⟩ := h
    cases heq
    rw [Forest.leaves, Vals.read]
    exact k.eval_leaves hk
  | .tree d k, s, vs, s', h => by
    rw [Forest.eval, Option.bind_eq_some_iff] at h
    obtain ⟨⟨v, s₁⟩, hd, h⟩ := h
    rw [Option.map_eq_some_iff] at h
    obtain ⟨⟨us, s₂⟩, hk, heq⟩ := h
    cases heq
    have hv := d.eval_leaves hd
    have hus := k.eval_leaves hk
    rw [Forest.leaves, Vals.read, hd, hv]
    exact congrArg (w _ v ++ ·) hus

end

end

/-! Two derivations by the same rules. -/

mutual

/-- The derivation without what the scanner had read. -/
def Tree.strip {n : N} : Tree G A P n → Tree G A Unit n
  | .node r _ kids => .node r () kids.strip

def Forest.strip {ss : List (Symbol T N)} : Forest G A P ss → Forest G A Unit ss
  | .nil => .nil
  | .token a f => .token a f.strip
  | .tree d f => .tree d.strip f.strip

end

/-- Related states stay related, and the values too, when one rule is reduced in both. -/
def Semantics.Respects (M : Semantics G A P) (R : ∀ n, M.V n → M.V n → Prop)
    (RS : M.S → M.S → Prop) : Prop :=
  ∀ {n : N} (r : G.Rule n) (p p' : P) (vs vs' : Vals A M.V (G.rhs r)) (s s' : M.S),
    Vals.Rel R vs vs' → RS s s' →
      Option.Rel (fun x y => R n x.1 y.1 ∧ RS x.2 y.2) (M.act r vs p s) (M.act r vs' p' s')

mutual

theorem Tree.eval_rel {R : ∀ n, M.V n → M.V n → Prop} {RS : M.S → M.S → Prop}
    (hR : M.Respects R RS) {n : N} :
    ∀ (d d' : Tree G A P n) {s s' : M.S}, d.strip = d'.strip → RS s s' →
      Option.Rel (fun x y => R n x.1 y.1 ∧ RS x.2 y.2) (d.eval M s) (d'.eval M s')
  | .node r p kids, .node r' p' kids', s, s', h, hs => by
    simp only [Tree.strip] at h
    obtain ⟨rfl, -, h⟩ := Tree.node.inj h
    have hkids := kids.eval_rel hR kids' (eq_of_heq h) hs
    rw [Tree.eval, Tree.eval]
    generalize kids.eval M s = x, kids'.eval M s' = x' at hkids
    cases hkids with
    | none => exact .none
    | some hx => exact hR r p p' _ _ _ _ hx.1 hx.2

theorem Forest.eval_rel {R : ∀ n, M.V n → M.V n → Prop} {RS : M.S → M.S → Prop}
    (hR : M.Respects R RS) {ss : List (Symbol T N)} :
    ∀ (k k' : Forest G A P ss) {s s' : M.S}, k.strip = k'.strip → RS s s' →
      Option.Rel (fun x y => Vals.Rel R x.1 y.1 ∧ RS x.2 y.2) (k.eval M s) (k'.eval M s')
  | .nil, .nil, _, _, _, hs => .some ⟨trivial, hs⟩
  | .token a k, .token a' k', s, s', h, hs => by
    obtain ⟨rfl, hk⟩ := Forest.token.inj h
    have hrel := k.eval_rel hR k' hk hs
    rw [Forest.eval, Forest.eval]
    generalize k.eval M s = x, k'.eval M s' = x' at hrel
    cases hrel with
    | none => exact .none
    | some hx => exact .some ⟨⟨rfl, hx.1⟩, hx.2⟩
  | .tree d k, .tree d' k', s, s', h, hs => by
    obtain ⟨hd, hk⟩ := Forest.tree.inj h
    have hrel := d.eval_rel hR d' hd hs
    rw [Forest.eval, Forest.eval]
    generalize d.eval M s = x, d'.eval M s' = x' at hrel
    cases hrel with
    | none => exact .none
    | @some x x' hx =>
      have hrel' := k.eval_rel hR k' hk hx.2
      simp only [Option.bind_some]
      generalize k.eval M x.2 = y, k'.eval M x'.2 = y' at hrel'
      cases hrel' with
      | none => exact .none
      | some hy => exact .some ⟨⟨hx.1, hy.1⟩, hy.2⟩

end

end

end Bison
