import Hsql.Bison.Grammar
import Mathlib.Algebra.Group.Hom.Defs

/-! Accounts of a derivation: what its nodes add up to, what its actions make, and where one of them
loses something. -/

namespace Bison
variable {T N : Type} {G : Grammar T N} {A : T → Type} {P : Type}

mutual

/-- Sum over the nodes. -/
def Tree.total (own : {n : N} → G.Rule n → ℕ) {n : N} : Tree G A P n → ℕ
  | .node r _ kids => kids.total own + own r

def Forest.total (own : {n : N} → G.Rule n → ℕ) {ss : List (Symbol T N)} : Forest G A P ss → ℕ
  | .nil => 0
  | .token _ k => k.total own
  | .tree d k => d.total own + k.total own

end

section
variable [DecidableEq T] (t : T)

/-- How often a rule writes a token. -/
def Grammar.writes (G : Grammar T N) {n : N} (r : G.Rule n) : ℕ :=
  (G.rhs r).countP fun | .terminal u => u = t | .nonterminal _ => false

mutual

theorem Tree.count_yield {n : N} : ∀ d : Tree G A P n,
    (d.yield.map Sigma.fst).count t = d.total fun r => G.writes t r
  | .node r p kids => by
    rw [Tree.yield, Tree.total, kids.count_yield]
    rfl

theorem Forest.count_yield {ss : List (Symbol T N)} : ∀ k : Forest G A P ss,
    (k.yield.map Sigma.fst).count t = (k.total fun r => G.writes t r) +
      ss.countP fun | .terminal u => u = t | .nonterminal _ => false
  | .nil => rfl
  | .token (t := u) a k => by
    have hk := k.count_yield
    rw [Forest.yield, List.map_cons, List.count_cons, hk, Forest.total, List.countP_cons, add_assoc]
    by_cases hu : u = t <;> simp [hu]
  | .tree d k => by
    have hd := d.count_yield
    have hk := k.count_yield
    rw [Forest.yield, List.map_append, List.count_append, hd, hk, Forest.total, List.countP_cons,
      add_assoc]
    rfl

end

end

section
variable {M : Semantics G A P}

/-- Each action makes what its rule says. -/
def Semantics.Makes (M : Semantics G A P) (made : M.S → ℕ) (own : {n : N} → G.Rule n → ℕ) : Prop :=
  ∀ {n : N} (r : G.Rule n) (p : P) (vs : Vals A M.V (G.rhs r)) (s : M.S) (v : M.V n) (s' : M.S),
    M.act r vs p s = some (v, s') → made s' = made s + own r

mutual

theorem Tree.eval_makes {made : M.S → ℕ} {own : {n : N} → G.Rule n → ℕ} (hM : M.Makes made own)
    {n : N} : ∀ (d : Tree G A P n) {s : M.S} {v : M.V n} {s' : M.S}, d.eval M s = some (v, s') →
      made s' = made s + d.total own
  | .node r p kids, s, v, s', h => by
    rw [Tree.eval, Option.bind_eq_some_iff] at h
    obtain ⟨⟨vs, s₁⟩, hkids, hact⟩ := h
    have hmade := kids.eval_makes hM hkids
    have hown := hM r p vs s₁ v s' hact
    rw [hown, hmade, Tree.total, add_assoc]

theorem Forest.eval_makes {made : M.S → ℕ} {own : {n : N} → G.Rule n → ℕ} (hM : M.Makes made own)
    {ss : List (Symbol T N)} : ∀ (k : Forest G A P ss) {s : M.S} {vs : Vals A M.V ss} {s' : M.S},
      k.eval M s = some (vs, s') → made s' = made s + k.total own
  | .nil, s, vs, s', h => by
    cases h
    rfl
  | .token a k, s, vs, s', h => by
    rw [Forest.eval, Option.map_eq_some_iff] at h
    obtain ⟨⟨us, s₁⟩, hk, heq⟩ := h
    cases heq
    exact k.eval_makes hM hk
  | .tree d k, s, vs, s', h => by
    rw [Forest.eval, Option.bind_eq_some_iff] at h
    obtain ⟨⟨v, s₁⟩, hd, h⟩ := h
    rw [Option.map_eq_some_iff] at h
    obtain ⟨⟨us, s₂⟩, hk, heq⟩ := h
    cases heq
    have hv := d.eval_makes hM hd
    have hus := k.eval_makes hM hk
    rw [hus, hv, Forest.total, add_assoc]

end

mutual

/-- A condition on the values that an action works on, all over an evaluation. -/
def Tree.Throughout (M : Semantics G A P) (keeps : {n : N} → (r : G.Rule n) → Vals A M.V (G.rhs r) → Prop)
    {n : N} : Tree G A P n → M.S → Prop
  | .node r _ kids, s => kids.Throughout M keeps s ∧ ∀ x, kids.eval M s = some x → keeps r x.1

def Forest.Throughout (M : Semantics G A P)
    (keeps : {n : N} → (r : G.Rule n) → Vals A M.V (G.rhs r) → Prop) {ss : List (Symbol T N)} :
    Forest G A P ss → M.S → Prop
  | .nil, _ => True
  | .token _ k, s => k.Throughout M keeps s
  | .tree d k, s => d.Throughout M keeps s ∧ ∀ x, d.eval M s = some x → k.Throughout M keeps x.2

end

/-- In derivations from some nonterminals, the weight of the values is accounted for: that of the
parts and what is made, less what is lost. -/
def Semantics.Accounts (M : Semantics G A P) (I : ∀ n, M.V n → Prop) (K : N → Prop)
    (w : ∀ n, M.V n → ℕ) (made : M.S → ℕ)
    (lost : {n : N} → (r : G.Rule n) → Vals A M.V (G.rhs r) → ℕ) : Prop :=
  ∀ {n : N} (r : G.Rule n) (p : P) (vs : Vals A M.V (G.rhs r)) (s : M.S) (v : M.V n) (s' : M.S),
    K n → vs.All I → M.act r vs p s = some (v, s') →
      w n v + lost r vs + made s = vs.sum w + made s'

section
variable {I : ∀ n, M.V n → Prop} {K : N → Prop} {w : ∀ n, M.V n → ℕ} {made : M.S → ℕ}
    {lost : {n : N} → (r : G.Rule n) → Vals A M.V (G.rhs r) → ℕ} (hI : M.Preserves I)
    (hK : ∀ {n : N} (r : G.Rule n), K n → ∀ m, .nonterminal m ∈ G.rhs r → K m)
    (hw : M.Accounts I K w made lost)
include hI hK hw

mutual

/-- All that was made is there exactly if nothing is lost anywhere. -/
theorem Tree.eval_accounts {n : N} (hn : K n) : ∀ (d : Tree G A P n) {s : M.S} {v : M.V n}
    {s' : M.S}, d.eval M s = some (v, s') → w n v + made s ≤ made s' ∧
      (w n v + made s = made s' ↔ d.Throughout M (fun r vs => lost r vs = 0) s)
  | .node r p kids, s, v, s', h => by
    rw [Tree.eval, Option.bind_eq_some_iff] at h
    obtain ⟨⟨vs, s₁⟩, hkids, hact⟩ := h
    obtain ⟨hle, hiff⟩ := kids.eval_accounts (hK r hn) hkids
    have hnode : w n v + lost r vs + made s₁ = vs.sum w + made s' :=
      hw r p vs s₁ v s' hn (kids.eval_all hI hkids) hact
    have hlost : (∀ x, kids.eval M s = some x → lost r x.1 = 0) ↔ lost r vs = 0 := by
      simp only [hkids, Option.some.injEq, forall_eq']
    rw [Tree.Throughout, hlost, ← hiff]
    constructor <;> omega

theorem Forest.eval_accounts {ss : List (Symbol T N)} (hss : ∀ m, .nonterminal m ∈ ss → K m) :
    ∀ (k : Forest G A P ss) {s : M.S} {vs : Vals A M.V ss} {s' : M.S},
      k.eval M s = some (vs, s') → vs.sum w + made s ≤ made s' ∧
        (vs.sum w + made s = made s' ↔ k.Throughout M (fun r vs => lost r vs = 0) s)
  | .nil, s, vs, s', h => by
    cases h
    have hzero : 0 + made s = made s := zero_add _
    exact ⟨hzero.le, iff_of_true hzero trivial⟩
  | .token a k, s, vs, s', h => by
    rw [Forest.eval, Option.map_eq_some_iff] at h
    obtain ⟨⟨us, s₁⟩, hk, heq⟩ := h
    cases heq
    exact k.eval_accounts (fun m hm => hss m (List.mem_cons_of_mem _ hm)) hk
  | .tree d k, s, vs, s', h => by
    rw [Forest.eval, Option.bind_eq_some_iff] at h
    obtain ⟨⟨v, s₁⟩, hd, h⟩ := h
    rw [Option.map_eq_some_iff] at h
    obtain ⟨⟨us, s₂⟩, hk, heq⟩ := h
    cases heq
    obtain ⟨hdle, hdiff⟩ := d.eval_accounts (hss _ List.mem_cons_self) hd
    obtain ⟨hkle, hkiff⟩ := k.eval_accounts (fun m hm => hss m (List.mem_cons_of_mem _ hm)) hk
    have hrest : (∀ x, d.eval M s = some x →
        k.Throughout M (fun r vs => lost r vs = 0) x.2) ↔
          k.Throughout M (fun r vs => lost r vs = 0) s₁ := by
      simp only [hd, Option.some.injEq, forall_eq']
    rw [Forest.Throughout, hrest, ← hdiff, ← hkiff]
    show w _ v + us.sum w + made s ≤ made s₂ ∧ (w _ v + us.sum w + made s = made s₂ ↔
      w _ v + made s = made s₁ ∧ us.sum w + made s₁ = made s₂)
    dsimp only at hdle hkle
    constructor <;> omega

end

end

section
variable {V : N → Type} {f : {n : N} → (r : G.Rule n) → P → Vals A V (G.rhs r) → V n}
    {R : ∀ n, V n → M.V n → Prop} {I : ∀ n, M.V n → Prop}
    {keeps : {n : N} → (r : G.Rule n) → Vals A M.V (G.rhs r) → Prop}
    {ok : {n : N} → (r : G.Rule n) → Vals A V (G.rhs r) → Prop} (hI : M.Preserves I)
    (hR : ∀ {n : N} (r : G.Rule n) (p : P) (as : Vals A V (G.rhs r)) (vs : Vals A M.V (G.rhs r))
      (s : M.S) (v : M.V n) (s' : M.S), Vals.Rel R as vs → vs.All I →
        M.act r vs p s = some (v, s') → keeps r vs → R n (f r p as) v)
    (hok : ∀ {n : N} (r : G.Rule n) (as : Vals A V (G.rhs r)) (vs : Vals A M.V (G.rhs r)),
      Vals.Rel R as vs → vs.All I → (keeps r vs ↔ ok r as))
include hI hR hok

mutual

/-- Attributes that describe the values as long as the condition holds tell where it does. -/
theorem Tree.throughout_iff {n : N} : ∀ (d : Tree G A P n) {s : M.S} {v : M.V n} {s' : M.S},
    d.eval M s = some (v, s') → (d.Throughout M keeps s ↔ d.Each f ok) ∧
      (d.Each f ok → R n (d.fold V f) v)
  | .node r p kids, s, v, s', h => by
    rw [Tree.eval, Option.bind_eq_some_iff] at h
    obtain ⟨⟨vs, s₁⟩, hkids, hact⟩ := h
    obtain ⟨hiff, hrel⟩ := kids.throughout_iff hkids
    have hall := kids.eval_all hI hkids
    have hhere : (∀ x, kids.eval M s = some x → keeps r x.1) ↔ keeps r vs := by
      simp only [hkids, Option.some.injEq, forall_eq']
    rw [Tree.Throughout, Tree.Each, hhere, hiff]
    constructor
    · exact and_congr_right fun heach => hok r _ vs (hrel heach) hall
    · rintro ⟨heach, hnode⟩
      have hkids' := hrel heach
      exact hR r p _ vs s₁ v s' hkids' hall hact ((hok r _ vs hkids' hall).mpr hnode)

theorem Forest.throughout_iff {ss : List (Symbol T N)} :
    ∀ (k : Forest G A P ss) {s : M.S} {vs : Vals A M.V ss} {s' : M.S},
      k.eval M s = some (vs, s') → (k.Throughout M keeps s ↔ k.Each f ok) ∧
        (k.Each f ok → Vals.Rel R (k.fold V f) vs)
  | .nil, _, _, _, _ => ⟨Iff.rfl, fun _ => trivial⟩
  | .token a k, s, vs, s', h => by
    rw [Forest.eval, Option.map_eq_some_iff] at h
    obtain ⟨⟨us, s₁⟩, hk, heq⟩ := h
    cases heq
    obtain ⟨hiff, hrel⟩ := k.throughout_iff hk
    exact ⟨hiff, fun heach => ⟨rfl, hrel heach⟩⟩
  | .tree d k, s, vs, s', h => by
    rw [Forest.eval, Option.bind_eq_some_iff] at h
    obtain ⟨⟨v, s₁⟩, hd, h⟩ := h
    rw [Option.map_eq_some_iff] at h
    obtain ⟨⟨us, s₂⟩, hk, heq⟩ := h
    cases heq
    obtain ⟨hdiff, hdrel⟩ := d.throughout_iff hd
    obtain ⟨hkiff, hkrel⟩ := k.throughout_iff hk
    have hrest : (∀ x, d.eval M s = some x → k.Throughout M keeps x.2) ↔
        k.Throughout M keeps s₁ := by
      simp only [hd, Option.some.injEq, forall_eq']
    rw [Forest.Throughout, Forest.Each, hrest, hdiff, hkiff]
    exact ⟨Iff.rfl, fun heach => ⟨hdrel heach.1, hkrel heach.2⟩⟩

end

end

theorem Vals.sum_hom {V : N → Type} {W W' : Type} [AddMonoid W] [AddMonoid W'] (g : W →+ W')
    (w : ∀ n, V n → W) {ss : List (Symbol T N)} (vs : Vals A V ss) :
    g (vs.sum w) = vs.sum fun n v => g (w n v) := by
  induction ss with
  | nil => exact map_zero g
  | cons sym ss ih =>
    cases sym with
    | terminal t => exact ih vs.2
    | nonterminal n =>
      have hadd := map_add g (w n vs.1) (Vals.sum w vs.2)
      have htail := ih vs.2
      exact hadd.trans (congrArg (g (w n vs.1) + ·) htail)

/-- Sums of weights that values and attributes agree on. -/
theorem Vals.Rel.sum {V V' : N → Type} {R : ∀ n, V n → V' n → Prop} {w : ∀ n, V n → ℕ}
    {w' : ∀ n, V' n → ℕ} {ss : List (Symbol T N)}
    (h : ∀ n, .nonterminal n ∈ ss → ∀ a v, R n a v → w n a = w' n v) {as : Vals A V ss}
    {vs : Vals A V' ss} (hR : as.Rel R vs) : as.sum w = vs.sum w' := by
  induction ss with
  | nil => rfl
  | cons sym ss ih =>
    have hss n (hn : .nonterminal n ∈ ss) := h n (List.mem_cons_of_mem sym hn)
    cases sym with
    | terminal t => exact ih hss hR.2
    | nonterminal n =>
      have hhead := h n List.mem_cons_self _ _ hR.1
      have htail := ih hss hR.2
      exact congrArg₂ (· + ·) hhead htail

end

section
variable {V : N → Type} {f : {n : N} → (r : G.Rule n) → P → Vals A V (G.rhs r) → V n}
    {ok : {n : N} → (r : G.Rule n) → Vals A V (G.rhs r) → Prop}
    [∀ {n : N} (r : G.Rule n) (as : Vals A V (G.rhs r)), Decidable (ok r as)]

mutual

def Tree.decidableEach {n : N} : (d : Tree G A P n) → Decidable (d.Each f ok)
  | .node _ _ kids => @instDecidableAnd _ _ kids.decidableEach inferInstance

def Forest.decidableEach {ss : List (Symbol T N)} : (k : Forest G A P ss) → Decidable (k.Each f ok)
  | .nil => .isTrue trivial
  | .token _ k => k.decidableEach
  | .tree d k => @instDecidableAnd _ _ d.decidableEach k.decidableEach

end

instance {n : N} (d : Tree G A P n) : Decidable (d.Each f ok) := d.decidableEach

end

end Bison
