import Hsql.Bison.Grammar

/-! Words of a grammar cut at separators that stand outside of brackets, and what the first token of
a word tells. -/

namespace Bison
variable {T N : Type} {G : Grammar T N} {A : T → Type} {P : Type}

structure Brackets (T : Type) where
  opens : T → Bool
  closes : T → Bool
  separates : T → Bool

/-- The tokens of a derivation without their values. -/
def Tree.word {n : N} (d : Tree G A P n) : List T := d.yield.map Sigma.fst

def Forest.word {ss : List (Symbol T N)} (k : Forest G A P ss) : List T := k.yield.map Sigma.fst

theorem Forest.word_token {t : T} {a : A t} {ss : List (Symbol T N)} (k : Forest G A P ss) :
    (Forest.token a k).word = t :: k.word := rfl

theorem Forest.word_tree {n : N} (d : Tree G A P n) {ss : List (Symbol T N)}
    (k : Forest G A P ss) : (Forest.tree d k).word = d.word ++ k.word := List.map_append

namespace Brackets
variable (B : Brackets T)

def level (depth : ℕ) (t : T) : ℕ :=
  if B.opens t then depth + 1 else if B.closes t then depth - 1 else depth

/-- The pieces of a word behind a first one that has been read up to here. -/
def pieces : ℕ → List T → List T → List (List T)
  | _, piece, [] => [piece]
  | depth, piece, t :: ts =>
    if B.separates t && depth == 0 then piece :: pieces depth [] ts
    else pieces (B.level depth t) (piece ++ [t]) ts

/-- The symbols close what they open, and separators come within brackets only, as do nonterminals
that are lists. -/
def balanced (lists : N → Bool) (inside : Bool) : ℕ → List (Symbol T N) → Bool
  | depth, [] => depth == 0
  | depth, .terminal t :: ss =>
    (!B.separates t || inside || 0 < depth) && (!B.closes t || 0 < depth) &&
      balanced lists inside (B.level depth t) ss
  | depth, .nonterminal n :: ss =>
    (!lists n || inside || 0 < depth) && balanced lists inside depth ss

variable {B}

theorem level_add (base : ℕ) {depth : ℕ} {t : T} (h : B.closes t = true → 0 < depth) :
    B.level (base + depth) t = base + B.level depth t := by
  unfold level
  split_ifs with hopens hcloses
  · rfl
  · have hdepth := h hcloses
    omega
  · rfl

variable {lists : N → Bool} (hG : ∀ {n : N} (r : G.Rule n), B.balanced lists (lists n) 0 (G.rhs r))
include hG

mutual

/-- Within a piece. -/
theorem pieces_word {n : N} : ∀ (d : Tree G A P n) {base : ℕ}, (lists n = true → 0 < base) →
    ∀ piece rest, B.pieces base piece (d.word ++ rest) = B.pieces base (piece ++ d.word) rest
  | .node r _ kids, _, hbase => pieces_wordForest kids (hG r) hbase

theorem pieces_wordForest {ss : List (Symbol T N)} {inside : Bool} : ∀ (k : Forest G A P ss)
    {base depth : ℕ}, B.balanced lists inside depth ss = true → (inside = true → 0 < base) →
      ∀ piece rest, B.pieces (base + depth) piece (k.word ++ rest) =
        B.pieces base (piece ++ k.word) rest
  | .nil, base, depth, h, _, piece, rest => by
    obtain rfl : depth = 0 := eq_of_beq h
    rw [add_zero]
    exact congrArg (B.pieces base · rest) (List.append_nil piece).symm
  | .token (t := t) a k, base, depth, h, hbase, piece, rest => by
    simp only [balanced, Bool.and_eq_true, Bool.or_eq_true, Bool.not_eq_true', decide_eq_true_eq]
      at h
    obtain ⟨⟨hseparates, hcloses⟩, hrest⟩ := h
    have hinside : (B.separates t && base + depth == 0) = false := by
      rcases hseparates with (hno | hin) | hdepth
      · rw [hno, Bool.false_and]
      · have hpos := hbase hin
        simp only [Bool.and_eq_false_imp, beq_eq_false_iff_ne]
        omega
      · simp only [Bool.and_eq_false_imp, beq_eq_false_iff_ne]
        omega
    have hlevel : B.level (base + depth) t = base + B.level depth t :=
      level_add base fun hc => hcloses.resolve_left (by rw [hc]; decide)
    have hk := pieces_wordForest k hrest hbase (piece ++ [t]) rest
    rw [Forest.word_token, List.cons_append, pieces, hinside, hlevel, if_neg (by decide), hk,
      List.append_assoc]
    rfl
  | .tree (n := n) d k, base, depth, h, hbase, piece, rest => by
    simp only [balanced, Bool.and_eq_true, Bool.or_eq_true, Bool.not_eq_true', decide_eq_true_eq]
      at h
    obtain ⟨hlists, hrest⟩ := h
    have hpos : lists n = true → 0 < base + depth := by
      intro hn
      rcases hlists with (hno | hin) | hdepth
      · rw [hn] at hno
        cases hno
      · have hpos := hbase hin
        omega
      · omega
    have hd := pieces_word d hpos piece (k.word ++ rest)
    have hk := pieces_wordForest k hrest hbase (piece ++ d.word) rest
    rw [Forest.word_tree, List.append_assoc, hd, hk, List.append_assoc]

end

end Brackets

/-! First tokens. -/

section
variable {K : Type} (ofToken : T → Option K) (ofNonterminal : N → Option K)

def Symbol.tells : Symbol T N → Option K
  | .terminal t => ofToken t
  | .nonterminal n => ofNonterminal n

variable {ofToken ofNonterminal}
  (hG : ∀ {n : N} (r : G.Rule n) {k : K}, ofNonterminal n = some k →
    (G.rhs r).head?.bind (Symbol.tells ofToken ofNonterminal) = some k)
include hG

mutual

/-- If each rule starts with a symbol that tells the same as its nonterminal, so does the first
token. -/
theorem Tree.head_word {n : N} : ∀ (d : Tree G A P n) {k : K}, ofNonterminal n = some k →
    d.word.head?.bind ofToken = some k
  | .node r _ kids, _, hn => kids.head_word (hG r hn)

theorem Forest.head_word {ss : List (Symbol T N)} : ∀ (f : Forest G A P ss) {k : K},
    ss.head?.bind (Symbol.tells ofToken ofNonterminal) = some k →
      f.word.head?.bind ofToken = some k
  | .token _ _, _, h => h
  | .tree d f, _, h => by
    have hd := d.head_word h
    obtain ⟨t, ht, -⟩ := Option.bind_eq_some_iff.mp hd
    rwa [Forest.word_tree, List.head?_append, ht, Option.some_or, ← ht]

end

end

end Bison
