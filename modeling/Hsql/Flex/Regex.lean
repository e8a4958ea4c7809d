import Mathlib.Computability.Language

/-! Flex patterns: character classes, concatenation, alternatives and repetition, with the
language of a pattern and the longest match of a pattern at the front of a text. The longest
match is computed with derivatives, one character at a time, as a scanner runs its automaton. -/

namespace Flex

/-- A bracket expression: the characters of the listed ranges or, negated, all others. -/
structure CharClass where
  neg : Bool
  ranges : List (Char × Char)
deriving DecidableEq

namespace CharClass

def mem (k : CharClass) (c : Char) : Bool :=
  xor k.neg
    (k.ranges.any fun r => decide (r.1.toNat ≤ c.toNat) && decide (c.toNat ≤ r.2.toNat))

def single (c : Char) : CharClass := ⟨false, [(c, c)]⟩

def of (cs : List Char) : CharClass := ⟨false, cs.map fun c => (c, c)⟩

def except (cs : List Char) : CharClass := ⟨true, cs.map fun c => (c, c)⟩

theorem le_and_le_iff (a c : Char) :
    (decide (a.toNat ≤ c.toNat) && decide (c.toNat ≤ a.toNat)) = true ↔ c = a := by
  simp only [Bool.and_eq_true, decide_eq_true_eq]
  exact ⟨fun h => Char.toNat_inj.mp (le_antisymm h.2 h.1), fun h => h ▸ ⟨le_rfl, le_rfl⟩⟩

theorem any_single (cs : List Char) (c : Char) :
    ((cs.map fun a => (a, a)).any fun r =>
      decide (r.1.toNat ≤ c.toNat) && decide (c.toNat ≤ r.2.toNat)) = true ↔ c ∈ cs := by
  simp only [List.any_map, List.any_eq_true, Function.comp_apply, le_and_le_iff]
  exact ⟨fun ⟨a, ha, h⟩ => h ▸ ha, fun h => ⟨c, h, rfl⟩⟩

@[simp] theorem mem_single (a c : Char) : (single a).mem c = true ↔ c = a := by
  simpa [mem, single, of] using any_single [a] c

@[simp] theorem mem_of (cs : List Char) (c : Char) : (of cs).mem c = true ↔ c ∈ cs := by
  simpa [mem, of] using any_single cs c

@[simp] theorem mem_except (cs : List Char) (c : Char) :
    (except cs).mem c = true ↔ c ∉ cs := by
  rw [← any_single cs c]
  simp [mem, except]

/-- No range of the one class meets a range of the other. -/
def disjoint (k k' : CharClass) : Bool :=
  !k.neg && !k'.neg && k.ranges.all fun r => k'.ranges.all fun r' =>
    decide (r.2.toNat < r'.1.toNat) || decide (r'.2.toNat < r.1.toNat)

theorem mem_of_disjoint {k l : CharClass} (h : k.disjoint l = true) {c : Char}
    (hc : k.mem c = true) : l.mem c = false := by
  simp only [disjoint, Bool.and_eq_true, Bool.not_eq_true', List.all_eq_true, Bool.or_eq_true,
    decide_eq_true_eq] at h
  obtain ⟨⟨hk, hl⟩, hall⟩ := h
  simp only [mem, hk, Bool.false_xor, List.any_eq_true, Bool.and_eq_true,
    decide_eq_true_eq] at hc
  obtain ⟨r, hr, hlo, hhi⟩ := hc
  rw [mem, hl, Bool.false_xor, List.any_eq_false]
  intro r' hr' hmem
  rw [Bool.and_eq_true, decide_eq_true_eq, decide_eq_true_eq] at hmem
  rcases hall r hr r' hr' with h | h
  · exact absurd (hmem.1.trans hhi) h.not_ge
  · exact absurd (hlo.trans hmem.2) h.not_ge

end CharClass

inductive Regex where
  | none
  | eps
  | cls (k : CharClass)
  | seq (a b : Regex)
  | alt (a b : Regex)
  | star (a : Regex)
deriving DecidableEq

namespace Regex
open Computability

/-- The texts a pattern matches. -/
def lang : Regex → Language Char
  | none => 0
  | eps => 1
  | cls k => {w | ∃ c, k.mem c = true ∧ w = [c]}
  | seq a b => a.lang * b.lang
  | alt a b => a.lang + b.lang
  | star a => a.lang∗

def plus (a : Regex) : Regex := seq a (star a)

def opt (a : Regex) : Regex := alt eps a

def chr (c : Char) : Regex := cls (.single c)

def lit : List Char → Regex
  | [] => eps
  | c :: cs => seq (chr c) (lit cs)

def nullable : Regex → Bool
  | none => false
  | eps => true
  | cls _ => false
  | seq a b => a.nullable && b.nullable
  | alt a b => a.nullable || b.nullable
  | star _ => true

/-- `seq` with the dead pattern and the empty one simplified away. -/
def cat : Regex → Regex → Regex
  | none, _ => none
  | eps, b => b
  | seq a a', b => seq a (cat a' b)
  | a, b => seq a b

/-- `alt` with the dead pattern and a repeated alternative simplified away. -/
def or : Regex → Regex → Regex
  | none, b => b
  | a, none => a
  | a, b => if a = b then a else alt a b

def deriv (c : Char) : Regex → Regex
  | none => none
  | eps => none
  | cls k => if k.mem c then eps else none
  | seq a b => if a.nullable then or (cat (a.deriv c) b) (b.deriv c) else cat (a.deriv c) b
  | alt a b => or (a.deriv c) (b.deriv c)
  | star a => cat (a.deriv c) (star a)

/-- Length of the longest match at the front of the text; `none` when nothing matches. -/
def longest : Regex → List Char → Option Nat
  | none, _ => Option.none
  | r, [] => if r.nullable then some 0 else Option.none
  | r, c :: cs =>
    match longest (r.deriv c) cs with
    | some n => some (n + 1)
    | Option.none => if r.nullable then some 0 else Option.none

/-! Language of the derived forms. -/

@[simp] theorem mem_lang_none (w : List Char) : ¬ w ∈ none.lang := Language.notMem_zero w

@[simp] theorem mem_lang_eps (w : List Char) : w ∈ eps.lang ↔ w = [] := Language.mem_one w

@[simp] theorem mem_lang_cls (k : CharClass) (w : List Char) :
    w ∈ (cls k).lang ↔ ∃ c, k.mem c = true ∧ w = [c] := Iff.rfl

theorem mem_lang_seq (a b : Regex) (w : List Char) :
    w ∈ (seq a b).lang ↔ ∃ u ∈ a.lang, ∃ v ∈ b.lang, u ++ v = w := Language.mem_mul

@[simp] theorem mem_lang_alt (a b : Regex) (w : List Char) :
    w ∈ (alt a b).lang ↔ w ∈ a.lang ∨ w ∈ b.lang := Iff.rfl

theorem mem_lang_star (a : Regex) (w : List Char) :
    w ∈ (star a).lang ↔ ∃ L : List (List Char), w = L.flatten ∧ ∀ y ∈ L, y ∈ a.lang ∧ y ≠ [] :=
  Language.mem_kstar_iff_exists_nonempty

theorem nil_mem_star (a : Regex) : [] ∈ (star a).lang := Language.nil_mem_kstar _

@[simp] theorem mem_lang_opt (a : Regex) (w : List Char) :
    w ∈ (opt a).lang ↔ w = [] ∨ w ∈ a.lang := by
  simp only [opt, mem_lang_alt, mem_lang_eps]

@[simp] theorem mem_lang_chr (c : Char) (w : List Char) : w ∈ (chr c).lang ↔ w = [c] := by
  simp only [chr, mem_lang_cls, CharClass.mem_single, exists_eq_left]

theorem mem_lang_seq_chr (c : Char) (b : Regex) (w : List Char) :
    w ∈ (seq (chr c) b).lang ↔ ∃ v ∈ b.lang, w = c :: v := by
  simp only [mem_lang_seq, mem_lang_chr, exists_eq_left, List.singleton_append, eq_comm]

theorem mem_lang_seq_cls (k : CharClass) (b : Regex) (w : List Char) :
    w ∈ (seq (cls k) b).lang ↔ ∃ c v, k.mem c = true ∧ v ∈ b.lang ∧ w = c :: v := by
  simp only [mem_lang_seq, mem_lang_cls]
  constructor
  · rintro ⟨_, ⟨c, hc, rfl⟩, v, hv, rfl⟩
    exact ⟨c, v, hc, hv, rfl⟩
  · rintro ⟨c, v, hc, hv, rfl⟩
    exact ⟨[c], ⟨c, hc, rfl⟩, v, hv, rfl⟩

@[simp] theorem mem_lang_lit (cs w : List Char) : w ∈ (lit cs).lang ↔ w = cs := by
  induction cs generalizing w with
  | nil => exact mem_lang_eps w
  | cons c cs ih =>
    rw [lit, mem_lang_seq_chr]
    simp only [ih, exists_eq_left]

theorem mem_lang_star_cls (k : CharClass) (w : List Char) :
    w ∈ (star (cls k)).lang ↔ ∀ c ∈ w, k.mem c = true := by
  rw [mem_lang_star]
  constructor
  · rintro ⟨L, rfl, h⟩ c hc
    obtain ⟨y, hy, hcy⟩ := List.mem_flatten.mp hc
    obtain ⟨d, hd, rfl⟩ := (mem_lang_cls k y).mp (h y hy).1
    exact List.mem_singleton.mp hcy ▸ hd
  · intro h
    refine ⟨w.map fun c => [c], ?_, ?_⟩
    · rw [← List.flatMap_def, List.flatMap_singleton']
    · intro y hy
      obtain ⟨c, hc, rfl⟩ := List.mem_map.mp hy
      exact ⟨⟨c, h c hc, rfl⟩, List.cons_ne_nil _ _⟩

theorem mem_lang_plus_cls (k : CharClass) (w : List Char) :
    w ∈ (plus (cls k)).lang ↔ w ≠ [] ∧ ∀ c ∈ w, k.mem c = true := by
  rw [plus, mem_lang_seq_cls]
  simp only [mem_lang_star_cls]
  constructor
  · rintro ⟨c, v, hc, hv, rfl⟩
    exact ⟨List.cons_ne_nil _ _, List.forall_mem_cons.mpr ⟨hc, hv⟩⟩
  · rintro ⟨hne, h⟩
    cases w with
    | nil => exact absurd rfl hne
    | cons c v =>
      obtain ⟨hc, hv⟩ := List.forall_mem_cons.mp h
      exact ⟨c, v, hc, hv, rfl⟩

/-! Derivatives. -/

theorem nullable_iff (r : Regex) : r.nullable = true ↔ [] ∈ r.lang := by
  induction r with
  | none => simp [nullable]
  | eps => simp [nullable]
  | cls k => simp [nullable]
  | seq a b iha ihb =>
    rw [nullable, Bool.and_eq_true, iha, ihb, mem_lang_seq]
    constructor
    · exact fun ⟨ha, hb⟩ => ⟨[], ha, [], hb, rfl⟩
    · rintro ⟨u, hu, v, hv, h⟩
      obtain ⟨rfl, rfl⟩ := List.append_eq_nil_iff.mp h
      exact ⟨hu, hv⟩
  | alt a b iha ihb => rw [nullable, Bool.or_eq_true, iha, ihb, mem_lang_alt]
  | star a => exact ⟨fun _ => nil_mem_star a, fun _ => rfl⟩

theorem lang_cat (a b : Regex) : (cat a b).lang = a.lang * b.lang := by
  induction a generalizing b with
  | none => exact (zero_mul _).symm
  | eps => exact (one_mul _).symm
  | seq a a' _ ih => rw [cat, lang, ih, lang, mul_assoc]
  | cls k => rfl
  | alt a a' => rfl
  | star a => rfl

theorem lang_or (a b : Regex) : (or a b).lang = a.lang + b.lang := by
  unfold or
  split
  · exact (zero_add _).symm
  · exact (add_zero _).symm
  · split_ifs with h
    · rw [h, Language.add_self]
    · rfl

theorem mem_seq_cons (a b : Regex) (c : Char) (w : List Char) :
    c :: w ∈ (seq a b).lang ↔
      (∃ u, c :: u ∈ a.lang ∧ ∃ v ∈ b.lang, u ++ v = w) ∨ [] ∈ a.lang ∧ c :: w ∈ b.lang := by
  rw [mem_lang_seq]
  constructor
  · rintro ⟨u, hu, v, hv, h⟩
    cases u with
    | nil => exact Or.inr ⟨hu, by simpa using h ▸ hv⟩
    | cons d u =>
      obtain ⟨rfl, rfl⟩ := List.cons_eq_cons.mp h
      exact Or.inl ⟨u, hu, v, hv, rfl⟩
  · rintro (⟨u, hu, v, hv, rfl⟩ | ⟨ha, hb⟩)
    · exact ⟨c :: u, hu, v, hv, rfl⟩
    · exact ⟨[], ha, c :: w, hb, rfl⟩

theorem mem_star_cons (a : Regex) (c : Char) (w : List Char) :
    c :: w ∈ (star a).lang ↔ ∃ u, c :: u ∈ a.lang ∧ ∃ v ∈ (star a).lang, u ++ v = w := by
  constructor
  · rw [mem_lang_star]
    rintro ⟨L, hL, h⟩
    cases L with
    | nil => simp at hL
    | cons y L =>
      obtain ⟨⟨hy, hne⟩, hrest⟩ := List.forall_mem_cons.mp h
      cases y with
      | nil => exact absurd rfl hne
      | cons d u =>
        rw [List.flatten_cons, List.cons_append] at hL
        obtain ⟨rfl, rfl⟩ := List.cons_eq_cons.mp hL
        exact ⟨u, hy, L.flatten, (mem_lang_star a _).mpr ⟨L, rfl, hrest⟩, rfl⟩
  · rintro ⟨u, hu, v, hv, rfl⟩
    obtain ⟨L, rfl, h⟩ := (mem_lang_star a v).mp hv
    refine (mem_lang_star a _).mpr ⟨(c :: u) :: L, rfl, ?_⟩
    exact List.forall_mem_cons.mpr ⟨⟨hu, List.cons_ne_nil _ _⟩, h⟩

theorem mem_lang_deriv (c : Char) (r : Regex) (w : List Char) :
    w ∈ (r.deriv c).lang ↔ c :: w ∈ r.lang := by
  induction r generalizing w with
  | none => simp [deriv]
  | eps => simp [deriv]
  | cls k =>
    unfold deriv
    split_ifs with h
    · simp [h]
    · simp only [mem_lang_none, mem_lang_cls, false_iff]
      rintro ⟨d, hd, he⟩
      obtain ⟨rfl, -⟩ := List.cons_eq_cons.mp he
      exact h hd
  | seq a b iha ihb =>
    have hcat : w ∈ (cat (a.deriv c) b).lang ↔
        ∃ u, c :: u ∈ a.lang ∧ ∃ v ∈ b.lang, u ++ v = w := by
      simp only [lang_cat, Language.mem_mul, iha]
    rw [mem_seq_cons, ← hcat, ← nullable_iff, deriv]
    split_ifs with h
    · rw [lang_or, Language.mem_add, ihb, and_iff_right h]
    · rw [or_iff_left fun hb => h hb.1]
  | alt a b iha ihb =>
    rw [deriv, lang_or, Language.mem_add, iha, ihb, mem_lang_alt]
  | star a iha =>
    rw [mem_star_cons, deriv, lang_cat, Language.mem_mul]
    simp only [iha]

/-! The longest match. -/

theorem longest_none (s : List Char) : longest none s = Option.none := by
  cases s <;> rfl

theorem longest_nil (r : Regex) : r.longest [] = if r.nullable then some 0 else Option.none := by
  cases r <;> rfl

theorem longest_cons (r : Regex) (c : Char) (cs : List Char) :
    r.longest (c :: cs) =
      ((r.deriv c).longest cs).elim (if r.nullable then some 0 else Option.none)
        fun n => some (n + 1) := by
  cases r with
  | none => simp [longest, deriv, longest_none, nullable]
  | _ => simp only [longest]; split <;> simp_all

theorem longest_eq_some {r : Regex} {s : List Char} {n : Nat} (h : r.longest s = some n) :
    n ≤ s.length ∧ s.take n ∈ r.lang := by
  induction s generalizing r n with
  | nil =>
    rw [longest_nil, Option.ite_none_right_eq_some, Option.some_inj,
      nullable_iff] at h
    obtain ⟨h, rfl⟩ := h
    exact ⟨le_rfl, h⟩
  | cons c cs ih =>
    rw [longest_cons] at h
    cases hd : (r.deriv c).longest cs with
    | none =>
      rw [hd, Option.elim_none, Option.ite_none_right_eq_some, Option.some_inj,
        nullable_iff] at h
      obtain ⟨h, rfl⟩ := h
      exact ⟨Nat.zero_le _, h⟩
    | some m =>
      rw [hd, Option.elim_some] at h
      obtain rfl := Option.some.inj h
      obtain ⟨hm, hmem⟩ := ih hd
      exact ⟨Nat.succ_le_succ hm, (mem_lang_deriv c r _).mp hmem⟩

/-- Every match at the front of the text is at most as long as the longest one. -/
theorem le_longest {r : Regex} {s : List Char} {m : Nat} (hm : m ≤ s.length)
    (h : s.take m ∈ r.lang) : ∃ n, r.longest s = some n ∧ m ≤ n := by
  induction s generalizing r m with
  | nil =>
    obtain rfl := Nat.le_zero.mp hm
    exact ⟨0, by rw [longest_nil, (nullable_iff r).mpr h, if_pos rfl], le_rfl⟩
  | cons c cs ih =>
    rw [longest_cons]
    cases m with
    | zero =>
      cases (r.deriv c).longest cs with
      | none => exact ⟨0, by rw [Option.elim_none, (nullable_iff r).mpr h, if_pos rfl], le_rfl⟩
      | some n => exact ⟨n + 1, rfl, Nat.zero_le _⟩
    | succ m =>
      obtain ⟨n, hn, hmn⟩ := ih (Nat.le_of_succ_le_succ hm) ((mem_lang_deriv c r _).mpr h)
      exact ⟨n + 1, by rw [hn, Option.elim_some], Nat.succ_le_succ hmn⟩

theorem longest_eq_some_iff (r : Regex) (s : List Char) (n : Nat) :
    r.longest s = some n ↔
      n ≤ s.length ∧ s.take n ∈ r.lang ∧ ∀ m ≤ s.length, s.take m ∈ r.lang → m ≤ n := by
  constructor
  · intro h
    obtain ⟨hn, hmem⟩ := longest_eq_some h
    refine ⟨hn, hmem, fun m hm hw => ?_⟩
    obtain ⟨k, hk, hmk⟩ := le_longest hm hw
    rwa [Option.some.inj (h.symm.trans hk)]
  · rintro ⟨hn, hmem, hmax⟩
    obtain ⟨k, hk, hnk⟩ := le_longest hn hmem
    obtain ⟨hks, hkmem⟩ := longest_eq_some hk
    rw [hk, le_antisymm (hmax k hks hkmem) hnk]

theorem longest_eq_none_iff (r : Regex) (s : List Char) :
    r.longest s = Option.none ↔ ∀ m ≤ s.length, s.take m ∉ r.lang := by
  constructor
  · intro h m hm hw
    obtain ⟨k, hk, -⟩ := le_longest hm hw
    rw [h] at hk
    cases hk
  · intro h
    cases hl : r.longest s with
    | none => rfl
    | some n => exact absurd (longest_eq_some hl).2 (h n (longest_eq_some hl).1)

end Regex
end Flex
