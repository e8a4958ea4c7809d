import Hsql.Flex.Regex

/-! A flex scanner: rules with start conditions, the choice of the longest match with the
earliest rule on ties, and the loop that cuts a text into lexemes. `Lexes` is a run of that
loop; the run lemmas say when a run survives a change of the text that follows it. -/

namespace Flex
variable {σ τ : Type}

inductive Action (σ τ : Type) where
  | BEGIN (q : σ)
  | skip
  | token (t : τ)
  | stop

namespace Action

/-- Start condition after the action; `none` when the action ends the input. -/
def next (q : σ) : Action σ τ → Option σ
  | BEGIN q' => some q'
  | skip => some q
  | token _ => some q
  | stop => none

def token? : Action σ τ → Option τ
  | token t => some t
  | _ => none

instance decidableStop : (a : Action σ τ) → Decidable (a = stop)
  | BEGIN _ => isFalse nofun
  | skip => isFalse nofun
  | token _ => isFalse nofun
  | stop => isTrue rfl

instance decidableBegin : (a : Action σ τ) → Decidable (∀ q, a ≠ BEGIN q)
  | BEGIN q => isFalse fun h => h q rfl
  | skip => isTrue nofun
  | token _ => isTrue nofun
  | stop => isTrue nofun

end Action

structure Rule (σ τ : Type) where
  active : σ → Bool
  pattern : Regex
  action : List Char → Action σ τ

def Rule.longest (r : Rule σ τ) (q : σ) (s : List Char) : Option Nat :=
  if r.active q then r.pattern.longest s else none

/-- The rule with the longest match and the length of its match; ties go to the earlier rule. -/
def munch : List (Rule σ τ) → σ → List Char → Option (Nat × Rule σ τ)
  | [], _, _ => none
  | r :: rs, q, s =>
    match r.longest q s, munch rs q s with
    | none, best => best
    | some n, none => some (n, r)
    | some n, some (m, r') => if m ≤ n then some (n, r) else some (m, r')

structure Lexeme (σ τ : Type) where
  text : List Char
  act : Action σ τ

/-- The scanner's loop. The counter is the rest of the current lexeme, still to be skipped. -/
def scan (rs : List (Rule σ τ)) : Nat → σ → List Char → List (Lexeme σ τ)
  | _, _, [] => []
  | k + 1, q, _ :: cs => scan rs k q cs
  | 0, q, c :: cs =>
    match munch rs q (c :: cs) with
    | none => []
    | some (n, r) =>
      let l : Lexeme σ τ := ⟨(c :: cs).take n, r.action ((c :: cs).take n)⟩
      match l.act.next q with
      | none => [l]
      | some q' => l :: scan rs (n - 1) q' cs

def texts (L : List (Lexeme σ τ)) : List Char := L.flatMap Lexeme.text

def tokens (L : List (Lexeme σ τ)) : List τ := L.filterMap fun l => l.act.token?

@[simp] theorem texts_nil : texts ([] : List (Lexeme σ τ)) = [] := rfl

@[simp] theorem texts_cons (l : Lexeme σ τ) (L : List (Lexeme σ τ)) :
    texts (l :: L) = l.text ++ texts L := rfl

@[simp] theorem texts_append (L M : List (Lexeme σ τ)) : texts (L ++ M) = texts L ++ texts M :=
  List.flatMap_append

@[simp] theorem tokens_nil : tokens ([] : List (Lexeme σ τ)) = [] := rfl

@[simp] theorem tokens_append (L M : List (Lexeme σ τ)) :
    tokens (L ++ M) = tokens L ++ tokens M := List.filterMap_append

/-! Choice of the rule. -/

theorem munch_eq_none {rs : List (Rule σ τ)} {q : σ} {s : List Char}
    (h : munch rs q s = none) : ∀ r ∈ rs, r.longest q s = none := by
  induction rs with
  | nil => exact fun r hr => absurd hr List.not_mem_nil
  | cons r₀ rs ih =>
    simp only [munch] at h
    split at h
    · rename_i h₀
      exact List.forall_mem_cons.mpr ⟨h₀, ih h⟩
    · cases h
    · split_ifs at h

theorem munch_eq_some {rs : List (Rule σ τ)} {q : σ} {s : List Char} {n : Nat} {r : Rule σ τ}
    (h : munch rs q s = some (n, r)) :
    ∃ pre post, rs = pre ++ r :: post ∧ r.longest q s = some n ∧
      (∀ r' ∈ pre, ∀ m, r'.longest q s = some m → m < n) ∧
      ∀ r' ∈ post, ∀ m, r'.longest q s = some m → m ≤ n := by
  induction rs generalizing n r with
  | nil => cases h
  | cons r₀ rs ih =>
    simp only [munch] at h
    cases h₀ : r₀.longest q s with
    | none =>
      rw [h₀] at h
      obtain ⟨pre, post, rfl, hr, hpre, hpost⟩ := ih h
      refine ⟨r₀ :: pre, post, rfl, hr, ?_, hpost⟩
      intro r' hr' m hm
      rcases List.mem_cons.mp hr' with rfl | hr'
      · rw [h₀] at hm
        cases hm
      · exact hpre r' hr' m hm
    | some n₀ =>
      rw [h₀] at h
      cases hrest : munch rs q s with
      | none =>
        rw [hrest] at h
        obtain ⟨rfl, rfl⟩ := Prod.mk.inj (Option.some.inj h)
        refine ⟨[], rs, rfl, h₀, by simp, fun r' hr' m hm => ?_⟩
        rw [munch_eq_none hrest r' hr'] at hm
        cases hm
      | some b =>
        obtain ⟨m₀, r₁⟩ := b
        rw [hrest] at h
        obtain ⟨pre, post, rfl, hr, hpre, hpost⟩ := ih hrest
        dsimp only at h
        split_ifs at h with hle
        · obtain ⟨rfl, rfl⟩ := Prod.mk.inj (Option.some.inj h)
          refine ⟨[], pre ++ r₁ :: post, rfl, h₀, by simp, ?_⟩
          intro r' hr' m hm
          rcases List.mem_append.mp hr' with hp | hp
          · exact (hpre r' hp m hm).le.trans hle
          · rcases List.mem_cons.mp hp with rfl | hp
            · rw [hr] at hm
              exact Option.some.inj hm ▸ hle
            · exact (hpost r' hp m hm).trans hle
        · obtain ⟨rfl, rfl⟩ := Prod.mk.inj (Option.some.inj h)
          refine ⟨r₀ :: pre, post, rfl, hr, ?_, hpost⟩
          intro r' hr' m hm
          rcases List.mem_cons.mp hr' with rfl | hr'
          · rw [h₀] at hm
            exact Option.some.inj hm ▸ not_le.mp hle
          · exact hpre r' hr' m hm

/-- A rule wins when the rules before it match less and those after it do not match more. -/
theorem munch_of_longest {pre post : List (Rule σ τ)} {r : Rule σ τ} {q : σ} {s : List Char}
    {n : Nat} (hr : r.longest q s = some n)
    (hpre : ∀ r' ∈ pre, ∀ m, r'.longest q s = some m → m < n)
    (hpost : ∀ r' ∈ post, ∀ m, r'.longest q s = some m → m ≤ n) :
    munch (pre ++ r :: post) q s = some (n, r) := by
  induction pre with
  | nil =>
    have hmunch : ∀ b, munch post q s = some b → b.1 ≤ n := by
      intro b hb
      obtain ⟨m, r'⟩ := b
      obtain ⟨p, p', rfl, hl, -, -⟩ := munch_eq_some hb
      exact hpost r' (by simp) m hl
    rw [List.nil_append, munch, hr]
    cases hb : munch post q s with
    | none => rfl
    | some b => simp only [hmunch b hb, if_true]
  | cons r₀ pre ih =>
    have hrest := ih fun r' hr' => hpre r' (List.mem_cons_of_mem _ hr')
    rw [List.cons_append, munch, hrest]
    cases h₀ : r₀.longest q s with
    | none => rfl
    | some n₀ => simp only [not_le.mpr (hpre r₀ List.mem_cons_self n₀ h₀), if_false]

theorem munch_congr {rs : List (Rule σ τ)} {q : σ} {s s' : List Char}
    (h : ∀ r ∈ rs, r.longest q s = r.longest q s') : munch rs q s = munch rs q s' := by
  induction rs with
  | nil => rfl
  | cons r rs ih =>
    obtain ⟨hr, hrs⟩ := List.forall_mem_cons.mp h
    rw [munch, munch, hr, ih hrs]

theorem munch_length_le {rs : List (Rule σ τ)} {q : σ} {s : List Char} {n : Nat} {r : Rule σ τ}
    (h : munch rs q s = some (n, r)) : r ∈ rs ∧ n ≤ s.length ∧ r.active q = true ∧
      s.take n ∈ r.pattern.lang := by
  obtain ⟨pre, post, rfl, hr, -, -⟩ := munch_eq_some h
  rw [Rule.longest, Option.ite_none_right_eq_some] at hr
  obtain ⟨hn, hmem⟩ := Regex.longest_eq_some hr.2
  exact ⟨by simp, hn, hr.1, hmem⟩

theorem munch_max {rs : List (Rule σ τ)} {q : σ} {s : List Char} {n : Nat} {r : Rule σ τ}
    (h : munch rs q s = some (n, r)) {r' : Rule σ τ} (hr' : r' ∈ rs) {m : Nat}
    (hm : r'.longest q s = some m) : m ≤ n := by
  obtain ⟨pre, post, rfl, hr, hpre, hpost⟩ := munch_eq_some h
  rcases List.mem_append.mp hr' with hp | hp
  · exact (hpre r' hp m hm).le
  · rcases List.mem_cons.mp hp with rfl | hp
    · rw [hr] at hm
      exact (Option.some.inj hm).ge
    · exact hpost r' hp m hm

theorem exists_munch {rs : List (Rule σ τ)} {q : σ} {s : List Char} {r : Rule σ τ} (hr : r ∈ rs)
    {m : Nat} (hm : r.longest q s = some m) : ∃ n r', munch rs q s = some (n, r') ∧ m ≤ n := by
  cases h : munch rs q s with
  | none =>
    rw [munch_eq_none h r hr] at hm
    cases hm
  | some b => exact ⟨b.1, b.2, rfl, munch_max h hr hm⟩

theorem Rule.longest_of_mem {r : Rule σ τ} {q : σ} (hq : r.active q = true) {s w : List Char}
    (hs : w <+: s) (hw : w ∈ r.pattern.lang) : ∃ n, r.longest q s = some n ∧ w.length ≤ n := by
  have htake : s.take w.length = w := (List.prefix_iff_eq_take.mp hs).symm
  obtain ⟨n, hn, hle⟩ := Regex.le_longest hs.length_le (htake.symm ▸ hw)
  exact ⟨n, by rw [Rule.longest, if_pos hq, hn], hle⟩

/-- On a text that a rule matches as a whole, the first such rule is chosen. -/
theorem munch_all (pre : List (Rule σ τ)) {post : List (Rule σ τ)} {r : Rule σ τ} {q : σ} {w : List Char}
    (hq : r.active q = true) (hw : w ∈ r.pattern.lang)
    (hpre : ∀ r' ∈ pre, r'.active q = true → w ∉ r'.pattern.lang) :
    munch (pre ++ r :: post) q w = some (w.length, r) := by
  have hle {r' : Rule σ τ} {m : Nat} (hm : r'.longest q w = some m) : m ≤ w.length := by
    rw [Rule.longest, Option.ite_none_right_eq_some] at hm
    exact (Regex.longest_eq_some hm.2).1
  obtain ⟨n, hn, hlen⟩ := Rule.longest_of_mem hq (List.prefix_refl w) hw
  have hall : r.longest q w = some w.length := by rw [hn, (hle hn).antisymm hlen]
  refine munch_of_longest hall (fun r' hr' m hm => (hle hm).lt_of_ne ?_) fun r' _ m hm => hle hm
  rintro rfl
  rw [Rule.longest, Option.ite_none_right_eq_some] at hm
  have hmem := (Regex.longest_eq_some hm.2).2
  rw [List.take_length] at hmem
  exact hpre r' hr' hm.1 hmem

theorem Rule.longest_take {r : Rule σ τ} {q : σ} {s : List Char} {n k : Nat}
    (h : r.longest q s = some n) (hk : n ≤ k) : r.longest q (s.take k) = some n := by
  rw [Rule.longest, Option.ite_none_right_eq_some] at h ⊢
  obtain ⟨hq, h⟩ := h
  obtain ⟨hn, hmem, hmax⟩ := (Regex.longest_eq_some_iff _ _ _).mp h
  refine ⟨hq, (Regex.longest_eq_some_iff _ _ _).mpr ⟨?_, ?_, ?_⟩⟩
  · rw [List.length_take]
    exact le_min hk hn
  · rwa [List.take_take, min_eq_left hk]
  · intro m hm hw
    rw [List.length_take] at hm
    rw [List.take_take, min_eq_left (hm.trans (min_le_left _ _))] at hw
    exact hmax m (hm.trans (min_le_right _ _)) hw

theorem Rule.longest_of_take {r : Rule σ τ} {q : σ} {s : List Char} {m k : Nat}
    (h : r.longest q (s.take k) = some m) : ∃ n, r.longest q s = some n ∧ m ≤ n := by
  rw [Rule.longest, Option.ite_none_right_eq_some] at h
  obtain ⟨hq, h⟩ := h
  obtain ⟨hm, hmem⟩ := Regex.longest_eq_some h
  rw [List.length_take] at hm
  rw [List.take_take, min_eq_left (hm.trans (min_le_left _ _))] at hmem
  obtain ⟨n, hn, hmn⟩ := Regex.le_longest (hm.trans (min_le_right _ _)) hmem
  exact ⟨n, by rw [Rule.longest, if_pos hq, hn], hmn⟩

/-- Cutting the text anywhere behind the chosen match does not change the choice. -/
theorem munch_take {rs : List (Rule σ τ)} {q : σ} {s : List Char} {n k : Nat} {r : Rule σ τ}
    (h : munch rs q s = some (n, r)) (hk : n ≤ k) : munch rs q (s.take k) = some (n, r) := by
  obtain ⟨pre, post, rfl, hr, hpre, hpost⟩ := munch_eq_some h
  refine munch_of_longest (r.longest_take hr hk) ?_ ?_
  · intro r' hr' m hm
    obtain ⟨m', hm', hle⟩ := Rule.longest_of_take hm
    exact hle.trans_lt (hpre r' hr' m' hm')
  · intro r' hr' m hm
    obtain ⟨m', hm', hle⟩ := Rule.longest_of_take hm
    exact hle.trans (hpost r' hr' m' hm')

/-! Matches that what follows cannot extend. -/

/-- No match of `r` runs through `u` and into `v`. -/
def Regex.Blocked (r : Regex) (u v : List Char) : Prop :=
  ∀ w, w ≠ [] → w <+: v → u ++ w ∉ r.lang

theorem Regex.longest_append {r : Regex} {u v : List Char} (h : r.Blocked u v) :
    r.longest (u ++ v) = r.longest u := by
  have hshort : ∀ m ≤ (u ++ v).length, (u ++ v).take m ∈ r.lang → m ≤ u.length := by
    intro m hm hw
    by_contra hlt
    rw [not_le] at hlt
    rw [List.take_append, List.take_of_length_le hlt.le] at hw
    refine h _ ?_ (List.take_prefix _ _) hw
    rw [ne_eq, List.take_eq_nil_iff]
    rw [List.length_append] at hm
    rintro (h0 | rfl)
    · omega
    · simp at hm
      omega
  cases hu : r.longest u with
  | none =>
    rw [longest_eq_none_iff] at hu ⊢
    intro m hm hw
    have hle := hshort m hm hw
    rw [List.take_append_of_le_length hle] at hw
    exact hu m hle hw
  | some n =>
    rw [longest_eq_some_iff] at hu ⊢
    obtain ⟨hn, hmem, hmax⟩ := hu
    refine ⟨hn.trans (by simp), ?_, ?_⟩
    · rwa [List.take_append_of_le_length hn]
    · intro m hm hw
      have hle := hshort m hm hw
      rw [List.take_append_of_le_length hle] at hw
      exact hmax m hle hw

theorem munch_append {rs : List (Rule σ τ)} {q : σ} {u v : List Char}
    (h : ∀ r ∈ rs, r.active q = true → r.pattern.Blocked u v) :
    munch rs q (u ++ v) = munch rs q u := by
  refine munch_congr fun r hr => ?_
  unfold Rule.longest
  split_ifs with hq
  · exact Regex.longest_append (h r hr hq)
  · rfl

/-! Runs of the scanner. -/

/-- The scanner cuts the lexemes off the front of a text and stands before the rest of it. -/
inductive Lexes (rs : List (Rule σ τ)) :
    σ → List Char → List (Lexeme σ τ) → σ → List Char → Prop where
  | refl (q s) : Lexes rs q s [] q s
  | cons {q q' q'' s s'' n r L} (hm : munch rs q s = some (n, r)) (hn : 0 < n)
      (hq : (r.action (s.take n)).next q = some q') (hL : Lexes rs q' (s.drop n) L q'' s'') :
      Lexes rs q s (⟨s.take n, r.action (s.take n)⟩ :: L) q'' s''

/-- On a text that is not empty some rule matches at least one character. -/
def Progress (rs : List (Rule σ τ)) : Prop :=
  ∀ q s, s ≠ [] → ∃ n r, munch rs q s = some (n, r) ∧ 0 < n

namespace Lexes
variable {rs : List (Rule σ τ)} {q q' q'' : σ} {s s' s'' : List Char}
  {L M : List (Lexeme σ τ)}

theorem trans (h : Lexes rs q s L q' s') (h' : Lexes rs q' s' M q'' s'') :
    Lexes rs q s (L ++ M) q'' s'' := by
  induction h with
  | refl => exact h'
  | cons hm hn hq _ ih => exact cons hm hn hq (ih h')

theorem text_eq (h : Lexes rs q s L q' s') : s = texts L ++ s' := by
  induction h with
  | refl => rfl
  | cons hm hn hq _ ih =>
    rw [texts_cons, List.append_assoc, ← ih, List.take_append_drop]

theorem split (h : Lexes rs q s (L ++ M) q'' s'') : ∃ q' s', Lexes rs q s L q' s' ∧
    Lexes rs q' s' M q'' s'' ∧ s' = texts M ++ s'' := by
  induction L generalizing q s with
  | nil => exact ⟨q, s, refl q s, h, h.text_eq⟩
  | cons l L ih =>
    cases h with
    | cons hm hn hq hL =>
      obtain ⟨q', s', hL', hM, hs'⟩ := ih hL
      exact ⟨q', s', cons hm hn hq hL', hM, hs'⟩

theorem single (p : σ) {n : Nat} {r : Rule σ τ} (hm : munch rs q s = some (n, r)) (hn : 0 < n)
    (hq : (r.action (s.take n)).next q = some p) :
    Lexes rs q s [⟨s.take n, r.action (s.take n)⟩] p (s.drop n) :=
  cons hm hn hq (refl _ _)

/-- The first lexeme of a run is the match that the scanner chooses, and ends within the run. -/
theorem first (h : Lexes rs q s L q' s') (hL : L ≠ []) : ∃ n r l M, L = l :: M ∧
    munch rs q s = some (n, r) ∧ l.text = s.take n ∧ n = l.text.length ∧ 0 < n ∧
      l.act = r.action l.text ∧
      ∃ q₁, l.act.next q = some q₁ ∧ Lexes rs q₁ (texts M ++ s') M q' s' := by
  cases h with
  | refl => exact absurd rfl hL
  | @cons _ q₁ _ _ _ n r M hm hn hq hM =>
    have hlen := (munch_length_le hm).2.1
    refine ⟨n, r, _, M, rfl, hm, rfl, ?_, hn, rfl, q₁, hq, ?_⟩
    · rw [List.length_take, min_eq_left hlen]
    · rwa [← hM.text_eq]

theorem text_ne_nil (h : Lexes rs q s L q' s') : ∀ l ∈ L, l.text ≠ [] := by
  induction h with
  | refl => simp
  | cons hm hn hq _ ih =>
    refine List.forall_mem_cons.mpr ⟨?_, ih⟩
    have hlen := (munch_length_le hm).2.1
    rw [ne_eq, List.take_eq_nil_iff]
    rintro (h0 | rfl)
    · exact hn.ne' h0
    · exact hn.not_ge hlen

theorem next_ne_none (h : Lexes rs q s L q' s') : ∀ l ∈ L, ∀ p, l.act.next p ≠ none := by
  induction h with
  | refl => simp
  | cons hm hn hq _ ih =>
    refine List.forall_mem_cons.mpr ⟨fun p hp => ?_, ih⟩
    dsimp only at hp
    cases hact : Rule.action _ _ <;> rw [hact] at hq hp <;> cases hq <;> cases hp

/-- A run keeps its lexemes when the rest of the text is replaced, as long as the choice of
the rule at each of its lexemes does not change. -/
theorem replace {t : List Char} (h : Lexes rs q s L q' s')
    (hm : ∀ M N p, L = M ++ N → N ≠ [] → Lexes rs q s M p (texts N ++ s') →
      Lexes rs p (texts N ++ s') N q' s' →
      munch rs p (texts N ++ t) = munch rs p (texts N ++ s')) :
    Lexes rs q (texts L ++ t) L q' t := by
  induction h with
  | refl => exact refl _ _
  | @cons q q' q'' s s'' n r L hms hn hq hL ih =>
    have hs := hL.text_eq
    have htext : s = s.take n ++ texts L ++ s'' := by
      rw [List.append_assoc, ← hs, List.take_append_drop]
    have hlen := (munch_length_le hms).2.1
    have htake : (s.take n ++ (texts L ++ t)).take n = s.take n := by
      rw [List.take_append_of_le_length (by simp [hlen]), List.take_take, min_self]
    have hdrop : (s.take n ++ (texts L ++ t)).drop n = texts L ++ t := by
      rw [List.drop_append_of_le_length (by simp [hlen]), List.drop_take, Nat.sub_self,
        List.take_zero, List.nil_append]
    have hm' := hm [] _ q rfl (List.cons_ne_nil _ _)
      (by rw [texts_cons, ← htext]; exact refl q s)
      (by rw [texts_cons, ← htext]; exact cons hms hn hq hL)
    rw [texts_cons, List.append_assoc, ← htext, hms] at hm'
    have hq' := hq
    rw [← htake] at hq'
    have hL' : Lexes rs q' ((s.take n ++ (texts L ++ t)).drop n) L q'' t := by
      rw [hdrop]
      refine ih fun M N p hMN hN hM hrun => ?_
      exact hm (_ :: M) N p (by rw [hMN, List.cons_append]) hN (cons hms hn hq hM) hrun
    have hres := cons hm' hn hq' hL'
    rwa [htake, ← List.append_assoc] at hres

/-- A front part of the text that ends behind the lexemes has the same run. -/
theorem truncate_at {t : List Char} (h : Lexes rs q s L q' s') (ht : t <+: s') :
    Lexes rs q (texts L ++ t) L q' t := by
  refine h.replace fun M N p hMN hN hM hrun => ?_
  obtain ⟨u, rfl⟩ := ht
  generalize hT : texts N ++ (t ++ u) = T at hrun
  cases hrun with
  | refl => exact absurd rfl hN
  | @cons _ _ _ _ _ n r N hm hn hq hL =>
    have hle : n ≤ (texts (⟨T.take n, r.action (T.take n)⟩ :: N) ++ t).length := by
      rw [texts_cons, List.append_assoc, List.length_append, List.length_take,
        min_eq_left (munch_length_le hm).2.1]
      exact Nat.le_add_right _ _
    have htake (X : List Char) (hX : X ++ u = T) : T.take X.length = X := by
      rw [← hX, List.take_left]
    have hcut := munch_take hm hle
    rw [← List.append_assoc] at hT
    rwa [htake _ hT, ← hm] at hcut

/-- The run over a front part of the text is a run of that part alone. -/
theorem truncate (h : Lexes rs q s L q' s') : Lexes rs q (texts L) L q' [] := by
  have hrun := h.truncate_at List.nil_prefix
  rwa [List.append_nil] at hrun

end Lexes

theorem scan_skip (rs : List (Rule σ τ)) (k : Nat) (q : σ) (s : List Char) :
    scan rs k q s = scan rs 0 q (s.drop k) := by
  induction s generalizing k with
  | nil => rw [List.drop_nil, scan, scan]
  | cons c cs ih =>
    cases k with
    | zero => rfl
    | succ k => rw [scan, ih, List.drop_succ_cons]

theorem scan_eq {rs : List (Rule σ τ)} {q : σ} {s : List Char} {n : Nat} {r : Rule σ τ}
    (hm : munch rs q s = some (n, r)) (hn : 0 < n) :
    scan rs 0 q s = ⟨s.take n, r.action (s.take n)⟩ ::
      ((r.action (s.take n)).next q).elim [] fun q' => scan rs 0 q' (s.drop n) := by
  cases s with
  | nil =>
    have := (munch_length_le hm).2.1
    exact absurd hn this.not_gt
  | cons c cs =>
    obtain ⟨k, rfl⟩ := Nat.exists_eq_succ_of_ne_zero hn.ne'
    rw [scan, hm]
    dsimp only
    cases (r.action ((c :: cs).take (k + 1))).next q with
    | none => rfl
    | some q' =>
      simp only [Option.elim_some, Nat.succ_eq_add_one, Nat.add_sub_cancel, List.drop_succ_cons]
      rw [scan_skip]

theorem Lexes.scan_eq {rs : List (Rule σ τ)} {q q' : σ} {s s' : List Char}
    {L : List (Lexeme σ τ)} (h : Lexes rs q s L q' s') :
    scan rs 0 q s = L ++ scan rs 0 q' s' := by
  induction h with
  | refl => rfl
  | cons hm hn hq _ ih =>
    rw [Flex.scan_eq hm hn, hq, Option.elim_some, ih, List.cons_append]

theorem scan_nil (rs : List (Rule σ τ)) (q : σ) : scan rs 0 q [] = [] := rfl

/-- The scanner either reads the whole text, or stands before a match that ends the input. -/
theorem exists_lexes {rs : List (Rule σ τ)} (hrs : Progress rs) (q : σ) (s : List Char) :
    ∃ L q' s', Lexes rs q s L q' s' ∧
      (s' = [] ∨ ∃ n r, munch rs q' s' = some (n, r) ∧ 0 < n ∧
        (r.action (s'.take n)).next q' = none) := by
  induction hlen : s.length using Nat.strong_induction_on generalizing q s with
  | _ k ih =>
    by_cases hs : s = []
    · exact ⟨[], q, s, .refl q s, Or.inl hs⟩
    · obtain ⟨n, r, hm, hn⟩ := hrs q s hs
      cases hq : (r.action (s.take n)).next q with
      | none => exact ⟨[], q, s, .refl q s, Or.inr ⟨n, r, hm, hn, hq⟩⟩
      | some q' =>
        have hlt : (s.drop n).length < k := by
          have := List.length_pos_iff.mpr hs
          rw [List.length_drop]
          omega
        obtain ⟨L, q'', s', hL, hend⟩ := ih _ hlt q' (s.drop n) rfl
        exact ⟨_, q'', s', .cons hm hn hq hL, hend⟩

/-- Every lexeme of a text is the match chosen where the run over those before it stands. -/
theorem scan_eq_append {rs : List (Rule σ τ)} (hrs : Progress rs) {q : σ} {s : List Char}
    {L M : List (Lexeme σ τ)} {l : Lexeme σ τ} (h : scan rs 0 q s = L ++ l :: M) :
    ∃ q' s' n r, Lexes rs q s L q' s' ∧ munch rs q' s' = some (n, r) ∧ 0 < n ∧
      l = ⟨s'.take n, r.action (s'.take n)⟩ := by
  induction L generalizing q s with
  | nil =>
    have hs : s ≠ [] := by
      rintro rfl
      cases h
    obtain ⟨n, r, hm, hn⟩ := hrs q s hs
    rw [scan_eq hm hn] at h
    exact ⟨q, s, n, r, .refl q s, hm, hn, (List.cons_eq_cons.mp h).1.symm⟩
  | cons a L ih =>
    have hs : s ≠ [] := by
      rintro rfl
      cases h
    obtain ⟨n, r, hm, hn⟩ := hrs q s hs
    rw [scan_eq hm hn] at h
    obtain ⟨rfl, hrest⟩ := List.cons_eq_cons.mp h
    cases hq : (r.action (s.take n)).next q with
    | none =>
      rw [hq] at hrest
      simp at hrest
    | some q₁ =>
      rw [hq, Option.elim_some] at hrest
      obtain ⟨q', s', m, r', hL, hm', hpos, hl⟩ := ih hrest
      exact ⟨q', s', m, r', .cons hm hn hq hL, hm', hpos, hl⟩

theorem mem_scan {rs : List (Rule σ τ)} (hrs : Progress rs) {q : σ} {s : List Char}
    {l : Lexeme σ τ} (hl : l ∈ scan rs 0 q s) : ∃ L q' s' n r, Lexes rs q s L q' s' ∧
      munch rs q' s' = some (n, r) ∧ 0 < n ∧ l = ⟨s'.take n, r.action (s'.take n)⟩ := by
  obtain ⟨L, M, hLM⟩ := List.append_of_mem hl
  exact ⟨L, scan_eq_append hrs hLM⟩

/-- A rule that matches as much as the chosen one does not stand before it. -/
theorem munch_mem_of_le {pre post : List (Rule σ τ)} {r r' : Rule σ τ} {q : σ} {s : List Char}
    {n m : Nat} (h : munch (pre ++ r :: post) q s = some (n, r')) (hr : r.longest q s = some m)
    (hle : n ≤ m) : r' ∈ pre ++ [r] := by
  obtain ⟨pre', post', heq, -, hpre, -⟩ := munch_eq_some h
  have hnot : r ∉ pre' := fun hmem => (hpre r hmem m hr).not_ge hle
  rcases List.append_eq_append_iff.mp heq with ⟨a, ha, hb⟩ | ⟨a, ha, hb⟩
  · cases a with
    | nil =>
      obtain ⟨rfl, -⟩ := List.cons_eq_cons.mp hb
      exact List.mem_append_right _ (List.mem_singleton_self _)
    | cons d a =>
      obtain ⟨rfl, -⟩ := List.cons_eq_cons.mp hb
      refine absurd ?_ hnot
      rw [ha]
      exact List.mem_append_right _ List.mem_cons_self
  · cases a with
    | nil =>
      obtain ⟨rfl, -⟩ := List.cons_eq_cons.mp hb
      exact List.mem_append_right _ (List.mem_singleton_self _)
    | cons d a =>
      obtain ⟨rfl, -⟩ := List.cons_eq_cons.mp hb
      refine List.mem_append_left _ ?_
      rw [ha]
      exact List.mem_append_right _ List.mem_cons_self

end Flex
