import Hsql.Flex.Scanner

/-! Scanners that see an image of each character only: texts with the same image are cut in the
same places by the same rules. -/

namespace Flex

namespace Regex
variable (f : Char → Char)

/-- The classes of the pattern do not tell characters with the same image apart. -/
def Blind : Regex → Prop
  | none => True
  | eps => True
  | cls k => ∀ c c', f c = f c' → k.mem c = k.mem c'
  | seq a b => a.Blind ∧ b.Blind
  | alt a b => a.Blind ∧ b.Blind
  | star a => a.Blind

variable {f} {r a b : Regex}

theorem blind_cat (ha : a.Blind f) (hb : b.Blind f) : (cat a b).Blind f := by
  induction a with
  | none => trivial
  | eps => exact hb
  | seq a a' _ ih => exact ⟨ha.1, ih ha.2⟩
  | cls | alt | star => exact ⟨ha, hb⟩

theorem blind_or (ha : a.Blind f) (hb : b.Blind f) : (or a b).Blind f := by
  unfold or
  split
  · exact hb
  · exact ha
  · split_ifs
    · exact ha
    · exact ⟨ha, hb⟩

theorem blind_deriv (h : r.Blind f) (c : Char) : (r.deriv c).Blind f := by
  induction r with
  | none | eps => trivial
  | cls k =>
    rw [deriv]
    split_ifs <;> trivial
  | seq a b iha ihb =>
    rw [deriv]
    split_ifs
    · exact blind_or (blind_cat (iha h.1) h.2) (ihb h.2)
    · exact blind_cat (iha h.1) h.2
  | alt a b iha ihb => exact blind_or (iha h.1) (ihb h.2)
  | star a ih => exact blind_cat (ih h) h

theorem deriv_eq_of_blind (h : r.Blind f) {c c' : Char} (hc : f c = f c') :
    r.deriv c = r.deriv c' := by
  induction r with
  | none | eps => rfl
  | cls k => rw [deriv, deriv, h c c' hc]
  | seq a b iha ihb => rw [deriv, deriv, iha h.1, ihb h.2]
  | alt a b iha ihb => rw [deriv, deriv, iha h.1, ihb h.2]
  | star a ih => rw [deriv, deriv, ih h]

theorem longest_eq_of_blind (h : r.Blind f) {s s' : List Char} (hs : s.map f = s'.map f) :
    r.longest s = r.longest s' := by
  induction s generalizing r s' with
  | nil => rw [List.map_eq_nil_iff.mp hs.symm]
  | cons c cs ih =>
    obtain ⟨c', cs', rfl, hc, hcs⟩ := List.map_eq_cons_iff.mp hs.symm
    rw [longest_cons, longest_cons, deriv_eq_of_blind h hc.symm,
      ih (blind_deriv h c') hcs.symm]

/-! Patterns that cannot match some characters. -/

/-- No class of the pattern meets another class. -/
def avoids (l : CharClass) : Regex → Bool
  | none | eps => true
  | cls k => k.disjoint l
  | seq a b | alt a b => avoids l a && avoids l b
  | star a => avoids l a

theorem mem_eq_false_of_avoids {l : CharClass} {r : Regex} (h : avoids l r = true) {w : List Char}
    (hw : w ∈ r.lang) : ∀ c ∈ w, l.mem c = false := by
  induction r generalizing w with
  | none => exact absurd hw (mem_lang_none w)
  | eps =>
    rw [(mem_lang_eps w).mp hw]
    exact List.forall_mem_nil _
  | cls k =>
    obtain ⟨c, hc, rfl⟩ := hw
    exact List.forall_mem_singleton.mpr (CharClass.mem_of_disjoint h hc)
  | seq a b iha ihb =>
    obtain ⟨ha, hb⟩ := Bool.and_eq_true_iff.mp h
    obtain ⟨u, hu, v, hv, rfl⟩ := (mem_lang_seq a b w).mp hw
    exact List.forall_mem_append.mpr ⟨iha ha hu, ihb hb hv⟩
  | alt a b iha ihb =>
    obtain ⟨ha, hb⟩ := Bool.and_eq_true_iff.mp h
    rcases (mem_lang_alt a b w).mp hw with hw | hw
    · exact iha ha hw
    · exact ihb hb hw
  | star a ih =>
    obtain ⟨L, rfl, hL⟩ := (mem_lang_star a w).mp hw
    intro c hc
    obtain ⟨y, hy, hcy⟩ := List.mem_flatten.mp hc
    exact ih h (hL y hy).1 c hcy

end Regex

variable {σ τ : Type} {f : Char → Char} {rs : List (Rule σ τ)}

theorem munch_eq_of_blind (hrs : ∀ r ∈ rs, r.pattern.Blind f) (q : σ) {s s' : List Char}
    (hs : s.map f = s'.map f) : munch rs q s = munch rs q s' := by
  induction rs with
  | nil => rfl
  | cons r rs ih =>
    obtain ⟨hr, hrs⟩ := List.forall_mem_cons.mp hrs
    have hlongest : r.longest q s = r.longest q s' := by
      unfold Rule.longest
      rw [Regex.longest_eq_of_blind hr hs]
    rw [munch, munch, hlongest, ih hrs]

/-- Actions that only differ in the tokens, and these by what is seen of them. -/
def Action.Alike {υ : Type} (g : τ → υ) : Action σ τ → Action σ τ → Prop
  | BEGIN q, BEGIN q' => q = q'
  | skip, skip => True
  | token t, token t' => g t = g t'
  | stop, stop => True
  | _, _ => False

theorem Action.Alike.next {υ : Type} {g : τ → υ} {a a' : Action σ τ} (h : a.Alike g a') (q : σ) :
    a.next q = a'.next q := by
  cases a <;> cases a' <;> first | exact h.elim | rfl | exact congrArg some h

def Lexeme.Alike {υ : Type} (f : Char → Char) (g : τ → υ) (l l' : Lexeme σ τ) : Prop :=
  l.text.map f = l'.text.map f ∧ l.act.Alike g l'.act

/-- The lexemes of texts with the same image. -/
theorem scan_alike {υ : Type} {g : τ → υ} (hrs : ∀ r ∈ rs, r.pattern.Blind f)
    (hact : ∀ r ∈ rs, ∀ t ∈ r.pattern.lang, ∀ t' ∈ r.pattern.lang, t.map f = t'.map f →
      (r.action t).Alike g (r.action t'))
    (k : Nat) (q : σ) {s s' : List Char} (hs : s.map f = s'.map f) :
    List.Forall₂ (Lexeme.Alike f g) (scan rs k q s) (scan rs k q s') := by
  induction s generalizing k q s' with
  | nil =>
    rw [List.map_eq_nil_iff.mp hs.symm, scan]
    exact .nil
  | cons c cs ih =>
    obtain ⟨c', cs', rfl, hc, hcs⟩ := List.map_eq_cons_iff.mp hs.symm
    cases k with
    | succ k => exact ih k q hcs.symm
    | zero =>
      have hmunch := munch_eq_of_blind hrs q hs
      rw [scan, scan, hmunch]
      cases hm : munch rs q (c' :: cs') with
      | none => exact .nil
      | some x =>
        obtain ⟨hr, -, -, hmem'⟩ := munch_length_le hm
        obtain ⟨-, -, -, hmem⟩ := munch_length_le (hmunch.trans hm)
        have htext : ((c :: cs).take x.1).map f = ((c' :: cs').take x.1).map f := by
          rw [List.map_take, List.map_take, hs]
        have halike := hact x.2 hr _ hmem _ hmem' htext
        have hlexeme : Lexeme.Alike f g
            ⟨(c :: cs).take x.1, x.2.action ((c :: cs).take x.1)⟩
            ⟨(c' :: cs').take x.1, x.2.action ((c' :: cs').take x.1)⟩ := ⟨htext, halike⟩
        dsimp only
        rw [halike.next q]
        cases (x.2.action ((c' :: cs').take x.1)).next q with
        | none => exact .cons hlexeme .nil
        | some q' => exact .cons hlexeme (ih (x.1 - 1) q' hcs.symm)

theorem tokens_alike {υ : Type} {g : τ → υ} {L L' : List (Lexeme σ τ)}
    (h : List.Forall₂ (Lexeme.Alike f g) L L') : (tokens L).map g = (tokens L').map g := by
  induction h with
  | nil => rfl
  | @cons x x' L L' hx _ ih =>
    have hact := hx.2
    unfold tokens at ih ⊢
    rw [List.filterMap_cons, List.filterMap_cons]
    generalize x.act = a, x'.act = a' at hact
    cases a <;> cases a' <;> try exact hact.elim
    · exact ih
    · exact ih
    · exact List.cons_eq_cons.mpr ⟨hact, ih⟩
    · exact ih

end Flex
