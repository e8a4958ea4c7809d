import Hsql.Flex.Scanner

/-! A scanner that tries only the rules that can match at the next character. -/

namespace Flex
variable {σ τ : Type} {q : σ} {s : List Char}

theorem munch_append_congr {rs rs' : List (Rule σ τ)} (front : List (Rule σ τ))
    (h : munch rs q s = munch rs' q s) : munch (front ++ rs) q s = munch (front ++ rs') q s := by
  induction front with
  | nil => exact h
  | cons r front ih => rw [List.cons_append, List.cons_append, munch, munch, ih]

/-- Rules without a match can be left out. -/
theorem munch_filter {β : Type} (f : β → Rule σ τ) {keep : β → Bool} {l : List β}
    (rest : List (Rule σ τ)) (h : ∀ x ∈ l, keep x = false → (f x).longest q s = none) :
    munch ((l.filter keep).map f ++ rest) q s = munch (l.map f ++ rest) q s := by
  induction l with
  | nil => rfl
  | cons x l ih =>
    obtain ⟨hx, hl⟩ := List.forall_mem_cons.mp h
    rw [List.map_cons, List.cons_append, munch, ← ih hl]
    cases hkeep : keep x with
    | true =>
      rw [List.filter_cons_of_pos hkeep]
      rfl
    | false =>
      rw [List.filter_cons_of_neg (by simp [hkeep]), hx hkeep]

/-- The scanner's loop with the rules chosen by the next character. -/
def scanBy (choice : Char → List (Rule σ τ)) : Nat → σ → List Char → List (Lexeme σ τ)
  | _, _, [] => []
  | k + 1, q, _ :: cs => scanBy choice k q cs
  | 0, q, c :: cs =>
    match munch (choice c) q (c :: cs) with
    | none => []
    | some (n, r) =>
      let l : Lexeme σ τ := ⟨(c :: cs).take n, r.action ((c :: cs).take n)⟩
      match l.act.next q with
      | none => [l]
      | some q' => l :: scanBy choice (n - 1) q' cs

theorem scanBy_eq {rs : List (Rule σ τ)} {choice : Char → List (Rule σ τ)}
    (h : ∀ c cs q, munch (choice c) q (c :: cs) = munch rs q (c :: cs)) (k : Nat) (q : σ)
    (s : List Char) : scanBy choice k q s = scan rs k q s := by
  induction s generalizing k q with
  | nil => simp only [scanBy, scan]
  | cons c cs ih =>
    cases k with
    | zero =>
      simp only [scanBy, h, ih]
      rfl
    | succ k => simp only [scanBy, scan, ih]

end Flex
