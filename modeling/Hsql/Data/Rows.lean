import Mathlib.Data.List.Basic

/-! Lists cut into rows of one length. An element is found by its row and its place in the row, in
fewer steps than in the list. -/

variable {α : Type}

/-- The first rows of a list. -/
def List.rows (n : ℕ) : ℕ → List α → List (List α)
  | 0, _ => []
  | k + 1, l => l.take n :: List.rows n k (l.drop n)

theorem List.length_rows (n k : ℕ) (l : List α) : (l.rows n k).length = k := by
  induction k generalizing l with
  | zero => rfl
  | succ k ih => exact congrArg Nat.succ (ih _)

theorem List.rows_getElem? {n : ℕ} (hn : 0 < n) {k i : ℕ} (l : List α) (hi : i < n * k) :
    ((l.rows n k)[i / n]?).bind (·[i % n]?) = l[i]? := by
  induction k generalizing l i with
  | zero => cases hi
  | succ k ih =>
    by_cases hlt : i < n
    · rw [Nat.div_eq_of_lt hlt, Nat.mod_eq_of_lt hlt]
      exact List.getElem?_take_of_lt hlt
    · obtain ⟨j, rfl⟩ := Nat.exists_eq_add_of_le' (Nat.le_of_not_lt hlt)
      have hj : j < n * k := by
        rw [Nat.mul_succ] at hi
        omega
      have hdrop : l[j + n]? = (l.drop n)[j]? := by
        rw [List.getElem?_drop, Nat.add_comm]
      rw [Nat.add_div_right _ hn, Nat.add_mod_right, hdrop, ← ih _ hj]
      rfl

/-- A list in rows. -/
structure Rows (l : List α) where
  width : ℕ
  rows : List (List α)
  getElem?_eq : ∀ i, (rows[i / width]?).bind (·[i % width]?) = l[i]?

namespace Rows
variable {l : List α}

def ofList (l : List α) (n k : ℕ) (hn : 0 < n) (hl : l.length ≤ n * k) : Rows l where
  width := n
  rows := l.rows n k
  getElem?_eq i := by
    by_cases hi : i < n * k
    · exact List.rows_getElem? hn l hi
    · have hrow : k ≤ i / n := (Nat.le_div_iff_mul_le hn).mpr (by
        rw [Nat.mul_comm]
        exact Nat.le_of_not_lt hi)
      rw [List.getElem?_eq_none (by rwa [List.length_rows]),
        List.getElem?_eq_none (Nat.le_trans hl (Nat.le_of_not_lt hi))]
      rfl

def get? (r : Rows l) (i : ℕ) : Option α := (r.rows[i / r.width]?).bind (·[i % r.width]?)

theorem get?_eq (r : Rows l) (i : ℕ) : r.get? i = l[i]? := r.getElem?_eq i

end Rows
