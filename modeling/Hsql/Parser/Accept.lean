import Hsql.Bison.Runs
import Hsql.Parser.Rows

/-! Accepted texts: the driver builds a derivation of the whole input from the tokens, and the
actions go through on it. -/

namespace Hsql
open Bison

/-! Facts about the tables, checked row by row. -/

theorem row_all (check : Nat → Row grammar → Bool) (hnone : ∀ q, Tables.states.length ≤ q → check q ⟨[], .error⟩ = true)
    (hrows : (Tables.states.zipIdx.all fun x =>
      check x.2 ⟨Tables.actionsOf x.1, x.1.2⟩) = true) (q : Nat) :
    check q (automaton.row q) = true := by
  cases hq : Tables.states[q]? with
  | none =>
    have hrow : automaton.row q = ⟨[], .error⟩ := by
      simp only [automaton, hq]
    rw [hrow]
    exact hnone q (List.getElem?_eq_none_iff.mp hq)
  | some x =>
    have hrow : automaton.row q = ⟨Tables.actions.getD x.1 [], x.2⟩ := by
      simp only [automaton, hq]
    have hmem : (x, q) ∈ Tables.states.zipIdx := List.mem_zipIdx_iff_getElem?.mpr hq
    rw [hrow, ← Tables.actionsOf_eq]
    exact List.all_eq_true.mp hrows _ hmem

theorem mem_of_lookup {α β : Type} [BEq α] [LawfulBEq α] {l : List (α × β)} {k : α} {b : β}
    (h : l.lookup k = some b) : (k, b) ∈ l := by
  obtain ⟨pre, post, rfl, -⟩ := List.lookup_eq_some_iff.mp h
  exact List.mem_append_right _ List.mem_cons_self

theorem act_cases (row : Row grammar) (t : Option TokenKind) :
    (t, row.act t) ∈ row.acts ∨ row.act t = row.default := by
  unfold Row.act
  cases h : row.acts.lookup t with
  | none => exact .inr rfl
  | some a => exact .inl (mem_of_lookup h)

def accepts : Act grammar → Bool
  | .accept => true
  | _ => false

/-- A shift leads to a state that passes. -/
def shiftsOn (check : Nat → Bool) : Act grammar → Bool
  | .shift q => check q
  | _ => true

/-- Accepting takes state 10 and the end of the input. -/
theorem act_accept {q : Nat} {t : Option TokenKind} (h : (automaton.row q).act t = .accept) :
    q = 10 ∧ t = none := by
  have hrow := row_all (fun q row => !accepts row.default &&
    row.acts.all fun x => !accepts x.2 || (x.1 == none && q == 10)) (fun _ _ => rfl)
    (by decide +kernel) q
  rw [Bool.and_eq_true, List.all_eq_true] at hrow
  rcases act_cases (automaton.row q) t with hmem | hdefault
  · have hentry := hrow.2 _ hmem
    rw [h] at hentry
    simpa [accepts, and_comm] using hentry
  · rw [hdefault] at h
    rw [h] at hrow
    cases hrow.1

/-- What every shift of the tables passes. -/
theorem shift_all (check : Nat → Bool) (h : (Tables.states.zipIdx.all fun x =>
      shiftsOn check x.1.2 && (Tables.actionsOf x.1).all fun y => shiftsOn check y.2) = true)
    {q p : Nat} {t : Option TokenKind} (hact : (automaton.row q).act t = .shift p) :
    check p = true := by
  have hrow := row_all (fun _ row => shiftsOn check row.default &&
    row.acts.all fun x => shiftsOn check x.2) (fun _ _ => rfl) h q
  rw [Bool.and_eq_true, List.all_eq_true] at hrow
  rcases act_cases (automaton.row q) t with hmem | hdefault
  · have hentry := hrow.2 _ hmem
    rwa [hact] at hentry
  · rw [hdefault] at hact
    rw [hact] at hrow
    exact hrow.1

theorem act_shift_ne {q p : Nat} {t : Option TokenKind} (hp : p = 0 ∨ p = 10) :
    (automaton.row q).act t ≠ .shift p := by
  intro h
  have hcheck := shift_all (fun p => p != 0 && p != 10) (by decide +kernel) h
  rcases hp with rfl | rfl <;> cases hcheck

theorem goto_mem {q p : Nat} {n : NT} (h : automaton.goto q n = some p) :
    (q, p) ∈ Tables.gotos n := mem_of_lookup h

theorem goto_ne_zero {q : Nat} {n : NT} : automaton.goto q n ≠ some 0 := by
  intro h
  have hmem := goto_mem h
  have hall : ∀ n, ∀ x ∈ Tables.gotos n, x.2 ≠ 0 := by
    intro n
    cases n <;> decide +kernel
  exact hall n _ hmem rfl

theorem goto_ten {q : Nat} {n : NT} (h : automaton.goto q n = some 10) : q = 0 ∧ n = .input := by
  have hall : ∀ n, ∀ x ∈ Tables.gotos n, x.2 = 10 → x.1 = 0 ∧ n = .input := by
    intro n
    cases n <;> decide +kernel
  exact hall n _ (goto_mem h) rfl

/-- Only the input alone is accepted. -/
theorem linked_ten {V : NT → Type} {st : List (Entry TokenKind.Val V)} (h : Linked automaton st)
    (hst : topState st = 10) : ∃ v, st = [.value 10 .input v] := by
  cases st with
  | nil => cases hst
  | cons e st =>
    have hbottom : topState st = 0 → st = [] := by
      intro hzero
      have htail : Linked automaton st := by
        cases e <;> exact h.2
      cases st with
      | nil => rfl
      | cons e' st' =>
        cases e' with
        | token q t a =>
          obtain rfl : q = 0 := hzero
          exact absurd htail.1 (act_shift_ne (.inl rfl))
        | value q n v =>
          obtain rfl : q = 0 := hzero
          exact absurd htail.1 goto_ne_zero
    cases e with
    | token q t a =>
      obtain rfl : q = 10 := hst
      exact absurd h.1 (act_shift_ne (.inr rfl))
    | value q n v =>
      obtain rfl : q = 10 := hst
      obtain ⟨hzero, rfl⟩ := goto_ten h.1
      exact ⟨v, by rw [hbottom hzero]⟩

/-- What holds where a run accepts. -/
theorem accepts_at {M : Semantics grammar TokenKind.Val Location} {sql : Str} {c : Config M}
    {stack : List (Entry TokenKind.Val M.V)} {s : M.S} (hlink : Linked automaton c.stack)
    (h : c.step automaton (eof sql) = .inr (.accept stack s)) :
    c.input = [] ∧ c.st = s ∧ ∃ v, c.stack = [.value 10 .input v] ∧ stack = [.value 10 .input v] := by
  obtain ⟨hact, rfl, hst⟩ := Config.step_accept h
  obtain ⟨hten, hkind⟩ := act_accept hact
  obtain ⟨v, hv⟩ := linked_ten hlink hten
  exact ⟨by simpa [Config.kind] using hkind, hst, v, hv, hv⟩

/-! Accepted texts. -/

/-- The driver builds this derivation from the tokens of the text. -/
def Builds (sql : Str) (d : Derivation .input) : Prop :=
  (startConfig (trees grammar TokenKind.Val Location) sql ()).Runs automaton (eof sql)
    (.accept [.value 10 .input d] ())

/-- Computes the derivation, in at most so many steps. -/
def derive (steps : Nat) (sql : Str) : Option (Derivation .input) :=
  match (startConfig (trees grammar TokenKind.Val Location) sql ()).run automaton (eof sql) steps with
  | some (.accept [.value _ .input d] _) => some d
  | _ => none

/-- The derivation that a run ends with. -/
def built : Option (Outcome (trees grammar TokenKind.Val Location)) → Option (Derivation .input)
  | some (.accept [.value _ .input d] _) => some d
  | _ => none

theorem derive_rowwise (steps : Nat) (sql : Str) :
    derive steps sql =
      built (Config.run rowwise
        (Location.zero.after (Flex.scanBy rulesAt 0 .INITIAL (cStr sql))) steps
        ⟨[], Location.zero.tokens (Flex.scanBy rulesAt 0 .INITIAL (cStr sql)), false, .zero, ()⟩) := by
  rw [derive, startConfig, eof, lexemes_rulesAt, automaton_eq_rowwise]
  rfl

theorem Builds.of_derive {steps : Nat} {sql : Str} {d : Derivation .input}
    (h : derive steps sql = some d) : Builds sql d := by
  unfold derive at h
  split at h
  · rename_i q d' u hrun
    cases h
    have hruns := Config.Runs.of_run hrun
    obtain ⟨c, hlink, hstep⟩ := hruns.last (I := fun c => Linked automaton c.stack)
      Config.step_linked trivial
    obtain ⟨-, -, v, -, hv⟩ := accepts_at hlink hstep
    cases hv
    exact hruns
  · cases h

theorem Builds.unique {sql : Str} {d d' : Derivation .input} (h : Builds sql d)
    (h' : Builds sql d') : d = d' := by
  have heq := Outcome.accept.inj (Config.Runs.unique h h')
  cases heq.1
  rfl

theorem tokens_map_fst (l : Location) (L : List (Flex.Lexeme Start Token)) :
    (l.tokens L).map Prod.fst = (Flex.tokens L).map fun t => ⟨t.kind, t.val⟩ := by
  induction L generalizing l with
  | nil => rfl
  | cons x L ih =>
    unfold Location.tokens Flex.tokens
    cases hact : x.act <;> simp [hact, Flex.Action.token?] <;> exact ih _

/-- The derivation spells the tokens of the text. -/
theorem Builds.yield {sql : Str} {d : Derivation .input} (h : Builds sql d) :
    d.yield = (tokens sql).map fun t => ⟨t.kind, t.val⟩ := by
  obtain ⟨c, ⟨hlink, hspells⟩, hstep⟩ := h.last
    (I := fun c => Linked automaton c.stack ∧ c.Spells (Location.zero.tokens (lexemes sql)))
    (fun hc hstep => ⟨Config.step_linked hc.1 hstep, Config.step_spells hc.2 hstep⟩)
    ⟨trivial, rfl⟩
  obtain ⟨hin, -, v, hstack, hv⟩ := accepts_at hlink hstep
  cases hv
  unfold Config.Spells at hspells
  rw [hin, hstack, tokens_map_fst] at hspells
  simpa [stackYield, tokens] using hspells

theorem eval_accept (d : Derivation .input) (s : ParserState) (u : Unit) :
    (Outcome.accept [.value 10 .input d] u).eval actions s =
      (d.eval actions s).elim .crash fun x => .accept [.value 10 .input x.1] x.2 := by
  unfold Outcome.eval
  cases hd : d.eval actions s <;> simp [evalStack, hd]

/-- `parse` finds a text valid exactly if its derivation is built and the actions go through. -/
theorem parses_valid_iff {heap heap' : Heap} {result result' : SQLParserResult} {sql : Str} :
    Parses heap result sql heap' result' ∧ result'.isValid = true ↔
      ∃ d s', Builds sql d ∧ d.eval actions (.start heap result) = some ((), s') ∧
        heap' = s'.heap ∧ result' = s'.result.setIsValid true := by
  constructor
  · rintro ⟨⟨o, hrun, ho⟩, hvalid⟩
    have hcrash : o ≠ .crash := by
      rintro rfl
      cases ho
    obtain ⟨o', hrun', rfl⟩ := hrun.exists_trees
      (c := startConfig (trees grammar TokenKind.Val Location) sql ())
      (s := ParserState.start heap result) rfl hcrash
    cases o' with
    | accept stack u =>
      obtain ⟨c, hlink, hstep⟩ := hrun'.last (I := fun c => Linked automaton c.stack)
        Config.step_linked trivial
      obtain ⟨-, -, d, -, rfl⟩ := accepts_at hlink hstep
      rw [eval_accept] at ho
      cases hd : d.eval actions (.start heap result) with
      | none =>
        rw [hd] at ho
        cases ho
      | some x =>
        rw [hd] at ho
        cases ho
        exact ⟨d, x.2, hrun', hd, rfl, rfl⟩
    | reject stack t p u =>
      unfold Outcome.eval at ho
      cases hs : evalStack actions stack (.start heap result) with
      | none =>
        simp only [hs] at ho
        cases ho
      | some x =>
        simp only [hs] at ho
        cases ho
        cases hvalid
    | crash => exact absurd rfl hcrash
  · rintro ⟨d, s', hbuilds, heval, rfl, rfl⟩
    refine ⟨⟨.accept [.value 10 .input ()] s', ?_, rfl⟩, rfl⟩
    have hrun := Config.Runs.eval (M := actions) (s := .start heap result) hbuilds rfl
    rwa [eval_accept, heval] at hrun

end Hsql
