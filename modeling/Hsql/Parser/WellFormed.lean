import Hsql.Parser.Effects
import Hsql.Parser.GrammarSpec
import Hsql.Parser.Accept

/-! Every node of the syntax trees that the parser builds has the shape of its kind. -/

namespace Hsql
open Bison Vals

theorem preserves_given : actions.Preserves NT.Given := fun r p vs s v s' hvs h =>
  (spec _ r vs hvs p s v s' h).1

theorem preserves_sound : actions.Preserves fun n v => n.Given v ∧ n.Sound v := by
  intro n r p vs s v s' hvs h
  have hgiven : vs.All NT.Given := all_imp (fun _ _ h => h.1) hvs
  have hsound : vs.All NT.Sound := all_imp (fun _ _ h => h.2) hvs
  have hspec := spec n r vs hgiven p s v s' h
  exact ⟨hspec.1, hspec.2.1 hsound⟩

theorem not_mem_rhs_input : ∀ n (r : Fin (productions n).length),
    .nonterminal .input ∉ ((productions n).get r).rhs := by
  intro n
  cases n <;> decide +kernel

/-- Within a statement no action works on the result. -/
theorem Derivation.result_eq {n : NT} (hn : n ≠ .input) (d : Derivation n) {s s' : ParserState}
    {v : n.Val} (h : d.eval actions s = some (v, s')) : s'.result = s.result := by
  refine d.eval_moves (Q := fun s s' : ParserState => s'.result = s.result) (K := (· ≠ .input))
    (fun _ => rfl) (fun h h' => h'.trans h) ?_ ?_ hn h
  · rintro n r - m hm rfl
    exact not_mem_rhs_input n r hm
  · intro n r p vs s v s' hn hact
    exact Hsql.result_eq (List.get_mem _ r) hn hact

theorem statements_foldl_addStatement (result : SQLParserResult)
    (stmts : List (Option SQLStatement)) :
    (stmts.foldl SQLParserResult.addStatement result).statements =
      result.statements ++ stmts := by
  induction stmts generalizing result with
  | nil => rw [List.foldl_nil, List.append_nil]
  | cons x stmts ih =>
    rw [List.foldl_cons, ih]
    exact List.append_assoc _ [x] stmts

theorem statements_foldl_addParameter (result : SQLParserResult) (l : List (Parameter × Nat)) :
    (l.foldl (fun r (param, paramId) => r.addParameter { param with ival := paramId })
      result).statements = result.statements := by
  induction l generalizing result with
  | nil => rfl
  | cons x l ih => exact ih _

theorem ParserState.statements_finish (s : ParserState) (stmts : List (Option SQLStatement)) :
    (s.finish stmts).result.statements = s.result.statements ++ stmts := by
  unfold ParserState.finish
  rw [statements_foldl_addParameter, statements_foldl_addStatement]

/-- The parts of a derivation of the input: its statements are evaluated, then the result gets
them. -/
theorem Derivation.eval_input {d : Derivation .input} {s s' : ParserState} {v : NT.input.Val}
    (h : d.eval actions s = some (v, s')) : ∃ (p : Location) (list : Derivation .statementList)
      (semicolon : Derivation .optSemicolon) (stmts : List (Option SQLStatement))
      (s₁ s₂ : ParserState), d = .node ⟨0, by decide⟩ p (.tree list (.tree semicolon .nil)) ∧
      list.eval actions s = some (some stmts, s₁) ∧ semicolon.eval actions s₁ = some ((), s₂) ∧
      s' = s₂.finish stmts := by
  obtain ⟨r, p, kids⟩ := d
  obtain rfl : r = ⟨0, by decide⟩ := Fin.ext (Nat.lt_one_iff.mp r.2)
  rw [Tree.eval, Option.bind_eq_some_iff] at h
  obtain ⟨⟨vs, s₂⟩, hkids, hact⟩ := h
  cases kids with
  | tree list rest =>
    cases rest with
    | tree semicolon rest =>
      cases rest
      obtain ⟨⟨l, s₁⟩, hlist, hkids⟩ := Option.bind_eq_some_iff.mp hkids
      obtain ⟨⟨rest, s₂'⟩, hrest, heq⟩ := Option.map_eq_some_iff.mp hkids
      obtain ⟨⟨u, s₂''⟩, hsemi, hnil⟩ := Option.bind_eq_some_iff.mp hrest
      cases heq
      cases hnil
      obtain ⟨stmts, rfl, heq⟩ := Option.map_eq_some_iff.mp hact
      exact ⟨p, list, semicolon, stmts, s₁, _, rfl, hlist, hsemi, (Prod.mk.inj heq).2.symm⟩

theorem sounds_vec_iff {α : Type} (f : α → Node) {l : List (Option α)} :
    Node.Sounds (Node.vec f (some l)) ↔ ∀ x, some x ∈ l → (f x).Sound := by
  constructor
  · intro h x hx
    exact h _ (List.mem_flatMap.mpr ⟨some x, hx, List.mem_singleton_self _⟩)
  · intro h b hb
    obtain ⟨x, hx, hb⟩ := List.mem_flatMap.mp hb
    cases x with
    | none => cases hb
    | some x =>
      obtain rfl := List.mem_singleton.mp hb
      exact h x hx

/-- For every derivation whose actions complete, the statements that the result gains are not null,
and every node reachable from them has the shape of its kind. -/
theorem reachable_shaped {d : Derivation .input} {s s' : ParserState} {v : NT.input.Val}
    (h : d.eval actions s = some (v, s')) :
    ∃ stmts, s'.result.statements = s.result.statements ++ stmts ∧
      ∀ x ∈ stmts, ∃ stmt, x = some stmt ∧ ∀ a, ast.Within (.statement stmt) a → a.Shaped := by
  obtain ⟨p, list, semicolon, stmts, s₁, s₂, rfl, hlist, hsemi, rfl⟩ := Derivation.eval_input h
  have hgood := list.eval_all preserves_sound hlist
  obtain ⟨l, heq, -, hsome⟩ : Filled (some stmts) := hgood.1
  obtain rfl := Option.some.inj heq
  have hsound : Node.Sounds (Node.vec .statement (some stmts)) := hgood.2
  refine ⟨stmts, ?_, fun x hx => ?_⟩
  · rw [ParserState.statements_finish, Derivation.result_eq (by decide) semicolon hsemi,
      Derivation.result_eq (by decide) list hlist]
  · obtain ⟨stmt, rfl⟩ := Option.isSome_iff_exists.mp (hsome x hx)
    exact ⟨stmt, rfl, (sounds_vec_iff _).mp hsound stmt hx⟩

theorem reachable_shaped_select : ∃ (d : Derivation .input) (v : NT.input.Val) (s' : ParserState),
    derive 100 "SELECT a FROM t WHERE b IN (1, 2)".toList = some d ∧
      d.eval actions (.start ⟨0, 0, 0, 0⟩ .new) = some (v, s') ∧
        ∃ stmts, s'.result.statements = [] ++ stmts ∧
          ∀ x ∈ stmts, ∃ stmt, x = some stmt ∧
            ∀ a, ast.Within (.statement stmt) a → a.Shaped := by
  have hrun : ((derive 100 "SELECT a FROM t WHERE b IN (1, 2)".toList).bind fun d =>
      d.eval actions (.start ⟨0, 0, 0, 0⟩ .new)).isSome = true := by
    rw [derive_rowwise]
    decide +kernel
  obtain ⟨x, hx⟩ := Option.isSome_iff_exists.mp hrun
  obtain ⟨d, hd, heval⟩ := Option.bind_eq_some_iff.mp hx
  exact ⟨d, x.1, x.2, hd, heval, reachable_shaped heval⟩

end Hsql
