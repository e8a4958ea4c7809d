import Hsql.Parser.Spec

/-! What the actions of the input, of lists of statements and of the other statements do: one lemma
for each nonterminal. -/

namespace Hsql
open Bison Vals Node

attribute [local simp] forall_terminal forall_nonterminal forall_nil Vals.All Vals.sum NT.Given
  NT.Sound NT.addrs NT.nodes Member.nodes Node.parts Node.addr Node.Shaped SQLStatement.new

theorem ParserState.measure_eq {s s' : ParserState} {l : Location} {x v : Option SQLStatement}
    (h : s.measure l x = some (v, s')) : ∃ y length, x = some y ∧
      v = some { y with stringLength := length } ∧ s' = { s with lengthStart := l.totalColumn } := by
  obtain ⟨y, rfl, heq⟩ := Option.map_eq_some_iff.mp h
  cases heq
  exact ⟨y, _, rfl, rfl, rfl⟩

theorem keeps_statementList : ∀ p ∈ statementListRules, p.Keeps := by
  simp only [statementListRules, List.forall_mem_cons]
  refine ⟨keeps_effect ?_, keeps_effect ?_, List.forall_mem_nil _⟩
  · simp only [forall_nonterminal, forall_nil]
    intro x hgiven p s v s' heq
    obtain ⟨⟨w, t⟩, hw, heq⟩ := Option.map_eq_some_iff.mp heq
    obtain ⟨y, length, rfl, rfl, rfl⟩ := ParserState.measure_eq hw
    cases heq
    refine ⟨filled_vector rfl, ?_, ?_⟩ <;> simp [vec_vector]
  · simp only [forall_terminal, forall_nonterminal, forall_nil]
    intro l _ x hgiven p s v s' heq
    obtain ⟨⟨w, t⟩, hw, heq⟩ := Option.bind_eq_some_iff.mp heq
    obtain ⟨y, length, rfl, rfl, rfl⟩ := ParserState.measure_eq hw
    obtain ⟨l', hl', heq⟩ := Option.bind_eq_some_iff.mp heq
    cases heq
    refine ⟨hgiven.1.pushBack rfl hl', ?_, ?_⟩
    · simp +contextual [vec_pushBack _ hl']
    · simp [vec_pushBack _ hl']

theorem spec_input : ∀ p ∈ inputRules, p.Spec fun vs => vs.sum NT.addrs := by
  simp only [inputRules, List.forall_mem_singleton]
  intro vs _ p s v s' heq
  obtain ⟨l, -, heq⟩ := Option.map_eq_some_iff.mp heq
  cases heq
  refine ⟨trivial, fun _ => by simp, ?_⟩
  simp [ParserState.finish]

theorem keeps_statement : ∀ p ∈ statementRules, p.Keeps := by
  simp only [statementRules, List.forall_mem_cons]
  refine ⟨keeps_rule ?_, keeps_rule ?_, keeps_rule ?_, keeps_rule ?_, keeps_rule ?_, keeps_rule ?_,
    keeps_rule ?_, keeps_rule ?_, List.forall_mem_nil _⟩
  · simp only [forall_nonterminal, forall_nil]
    intro v hgiven
    obtain ⟨s, rfl⟩ := Option.isSome_iff_exists.mp hgiven.1
    refine ⟨rfl, ?_, ?_⟩ <;> simp
  all_goals simp +contextual

theorem keeps_alterStatement : ∀ p ∈ alterStatementRules, p.Keeps := by
  simp only [alterStatementRules, List.forall_mem_cons]
  refine ⟨keeps_rule ?_, keeps_rule ?_, keeps_rule ?_, List.forall_mem_nil _⟩ <;>
    simp [AlterStatement.new]

theorem keeps_pragmaStatement : ∀ p ∈ pragmaStatementRules, p.Keeps := by
  simp only [pragmaStatementRules, List.forall_mem_cons]
  refine ⟨keeps_rule ?_, List.forall_mem_nil _⟩
  simp

theorem keeps_dropStatement : ∀ p ∈ dropStatementRules, p.Keeps := by
  simp only [dropStatementRules, List.forall_mem_cons]
  refine ⟨keeps_rule ?_, keeps_rule ?_, keeps_rule ?_, keeps_rule ?_, List.forall_mem_nil _⟩ <;>
    simp

theorem keeps_deleteStatement : ∀ p ∈ deleteStatementRules, p.Keeps := by
  simp only [deleteStatementRules, List.forall_mem_cons]
  refine ⟨keeps_rule ?_, List.forall_mem_nil _⟩
  simp

theorem keeps_insertStatement : ∀ p ∈ insertStatementRules, p.Keeps := by
  simp only [insertStatementRules, List.forall_mem_cons]
  refine ⟨keeps_rule ?_, keeps_rule ?_, List.forall_mem_nil _⟩ <;>
    simp +contextual [InsertStatement.new, InsertStatement.shaped_iff, Filled]

theorem keeps_optColumnList : ∀ p ∈ optColumnListRules, p.Keeps := by
  simp only [optColumnListRules, List.forall_mem_cons]
  refine ⟨keeps_rule ?_, keeps_rule ?_, List.forall_mem_nil _⟩ <;> simp

theorem keeps_updateStatement : ∀ p ∈ updateStatementRules, p.Keeps := by
  simp only [updateStatementRules, List.forall_mem_cons]
  refine ⟨keeps_rule ?_, List.forall_mem_nil _⟩
  simp +contextual [UpdateStatement.shaped_iff]

theorem keeps_updateClauseCommalist : ∀ p ∈ updateClauseCommalistRules, p.Keeps := by
  simp only [updateClauseCommalistRules, List.forall_mem_cons]
  refine ⟨keeps_rule ?_, keeps_deref ?_, List.forall_mem_nil _⟩
  · simp +contextual [filled_vector, vec_vector]
  · simp only [forall_terminal, forall_nonterminal, forall_nil]
    intro l _ x hgiven v hv
    refine ⟨hgiven.1.pushBack hgiven.2.1 hv, ?_, ?_⟩ <;> simp [vec_pushBack _ hv]

theorem keeps_updateClause : ∀ p ∈ updateClauseRules, p.Keeps := by
  simp only [updateClauseRules, List.forall_mem_cons]
  refine ⟨keeps_rule ?_, List.forall_mem_nil _⟩
  simp +contextual

end Hsql
