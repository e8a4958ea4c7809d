import Hsql.Bison.View
import Hsql.Parser.Kinds

/-! Derivations that differ in places only: what the actions on them have in common. -/

namespace Hsql
open Bison

/-- The statements without the lengths of their texts. -/
def withoutLengths (stmts : List (Option SQLStatement)) : List (Option SQLStatement) :=
  stmts.map (Option.map (SQLStatement.rename id fun _ => none))

theorem withoutLengths_append (stmts stmts' : List (Option SQLStatement)) :
    withoutLengths (stmts ++ stmts') = withoutLengths stmts ++ withoutLengths stmts' :=
  List.map_append

/-- What is left of a derivation when its places are forgotten. -/
def Derivation.tokensOnly {n : NT} (d : Derivation n) :
    Bison.Tree grammar forgetImage.B forgetImage.Q n :=
  d.view forgetImage.token forgetImage.place

/-- Lists of statements that differ in places make the same statements on the same heap. -/
theorem eval_list_of_tokens {l l' : Derivation .statementList} (h : l.tokensOnly = l'.tokensOnly)
    {s s' s₁ : ParserState} (hheap : s.heap = s'.heap) {stmts : List (Option SQLStatement)}
    (heval : l.eval actions s = some (some stmts, s₁)) : ∃ stmts' s₁',
      l'.eval actions s' = some (some stmts', s₁') ∧ s₁'.heap = s₁.heap ∧
        withoutLengths stmts' = withoutLengths stmts := by
  have hsame := Tree.eval_view forgetImage_respected l l' h
    (show forgetImage.state s = forgetImage.state s' from hheap)
  rw [heval, Option.map_some] at hsame
  obtain ⟨⟨v, s₁'⟩, heval', heq⟩ := Option.map_eq_some_iff.mp hsame.symm
  obtain ⟨hvalue, hstate⟩ := Prod.mk.inj heq
  obtain ⟨stmts', rfl, hstmts⟩ := Option.map_eq_some_iff.mp
    (show Option.map withoutLengths v = some (withoutLengths stmts) from hvalue)
  exact ⟨stmts', s₁', heval', hstate, hstmts⟩

/-- So do derivations of the input, for the result. -/
theorem statements_of_tokens {d d' : Derivation .input} (h : d.tokensOnly = d'.tokensOnly)
    {s s₁ s₁' : ParserState} (hd : d.eval actions s = some ((), s₁))
    (hd' : d'.eval actions s = some ((), s₁')) :
    withoutLengths s₁.result.statements = withoutLengths s₁'.result.statements := by
  obtain ⟨p, list, semicolon, stmts, s₂, s₃, rfl, hlist, hsemi, rfl⟩ := Derivation.eval_input hd
  obtain ⟨p', list', semicolon', stmts', s₂', s₃', rfl, hlist', hsemi', rfl⟩ :=
    Derivation.eval_input hd'
  have hlists : list.tokensOnly = list'.tokensOnly := by
    obtain ⟨-, -, hkids⟩ := Tree.node.inj h
    exact (Forest.tree.inj (eq_of_heq hkids)).1
  obtain ⟨stmts'', s₂'', heval, -, hstmts⟩ := eval_list_of_tokens hlists rfl hlist
  rw [hlist'] at heval
  cases heval
  rw [ParserState.statements_finish, ParserState.statements_finish,
    Derivation.result_eq (by decide) semicolon hsemi, Derivation.result_eq (by decide) list hlist,
    Derivation.result_eq (by decide) semicolon' hsemi',
    Derivation.result_eq (by decide) list' hlist', withoutLengths_append, withoutLengths_append,
    hstmts]

/-- One of them goes through where the other one does. -/
theorem eval_of_tokens {d d' : Derivation .input} (h : d.tokensOnly = d'.tokensOnly)
    {s s' : ParserState} (hd' : d'.eval actions s = some ((), s')) : ∃ s₁,
      d.eval actions s = some ((), s₁) ∧ s₁.heap = s'.heap ∧
        withoutLengths s₁.result.statements = withoutLengths s'.result.statements := by
  have hsame := Tree.eval_view forgetImage_respected d d' h
    (show forgetImage.state s = forgetImage.state s from rfl)
  rw [hd', Option.map_some, Option.map_eq_some_iff] at hsame
  obtain ⟨⟨⟨⟩, s₁⟩, hd, heq⟩ := hsame
  exact ⟨s₁, hd, (Prod.mk.inj heq).2, statements_of_tokens h hd hd'⟩

end Hsql
