import Hsql.Parser.Kinds
import Hsql.Parser.Parameters
import Hsql.Result.Operations

/-! Results that are parsed into more than once, with and without a reset in between. The parser only
adds to a result, so what a run leaves in it is what it had and what a fresh one would get. -/

namespace Hsql
open Bison Node

/-! What results look like. -/

/-- Results that look alike still do when the same is added to them. -/
def SQLParserResult.Alike {Z : Type} (look : SQLParserResult → Z) : Prop :=
  ∀ r r' : SQLParserResult, look r = look r' →
    (∀ x, look (r.addStatement x) = look (r'.addStatement x)) ∧
      ∀ p, look (r.addParameter p) = look (r'.addParameter p)

/-- The state, with what its result looks like. -/
def ParserState.look {Z : Type} (look : SQLParserResult → Z) (s : ParserState) :
    Heap × List Parameter × Nat × Z :=
  (s.heap, s.paramList, s.lengthStart, look s.result)

section
variable {Z : Type} {look : SQLParserResult → Z} {s s' : ParserState}

theorem look_eq_iff : s.look look = s'.look look ↔ s.heap = s'.heap ∧ s.paramList = s'.paramList ∧
    s.lengthStart = s'.lengthStart ∧ look s.result = look s'.result := by
  unfold ParserState.look
  simp only [Prod.mk.injEq]

theorem look_finish (hlook : SQLParserResult.Alike look) (h : s.look look = s'.look look)
    (stmts : List (Option SQLStatement)) :
    (s.finish stmts).look look = (s'.finish stmts).look look := by
  obtain ⟨hheap, hparams, hlength, hresult⟩ := look_eq_iff.mp h
  refine look_eq_iff.mpr ⟨hheap, hparams, hlength, ?_⟩
  have hstatements (r r' : SQLParserResult) (h : look r = look r') :
      look (stmts.foldl SQLParserResult.addStatement r) =
        look (stmts.foldl SQLParserResult.addStatement r') := by
    induction stmts generalizing r r' with
    | nil => exact h
    | cons x stmts ih => exact ih _ _ ((hlook r r' h).1 x)
  have hparameters (l : List (Parameter × Nat)) (r r' : SQLParserResult) (h : look r = look r') :
      look (l.foldl (fun r x => r.addParameter { x.1 with ival := x.2 }) r) =
        look (l.foldl (fun r x => r.addParameter { x.1 with ival := x.2 })
          r') := by
    induction l generalizing r r' with
    | nil => exact h
    | cons x l ih => exact ih _ _ ((hlook r r' h).2 _)
  show look (s.paramList.zipIdx.foldl _ _) = look (s'.paramList.zipIdx.foldl _ _)
  rw [hparams]
  exact hparameters _ _ _ (hstatements _ _ hresult)

/-- An action does the same whatever the result, if it does not look at it. -/
theorem action_look (hlook : SQLParserResult.Alike look) {n : NT} {p : Production n}
    (hp : p ∈ productions n) (vs : Vals TokenKind.Val NT.Val p.rhs) (l : Location)
    (h : s.look look = s'.look look) :
    (p.action vs l s).map (fun x => (x.1, x.2.look look)) =
      (p.action vs l s').map fun x => (x.1, x.2.look look) := by
  by_cases hn : n ∈ NT.effectful
  · obtain ⟨heap, paramList, lengthStart, result⟩ := s
    obtain ⟨heap', paramList', lengthStart', result'⟩ := s'
    obtain ⟨rfl, rfl, rfl, hresult⟩ := look_eq_iff.mp h
    have hput (heap : Heap) (paramList : List Parameter) (lengthStart : Nat) :
        ParserState.look look ⟨heap, paramList, lengthStart, result⟩ =
          ParserState.look look ⟨heap, paramList, lengthStart, result'⟩ :=
      look_eq_iff.mpr ⟨rfl, rfl, rfl, hresult⟩
    simp only [NT.effectful, List.mem_cons, List.not_mem_nil, or_false] at hn
    rcases hn with rfl | rfl | rfl | rfl | rfl | rfl
    · obtain rfl := List.mem_singleton.mp hp
      obtain ⟨l, -⟩ := vs
      cases l with
      | none => rfl
      | some stmts => exact congrArg (fun z => some ((), z)) (look_finish hlook h stmts)
    · simp only [productions, statementListRules, List.mem_cons, List.not_mem_nil, or_false] at hp
      rcases hp with rfl | rfl
      · obtain ⟨x, -⟩ := vs
        cases x with
        | none => rfl
        | some x => exact congrArg (fun z => some (_, z)) (hput _ _ _)
      · obtain ⟨list, -, x, -⟩ := vs
        cases x with
        | none => rfl
        | some x =>
          cases list with
          | none => rfl
          | some list => exact congrArg (fun z => some (_, z)) (hput _ _ _)
    · obtain rfl := List.mem_singleton.mp hp
      exact congrArg (fun z => some (_, z)) (hput _ _ _)
    · simp only [productions, orderDescRules, List.mem_cons, List.not_mem_nil, or_false] at hp
      rcases hp with rfl | rfl <;> exact congrArg (fun z => some (_, z)) (hput _ _ _)
    · simp only [productions, optLimitRules, List.mem_cons, List.not_mem_nil, or_false] at hp
      rcases hp with rfl | rfl | rfl | rfl <;> exact congrArg (fun z => some (_, z)) (hput _ _ _)
    · simp only [productions, paramExprRules, List.mem_cons, List.not_mem_nil, or_false] at hp
      rcases hp with rfl | rfl <;> exact congrArg (fun z => some (_, z)) (hput _ _ _)
  · obtain ⟨f, hf⟩ := stateless hn p hp
    rw [hf, hf, Option.map_map, Option.map_map]
    exact congrArg (fun z => (f vs).map fun v => (v, z)) h

end

/-- A run leaves alike what was alike, and closes it in the same way. -/
theorem Parses.alike {Z : Type} {look : SQLParserResult → Z} (hlook : SQLParserResult.Alike look)
    {heap heap' : Heap} {result result' r : SQLParserResult} {sql : Str}
    (h : Parses heap result sql heap' r) (hresult : look result = look result') :
    ∃ t t' r', look t = look t' ∧ Parses heap result' sql heap' r' ∧
      (r = t.setIsValid true ∧ r' = t'.setIsValid true ∨
        ∃ msg line column, r = (t.setErrorDetails msg line column).setIsValid false ∧
          r' = (t'.setErrorDetails msg line column).setIsValid false) := by
  obtain ⟨o, hrun, ho⟩ := h
  have hrespected : (Image.ofState (M := actions) (ParserState.look look)).Respected :=
    Image.ofState_respected _ fun r vs l _ _ h => action_look hlook (List.get_mem _ r) vs l h
  have hstart : Config.Alike (Image.ofState (M := actions) (ParserState.look look))
      (startConfig actions sql (.start heap result))
      (startConfig actions sql (.start heap result')) :=
    ⟨rfl, rfl, rfl, rfl, look_eq_iff.mpr ⟨rfl, rfl, rfl, hresult⟩⟩
  obtain ⟨o', hrun', hout⟩ := hrun.alike hrespected rfl hstart
  cases o with
  | accept stack s =>
    cases o' with
    | accept stack' s' =>
      obtain ⟨hheap, -, -, hlooks⟩ := look_eq_iff.mp hout.2
      obtain ⟨rfl, rfl⟩ := Prod.mk.inj (Option.some.inj ho)
      refine ⟨s.result, s'.result, _, hlooks, ⟨_, hrun', ?_⟩, .inl ⟨rfl, rfl⟩⟩
      rw [conclude, hheap]
    | reject => exact hout.elim
    | crash => exact hout.elim
  | reject stack t p s =>
    cases o' with
    | accept => exact hout.elim
    | reject stack' t' p' s' =>
      obtain ⟨hstack, rfl, hplace, hstate⟩ := hout
      rw [Image.map_entry_ofState, Image.map_entry_ofState] at hstack
      obtain rfl : stack = stack' := hstack
      obtain rfl : p = p' := hplace
      obtain ⟨hheap, -, -, hlooks⟩ := look_eq_iff.mp hstate
      obtain ⟨rfl, rfl⟩ := Prod.mk.inj (Option.some.inj ho)
      refine ⟨s.result, s'.result, _, hlooks, ⟨_, hrun', ?_⟩, .inr ⟨_, _, _, rfl, rfl⟩⟩
      rw [conclude, hheap]
    | crash => exact hout.elim
  | crash => cases ho

/-! Resets. -/

namespace SQLParserResult

/-- What a program asks a result for. -/
def observed (r : SQLParserResult) :
    Bool × List (Option SQLStatement) × List Parameter × Option SyntaxError :=
  (r.isValid, r.statements, r.parameters, r.errorMsg)

/-- A reset leaves the result as new: parsing into it gives what parsing into a new one does, and
the parameters that it lists meanwhile are not in the statements that were deleted. -/
structure ResetsAsNew (r : SQLParserResult) : Prop where
  parses : ∀ heap sql heap' o,
    (∃ r', Parses heap r.reset.2 sql heap' r' ∧ r'.observed = o) ↔
      ∃ r', Parses heap .new sql heap' r' ∧ r'.observed = o
  listed : ∀ p ∈ r.reset.2.parameters,
    Addr.param p.addr ∉ Node.addrs (vec .statement (some r.reset.1))

theorem alike_observed : SQLParserResult.Alike observed := by
  intro r r' h
  simp only [observed, Prod.mk.injEq] at h
  obtain ⟨hvalid, hstatements, hparameters, hmsg⟩ := h
  constructor
  · intro x
    simp only [observed, addStatement, hvalid, hstatements, hparameters, hmsg]
  · intro p
    simp only [observed, addParameter, hvalid, hstatements, hparameters, hmsg]

end SQLParserResult

theorem Parses.observed {heap heap' : Heap} {result result' r : SQLParserResult} {sql : Str}
    (h : Parses heap result sql heap' r) (hresult : result.observed = result'.observed) :
    ∃ r', Parses heap result' sql heap' r' ∧ r'.observed = r.observed := by
  obtain ⟨t, t', r', ht, hparses, hclose⟩ := h.alike SQLParserResult.alike_observed hresult
  refine ⟨r', hparses, ?_⟩
  simp only [SQLParserResult.observed, Prod.mk.injEq] at ht
  obtain ⟨-, hstatements, hparameters, hmsg⟩ := ht
  rcases hclose with ⟨rfl, rfl⟩ | ⟨msg, line, column, rfl, rfl⟩
  · simp only [SQLParserResult.observed, SQLParserResult.setIsValid, hstatements, hparameters, hmsg]
  · simp only [SQLParserResult.observed, SQLParserResult.setIsValid,
      SQLParserResult.setErrorDetails, hstatements, hparameters]

theorem length_addParameters (l : List (Parameter × Nat)) (r : SQLParserResult) :
    (l.foldl (fun r x => r.addParameter { x.1 with ival := x.2 })
      r).parameters.length = r.parameters.length + l.length := by
  induction l generalizing r with
  | nil => rfl
  | cons x l ih =>
    have hadd (parameter : Parameter) :
        (r.addParameter parameter).parameters.length = r.parameters.length + 1 := by
      unfold SQLParserResult.addParameter
      rw [List.length_insertionSort, List.length_append, List.length_singleton]
    rw [List.foldl_cons, ih, hadd, List.length_cons]
    omega

/-- What an accepted text leaves of the result it was parsed into. -/
theorem Parses.accepted {heap heap' : Heap} {result r : SQLParserResult} {sql : Str}
    (h : Parses heap result sql heap' r) (hvalid : r.isValid = true) :
    r.errorMsg = result.errorMsg ∧ result.parameters.length ≤ r.parameters.length := by
  obtain ⟨d, s', -, heval, rfl, rfl⟩ := parses_valid_iff.mp ⟨h, hvalid⟩
  obtain ⟨p, list, semicolon, stmts, s₁, s₂, rfl, hlist, hsemi, rfl⟩ := Derivation.eval_input heval
  have hresult : s₂.result = result := by
    rw [Derivation.result_eq (by decide) semicolon hsemi, Derivation.result_eq (by decide) list hlist]
    rfl
  have hstatements (l : List (Option SQLStatement)) (r : SQLParserResult) :
      (l.foldl SQLParserResult.addStatement r).errorMsg = r.errorMsg := by
    induction l generalizing r with
    | nil => rfl
    | cons x l ih => exact ih _
  have hparameters (l : List (Parameter × Nat)) (r : SQLParserResult) :
      (l.foldl (fun r x => r.addParameter { x.1 with ival := x.2 })
        r).errorMsg = r.errorMsg := by
    induction l generalizing r with
    | nil => rfl
    | cons x l ih => exact ih _
  constructor
  · show (s₂.finish stmts).result.errorMsg = _
    unfold ParserState.finish
    rw [hparameters, hstatements, hresult]
  · show _ ≤ (s₂.finish stmts).result.parameters.length
    unfold ParserState.finish
    rw [length_addParameters, parameters_foldl_addStatement, hresult]
    exact Nat.le_add_right _ _

theorem parses_select : ∃ heap' r, Parses ⟨0, 0, 0, 0⟩ .new "SELECT * FROM t".toList heap' r ∧
    r.isValid = true ∧ r.parameters = [] := by
  have hrun : ((parse 100 ⟨0, 0, 0, 0⟩ .new "SELECT * FROM t".toList).map fun x =>
      (x.2.isValid, x.2.parameters)) = some (true, []) := by
    rw [parse_rowwise]
    decide +kernel
  obtain ⟨x, hx, hpair⟩ := Option.map_eq_some_iff.mp hrun
  obtain ⟨hvalid, hparameters⟩ := Prod.mk.inj hpair
  exact ⟨x.1, x.2, .of_parse hx, hvalid, hparameters⟩

namespace SQLParserResult

/-- **A reset leaves a result as new exactly if it lists no parameters.** It does not clear them. -/
theorem resetsAsNew_iff (r : SQLParserResult) : r.ResetsAsNew ↔ r.parameters = [] := by
  constructor
  · intro h
    obtain ⟨heap', r₀, hfresh, hvalid, hparameters⟩ := parses_select
    obtain ⟨r', hparses, hobserved⟩ := (h.parses _ _ _ r₀.observed).mpr ⟨r₀, hfresh, rfl⟩
    simp only [observed, Prod.mk.injEq] at hobserved
    have hlength := (hparses.accepted (hobserved.1.trans hvalid)).2
    rw [hobserved.2.2.1, hparameters] at hlength
    exact List.eq_nil_of_length_eq_zero (Nat.le_zero.mp hlength)
  · intro h
    have hlook : r.reset.2.observed = (new : SQLParserResult).observed := by
      simp only [observed, reset, new, h]
    refine ⟨fun heap sql heap' o => ⟨?_, ?_⟩, ?_⟩
    · rintro ⟨r', hparses, rfl⟩
      exact hparses.observed hlook
    · rintro ⟨r', hparses, rfl⟩
      exact hparses.observed hlook.symm
    · intro p hp
      have hnil : r.reset.2.parameters = [] := h
      rw [hnil] at hp
      cases hp

/-- After a reset the `?` of the deleted statement is still listed. -/
theorem not_resetsAsNew_parameter : ¬ ∀ r : SQLParserResult, Reachable r → r.ResetsAsNew := by
  intro h
  obtain ⟨heap₁, r₁, hfresh, hvalid₁, hparameters₁⟩ := parses_select
  have hrun : ((parse 100 ⟨0, 0, 0, 0⟩ .new "SELECT ? FROM t".toList).map fun x =>
      x.2.parameters.length) = some 1 := by
    rw [parse_rowwise]
    decide +kernel
  obtain ⟨x, hx, hlength⟩ := Option.map_eq_some_iff.mp hrun
  have hnew := h x.2 (.parse .new (.of_parse hx))
  obtain ⟨r', hparses, hobserved⟩ := (hnew.parses _ _ _ r₁.observed).mpr ⟨r₁, hfresh, rfl⟩
  simp only [observed, Prod.mk.injEq] at hobserved
  have hle := (hparses.accepted (hobserved.1.trans hvalid₁)).2
  have hkept : x.2.reset.2.parameters.length = 1 := hlength
  rw [hobserved.2.2.1, hparameters₁, hkept] at hle
  cases hle

end SQLParserResult

/-! Results that are not reset. -/

theorem Parses.isValid_iff {heap heap' : Heap} {result r : SQLParserResult} {sql : Str}
    (h : Parses heap result sql heap' r) : r.isValid = true ↔ Valid sql := by
  constructor
  · intro hr
    exact ⟨heap, result, heap', r, h, hr⟩
  · intro hvalid
    obtain ⟨heap₂, r₂, hparses, hr⟩ := hvalid.exists_parses heap result
    rwa [(h.unique hparses).2]

/-- What a rejected text leaves of the error is what it leaves in a new result. -/
theorem Parses.rejected {heap heap' : Heap} {result r : SQLParserResult} {sql : Str}
    (h : Parses heap result sql heap' r) (hvalid : r.isValid = false) : r.errorMsg ≠ none ∧
      ∃ r', Parses heap .new sql heap' r' ∧ r.errorMsg = r'.errorMsg ∧
        r.errorLine = r'.errorLine ∧ r.errorColumn = r'.errorColumn := by
  have hlook : SQLParserResult.Alike fun _ => () := fun _ _ _ => ⟨fun _ => rfl, fun _ => rfl⟩
  have hsame (r r' : SQLParserResult) : (fun _ : SQLParserResult => ()) r = (fun _ => ()) r' := rfl
  obtain ⟨t, t', r', -, hparses, hclose⟩ := h.alike hlook (hsame result .new)
  rcases hclose with ⟨rfl, rfl⟩ | ⟨msg, line, column, rfl, rfl⟩
  · cases hvalid
  · exact ⟨Option.some_ne_none msg, _, hparses, rfl, rfl, rfl⟩

/-- Calls of `parse` with these texts, one after the other, on a new result. -/
inductive ParsesAll (heap : Heap) : List Str → Heap → SQLParserResult → Prop where
  | new : ParsesAll heap [] heap .new
  | parse {texts : List Str} {sql : Str} {heap₁ heap₂ : Heap} {result result' : SQLParserResult}
      (h : ParsesAll heap texts heap₁ result) (hparse : Parses heap₁ result sql heap₂ result') :
      ParsesAll heap (texts ++ [sql]) heap₂ result'

/-- The result tells whether the last text was valid, and if not where its error is. -/
structure SQLParserResult.Agrees (sql : Str) (r : SQLParserResult) : Prop where
  valid_iff : r.isValid = true ↔ r.errorMsg = none
  details : r.isValid = false → ∃ heap heap' r', Parses heap .new sql heap' r' ∧
    r.errorMsg = r'.errorMsg ∧ r.errorLine = r'.errorLine ∧ r.errorColumn = r'.errorColumn

theorem ParsesAll.last {heap heap' : Heap} {texts : List Str} {sql : Str} {r : SQLParserResult}
    (h : ParsesAll heap (texts ++ [sql]) heap' r) : ∃ heap₁ result,
      ParsesAll heap texts heap₁ result ∧ Parses heap₁ result sql heap' r := by
  generalize hall : texts ++ [sql] = all at h
  cases h with
  | new => exact absurd hall (List.append_ne_nil_of_right_ne_nil _ (List.cons_ne_nil _ _))
  | parse h hparse =>
    obtain ⟨rfl, hlast⟩ := List.append_inj' hall rfl
    obtain rfl := List.singleton_inj.mp hlast
    exact ⟨_, _, h, hparse⟩

/-- A message stays once there is one. -/
theorem ParsesAll.errorMsg_iff {heap heap' : Heap} {texts : List Str} {r : SQLParserResult}
    (h : ParsesAll heap texts heap' r) : r.errorMsg = none ↔ ∀ t ∈ texts, Valid t := by
  induction h with
  | new => exact ⟨fun _ t ht => absurd ht List.not_mem_nil, fun _ => rfl⟩
  | @parse texts sql _ _ _ r _ hparse ih =>
    rw [List.forall_mem_append, List.forall_mem_singleton, ← hparse.isValid_iff, ← ih]
    cases hvalid : r.isValid with
    | true => simp [(hparse.accepted hvalid).1]
    | false => simp [(hparse.rejected hvalid).1]

/-- **Validity and message agree exactly if no text failed before one that is valid.** The message
is written by errors only and never cleared. -/
theorem agrees_iff {heap heap' : Heap} {texts : List Str} {sql : Str} {r : SQLParserResult}
    (h : ParsesAll heap (texts ++ [sql]) heap' r) :
    r.Agrees sql ↔ (Valid sql → ∀ t ∈ texts, Valid t) := by
  have hmsg := h.errorMsg_iff
  obtain ⟨heap₁, result, -, hparse⟩ := h.last
  have hvalid := hparse.isValid_iff
  rw [List.forall_mem_append, List.forall_mem_singleton] at hmsg
  constructor
  · intro hagrees hsql
    have hnone := hagrees.valid_iff.mp (hvalid.mpr hsql)
    exact (hmsg.mp hnone).1
  · intro himp
    refine ⟨?_, ?_⟩
    · rw [hvalid, hmsg]
      exact ⟨fun hsql => ⟨himp hsql, hsql⟩, And.right⟩
    · intro hr
      obtain ⟨-, r', hparses, hdetails⟩ := hparse.rejected hr
      exact ⟨_, _, r', hparses, hdetails⟩

theorem agrees_iff_error : ∃ heap' r,
    ParsesAll ⟨0, 0, 0, 0⟩ ([] ++ ["SELECT".toList]) heap' r ∧
      (r.Agrees "SELECT".toList ↔ (Valid "SELECT".toList → ∀ t ∈ ([] : List Str), Valid t)) := by
  have hrun : (parse 100 ⟨0, 0, 0, 0⟩ .new "SELECT".toList).isSome = true := by
    rw [parse_rowwise]
    decide +kernel
  obtain ⟨x, hx⟩ := Option.isSome_iff_exists.mp hrun
  have hall : ParsesAll ⟨0, 0, 0, 0⟩ ([] ++ ["SELECT".toList]) x.1 x.2 :=
    .parse .new (.of_parse hx)
  exact ⟨x.1, x.2, hall, agrees_iff hall⟩

/-- The message of the first text is still there after the second, which is valid. -/
theorem not_agrees_stale : ¬ ∀ (heap heap' : Heap) (texts : List Str) (sql : Str)
    (r : SQLParserResult), ParsesAll heap (texts ++ [sql]) heap' r → r.Agrees sql := by
  intro h
  have hrun : ((parse 100 ⟨0, 0, 0, 0⟩ .new "SELECT".toList).bind fun x =>
      (parse 100 x.1 x.2 "SELECT * FROM t".toList).map fun y =>
        (y.2.isValid, y.2.errorMsg.isSome)) = some (true, true) := by
    simp only [parse_rowwise]
    decide +kernel
  obtain ⟨x, hx, hrest⟩ := Option.bind_eq_some_iff.mp hrun
  obtain ⟨y, hy, hpair⟩ := Option.map_eq_some_iff.mp hrest
  obtain ⟨hvalid, hmsg⟩ := Prod.mk.inj hpair
  have hfirst : ParsesAll ⟨0, 0, 0, 0⟩ ([] ++ ["SELECT".toList]) x.1 x.2 :=
    .parse .new (.of_parse hx)
  have hagrees := h _ _ _ _ _ (.parse hfirst (.of_parse hy))
  rw [hagrees.valid_iff.mp hvalid] at hmsg
  cases hmsg

end Hsql
