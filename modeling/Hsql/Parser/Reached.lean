import Hsql.Parser.Clauses

/-! What ends up in the statements of an accepted text: the queries with their clauses, and the
parameters. -/

namespace Hsql
open Bison Vals Node

/-- Of the elements with `p` none is missing, exactly if each of them is there once. -/
theorem countP_add_eq_iff {α : Type} [DecidableEq α] {A B C : Multiset α} (p : α → Prop)
    [DecidablePred p] (hle : A + B ≤ C) (hC : C.Nodup) :
    A.countP p + B.countP p = C.countP p ↔ ∀ a ∈ C, a ∉ B → p a → A.count a = 1 := by
  have hcount a : A.count a + B.count a ≤ C.count a := by
    rw [← Multiset.count_add]
    exact Multiset.count_le_of_le a hle
  have hone a : C.count a ≤ 1 := Multiset.nodup_iff_count_le_one.mp hC a
  have hfilter : (A + B).filter p ≤ C.filter p := Multiset.filter_le_filter p hle
  have hcard : A.countP p + B.countP p = C.countP p ↔ (A + B).filter p = C.filter p := by
    rw [← Multiset.countP_add, Multiset.countP_eq_card_filter, Multiset.countP_eq_card_filter]
    exact ⟨fun h => Multiset.eq_of_le_of_card_le hfilter h.ge, fun h => congrArg Multiset.card h⟩
  rw [hcard, Multiset.ext]
  apply forall_congr'
  intro a
  have ha := hcount a
  have ha' := hone a
  by_cases hp : p a
  · rw [Multiset.count_filter_of_pos hp, Multiset.count_filter_of_pos hp, Multiset.count_add,
      ← Multiset.one_le_count_iff_mem, ← Multiset.count_eq_zero]
    simp only [hp, true_imp_iff]
    omega
  · rw [Multiset.count_filter_of_neg hp, Multiset.count_filter_of_neg hp]
    simp [hp]

theorem nodup_made (heap : Heap) : heap.made.Nodup := by
  have hmap {f : Nat → Addr} (hf : Function.Injective f) (n : Nat) :
      ((Multiset.range n).map f).Nodup := (Multiset.nodup_range n).map hf
  have hselects := hmap (f := Addr.select) (fun _ _ h => Addr.select.inj h) heap.selects
  have horders := hmap (f := Addr.order) (fun _ _ h => Addr.order.inj h) heap.orders
  have hlimits := hmap (f := Addr.limit) (fun _ _ h => Addr.limit.inj h) heap.limits
  have hparams := hmap (f := Addr.param) (fun _ _ h => Addr.param.inj h) heap.params
  unfold Heap.made
  rw [Multiset.nodup_add, Multiset.nodup_add, Multiset.nodup_add, Multiset.disjoint_add_left,
    Multiset.disjoint_add_left, Multiset.disjoint_add_left]
  refine ⟨⟨⟨hselects, horders, ?_⟩, hlimits, ?_, ?_⟩, hparams, ⟨?_, ?_⟩, ?_⟩ <;>
    simp [Multiset.disjoint_left]

@[simp] theorem mem_made_param {heap : Heap} {a : Nat} :
    .param a ∈ heap.made ↔ a < heap.params := by
  simp [Heap.made]

/-- The queries, `ORDER BY` terms and `LIMIT` clauses of a text are all in its statements, each of
them once. -/
structure ClausesReached (sql : Str) (d : Derivation .input) (heap heap' : Heap)
    (stmts : List (Option SQLStatement)) : Prop where
  once : ∀ a ∈ heap'.made, a ∉ heap.made → a.kind ≠ .param →
    (Node.addrs (vec .statement (some stmts))).count a = 1
  number : ∀ k ≠ .param, count (· == k) (vec .statement (some stmts)) =
    d.total fun {n} r => made (· == k) n r
  selects : count (· == .select) (vec .statement (some stmts)) = (codes sql).count (.kw .SELECT)

theorem made_select {n : NT} (r : grammar.Rule n) :
    made (· == .select) n r = grammar.writes (.kw .SELECT) r := by
  revert r
  cases n <;> decide +kernel

/-- Each `SELECT` token has its query. -/
theorem total_select {sql : Str} {d : Derivation .input} (h : Builds sql d) :
    (d.total fun {n} r => made (· == .select) n r) = (codes sql).count (.kw .SELECT) := by
  have hcodes : d.yield.map Sigma.fst = codes sql := by
    rw [h.yield, List.map_map]
    rfl
  have hcount := d.count_yield (.kw .SELECT)
  rw [← hcodes, hcount]
  congr 1
  funext n r
  exact made_select r

/-- Nothing of these kinds is lost exactly if each node that was made is reached once. -/
theorem each_iff (K : Kind → Bool) {d : Derivation .input} {heap : Heap} {s' : ParserState}
    (h : d.eval actions (.start heap .new) = some ((), s')) :
    Node.addrs (vec .statement (some s'.result.statements)) + heap.made ≤ s'.heap.made ∧
      (d.Each (clauses K) keepsClauses ↔ ∀ a ∈ s'.heap.made, a ∉ heap.made → K a.kind →
        (Node.addrs (vec .statement (some s'.result.statements))).count a = 1) := by
  obtain ⟨stmts, hstmts, hle, hiff⟩ := count_eq_iff K h
  obtain rfl : s'.result.statements = stmts := hstmts
  have hcount := countP_add_eq_iff (fun a => K a.kind = true) hle (nodup_made s'.heap)
  exact ⟨hle, hiff.symm.trans hcount⟩

theorem clausesReached_iff {sql : Str} {d : Derivation .input} {heap : Heap} {s' : ParserState}
    (hbuilds : Builds sql d) (h : d.eval actions (.start heap .new) = some ((), s')) :
    ClausesReached sql d heap s'.heap s'.result.statements ↔
      d.Each (clauses (· != .param)) keepsClauses := by
  obtain ⟨hle, heach⟩ := each_iff (· != .param) h
  rw [heach]
  constructor
  · intro hreached a ha hnew hk
    exact hreached.once a ha hnew (by simpa using hk)
  · intro honce
    have hnumber (k : Kind) (hk : k ≠ .param) :
        count (· == k) (vec .statement (some s'.result.statements)) =
          d.total fun {n} r => made (· == k) n r := by
      have hmade : madeCount (· == k) s' = madeCount (· == k) (.start heap .new) + _ :=
        d.eval_makes (actions_make (· == k)) h
      have hall : count (· == k) (vec .statement (some s'.result.statements)) +
          madeCount (· == k) (.start heap .new) = madeCount (· == k) s' := by
        refine (countP_add_eq_iff (fun a => (a.kind == k) = true) hle (nodup_made s'.heap)).mpr ?_
        intro a ha hnew hkind
        obtain rfl := eq_of_beq hkind
        exact honce a ha hnew (by simpa using hk)
      exact Nat.add_right_cancel (hall.trans (hmade.trans (add_comm _ _)))
    have hselects := hnumber .select (by decide)
    exact ⟨fun a ha hnew hk => honce a ha hnew (by simpa using hk), hnumber,
      hselects.trans (total_select hbuilds)⟩

/-- **Exactly the texts without a clause that a set operation overwrites, and without a query in a
`DEFAULT` behind which another one stands, have all their queries, `ORDER BY` terms and `LIMIT`
clauses in the statements.** -/
theorem clauses_reached_iff {sql : Str} {d : Derivation .input} {heap heap' : Heap}
    {result' : SQLParserResult} (h : Parses heap .new sql heap' result')
    (hvalid : result'.isValid = true) (hbuilds : Builds sql d) :
    ClausesReached sql d heap heap' result'.statements ↔
      d.Each (clauses (· != .param)) keepsClauses := by
  obtain ⟨d', s', hbuilds', heval, rfl, rfl⟩ := parses_valid_iff.mp ⟨h, hvalid⟩
  obtain rfl := hbuilds.unique hbuilds'
  exact clausesReached_iff hbuilds heval

/-- A derivation found and evaluated is an accepted text. -/
theorem parses_of_derive {steps : Nat} {sql : Str} {d : Derivation .input} {heap : Heap}
    {x : Unit × ParserState} (hd : derive steps sql = some d)
    (hx : d.eval actions (.start heap .new) = some x) :
    Parses heap .new sql x.2.heap (x.2.result.setIsValid true) ∧ Builds sql d := by
  have hbuilds := Builds.of_derive hd
  exact ⟨(parses_valid_iff.mpr ⟨d, x.2, hbuilds, hx, rfl, rfl⟩).1, hbuilds⟩

theorem clauses_reached_iff_union : ∃ d heap' result',
    Parses ⟨0, 0, 0, 0⟩ .new "(SELECT a FROM t LIMIT 1) UNION SELECT b FROM t".toList heap' result' ∧
      (ClausesReached "(SELECT a FROM t LIMIT 1) UNION SELECT b FROM t".toList d ⟨0, 0, 0, 0⟩ heap'
        result'.statements ↔ d.Each (clauses (· != .param)) keepsClauses) := by
  have hrun : ((derive 200 "(SELECT a FROM t LIMIT 1) UNION SELECT b FROM t".toList).any fun d =>
      (d.eval actions (.start ⟨0, 0, 0, 0⟩ .new)).isSome) = true := by
    rw [derive_rowwise]
    decide +kernel
  obtain ⟨d, hd, heval⟩ := (Option.any_eq_true _ _).mp hrun
  obtain ⟨x, hx⟩ := Option.isSome_iff_exists.mp heval
  obtain ⟨hparses, hbuilds⟩ := parses_of_derive hd hx
  exact ⟨d, x.2.heap, _, hparses, clauses_reached_iff hparses rfl hbuilds⟩

/-- The order and the limit of the operand in parentheses are lost. -/
theorem clauses_reached_paren : ¬ ∀ (sql : Str) (d : Derivation .input) (heap heap' : Heap)
    (result' : SQLParserResult), Parses heap .new sql heap' result' → result'.isValid = true →
      Builds sql d → ClausesReached sql d heap heap' result'.statements := by
  intro h
  have hrun : ((derive 200
      "(SELECT a FROM t ORDER BY b LIMIT 1) UNION SELECT c FROM d LIMIT 2".toList).any fun d =>
        (d.eval actions (.start ⟨0, 0, 0, 0⟩ .new)).isSome &&
          !decide (d.Each (clauses (· != .param)) keepsClauses)) = true := by
    rw [derive_rowwise]
    decide +kernel
  obtain ⟨d, hd, heval⟩ := (Option.any_eq_true _ _).mp hrun
  rw [Bool.and_eq_true, Bool.not_eq_true', decide_eq_false_iff_not] at heval
  obtain ⟨x, hx⟩ := Option.isSome_iff_exists.mp heval.1
  obtain ⟨hparses, hbuilds⟩ := parses_of_derive hd hx
  have hreached := h _ d _ _ _ hparses rfl hbuilds
  exact heval.2 ((clausesReached_iff hbuilds hx).mp hreached)

/-! Parameters. -/

/-- The parameters of a result are the `?` nodes of its statements. -/
structure ParametersReached (parameters : List Parameter) (stmts : List (Option SQLStatement)) :
    Prop where
  listed : ∀ p ∈ parameters, (Node.addrs (vec .statement (some stmts))).count (.param p.addr) = 1 ∧
    ∀ stmt, some stmt ∈ stmts → ∀ e, ast.Within (.statement stmt) (.expr e) → e.addr = some p.addr →
      e.type = .kExprParameter
  reached : ∀ stmt, some stmt ∈ stmts → ∀ e, ast.Within (.statement stmt) (.expr e) →
    e.type = .kExprParameter → ∃ a, e.addr = some a ∧ (parameters.map Parameter.addr).count a = 1

theorem mem_addrs {stmts : List (Option SQLStatement)} {stmt : SQLStatement}
    (hstmt : some stmt ∈ stmts) {e : Expr} (he : ast.Within (.statement stmt) (.expr e)) {a : Nat}
    (ha : e.addr = some a) : .param a ∈ Node.addrs (vec .statement (some stmts)) := by
  have hown : Addr.param a ∈ (Node.expr e).addr := by
    simp [Node.addr, ha]
  have htotal : Addr.param a ∈ ast.total Node.addr (.statement stmt) := ast.mem_total he hown
  have hmem : Node.statement stmt ∈ vec .statement (some stmts) :=
    List.mem_flatMap.mpr ⟨some stmt, hstmt, List.mem_singleton_self _⟩
  have hle := List.single_le_sum (fun y _ => Multiset.zero_le y) _
    (List.mem_map_of_mem (f := ast.total Node.addr) hmem)
  exact Multiset.mem_of_le hle htotal

/-- The addresses of the parameters are those of the `?` nodes that were made. -/
theorem Builds.count_parameters {sql : Str} {d : Derivation .input} {heap : Heap} {s' : ParserState}
    (hbuilds : Builds sql d) (h : d.eval actions (.start heap .new) = some ((), s')) (a : Nat) :
    (s'.result.parameters.map Parameter.addr).count a =
      if heap.params ≤ a ∧ a < s'.heap.params then 1 else 0 := by
  have hmade := hbuilds.made h
  have haddrs : s'.result.parameters.map Parameter.addr =
      List.range' heap.params (questions (Location.zero.tokens (lexemes sql))).length := by
    rw [hbuilds.parameters_eq h]
    apply List.ext_getElem
    · rw [List.length_map, List.length_mapIdx, List.length_range']
    · intro i _ _
      simp
  have hnodup : (s'.result.parameters.map Parameter.addr).Nodup := haddrs ▸ List.nodup_range'
  have hmem : a ∈ s'.result.parameters.map Parameter.addr ↔
      heap.params ≤ a ∧ a < s'.heap.params := by
    rw [haddrs, hmade.params, List.mem_range'_1]
  rw [hnodup.count]
  simp only [hmem]

theorem parametersReached_iff {sql : Str} {d : Derivation .input} {heap : Heap} {s' : ParserState}
    (hbuilds : Builds sql d) (h : d.eval actions (.start heap .new) = some ((), s')) :
    ParametersReached s'.result.parameters s'.result.statements ↔
      d.Each (clauses (· == .param)) keepsClauses := by
  obtain ⟨hle, heach⟩ := each_iff (· == .param) h
  have hcount := hbuilds.count_parameters h
  have hshaped {stmt : SQLStatement} (hstmt : some stmt ∈ s'.result.statements) {e : Expr}
      (he : ast.Within (.statement stmt) (.expr e)) : e.addr.isSome ↔ e.type = .kExprParameter := by
    obtain ⟨stmts, hstmts, hall⟩ := reachable_shaped h
    obtain rfl : s'.result.statements = stmts := hstmts
    obtain ⟨stmt', heq, hwithin⟩ := hall _ hstmt
    obtain rfl := Option.some.inj heq
    have hexpr : e.Shaped := hwithin _ he
    exact hexpr.2.2
  have hlisted (a : Nat) : (∃ p ∈ s'.result.parameters, p.addr = a) ↔
      heap.params ≤ a ∧ a < s'.heap.params := by
    have ha := hcount a
    rw [← List.mem_map, ← List.count_pos_iff, ha]
    split <;> simp_all
  rw [heach]
  constructor
  · intro hreached a ha hnew hkind
    cases a with
    | param b =>
      rw [mem_made_param] at ha hnew
      obtain ⟨p, hp, rfl⟩ := (hlisted b).mpr ⟨Nat.le_of_not_lt hnew, ha⟩
      exact (hreached.listed p hp).1
    | select b | order b | limit b => cases hkind
  · intro honce
    refine ⟨fun p hp => ⟨?_, fun stmt hstmt e he haddr => ?_⟩, fun stmt hstmt e he htype => ?_⟩
    · obtain ⟨hge, hlt⟩ := (hlisted p.addr).mp ⟨p, hp, rfl⟩
      exact honce _ (mem_made_param.mpr hlt) (fun hmem => absurd (mem_made_param.mp hmem) hge.not_gt) rfl
    · exact (hshaped hstmt he).mp (haddr ▸ rfl)
    · obtain ⟨a, ha⟩ := Option.isSome_iff_exists.mp ((hshaped hstmt he).mpr htype)
      have hmem := Multiset.one_le_count_iff_mem.mpr (mem_addrs hstmt he ha)
      have hsum := Multiset.count_le_of_le (.param a) hle
      have hone := Multiset.nodup_iff_count_le_one.mp (nodup_made s'.heap) (.param a)
      rw [Multiset.count_add] at hsum
      have hnew : Addr.param a ∉ heap.made := Multiset.count_eq_zero.mp (by omega)
      have hmade : Addr.param a ∈ s'.heap.made := Multiset.one_le_count_iff_mem.mp (by omega)
      rw [mem_made_param] at hnew hmade
      exact ⟨a, ha, (hcount a).trans (if_pos ⟨Nat.le_of_not_lt hnew, hmade⟩)⟩

/-- **The parameters are the `?` nodes of the statements exactly in the texts without a `?` in a
clause that a set operation overwrites or in a `DEFAULT` behind which another one stands.** -/
theorem parameters_reached_iff {sql : Str} {d : Derivation .input} {heap heap' : Heap}
    {result' : SQLParserResult} (h : Parses heap .new sql heap' result')
    (hvalid : result'.isValid = true) (hbuilds : Builds sql d) :
    ParametersReached result'.parameters result'.statements ↔
      d.Each (clauses (· == .param)) keepsClauses := by
  obtain ⟨d', s', hbuilds', heval, rfl, rfl⟩ := parses_valid_iff.mp ⟨h, hvalid⟩
  obtain rfl := hbuilds.unique hbuilds'
  exact parametersReached_iff hbuilds heval

theorem parameters_reached_iff_limit : ∃ (d : Derivation .input) (heap' : Heap)
    (result' : SQLParserResult),
    Parses ⟨0, 0, 0, 0⟩ .new "SELECT ? FROM t LIMIT ?".toList heap' result' ∧
      (ParametersReached result'.parameters result'.statements ↔
        d.Each (clauses (· == .param)) keepsClauses) := by
  have hrun : ((derive 100 "SELECT ? FROM t LIMIT ?".toList).any fun d =>
      (d.eval actions (.start ⟨0, 0, 0, 0⟩ .new)).isSome) = true := by
    rw [derive_rowwise]
    decide +kernel
  obtain ⟨d, hd, heval⟩ := (Option.any_eq_true _ _).mp hrun
  obtain ⟨x, hx⟩ := Option.isSome_iff_exists.mp heval
  obtain ⟨hparses, hbuilds⟩ := parses_of_derive hd hx
  exact ⟨d, x.2.heap, _, hparses, parameters_reached_iff hparses rfl hbuilds⟩

/-- The constructor of the column deletes the first `?`, which stays listed. -/
theorem parameters_reached_default : ¬ ∀ (sql : Str) (heap heap' : Heap) (result' : SQLParserResult),
    Parses heap .new sql heap' result' → result'.isValid = true →
      ParametersReached result'.parameters result'.statements := by
  intro h
  have hrun : ((derive 200 "CREATE TABLE t (a INT DEFAULT ? DEFAULT ?)".toList).any fun d =>
      (d.eval actions (.start ⟨0, 0, 0, 0⟩ .new)).isSome &&
        !decide (d.Each (clauses (· == .param)) keepsClauses)) = true := by
    rw [derive_rowwise]
    decide +kernel
  obtain ⟨d, hd, heval⟩ := (Option.any_eq_true _ _).mp hrun
  rw [Bool.and_eq_true, Bool.not_eq_true', decide_eq_false_iff_not] at heval
  obtain ⟨x, hx⟩ := Option.isSome_iff_exists.mp heval.1
  obtain ⟨hparses, hbuilds⟩ := parses_of_derive hd hx
  have hreached := h _ _ _ _ hparses rfl
  exact heval.2 ((parametersReached_iff hbuilds hx).mp hreached)

end Hsql
