import Hsql.Parser.Reached
import Hsql.Result.Operations
import Hsql.Sql.Destroy

/-! What a result frees at its end, and which of the nodes that the parser made are among it. -/

namespace Hsql
open Bison

namespace Cell
variable {α : Type}

/-- The nodes among the objects. -/
def node : Cell → List Node
  | expr e => [.expr e]
  | select s => [.select s]
  | groupBy g => [.groupBy g]
  | order o => [.order o]
  | limit l => [.limit l]
  | table t => [.table t]
  | join j => [.join j]
  | tableConstraint c => [.tableConstraint c]
  | column c => [.column c]
  | update u => [.update u]
  | statement s => [.statement s]
  | text _ | event _ | foreignKey _ | indexedColumn _ => []

/-- The address of an object. A statement may be a query. -/
def addr : Cell → Multiset Addr
  | expr e => (Node.expr e).addr
  | select s => (Node.select s).addr
  | order o => (Node.order o).addr
  | limit l => (Node.limit l).addr
  | statement s =>
    match s.derived with
    | .select s => (Node.select s).addr
    | _ => 0
  | _ => 0

section
variable (f : α → Cell) (g : α → Node)

theorem flatMap_ptr (h : ∀ x, (f x).node = [g x]) (p : Option α) :
    (ptr f p).flatMap node = Node.ptr g p := by
  cases p with
  | none => rfl
  | some x => exact (List.flatMap_singleton _ _).trans (h x)

theorem flatMap_vec (h : ∀ x, (f x).node = [g x]) (p : Option (List (Option α))) :
    (vec f p).flatMap node = Node.vec g p := by
  cases p with
  | none => rfl
  | some l =>
    rw [vec, List.flatMap_assoc]
    exact List.flatMap_congr fun x _ => flatMap_ptr f g h x

theorem flatMap_ptr_nil (h : ∀ x, (f x).node = []) (p : Option α) :
    (ptr f p).flatMap node = [] := by
  cases p with
  | none => rfl
  | some x => exact (List.flatMap_singleton _ _).trans (h x)

theorem flatMap_vec_nil (h : ∀ x, (f x).node = []) (p : Option (List (Option α))) :
    (vec f p).flatMap node = [] := by
  cases p with
  | none => rfl
  | some l =>
    rw [vec, List.flatMap_assoc]
    exact List.flatMap_eq_nil_iff.mpr fun x _ => flatMap_ptr_nil f h x

end

theorem addrs_flatMap (l : List Cell) :
    Node.addrs (l.flatMap node) = (l.map fun b => Node.addrs b.node).sum := by
  induction l with
  | nil => rfl
  | cons b l ih => rw [List.flatMap_cons, Node.addrs_append, ih, List.map_cons, List.sum_cons]

/-- The addresses within an object are those within its node. -/
theorem total_addr (c : Cell) : destructors.total addr c = Node.addrs c.node := by
  refine destructors.total_unique (f := fun c => Node.addrs c.node) (fun c => ?_) c
  rw [← addrs_flatMap]
  show Node.addrs c.node = c.addr + Node.addrs (c.owns.flatMap node)
  have hnode (a : Node) : Node.addrs [a] = a.addr + Node.addrs a.parts :=
    Node.addrs_ptr_some (fun a => a) a
  have hselect (s : SelectStatement) : Node.addrs ((ofSelect s).flatMap node) =
      Node.addrs (Node.select s).parts := by
    simp only [ofSelect, Node.parts, List.flatMap_append, Node.addrs_append,
      flatMap_ptr table .table fun _ => rfl, flatMap_ptr expr .expr fun _ => rfl,
      flatMap_ptr groupBy .groupBy fun _ => rfl, flatMap_ptr select .select fun _ => rfl,
      flatMap_ptr limit .limit fun _ => rfl, flatMap_vec expr .expr fun _ => rfl,
      flatMap_vec order .order fun _ => rfl]
    abel
  have htexts := flatMap_ptr_nil text fun _ => rfl
  have htextVec := flatMap_vec_nil text fun _ => rfl
  cases c with
  | text s | event s | foreignKey s | indexedColumn s =>
    simp only [node, addr, owns, List.flatMap_append, List.flatMap_nil, htexts, htextVec,
      flatMap_vec_nil event fun _ => rfl, List.append_nil, Node.addrs_nil, add_zero]
  | select s => rw [node, hnode, owns, hselect, addr]
  | statement s =>
    obtain ⟨len, d⟩ := s
    cases d with
    | select s =>
      have hquery : Node.addrs (Node.parts (.statement ⟨len, .select s⟩)) =
          (Node.select s).addr + Node.addrs (Node.select s).parts := Node.addrs_ptr_some .select s
      show Node.addrs [_] = (Node.select s).addr + Node.addrs ((ofSelect s).flatMap node)
      rw [hnode, hquery, hselect]
      exact zero_add _
    | _ =>
      simp only [node, hnode, owns, addr, Node.parts, Node.addr, List.flatMap_append, htexts,
        htextVec, List.nil_append, List.append_nil, Node.addrs_append,
        flatMap_ptr table .table fun _ => rfl, flatMap_ptr expr .expr fun _ => rfl,
        flatMap_ptr select .select fun _ => rfl, flatMap_ptr column .column fun _ => rfl,
        flatMap_vec_nil indexedColumn fun _ => rfl, flatMap_vec column .column fun _ => rfl,
        flatMap_vec tableConstraint .tableConstraint fun _ => rfl,
        flatMap_vec statement .statement fun _ => rfl, flatMap_vec expr .expr fun _ => rfl,
        flatMap_vec update .update fun _ => rfl]
  | _ =>
    simp only [node, hnode, owns, addr, Node.parts, List.flatMap_append, htexts, htextVec,
      List.nil_append, List.append_nil, Node.addrs_append, Node.addr,
      flatMap_ptr table .table fun _ => rfl, flatMap_ptr expr .expr fun _ => rfl,
      flatMap_ptr select .select fun _ => rfl, flatMap_ptr join .join fun _ => rfl,
      flatMap_ptr_nil foreignKey fun _ => rfl, flatMap_vec expr .expr fun _ => rfl,
      flatMap_vec table .table fun _ => rfl]

end Cell

/-- What a result deletes when it is reset or destroyed: its statements in their order. -/
noncomputable def SQLParserResult.frees (result : SQLParserResult) : List Cell :=
  (Cell.vec .statement (some result.reset.1)).flatMap Cell.destroy

noncomputable def SQLParserResult.freedAddrs (result : SQLParserResult) : Multiset Addr :=
  (result.frees.map Cell.addr).sum

/-- No trigger of the statements has a query, an `ORDER BY` term, a `LIMIT` clause or a `?` in its
body. -/
def SQLParserResult.BareTriggers (result : SQLParserResult) : Prop :=
  ∀ stmt, some stmt ∈ result.statements → ∀ length s,
    destructors.Within (.statement stmt) (.statement ⟨length, .create s⟩) →
      Node.addrs (Node.vec .statement s.triggerStatementList) = 0

theorem Cell.totals_addr (l : List Cell) :
    destructors.totals addr l = Node.addrs (l.flatMap node) := by
  rw [addrs_flatMap, Nested.totals]
  exact congrArg List.sum (List.map_congr_left fun c _ => total_addr c)

/-- What is left behind of an object has no addresses, but for the statements of a trigger. -/
theorem Cell.totals_leaks_eq_zero_iff (c : Cell) : destructors.totals addr c.leaks = 0 ↔
    ∀ length s, c = .statement ⟨length, .create s⟩ →
      Node.addrs (Node.vec .statement s.triggerStatementList) = 0 := by
  rw [totals_addr]
  cases c with
  | statement s =>
    obtain ⟨length, d⟩ := s
    cases d with
    | create s =>
      rw [leaks, flatMap_vec statement .statement fun _ => rfl]
      refine ⟨fun h _ _ heq => ?_, fun h => h _ _ rfl⟩
      cases heq
      exact h
    | _ => exact iff_of_true rfl fun _ _ heq => by cases heq
  | table t =>
    rw [leaks, flatMap_ptr_nil text fun _ => rfl]
    exact iff_of_true rfl fun _ _ heq => by cases heq
  | _ => exact iff_of_true rfl fun _ _ heq => by cases heq

namespace SQLParserResult

theorem freedAddrs_eq (result : SQLParserResult) : result.freedAddrs =
    destructors.reached.totals Cell.addr (Cell.vec .statement (some result.statements)) := by
  unfold freedAddrs frees
  show (((Cell.vec .statement (some result.statements)).flatMap _).map _).sum = _
  induction Cell.vec .statement (some result.statements) with
  | nil => rfl
  | cons c l ih =>
    rw [List.flatMap_cons, List.map_append, List.sum_append, ih]
    exact congrArg (· + _) (destructors.sum_destroy Cell.addr c)

/-- The addresses left behind. -/
noncomputable def leftAddrs (result : SQLParserResult) : Multiset Addr :=
  ((Cell.vec .statement (some result.statements)).map (destructors.leftBehind Cell.addr)).sum

theorem freedAddrs_add_leftAddrs (result : SQLParserResult) :
    result.freedAddrs + result.leftAddrs =
      Node.addrs (Node.vec .statement (some result.statements)) := by
  rw [freedAddrs_eq, leftAddrs, Disposal.totals_accounts, Cell.totals_addr,
    Cell.flatMap_vec .statement .statement fun _ => rfl]

theorem leftAddrs_eq_zero_iff (result : SQLParserResult) :
    result.leftAddrs = 0 ↔ result.BareTriggers := by
  have hcell (c : Cell) : destructors.leftBehind Cell.addr c = 0 ↔ ∀ length s,
      destructors.Within c (.statement ⟨length, .create s⟩) →
        Node.addrs (Node.vec .statement s.triggerStatementList) = 0 := by
    rw [Disposal.leftBehind_eq_zero_iff]
    constructor
    · intro h length s hs
      exact (Cell.totals_leaks_eq_zero_iff _).mp (h _ hs) length s rfl
    · intro h b hb
      refine (Cell.totals_leaks_eq_zero_iff b).mpr fun length s heq => ?_
      exact h length s (heq ▸ hb)
  rw [leftAddrs, List.sum_eq_zero_iff, List.forall_mem_map]
  constructor
  · intro h stmt hstmt
    exact (hcell _).mp (h _ (List.mem_flatMap.mpr ⟨some stmt, hstmt, List.mem_singleton_self _⟩))
  · intro h c hc
    obtain ⟨x, hx, hc⟩ := List.mem_flatMap.mp hc
    cases x with
    | none => cases hc
    | some stmt =>
      obtain rfl := List.mem_singleton.mp hc
      exact (hcell _).mpr (h stmt hx)

end SQLParserResult

/-- **A result frees no query, `ORDER BY` term, `LIMIT` clause or `?` twice**, and none that it did
not make. It frees all that were made for its text exactly if no action lost any and no trigger has
any in its body. -/
theorem freed_once {sql : Str} {d : Derivation .input} {heap heap' : Heap}
    {result' : SQLParserResult} (h : Parses heap .new sql heap' result')
    (hvalid : result'.isValid = true) (hbuilds : Builds sql d) :
    result'.freedAddrs + heap.made ≤ heap'.made ∧
      ((∀ a ∈ heap'.made, a ∉ heap.made → result'.freedAddrs.count a = 1) ↔
        d.Each (clauses fun _ => true) keepsClauses ∧ result'.BareTriggers) := by
  obtain ⟨d', s', hbuilds', heval, rfl, rfl⟩ := parses_valid_iff.mp ⟨h, hvalid⟩
  obtain rfl := hbuilds.unique hbuilds'
  obtain ⟨hle, heach⟩ := each_iff (fun _ => true) heval
  set result := s'.result.setIsValid true
  have hsum : result.freedAddrs + result.leftAddrs =
      Node.addrs (Node.vec .statement (some s'.result.statements)) :=
    result.freedAddrs_add_leftAddrs
  rw [← hsum] at hle heach
  have hcount a : result.freedAddrs.count a + result.leftAddrs.count a + heap.made.count a ≤
      s'.heap.made.count a := by
    rw [← Multiset.count_add, ← Multiset.count_add]
    exact Multiset.count_le_of_le a hle
  refine ⟨le_trans (add_le_add_left (Multiset.le_add_right _ _) _) hle, ?_⟩
  rw [heach, ← SQLParserResult.leftAddrs_eq_zero_iff]
  constructor
  · intro honce
    have hleft : result.leftAddrs = 0 := by
      refine Multiset.eq_zero_of_forall_notMem fun a ha => ?_
      have hpos := Multiset.count_pos.mpr ha
      have hle' := hcount a
      have hone := Multiset.nodup_iff_count_le_one.mp (nodup_made s'.heap) a
      have hmem : a ∈ s'.heap.made := Multiset.one_le_count_iff_mem.mp (by omega)
      have hnew : a ∉ heap.made := fun hold => by
        have hold' := Multiset.count_pos.mpr hold
        omega
      have hfreed := honce a hmem hnew
      omega
    refine ⟨fun a ha hnew _ => ?_, hleft⟩
    rw [hleft, add_zero]
    exact honce a ha hnew
  · rintro ⟨honce, hleft⟩ a ha hnew
    have hall := honce a ha hnew rfl
    rwa [hleft, add_zero] at hall

theorem freed_once_order : ∃ (d : Derivation .input) (heap' : Heap) (result' : SQLParserResult),
    Parses ⟨0, 0, 0, 0⟩ .new "SELECT ? FROM t ORDER BY a LIMIT 1".toList heap' result' ∧
      result'.freedAddrs + Heap.made ⟨0, 0, 0, 0⟩ ≤ heap'.made ∧
        ((∀ a ∈ heap'.made, a ∉ Heap.made ⟨0, 0, 0, 0⟩ → result'.freedAddrs.count a = 1) ↔
          d.Each (clauses fun _ => true) keepsClauses ∧ result'.BareTriggers) := by
  have hrun : ((derive 100 "SELECT ? FROM t ORDER BY a LIMIT 1".toList).any fun d =>
      (d.eval actions (.start ⟨0, 0, 0, 0⟩ .new)).isSome) = true := by
    rw [derive_rowwise]
    decide +kernel
  obtain ⟨d, hd, heval⟩ := (Option.any_eq_true _ _).mp hrun
  obtain ⟨x, hx⟩ := Option.isSome_iff_exists.mp heval
  obtain ⟨hparses, hbuilds⟩ := parses_of_derive hd hx
  exact ⟨d, x.2.heap, _, hparses, freed_once hparses rfl hbuilds⟩

end Hsql
