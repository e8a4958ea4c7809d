import Hsql.Bison.Frontier
import Hsql.Parser.Grammar

/-! The operands of the joins of a `FROM`: names, aliases, join types and columns are told by what
their derivations spell, down to the conditions and to the selects in parentheses. -/

namespace Hsql
open Bison Keyword TokenKind

/-- Conditions and selects in parentheses are not looked into. -/
def opaqueInFrom : NT → Bool
  | .joinCondition | .selectStatement => true
  | _ => false

abbrev FromLeaf := Leaf grammar TokenKind.Val Location

abbrev spelled {n : NT} (d : Derivation n) : List FromLeaf := d.frontier opaqueInFrom

abbrev tok (t : TokenKind) (a : t.Val) : FromLeaf := .token ⟨t, a⟩

/-- The next leaf is none of these tokens. -/
def NotAhead (kinds : List TokenKind) (o : Option FromLeaf) : Prop :=
  ∀ t a, o = some (tok t a) → t ∉ kinds

theorem NotAhead.mono {kinds kinds' : List TokenKind} {o : Option FromLeaf} (h : NotAhead kinds o)
    (hsub : kinds' ⊆ kinds) : NotAhead kinds' o := fun t a ho hmem => h t a ho (hsub hmem)

theorem NotAhead.ne {kinds : List TokenKind} {t : TokenKind} {a : t.Val} {L : List FromLeaf}
    (h : NotAhead kinds (tok t a :: L).head?) : t ∉ kinds := h t a rfl

theorem eval_rule {n : NT} (r : grammar.Rule n) {p : Location}
    {kids : Forest grammar TokenKind.Val Location (grammar.rhs r)} {s s' : ParserState}
    {vs : Vals TokenKind.Val NT.Val (grammar.rhs r)}
    (h : Forest.eval actions kids s = some (vs, s')) :
    (Bison.Tree.node r p kids).eval actions s = actions.act r vs p s' := Tree.eval_of_kids h

/-! Names. -/

/-- The text of a token of `string_or_token`. -/
def nameOf : FromLeaf → Option Str
  | .token ⟨.IDENTIFIER, a⟩ => some a
  | .token ⟨.STRING, a⟩ => some a
  | .token ⟨.kw .RECURSIVE, _⟩ => strdup "recursive"
  | .token ⟨.kw .TEXT, _⟩ => strdup "text"
  | .token ⟨.kw .ON, _⟩ => strdup "ON"
  | .token ⟨.kw .KEY, _⟩ => strdup "key"
  | .token ⟨.kw .TEMP, _⟩ => strdup "temp"
  | .token ⟨.kw .REPLACE, _⟩ => strdup "replace"
  | _ => none

/-- The tokens of `string_or_token`. -/
def nameKinds : List TokenKind :=
  [.IDENTIFIER, .STRING, RECURSIVE, TEXT, ON, KEY, TEMP, REPLACE]

theorem spelled_stringOrToken (d : Derivation .stringOrToken) : ∃ t a, spelled d = [tok t a] ∧
    t ∈ nameKinds ∧ ∀ s, d.eval actions s = some (nameOf (tok t a), s) := by
  obtain ⟨r, p, kids⟩ := d
  match r, kids with
  | ⟨0, _⟩, .token a .nil => exact ⟨.IDENTIFIER, a, rfl, by decide, fun _ => rfl⟩
  | ⟨1, _⟩, .token a .nil => exact ⟨.STRING, a, rfl, by decide, fun _ => rfl⟩
  | ⟨2, _⟩, .token a .nil => exact ⟨RECURSIVE, a, rfl, by decide, fun _ => rfl⟩
  | ⟨3, _⟩, .token a .nil => exact ⟨TEXT, a, rfl, by decide, fun _ => rfl⟩
  | ⟨4, _⟩, .token a .nil => exact ⟨ON, a, rfl, by decide, fun _ => rfl⟩
  | ⟨5, _⟩, .token a .nil => exact ⟨KEY, a, rfl, by decide, fun _ => rfl⟩
  | ⟨6, _⟩, .token a .nil => exact ⟨TEMP, a, rfl, by decide, fun _ => rfl⟩
  | ⟨7, _⟩, .token a .nil => exact ⟨REPLACE, a, rfl, by decide, fun _ => rfl⟩

def readTableName : List FromLeaf → TableName × List FromLeaf
  | x :: .token ⟨.ch '.', _⟩ :: y :: L => (⟨nameOf x, nameOf y⟩, L)
  | x :: L => (⟨none, nameOf x⟩, L)
  | [] => (⟨none, none⟩, [])

theorem reads_tableName :
    actions.Reads opaqueInFrom .tableName (NotAhead ['.']) readTableName := by
  intro d rest hrest
  obtain ⟨r, p, kids⟩ := d
  match r, kids with
  | ⟨0, _⟩, .tree x .nil =>
    obtain ⟨t, a, hx, -, hvalue⟩ := spelled_stringOrToken x
    refine ⟨⟨none, nameOf (tok t a)⟩, ?_, fun s => ?_⟩
    · show readTableName (spelled x ++ [] ++ rest) = _
      rw [hx]
      show readTableName (tok t a :: rest) = _
      unfold readTableName
      split
      -- a dot cannot follow: it would belong to the name
      · rename_i heq
        obtain ⟨-, rfl⟩ := List.cons_eq_cons.mp heq
        exact absurd (by decide) hrest.ne
      · rename_i heq
        obtain ⟨rfl, rfl⟩ := List.cons_eq_cons.mp heq
        rfl
      · rename_i heq
        cases heq
    · have hkids : (Forest.tree x .nil).eval actions s = some ((nameOf (tok t a), ()), s) := by
        simp only [Forest.eval, hvalue, Option.bind_some, Option.map_some]
        rfl
      exact eval_rule (⟨0, by decide⟩ : grammar.Rule .tableName) hkids
  | ⟨1, _⟩, .tree x (.token b (.tree y .nil)) =>
    obtain ⟨t, a, hx, -, hvalue⟩ := spelled_stringOrToken x
    obtain ⟨t', a', hy, -, hvalue'⟩ := spelled_stringOrToken y
    refine ⟨⟨nameOf (tok t a), nameOf (tok t' a')⟩, ?_, fun s => ?_⟩
    · show readTableName (spelled x ++ tok '.' b :: (spelled y ++ []) ++ rest) = _
      rw [hx, hy]
      rfl
    · have hkids : (Forest.tree x (.token b (.tree y .nil))).eval actions s =
          some ((nameOf (tok t a), b, nameOf (tok t' a'), ()), s) := by
        simp only [Forest.eval, hvalue, hvalue', Option.bind_some, Option.map_some]
        rfl
      exact eval_rule (⟨1, by decide⟩ : grammar.Rule .tableName) hkids

def readIndexedBy : List FromLeaf → Option Str × List FromLeaf
  | .token ⟨.kw .INDEXED, _⟩ :: _ :: x :: L => (nameOf x, L)
  | L => (none, L)

theorem spelled_indexedBy (d : Derivation .indexedBy) : ∃ a b t c,
    spelled d = [tok INDEXED a, tok BY b, tok t c] ∧
      ∀ s, d.eval actions s = some (nameOf (tok t c), s) := by
  obtain ⟨r, p, kids⟩ := d
  match r, kids with
  | ⟨0, _⟩, .token a (.token b (.token c .nil)) => exact ⟨a, b, .IDENTIFIER, c, rfl, fun _ => rfl⟩
  | ⟨1, _⟩, .token a (.token b (.token c .nil)) => exact ⟨a, b, .STRING, c, rfl, fun _ => rfl⟩

theorem reads_optIndexedBy :
    actions.Reads opaqueInFrom .optIndexedBy (NotAhead [INDEXED]) readIndexedBy := by
  intro d rest hrest
  obtain ⟨r, p, kids⟩ := d
  match r, kids with
  | ⟨0, _⟩, .tree x .nil =>
    obtain ⟨a, b, t, c, hx, hvalue⟩ := spelled_indexedBy x
    refine ⟨nameOf (tok t c), ?_, fun s => ?_⟩
    · show readIndexedBy (spelled x ++ [] ++ rest) = _
      rw [hx]
      rfl
    · have hkids : (Forest.tree x .nil).eval actions s = some ((nameOf (tok t c), ()), s) := by
        simp only [Forest.eval, hvalue, Option.bind_some, Option.map_some]
        rfl
      exact eval_rule (⟨0, by decide⟩ : grammar.Rule .optIndexedBy) hkids
  | ⟨1, _⟩, .nil =>
    refine ⟨none, ?_, fun _ => rfl⟩
    show readIndexedBy rest = _
    unfold readIndexedBy
    split
    · exact absurd (by decide) hrest.ne
    · rfl

def readAlias : List FromLeaf → Option Str × List FromLeaf
  | .token ⟨.kw .AS, _⟩ :: x :: L => (nameOf x, L)
  | .token ⟨.IDENTIFIER, a⟩ :: L => (some a, L)
  | .token ⟨.STRING, a⟩ :: L => (some a, L)
  | L => (none, L)

/-- What an alias can open with. -/
def aliasKinds : List TokenKind := [AS, .IDENTIFIER, .STRING]

theorem spelled_alias (d : Derivation .«alias») : ∃ v t a L, spelled d = tok t a :: L ∧
    t ∈ aliasKinds ∧ (∀ rest, readAlias (tok t a :: (L ++ rest)) = (v, rest)) ∧
      ∀ s, d.eval actions s = some (v, s) := by
  obtain ⟨r, p, kids⟩ := d
  match r, kids with
  | ⟨0, _⟩, .token a (.token b .nil) =>
    exact ⟨some b, AS, a, [tok .IDENTIFIER b], rfl, by decide, fun _ => rfl, fun _ => rfl⟩
  | ⟨1, _⟩, .token a (.token b .nil) =>
    exact ⟨some b, AS, a, [tok .STRING b], rfl, by decide, fun _ => rfl, fun _ => rfl⟩
  | ⟨2, _⟩, .token b .nil =>
    exact ⟨some b, .IDENTIFIER, b, [], rfl, by decide, fun _ => rfl, fun _ => rfl⟩
  | ⟨3, _⟩, .token b .nil =>
    exact ⟨some b, .STRING, b, [], rfl, by decide, fun _ => rfl, fun _ => rfl⟩

theorem reads_optAlias :
    actions.Reads opaqueInFrom .optAlias (NotAhead aliasKinds) readAlias := by
  intro d rest hrest
  obtain ⟨r, p, kids⟩ := d
  match r, kids with
  | ⟨0, _⟩, .tree x .nil =>
    obtain ⟨v, t, a, L, hx, -, hread, hvalue⟩ := spelled_alias x
    refine ⟨v, ?_, fun s => ?_⟩
    · show readAlias (spelled x ++ [] ++ rest) = _
      rw [hx, List.append_nil]
      exact hread rest
    · have hkids : (Forest.tree x .nil).eval actions s = some ((v, ()), s) := by
        simp only [Forest.eval, hvalue, Option.bind_some, Option.map_some]
        rfl
      exact eval_rule (⟨0, by decide⟩ : grammar.Rule .optAlias) hkids
  | ⟨1, _⟩, .nil =>
    refine ⟨none, ?_, fun _ => rfl⟩
    show readAlias rest = _
    unfold readAlias
    split
    · exact absurd (by decide) hrest.ne
    · exact absurd (by decide) hrest.ne
    · exact absurd (by decide) hrest.ne
    · rfl

/-! The type of a join. -/

def readJoinType : List FromLeaf → JoinType × List FromLeaf
  | .token ⟨.kw .INNER, _⟩ :: L => (.kJoinInner, L)
  | .token ⟨.kw .LEFT, _⟩ :: .token ⟨.kw .OUTER, _⟩ :: L => (.kJoinLeft, L)
  | .token ⟨.kw .LEFT, _⟩ :: L => (.kJoinLeft, L)
  | .token ⟨.kw .RIGHT, _⟩ :: .token ⟨.kw .OUTER, _⟩ :: L => (.kJoinRight, L)
  | .token ⟨.kw .RIGHT, _⟩ :: L => (.kJoinRight, L)
  | .token ⟨.kw .FULL, _⟩ :: .token ⟨.kw .OUTER, _⟩ :: L => (.kJoinFull, L)
  | .token ⟨.kw .OUTER, _⟩ :: L => (.kJoinFull, L)
  | .token ⟨.kw .FULL, _⟩ :: L => (.kJoinFull, L)
  | .token ⟨.kw .CROSS, _⟩ :: L => (.kJoinCross, L)
  | L => (.kJoinInner, L)

def IsJoin (o : Option FromLeaf) : Prop := ∃ a, o = some (tok JOIN a)

theorem reads_optJoinType :
    actions.Reads opaqueInFrom .optJoinType IsJoin readJoinType := by
  intro d rest hrest
  obtain ⟨j, hj⟩ := hrest
  obtain ⟨L, rfl⟩ := List.head?_eq_some_iff.mp hj
  obtain ⟨r, p, kids⟩ := d
  match r, kids with
  | ⟨0, _⟩, .token a .nil => exact ⟨.kJoinInner, rfl, fun _ => rfl⟩
  | ⟨1, _⟩, .token a (.token b .nil) => exact ⟨.kJoinLeft, rfl, fun _ => rfl⟩
  | ⟨2, _⟩, .token a .nil => exact ⟨.kJoinLeft, rfl, fun _ => rfl⟩
  | ⟨3, _⟩, .token a (.token b .nil) => exact ⟨.kJoinRight, rfl, fun _ => rfl⟩
  | ⟨4, _⟩, .token a .nil => exact ⟨.kJoinRight, rfl, fun _ => rfl⟩
  | ⟨5, _⟩, .token a (.token b .nil) => exact ⟨.kJoinFull, rfl, fun _ => rfl⟩
  | ⟨6, _⟩, .token a .nil => exact ⟨.kJoinFull, rfl, fun _ => rfl⟩
  | ⟨7, _⟩, .token a .nil => exact ⟨.kJoinFull, rfl, fun _ => rfl⟩
  | ⟨8, _⟩, .token a .nil => exact ⟨.kJoinCross, rfl, fun _ => rfl⟩
  | ⟨9, _⟩, .nil => exact ⟨.kJoinInner, rfl, fun _ => rfl⟩

/-! The column of a `USING`. -/

/-- What stands behind the dot: a star or a name. -/
def columnOf (t : Str) : FromLeaf → Expr
  | .token ⟨.ch '*', _⟩ => Expr.makeTableStar (some t)
  | x => Expr.makeTableColumnRef (some t) (nameOf x)

theorem columnOf_name (t : Str) {k : TokenKind} (hk : k ∈ nameKinds) (a : k.Val) :
    columnOf t (tok k a) = Expr.makeTableColumnRef (some t) (nameOf (tok k a)) := by
  simp only [nameKinds, List.mem_cons, List.not_mem_nil, or_false] at hk
  obtain rfl | rfl | rfl | rfl | rfl | rfl | rfl | rfl := hk <;> rfl

def readColumn : List FromLeaf → Option Expr × List FromLeaf
  | .token ⟨.IDENTIFIER, t⟩ :: .token ⟨.ch '.', _⟩ :: x :: L => (some (columnOf t x), L)
  | .token ⟨.IDENTIFIER, a⟩ :: L => (some (Expr.makeColumnRef (some a)), L)
  | .token ⟨.ch '*', _⟩ :: L => (some Expr.makeStar, L)
  | L => (none, L)

theorem reads_columnName :
    actions.Reads opaqueInFrom .columnName (NotAhead ['.']) readColumn := by
  intro d rest hrest
  obtain ⟨r, p, kids⟩ := d
  match r, kids with
  | ⟨0, _⟩, .token a .nil =>
    refine ⟨_, ?_, fun _ => rfl⟩
    show readColumn (tok .IDENTIFIER a :: rest) = _
    unfold readColumn
    split <;> rename_i heq
    · obtain ⟨-, rfl⟩ := List.cons_eq_cons.mp heq
      exact absurd (by decide) hrest.ne
    · cases heq
      rfl
    · cases heq
    · rename_i hident
      exact (hident _ _ rfl).elim
  | ⟨1, _⟩, .token t (.token b (.tree x .nil)) =>
    obtain ⟨k, a, hx, hk, hvalue⟩ := spelled_stringOrToken x
    refine ⟨some (Expr.makeTableColumnRef (some t) (nameOf (tok k a))), ?_, fun s => ?_⟩
    · show readColumn (tok .IDENTIFIER t :: tok '.' b :: (spelled x ++ []) ++ rest) = _
      rw [hx, ← columnOf_name t hk]
      rfl
    · have hkids : (Forest.token t (.token b (.tree x .nil))).eval actions s =
          some ((t, b, nameOf (tok k a), ()), s) := by
        simp only [Forest.eval, hvalue, Option.bind_some, Option.map_some]
        rfl
      exact eval_rule (⟨1, by decide⟩ : grammar.Rule .columnName) hkids
  | ⟨2, _⟩, .token a .nil => exact ⟨_, rfl, fun _ => rfl⟩
  | ⟨3, _⟩, .token t (.token b (.token c .nil)) => exact ⟨_, rfl, fun _ => rfl⟩

/-! The operands of a join. -/

theorem notAhead_cons {kinds : List TokenKind} {t : TokenKind} (h : t ∉ kinds) (a : t.Val)
    (L : List FromLeaf) : NotAhead kinds (tok t a :: L).head? := by
  intro t' a' heq
  cases heq
  exact h

theorem notAhead_optAlias (d : Derivation .optAlias) {kinds : List TokenKind} {L : List FromLeaf}
    (hkinds : ∀ t ∈ aliasKinds, t ∉ kinds) (h : NotAhead kinds L.head?) :
    NotAhead kinds (spelled d ++ L).head? := by
  obtain ⟨r, p, kids⟩ := d
  match r, kids with
  | ⟨0, _⟩, .tree x .nil =>
    obtain ⟨v, t, a, L', hx, ht, -⟩ := spelled_alias x
    show NotAhead kinds (spelled x ++ [] ++ L).head?
    rw [hx]
    exact notAhead_cons (hkinds t ht) a _
  | ⟨1, _⟩, .nil => exact h

theorem notAhead_optIndexedBy (d : Derivation .optIndexedBy) {kinds : List TokenKind}
    {L : List FromLeaf} (hkinds : (INDEXED : TokenKind) ∉ kinds) (h : NotAhead kinds L.head?) :
    NotAhead kinds (spelled d ++ L).head? := by
  obtain ⟨r, p, kids⟩ := d
  match r, kids with
  | ⟨0, _⟩, .tree x .nil =>
    obtain ⟨a, b, t, c, hx, -⟩ := spelled_indexedBy x
    show NotAhead kinds (spelled x ++ [] ++ L).head?
    rw [hx]
    exact notAhead_cons hkinds a _
  | ⟨1, _⟩, .nil => exact h

/-- What can go on with an operand. -/
def operandKinds : List TokenKind := ['.', INDEXED, AS, .IDENTIFIER, .STRING]

theorem decides_tableRefName :
    actions.Decides opaqueInFrom .tableRefName (NotAhead operandKinds) := by
  intro d d' rest rest' hrest hrest' heq
  obtain ⟨r, p, kids⟩ := d
  obtain ⟨r', p', kids'⟩ := d'
  match r, kids, r', kids' with
  | ⟨0, _⟩, .tree x (.tree y (.tree z .nil)), ⟨0, _⟩, .tree x' (.tree y' (.tree z' .nil)) =>
    have heq : spelled x ++ (spelled y ++ (spelled z ++ rest)) =
        spelled x' ++ (spelled y' ++ (spelled z' ++ rest')) := by
      simpa only [spelled, Tree.frontier, Forest.frontier, List.append_assoc, List.nil_append,
        if_neg (show ¬ opaqueInFrom .tableRefName = true from by decide)] using heq
    have hname {L : List FromLeaf} (w : Derivation .optAlias) (h : NotAhead operandKinds L.head?) :
        NotAhead ['.', INDEXED] (spelled w ++ L).head? :=
      notAhead_optAlias w (by decide) (h.mono (by decide))
    obtain ⟨hx, heq⟩ := reads_tableName.decides x x' _ _
      (notAhead_optIndexedBy y (by decide) ((hname z hrest).mono (by decide)))
      (notAhead_optIndexedBy y' (by decide) ((hname z' hrest').mono (by decide))) heq
    obtain ⟨hy, heq⟩ := reads_optIndexedBy.decides y y' _ _ ((hname z hrest).mono (by decide))
      ((hname z' hrest').mono (by decide)) heq
    obtain ⟨hz, heq⟩ := reads_optAlias.decides z z' _ _ (hrest.mono (by decide))
      (hrest'.mono (by decide)) heq
    refine ⟨funext fun s => ?_, heq⟩
    simp only [Tree.eval, Forest.eval, hx, hy, hz]
    rfl

theorem spelled_tableRefName (d : Derivation .tableRefName) : ∃ t a L, spelled d = tok t a :: L ∧
    t ∈ nameKinds := by
  obtain ⟨r, p, kids⟩ := d
  match r, kids with
  | ⟨0, _⟩, .tree x (.tree y (.tree z .nil)) =>
    obtain ⟨r, q, kids⟩ := x
    match r, kids with
    | ⟨0, _⟩, .tree w .nil =>
      obtain ⟨t, a, hw, ht, -⟩ := spelled_stringOrToken w
      refine ⟨t, a, [] ++ [] ++ (spelled y ++ (spelled z ++ [])), ?_, ht⟩
      show spelled w ++ [] ++ (spelled y ++ (spelled z ++ [])) = _
      rw [hw]
      rfl
    | ⟨1, _⟩, .tree w (.token b (.tree v .nil)) =>
      obtain ⟨t, a, hw, ht, -⟩ := spelled_stringOrToken w
      refine ⟨t, a, tok '.' b :: (spelled v ++ []) ++ (spelled y ++ (spelled z ++ [])), ?_, ht⟩
      show spelled w ++ tok '.' b :: (spelled v ++ []) ++ (spelled y ++ (spelled z ++ [])) = _
      rw [hw]
      rfl

theorem decides_nonjoinTableRefAtomic :
    actions.Decides opaqueInFrom .nonjoinTableRefAtomic (NotAhead operandKinds) := by
  have hparen (d : Derivation .tableRefName) (a : Unit) (L L' : List FromLeaf) :
      spelled d ++ L ≠ tok '(' a :: L' := by
    obtain ⟨t, b, L'', hd, ht⟩ := spelled_tableRefName d
    rw [hd]
    intro heq
    cases (List.cons_eq_cons.mp heq).1
    exact absurd ht (by decide)
  intro d d' rest rest' hrest hrest' heq
  obtain ⟨r, p, kids⟩ := d
  obtain ⟨r', p', kids'⟩ := d'
  match r, kids, r', kids' with
  | ⟨0, _⟩, .tree x .nil, ⟨0, _⟩, .tree x' .nil =>
    have heq : spelled x ++ rest = spelled x' ++ rest' := by
      simpa only [spelled, Tree.frontier, Forest.frontier, List.append_nil,
        if_neg (show ¬ opaqueInFrom .nonjoinTableRefAtomic = true from by decide)] using heq
    obtain ⟨hx, heq⟩ := decides_tableRefName x x' _ _ hrest hrest' heq
    refine ⟨funext fun s => ?_, heq⟩
    simp only [Tree.eval, Forest.eval, hx]
    rfl
  | ⟨0, _⟩, .tree x .nil, ⟨1, _⟩, .token a (.tree y (.token b (.tree z .nil))) =>
    have heq : spelled x ++ rest =
        tok '(' a :: (spelled y ++ tok ')' b :: (spelled z ++ rest')) := by
      simpa only [spelled, Tree.frontier, Forest.frontier, List.append_nil,
        List.append_assoc, List.cons_append,
        if_neg (show ¬ opaqueInFrom .nonjoinTableRefAtomic = true from by decide)] using heq
    -- no name opens with a parenthesis
    exact absurd heq (hparen x a rest _)
  | ⟨1, _⟩, .token a (.tree y (.token b (.tree z .nil))), ⟨0, _⟩, .tree x .nil =>
    have heq : spelled x ++ rest' =
        tok '(' a :: (spelled y ++ tok ')' b :: (spelled z ++ rest)) := by
      simpa only [spelled, Tree.frontier, Forest.frontier, List.append_nil,
        List.append_assoc, List.cons_append,
        if_neg (show ¬ opaqueInFrom .nonjoinTableRefAtomic = true from by decide)] using heq.symm
    exact absurd heq (hparen x a rest' _)
  | ⟨1, _⟩, .token a (.tree y (.token b (.tree z .nil))), ⟨1, _⟩,
      .token a' (.tree y' (.token b' (.tree z' .nil))) =>
    have heq : tok '(' a :: (spelled y ++ tok ')' b :: (spelled z ++ rest)) =
        tok '(' a' :: (spelled y' ++ tok ')' b' :: (spelled z' ++ rest')) := by
      simpa only [spelled, Tree.frontier, Forest.frontier, List.append_nil,
        List.append_assoc, List.cons_append,
        if_neg (show ¬ opaqueInFrom .nonjoinTableRefAtomic = true from by decide)] using heq
    obtain ⟨hy, heq⟩ := actions.decides_leaf rfl
      (fun _ => True) y y' _ _ trivial trivial (List.cons_eq_cons.mp heq).2
    obtain ⟨hz, heq⟩ := reads_optAlias.decides z z' _ _ (hrest.mono (by decide))
      (hrest'.mono (by decide)) (List.cons_eq_cons.mp heq).2
    refine ⟨funext fun s => ?_, heq⟩
    simp only [Tree.eval, Forest.eval, hy, hz]
    rfl

end Hsql
