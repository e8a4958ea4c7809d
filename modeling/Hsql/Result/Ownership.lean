import Hsql.Result.Operations

/-! Who owns the statements while a program makes results, moves them and takes their statements.
Statements are followed by their addresses. -/

namespace Hsql

/-- The results in the order of their construction, `none` once destroyed, the statements that
`releaseStatements` has handed out, those that were deleted, and the number of those made. -/
structure Program where
  results : List (Option (SQLParserResult Nat))
  released : List Nat
  deleted : List Nat
  made : Nat

inductive ResultCall where
  | new
  | ofStatement
  | addStatement (i : Nat)
  | move (i : Nat)
  | releaseStatements (i : Nat)
  | reset (i : Nat)
  | destroy (i : Nat)

namespace Program

def start : Program := ⟨[], [], [], 0⟩

/-- The live result of a number. -/
def result (p : Program) (i : Nat) : Option (SQLParserResult Nat) := p.results[i]?.join

def construct (p : Program) (r : SQLParserResult Nat) : Program :=
  { p with results := p.results ++ [some r] }

def set (p : Program) (i : Nat) (r : Option (SQLParserResult Nat)) : Program :=
  { p with results := p.results.set i r }

def release (p : Program) (stmts : List Nat) : Program :=
  { p with released := p.released ++ stmts }

def delete (p : Program) (stmts : List Nat) : Program :=
  { p with deleted := p.deleted ++ stmts }

def make (p : Program) : Nat × Program := (p.made, { p with made := p.made + 1 })

/-- A call. Only live results can be called. -/
def call (p : Program) : ResultCall → Option Program
  | .new => some (p.construct .new)
  | .ofStatement =>
    let (stmt, p) := p.make
    some (p.construct (.ofStatement stmt))
  | .addStatement i => (p.result i).map fun r =>
    let (stmt, p) := p.make
    p.set i (r.addStatement stmt)
  | .move i => (p.result i).map fun r =>
    let (n, stmts, moved) := r.move
    ((p.set i moved).delete stmts).construct n
  | .releaseStatements i => (p.result i).map fun r =>
    let (stmts, r) := r.releaseStatements
    (p.set i r).release stmts
  | .reset i => (p.result i).map fun r =>
    let (stmts, r) := r.reset
    (p.set i r).delete stmts
  | .destroy i => (p.result i).map fun r => (p.set i none).delete r.reset.1

def run (p : Program) (calls : List ResultCall) : Option Program :=
  calls.foldlM call p

/-- The statements in the lists of live results. -/
def held (p : Program) : List Nat :=
  p.results.flatMap fun r => (r.map SQLParserResult.statements).getD []

/-- Each statement made is in one place, once. -/
def Owned (p : Program) : Prop :=
  ∀ stmt, p.held.count stmt + p.released.count stmt + p.deleted.count stmt =
    if stmt < p.made then 1 else 0

theorem held_construct (p : Program) (r : SQLParserResult Nat) :
    (p.construct r).held = p.held ++ r.statements := by
  simp [held, construct]

theorem result_eq_some {p : Program} {i : Nat} {r : SQLParserResult Nat} (h : p.result i = some r) :
    p.results[i]? = some (some r) := by
  unfold result at h
  cases hi : p.results[i]? with
  | none =>
    rw [hi] at h
    cases h
  | some o =>
    rw [hi] at h
    exact congrArg some h

theorem count_flatMap_set {α β : Type} [DecidableEq β] (f : α → List β) {l : List α} {i : Nat}
    {a : α} (h : l[i]? = some a) (b : α) (x : β) :
    ((l.set i b).flatMap f).count x + (f a).count x = (l.flatMap f).count x + (f b).count x := by
  induction l generalizing i with
  | nil => cases h
  | cons c l ih =>
    cases i with
    | zero =>
      obtain rfl := Option.some.inj h
      simp only [List.set_cons_zero, List.flatMap_cons, List.count_append]
      omega
    | succ i =>
      have hrest := ih (i := i) h
      simp only [List.set_cons_succ, List.flatMap_cons, List.count_append]
      omega

/-- What a result held before goes, what it holds then comes. -/
theorem count_held_set {p : Program} {i : Nat} {r : SQLParserResult Nat} (h : p.result i = some r)
    (r' : Option (SQLParserResult Nat)) (x : Nat) :
    (p.set i r').held.count x + r.statements.count x =
      p.held.count x + ((r'.map SQLParserResult.statements).getD []).count x :=
  count_flatMap_set _ (result_eq_some h) r' x

theorem owned_make {p : Program} (h : p.Owned) (x : Nat) :
    p.held.count x + p.released.count x + p.deleted.count x + [p.made].count x =
      if x < p.made + 1 then 1 else 0 := by
  have hx := h x
  rw [hx, List.count_singleton]
  by_cases hlt : x < p.made
  · simp [hlt, Nat.lt_succ_of_lt hlt, hlt.ne']
  · by_cases heq : x = p.made
    · simp [heq]
    · have hnot : ¬ x < p.made + 1 := by omega
      simp [hlt, hnot, Ne.symm heq]

/-- A call moves statements from one place to another. -/
theorem owned_call {p p' : Program} {c : ResultCall} (h : p.Owned) (hc : p.call c = some p') :
    p'.Owned := by
  intro x
  have hx := h x
  have hmake := owned_make h x
  cases c with
  | new =>
    obtain rfl := Option.some.inj hc
    rw [held_construct]
    show (p.held ++ []).count x + p.released.count x + p.deleted.count x =
      if x < p.made then 1 else 0
    rw [List.append_nil]
    exact hx
  | ofStatement =>
    obtain rfl := Option.some.inj hc
    rw [held_construct]
    show (p.held ++ [p.made]).count x + p.released.count x + p.deleted.count x =
      if x < p.made + 1 then 1 else 0
    rw [List.count_append, ← hmake]
    omega
  | addStatement i =>
    obtain ⟨r, hr, rfl⟩ := Option.map_eq_some_iff.mp hc
    have hset := count_held_set hr (some (r.addStatement p.made)) x
    show ((p.set i (r.addStatement p.made)).held).count x + p.released.count x +
      p.deleted.count x = if x < p.made + 1 then 1 else 0
    have hadd : (r.addStatement p.made).statements.count x =
        r.statements.count x + [p.made].count x := List.count_append
    simp only [Option.map_some, Option.getD_some, hadd] at hset
    rw [← hmake]
    omega
  | move i =>
    obtain ⟨r, hr, rfl⟩ := Option.map_eq_some_iff.mp hc
    have hset := count_held_set hr (some r.move.2.2) x
    rw [held_construct]
    show ((p.set i r.move.2.2).held ++ r.statements).count x + p.released.count x +
      (p.deleted ++ []).count x = if x < p.made then 1 else 0
    have hmoved : r.move.2.2.statements.count x = 0 := rfl
    simp only [Option.map_some, Option.getD_some, hmoved] at hset
    rw [List.count_append, List.append_nil]
    omega
  | releaseStatements i =>
    obtain ⟨r, hr, rfl⟩ := Option.map_eq_some_iff.mp hc
    have hset := count_held_set hr (some r.releaseStatements.2) x
    show ((p.set i r.releaseStatements.2).held).count x + (p.released ++ r.statements).count x +
      p.deleted.count x = if x < p.made then 1 else 0
    have hempty : r.releaseStatements.2.statements.count x = 0 := rfl
    simp only [Option.map_some, Option.getD_some, hempty] at hset
    rw [List.count_append]
    omega
  | reset i =>
    obtain ⟨r, hr, rfl⟩ := Option.map_eq_some_iff.mp hc
    have hset := count_held_set hr (some r.reset.2) x
    show ((p.set i r.reset.2).held).count x + p.released.count x +
      (p.deleted ++ r.statements).count x = if x < p.made then 1 else 0
    have hempty : r.reset.2.statements.count x = 0 := rfl
    simp only [Option.map_some, Option.getD_some, hempty] at hset
    rw [List.count_append]
    omega
  | destroy i =>
    obtain ⟨r, hr, rfl⟩ := Option.map_eq_some_iff.mp hc
    have hset := count_held_set hr none x
    show ((p.set i none).held).count x + p.released.count x +
      (p.deleted ++ r.statements).count x = if x < p.made then 1 else 0
    simp only [Option.map_none, Option.getD_none, List.count_nil] at hset
    rw [List.count_append]
    omega

/-- In every run each statement made is in the list of one live result, handed out or deleted, and
in none of these twice. -/
theorem owned_run {calls : List ResultCall} {p : Program} (h : start.run calls = some p) :
    p.Owned := by
  have hrun : ∀ (calls : List ResultCall) (p p' : Program), p.Owned →
      p.run calls = some p' → p'.Owned := by
    intro calls
    induction calls with
    | nil =>
      intro p p' hp hrun
      obtain rfl := Option.some.inj hrun
      exact hp
    | cons c calls ih =>
      intro p p' hp hrun
      rw [run, List.foldlM_cons] at hrun
      obtain ⟨p₁, hcall, hrest⟩ := Option.bind_eq_some_iff.mp hrun
      exact ih p₁ p' (owned_call hp hcall) hrest
  have hstart : start.Owned := by
    intro x
    rfl
  exact hrun calls start p hstart h

theorem owned_run_moved : ∃ p, start.run [.ofStatement, .addStatement 0, .move 0, .destroy 0,
    .releaseStatements 1] = some p ∧ p.Owned := by
  have hrun : (start.run [.ofStatement, .addStatement 0, .move 0, .destroy 0,
      .releaseStatements 1]).isSome = true := by
    decide
  obtain ⟨p, hp⟩ := Option.isSome_iff_exists.mp hrun
  exact ⟨p, hp, owned_run hp⟩

end Program
end Hsql
