import TrpcMysql.Executor.Calls
import TrpcMysql.Executor.Closed
import TrpcMysql.Results.Ledger
import TrpcMysql.Results.Memory

/-!
# MYSQL_RES objects are freed

A program calls executors and results objects in any order, and a ledger counts its MYSQL_RES objects: those
that `mysql_store_result` and `mysql_stmt_result_metadata` return, and those that are passed to
`mysql_free_result`. In every state that the program reaches, the unreleased ones are those in the
`mysql_res_` of its results objects, and all others were freed once, exactly if it takes no step of two kinds
(`results_released_iff`): a `QueryAll` in bind mode that gets the columns of its statement, since nothing frees
what `GetResultsMeta` returns, and a move assignment to an object that holds a result, since `operator=`
overwrites `mysql_res_`.
-/

namespace TrpcMysql

open Function Conc

/-! ## Programs that use results objects -/

/-- What a library call means for the ledger. -/
def LibCall.enter (l : Ledger) : LibCall → Ledger
  | .metadata (some _) => l.issue 1
  | .stored _ => l.issue 1
  | .freed r => l.giveBack r
  | _ => l

/-- `mysql_stmt_result_metadata` returned a MYSQL_RES. -/
def LibCall.isMetadata : LibCall → Bool
  | .metadata (some _) => true
  | _ => false

namespace MysqlResults

/-- What a move takes. -/
def moved (r : MysqlResults) (errorNumber : ℤ) : MysqlResults := { r with errorNumber := errorNumber }

/-- What a move leaves behind. -/
def movedFrom (r : MysqlResults) : MysqlResults :=
  { r with resultSet := [], fieldsName := [], nullFlags := [], errorMessage := "", mysqlRes := none }

end MysqlResults

/-- Executors and results objects, and the ledger of the MYSQL_RES objects. -/
structure UserSt where
  executors : ℕ → ExecSt := fun _ => {}
  objects : ObjId → Option MysqlResults := fun _ => none
  nextObj : ObjId := 0
  ledger : Ledger := {}

/-- What the program does. The answers are those of the environment to the library calls. -/
inductive UserOp where
  | construct (mode : MysqlResultsMode) (option : MysqlResultsOption)
  | queryAll (e : ℕ) (x : ObjId) (sql : Sql) (args : List InputArg) (as : List ClientAnswer)
  | execute (e : ℕ) (x : ObjId) (sql : Sql) (args : List InputArg) (as : List ClientAnswer)
  /-- any other call of an executor -/
  | executor (e : ℕ) (c : ExecutorCall) (as : List ClientAnswer)
  | getResultSet (x : ObjId)
  | clear (x : ObjId)
  | moveConstruct (x : ObjId)
  | moveAssign (x y : ObjId)
  | destroy (x : ObjId)

/-- The calls that take a results object. -/
def ExecutorCall.takesResults : ExecutorCall → Bool
  | queryAll .. | execute .. => true
  | _ => false

namespace UserSt

variable (u : UserSt)

/-- The result in the `mysql_res_` of an object. -/
def held (x : ObjId) : Option ResPtr := (u.objects x).bind MysqlResults.mysqlRes

def put (x : ObjId) (r : MysqlResults) : UserSt := { u with objects := update u.objects x (some r) }

def new (r : MysqlResults) : UserSt := { u.put u.nextObj r with nextObj := u.nextObj + 1 }

/-- The result of the object is freed, as `Clear` and the destructor do it. -/
def freeResult (r : MysqlResults) : UserSt := { u with ledger := u.ledger.giveBack r.mysqlRes }

/-- The answers to a call: a stored result is a new one. -/
def answers (as : List ClientAnswer) : List ClientAnswer := as.map fun a => { a with res := u.ledger.issued }

/-- The library calls that a program makes on executor `e`. -/
def calls {α : Type} (e : ℕ) (p : XProg α) (as : List ClientAnswer) : List LibCall :=
  p.seen clientExec libCalls (u.executors e) (u.answers as)

/-- A call on executor `e`. -/
def call {α : Type} (e : ℕ) (p : XProg α) (as : List ClientAnswer) : Option (α × UserSt) :=
  match p.run clientExec (u.executors e) (u.answers as) with
  | none => none
  | some (a, s, _) =>
    some (a, { u with
      executors := update u.executors e s
      ledger := (u.calls e p as).foldl LibCall.enter u.ledger })

/-- One step; there is none for a program that does not compile or that names no object. -/
def step : UserOp → Option UserSt
  | .construct mode option => some (u.new { mode := mode, option := option })
  | .queryAll e x sql args as => do
    let r ← u.objects x
    let ((_, r), u) ← u.call e (MysqlExecutor.queryAll r sql args) as
    return u.put x r
  | .execute e x sql args as => do
    let r ← u.objects x
    if r.mode ≠ .onlyExec then none
    let ((_, r), u) ← u.call e (MysqlExecutor.execute r sql args) as
    return u.put x r
  | .executor e c as => do
    if c.takesResults then none
    let (_, u) ← u.call e c.prog as
    return u
  | .getResultSet x => do
    let r ← u.objects x
    return u.put x r.getResultSet.2
  | .clear x => do
    let r ← u.objects x
    return (u.freeResult r).put x r.cleared
  | .moveConstruct x => do
    let r ← u.objects x
    return (u.put x r.movedFrom).new (r.moved 0)
  | .moveAssign x y => do
    let r ← u.objects x
    let r' ← u.objects y
    if r.mode ≠ r'.mode then none
    -- `error_number_` stays as it was
    if x = y then return u
    return (u.put y r'.movedFrom).put x (r'.moved r.errorNumber)
  | .destroy x => do
    let r ← u.objects x
    let u := u.freeResult r
    return { u with objects := update u.objects x none }

/-- The unreleased results are those that an object holds; all others were freed once. -/
def Released : Prop :=
  ∀ n < u.ledger.issued, u.ledger.released n = if ∃ x < u.nextObj, u.held x = some n then 0 else 1

instance : Decidable u.Released := by
  unfold Released
  infer_instance

/-- The step loses no result: `QueryAll` gets no metadata, and a move assignment overwrites no result. -/
def Keeps : UserOp → Prop
  | .queryAll e x sql args as => ∀ r ∈ u.objects x,
    ∀ c ∈ u.calls e (MysqlExecutor.queryAll r sql args) as, c.isMetadata = false
  | .moveAssign x y => x ≠ y → u.held x = none
  | _ => True

/-- `P` holds in every state of the run. -/
def Always (P : UserSt → Prop) : List UserOp → UserSt → Prop
  | [], u => P u
  | op :: ops, u => P u ∧
    match u.step op with
    | none => True
    | some u' => Always P ops u'

instance Always.decidable {P : UserSt → Prop} [DecidablePred P] :
    ∀ (ops : List UserOp) (u : UserSt), Decidable (Always P ops u)
  | [], u => inferInstanceAs (Decidable (P u))
  | op :: ops, u =>
    match hs : u.step op with
    | none => decidable_of_iff (P u) (by simp [Always, hs])
    | some u' =>
      have : Decidable (Always P ops u') := Always.decidable ops u'
      decidable_of_iff (P u ∧ Always P ops u') (by simp [Always, hs])

/-- `P` holds of every step of the run. -/
def EachStep (P : UserSt → UserOp → Prop) : List UserOp → UserSt → Prop
  | [], _ => True
  | op :: ops, u =>
    match u.step op with
    | none => True
    | some u' => P u op ∧ EachStep P ops u'

end UserSt

/-! ## What a statement does to the ledger -/

section Traces

variable {l : Ledger} {r : MysqlResults} {args : List InputArg} {tr : List LibCall}

/-- Fetching neither issues a result nor frees one. -/
theorem enter_rowCalls {h : QueryHandle} {rows : List FetchedRow} : (h.rowCalls rows).foldl LibCall.enter l = l := by
  have hall : ∀ c ∈ h.rowCalls rows, c.enter l = l := by
    intro c hc
    obtain ⟨row, rfl⟩ | ⟨ok, rfl⟩ := QueryHandle.mem_rowCalls hc <;> rfl
  generalize h.rowCalls rows = cs at hall
  induction cs with
  | nil => rfl
  | cons c cs ih =>
    rw [List.foldl_cons, hall c List.mem_cons_self]
    exact ih fun c' hc' => hall c' (List.mem_cons_of_mem _ hc')

theorem enter_exec {exec : List LibCall} (h : exec = [] ∨ exec = [.execute]) : exec.foldl LibCall.enter l = l := by
  rcases h with rfl | rfl <;> rfl

@[simp] theorem issue_issue (k k' : ℕ) : (l.issue k).issue k' = l.issue (k + k') := by
  simp only [Ledger.issue, Nat.add_assoc]

/-- In bind mode the result of the object is freed, and every metadata result that is obtained adds up. -/
theorem QueryBindTrace.enter {outputs : List OutputArg} {x : Bool × MysqlResults}
    (h : QueryBindTrace outputs r args tr x) : x.2.mysqlRes = none ∧
      ∃ k, tr.foldl LibCall.enter l = (l.giveBack r.mysqlRes).issue k ∧
        ((∀ c ∈ tr, c.isMetadata = false) ↔ k = 0) := by
  cases h with
  | unprepared => exact ⟨rfl, 0, rfl, by simp [LibCall.isMetadata]⟩
  | refused => exact ⟨rfl, 1, rfl, by simp [LibCall.isMetadata]⟩
  | unbound => exact ⟨rfl, 1, rfl, by simp [LibCall.isMetadata]⟩
  | failed hcheck hexec =>
    refine ⟨rfl, 2, ?_, by simp [LibCall.isMetadata]⟩
    rw [List.foldl_append, List.foldl_append, enter_exec hexec, enter_rowCalls]
    exact issue_issue 1 1
  | done hcheck hexec =>
    rename_i last
    refine ⟨by rw [MysqlResults.setFieldsName_mysqlRes]; rfl, 2 + last.toList.length, ?_, by simp [LibCall.isMetadata]⟩
    rw [List.foldl_append, List.foldl_append, List.foldl_append, enter_exec hexec, enter_rowCalls]
    cases last with
    | none => exact issue_issue 1 1
    | some fields =>
      show (((l.giveBack r.mysqlRes).issue 1).issue 1).issue 1 = _
      rw [issue_issue, issue_issue]
      rfl

/-- In native mode the result of the object is freed, and it keeps the one that is stored. -/
theorem QueryNativeTrace.enter {x : Bool × MysqlResults} (h : QueryNativeTrace r tr x) :
    (∀ c ∈ tr, c.isMetadata = false) ∧
      ((x.2.mysqlRes = none ∧ tr.foldl LibCall.enter l = l.giveBack r.mysqlRes) ∨
        ∃ res, .stored res ∈ tr ∧ x.2.mysqlRes = some res.ptr ∧
          tr.foldl LibCall.enter l = (l.giveBack r.mysqlRes).issue 1) := by
  cases h with
  | failed => exact ⟨by simp [LibCall.isMetadata], .inl ⟨rfl, rfl⟩⟩
  | done => exact ⟨by simp [LibCall.isMetadata], .inr ⟨_, by simp, rfl, rfl⟩⟩

theorem ExecuteTrace.enter {x : ℕ × MysqlResults} (h : ExecuteTrace r args tr x) :
    x.2.mysqlRes = none ∧ tr.foldl LibCall.enter l = l.giveBack r.mysqlRes := by
  cases h with
  | unprepared => exact ⟨rfl, rfl⟩
  | failed hexec =>
    refine ⟨rfl, ?_⟩
    rw [List.foldl_append, enter_exec hexec]
    rfl
  | done hexec =>
    refine ⟨rfl, ?_⟩
    rw [List.foldl_append, enter_exec hexec]
    rfl

/-- `Execute` leaves the results alone, or frees the one of the object. -/
theorem execute_enter (r : MysqlResults) (sql : Sql) (args : List InputArg) :
    Calls (MysqlExecutor.execute r sql args) fun tr x => (x.2.mysqlRes = r.mysqlRes ∧ tr = []) ∨
      (x.2.mysqlRes = none ∧ ∀ l, tr.foldl LibCall.enter l = l.giveBack r.mysqlRes) := by
  unfold MysqlExecutor.execute
  split
  · refine calls_call (MysqlExecutor.executeText_calls r sql) fun tr x hx => ?_
    obtain ⟨rfl, hr⟩ := hx
    refine calls_pure (.inl ⟨?_, rfl⟩)
    rcases hr with hr | ⟨message, number, hr⟩
    · rw [hr]
    · rw [hr]
      rfl
  · refine calls_call (MysqlExecutor.executePrepared_calls r sql args) fun tr x hx => calls_pure (.inr ⟨?_, fun l => ?_⟩)
    · exact (hx.enter (l := {})).1
    · rw [List.append_nil]
      exact hx.enter.2

end Traces

open MysqlExecutor in
/-- The other calls of an executor obtain and free nothing. -/
theorem ExecutorCall.plain {c : ExecutorCall} (hc : c.takesResults = false) : c.prog.Uses ClientOp.Plain := by
  have hclose : MysqlExecutor.close.Uses ClientOp.Plain := by
    refine plain_op (fun _ => rfl) fun this => ?_
    dsimp only
    split
    · exact plain_op (fun _ => rfl) fun _ => plain_op (fun _ => rfl) fun _ => plain_op (fun _ => rfl) fun _ => trivial
    · exact plain_op (fun _ => rfl) fun _ => trivial
  cases c with
  | construct =>
    exact plain_op (fun _ => rfl) fun _ => plain_op (fun _ => rfl) fun _ => plain_op (fun _ => rfl) fun _ =>
      plain_op (fun _ => rfl) fun _ => plain_op (fun _ => rfl) fun _ => ⟨fun _ => rfl, fun _ => trivial⟩
  | connect => exact plain_connect.bind fun _ => trivial
  | reconnect => exact plain_connect.bind fun _ => trivial
  | startReconnect => exact (plain_retry _).bind fun _ => trivial
  | checkAlive => exact plain_checkAlive.bind fun _ => trivial
  | isConnected => exact plain_op (fun _ => rfl) fun _ => trivial
  | queryAll => cases hc
  | execute => cases hc
  | autoCommit mode =>
    refine Prog.Uses.bind (plain_op (fun _ => rfl) fun this => plain_op (fun _ => rfl) fun ok => ?_) fun _ => trivial
    cases ok
    · trivial
    · exact plain_op (fun _ => rfl) fun _ => trivial
  | getErrorNumber => exact plain_mysqlErrno.bind fun _ => trivial
  | getErrorMessage => exact plain_mysqlError.bind fun _ => trivial
  | close => exact hclose
  | destroy =>
    refine plain_op (fun _ => rfl) fun this => ?_
    dsimp only
    split
    · exact plain_crash
    · exact hclose

namespace UserSt

variable {u u' : UserSt} {α : Type} {e : ℕ} {p : XProg α} {as : List ClientAnswer} {a : α} {x y : ObjId}
  {r : MysqlResults}

/-! ## Calls -/

/-- A call follows a path of its program, and leaves the objects alone. -/
theorem call_spec (h : u.call e p as = some (a, u')) : p.Path libCalls (u.calls e p as) a ∧
    u'.objects = u.objects ∧ u'.nextObj = u.nextObj ∧
      u'.ledger = (u.calls e p as).foldl LibCall.enter u.ledger := by
  unfold call at h
  cases hr : p.run clientExec (u.executors e) (u.answers as) with
  | none =>
    rw [hr] at h
    cases h
  | some z =>
    obtain ⟨b, s, rest⟩ := z
    rw [hr] at h
    cases h
    exact ⟨Prog.run_path hr, rfl, rfl, rfl⟩

/-- `mysql_store_result` hands over the result that the environment chose. -/
theorem storeResult_exec {m : Option MysqlPtr} {b : ClientAnswer} {s s' : ExecSt} {res : StoredResult}
    (h : clientExec (.mysqlStoreResult m) b s = some (some res, s')) : res.ptr = b.res := by
  cases m with
  | none => cases h
  | some p =>
    simp only [clientExec] at h
    split at h
    · cases h
    split at h
    · cases h
      rfl
    · cases h

/-- A result that a call stores is a new one. -/
theorem stored_calls {res : StoredResult} (h : .stored res ∈ u.calls e p as) : res.ptr = u.ledger.issued := by
  obtain ⟨o, b, s, q, s', hb, he, hc⟩ := Prog.mem_seen h
  have hres : b.res = u.ledger.issued := by
    obtain ⟨b', -, rfl⟩ := List.mem_map.1 hb
    rfl
  cases o
  case mysqlStoreResult m =>
    cases q with
    | none => cases hc
    | some res' =>
      obtain rfl : res = res' := LibCall.stored.inj (List.mem_singleton.1 hc)
      rw [storeResult_exec he, hres]
  case mysqlStmtFetch => cases q <;> simp [libCalls] at hc
  all_goals simp [libCalls] at hc

/-! ## One step -/

/-- The objects are numbered, and the ledger is balanced. -/
structure Sound (u : UserSt) : Prop where
  bound : ∀ x r, u.objects x = some r → x < u.nextObj
  balanced : Ledger.Balanced u.held u.ledger

theorem released_iff (h : ∀ x r, u.objects x = some r → x < u.nextObj) :
    u.Released ↔ Ledger.Settled u.held u.ledger := by
  refine forall₂_congr fun n _ => ?_
  have hlt : ∀ x, u.held x = some n → x < u.nextObj := by
    intro x hx
    obtain ⟨r, hr, -⟩ := Option.bind_eq_some_iff.1 hx
    exact h x r hr
  by_cases hn : ∃ x < u.nextObj, u.held x = some n
  · rw [if_pos hn]
    obtain ⟨x, -, hx⟩ := hn
    exact ⟨fun h0 => .inl ⟨⟨x, hx⟩, h0⟩, fun h => h.elim And.right fun h => absurd hx (h.1 x)⟩
  · rw [if_neg hn]
    have hnone : ∀ x, u.held x ≠ some n := fun x hx => hn ⟨x, hlt x hx, hx⟩
    exact ⟨fun h1 => .inr ⟨hnone, h1⟩, fun h => h.elim (fun ⟨⟨x, hx⟩, _⟩ => absurd hx (hnone x)) And.right⟩

theorem held_of (hx : u.objects x = some r) : u.held x = r.mysqlRes := by rw [held, hx]; rfl

theorem held_put : (u.put x r).held = update u.held x r.mysqlRes := by
  funext y
  by_cases hy : y = x
  · subst hy
    simp [held, put]
  · simp [held, put, update_of_ne hy]

theorem held_new : (u.new r).held = update u.held u.nextObj r.mysqlRes := held_put

theorem bound_put (h : ∀ y r, u.objects y = some r → y < u.nextObj) (hx : x < u.nextObj) :
    ∀ y r', (u.put x r).objects y = some r' → y < u.nextObj := by
  intro y r' hy
  by_cases hyx : y = x
  · rwa [hyx]
  · have hsame : (u.put x r).objects y = u.objects y := update_of_ne hyx ..
    exact h y r' (by rwa [hsame] at hy)

theorem bound_new (h : ∀ y r, u.objects y = some r → y < u.nextObj) :
    ∀ y r', (u.new r).objects y = some r' → y < (u.new r).nextObj := by
  intro y r' hy
  show y < u.nextObj + 1
  by_cases hyn : y = u.nextObj
  · exact Nat.lt_succ_of_le (Nat.le_of_eq hyn)
  · have hsame : (u.new r).objects y = u.objects y := update_of_ne hyn ..
    exact Nat.lt_succ_of_lt (h y r' (by rwa [hsame] at hy))

/-- The next object is none yet. -/
theorem held_next (h : ∀ y r, u.objects y = some r → y < u.nextObj) : u.held u.nextObj = none := by
  cases hx : u.objects u.nextObj with
  | none => rw [held, hx]; rfl
  | some r => exact absurd (h _ r hx) (Nat.lt_irrefl _)

/-- What a step must do. -/
def Right (u : UserSt) (op : UserOp) (u' : UserSt) : Prop := (u.Keeps op → u'.Sound) ∧ (u'.Released → u.Keeps op)

theorem right_of_sound {op : UserOp} (h : u'.Sound) (hk : u.Keeps op) : u.Right op u' := ⟨fun _ => h, fun _ => hk⟩

/-- An object gives its result back, and it holds none or goes. -/
theorem Sound.giveBack (h : u.Sound) (hx : u.objects x = some r)
    (hbound : ∀ y r, u'.objects y = some r → y < u'.nextObj) (hheld : u'.held = update u.held x none)
    (hl : u'.ledger = u.ledger.giveBack r.mysqlRes) : u'.Sound := by
  refine ⟨hbound, ?_⟩
  rw [hheld, hl, ← held_of hx]
  exact h.balanced.giveBack x

/-- An object is replaced by one that holds the same. -/
theorem Sound.replace (h : u.Sound) {r' : MysqlResults} (hx : u.objects x = some r) (hr : r'.mysqlRes = r.mysqlRes) :
    (u.put x r').Sound := by
  refine ⟨bound_put h.bound (h.bound x r hx), ?_⟩
  rw [held_put, hr, ← held_of hx, update_eq_self]
  exact h.balanced

theorem Sound.construct (h : u.Sound) (mode : MysqlResultsMode) (option : MysqlResultsOption) :
    (u.new { mode := mode, option := option }).Sound := by
  refine ⟨bound_new h.bound, ?_⟩
  rw [held_new]
  show Ledger.Balanced (update u.held u.nextObj none) u.ledger
  rw [← held_next h.bound, update_eq_self]
  exact h.balanced

theorem Sound.moveConstruct (h : u.Sound) (hx : u.objects x = some r) :
    ((u.put x r.movedFrom).new (r.moved 0)).Sound := by
  have hbound := bound_put (r := r.movedFrom) h.bound (h.bound x r hx)
  refine ⟨bound_new hbound, ?_⟩
  rw [held_new, held_put]
  show Ledger.Balanced (update (update u.held x none) u.nextObj r.mysqlRes) u.ledger
  rw [← held_of hx]
  exact h.balanced.handOver (held_next h.bound)

/-- **A move assignment loses the result that the target holds.** -/
theorem Sound.moveAssign (h : u.Sound) {r' : MysqlResults} (hx : u.objects x = some r) (hy : u.objects y = some r')
    (hxy : x ≠ y) {n : ℤ} : (u.held x = none → ((u.put y r'.movedFrom).put x (r'.moved n)).Sound) ∧
      (((u.put y r'.movedFrom).put x (r'.moved n)).Released → u.held x = none) := by
  have hheld : ((u.put y r'.movedFrom).put x (r'.moved n)).held = update (update u.held y none) x (u.held y) := by
    rw [held_put, held_put, held_of hy]
    rfl
  have hbound := bound_put (r := r'.moved n) (bound_put (r := r'.movedFrom) h.bound (h.bound y r' hy)) (h.bound x r hx)
  constructor
  · intro hnone
    refine ⟨hbound, ?_⟩
    rw [hheld]
    exact h.balanced.handOver hnone
  · intro hrel
    rw [released_iff hbound, hheld] at hrel
    by_contra hsome
    obtain ⟨p, hp⟩ := Option.ne_none_iff_exists'.1 hsome
    -- nobody else held it, and the target forgets it
    refine h.balanced.not_settled_forget hp (fun z hz => ?_) hrel
    by_cases hzx : z = x
    · subst hzx
      rw [update_self] at hz
      exact hxy (h.balanced.owner z y p hp hz)
    rw [update_of_ne hzx] at hz
    by_cases hzy : z = y
    · subst hzy
      rw [update_self] at hz
      cases hz
    · rw [update_of_ne hzy] at hz
      exact hzx (h.balanced.owner z x p hz hp)

theorem right_moveAssign (h : u.Sound) (hs : u.step (.moveAssign x y) = some u') : u.Right (.moveAssign x y) u' := by
  simp only [step, Option.bind_eq_bind, Option.bind_eq_some_iff, Option.pure_def] at hs
  obtain ⟨r, hx, r', hy, hs⟩ := hs
  split at hs
  · cases hs
  split at hs
  · rename_i hxy
    cases hs
    exact right_of_sound h fun hne => absurd hxy hne
  · rename_i hxy
    cases hs
    obtain ⟨h1, h2⟩ := h.moveAssign hx hy hxy
    exact ⟨fun hk => h1 (hk hxy), fun hrel _ => h2 hrel⟩

/-- The object of a call is put back. -/
theorem put_call (h : u.Sound) (hx : u.objects x = some r) (hcall : u.call e p as = some (a, u')) (r' : MysqlResults) :
    (u'.put x r').held = update u.held x r'.mysqlRes ∧
      ∀ y r₁, (u'.put x r').objects y = some r₁ → y < (u'.put x r').nextObj := by
  obtain ⟨-, hobjects, hnext, -⟩ := call_spec hcall
  constructor
  · have hheld : u'.held = u.held := funext fun y => by rw [held, held, hobjects]
    rw [held_put, hheld]
  · have hbound : ∀ y r₁, u'.objects y = some r₁ → y < u'.nextObj := by
      rw [hobjects, hnext]
      exact h.bound
    exact bound_put hbound (by rw [hnext]; exact h.bound x r hx)

/-- **`Execute`.** -/
theorem right_execute (h : u.Sound) {sql : Sql} {args : List InputArg}
    (hs : u.step (.execute e x sql args as) = some u') : u.Right (.execute e x sql args as) u' := by
  refine right_of_sound ?_ trivial
  simp only [step, Option.bind_eq_bind, Option.bind_eq_some_iff, Option.pure_def] at hs
  obtain ⟨r, hx, hs⟩ := hs
  split at hs
  · cases hs
  obtain ⟨⟨⟨ok, r'⟩, u₁⟩, hcall, hs⟩ := Option.bind_eq_some_iff.1 hs
  cases hs
  obtain ⟨hpath, -, -, hl⟩ := call_spec hcall
  obtain ⟨hheld, hbound⟩ := put_call h hx hcall r'
  rcases execute_enter r sql args _ _ hpath with ⟨hres, htr⟩ | ⟨hres, hfold⟩
  · refine ⟨hbound, ?_⟩
    have hl₁ : (u₁.put x r').ledger = u.ledger := by rw [htr] at hl; exact hl
    rw [hheld, hl₁, show r'.mysqlRes = r.mysqlRes from hres, ← held_of hx, update_eq_self]
    exact h.balanced
  · exact h.giveBack hx hbound (hheld.trans (by rw [show r'.mysqlRes = none from hres])) (hl.trans (hfold _))

/-- **`QueryAll`.** -/
theorem right_queryAll (h : u.Sound) {sql : Sql} {args : List InputArg}
    (hs : u.step (.queryAll e x sql args as) = some u') : u.Right (.queryAll e x sql args as) u' := by
  simp only [step, Option.bind_eq_bind, Option.bind_eq_some_iff, Option.pure_def] at hs
  obtain ⟨r, hx, ⟨⟨ok, r'⟩, u₁⟩, hcall, hs⟩ := hs
  cases hs
  obtain ⟨hpath, -, -, hl⟩ := call_spec hcall
  obtain ⟨hheld, hbound⟩ := put_call h hx hcall r'
  obtain ⟨r₁, htrace, hr₁⟩ := MysqlExecutor.queryAll_calls r sql args _ _ hpath
  have hres : r'.mysqlRes = r₁.mysqlRes := by
    rw [show r' = _ from hr₁]
    cases ok <;> rfl
  rw [hres] at hheld
  have hback := h.balanced.giveBack x
  rw [held_of hx] at hback
  -- the condition is about this call
  have hkeeps : u.Keeps (.queryAll e x sql args as) ↔
      ∀ c ∈ u.calls e (MysqlExecutor.queryAll r sql args) as, c.isMetadata = false := by
    simp [Keeps, hx]
  rw [Right, hkeeps]
  unfold QueryTrace at htrace
  split at htrace
  · -- bind mode: the metadata results are issued to nobody
    obtain ⟨hnone, k, hfold, hk⟩ := htrace.enter (l := u.ledger)
    have hl₁ : (u₁.put x r').ledger = (u.ledger.giveBack r.mysqlRes).issue k := hl.trans hfold
    rw [show r₁.mysqlRes = none from hnone] at hheld
    rw [hk]
    constructor
    · rintro rfl
      exact h.giveBack hx hbound hheld hl₁
    · intro hrel
      by_contra hne
      rw [released_iff hbound, hheld, hl₁] at hrel
      exact hback.not_settled_issue (Nat.pos_of_ne_zero hne) hrel
  · -- native mode: the stored result is the object's
    obtain ⟨hmeta, hcase⟩ := htrace.enter (l := u.ledger)
    refine ⟨fun _ => ?_, fun _ => hmeta⟩
    rcases hcase with ⟨hnone, hfold⟩ | ⟨res, hmem, hsome, hfold⟩
    · exact h.giveBack hx hbound (hheld.trans (by rw [show r₁.mysqlRes = none from hnone])) (hl.trans hfold)
    · refine ⟨hbound, ?_⟩
      have hl₁ : (u₁.put x r').ledger = (u.ledger.giveBack r.mysqlRes).issue 1 := hl.trans hfold
      have hissue := hback.issue (update_self x none u.held)
      rw [update_idem, Ledger.giveBack_issued] at hissue
      rw [hheld, hl₁, show r₁.mysqlRes = some res.ptr from hsome, stored_calls hmem]
      exact hissue
  · exact htrace.elim

theorem right_executor (h : u.Sound) {c : ExecutorCall}
    (hs : u.step (.executor e c as) = some u') : u.Right (.executor e c as) u' := by
  refine right_of_sound ?_ trivial
  simp only [step, Option.bind_eq_bind, Option.pure_def] at hs
  split at hs
  · cases hs
  rename_i hc
  obtain ⟨⟨⟨⟩, u₁⟩, hcall, hs⟩ := Option.bind_eq_some_iff.1 hs
  cases hs
  obtain ⟨hpath, hobjects, hnext, hl⟩ := call_spec hcall
  have htr := (ExecutorCall.plain (Bool.eq_false_of_not_eq_true hc)).shows (fun o r h => h r) _ _ hpath
  have hl₁ : u₁.ledger = u.ledger := by rw [htr] at hl; exact hl
  have hheld : u₁.held = u.held := funext fun y => by rw [held, held, hobjects]
  refine ⟨by rw [hobjects, hnext]; exact h.bound, ?_⟩
  rw [hheld, hl₁]
  exact h.balanced

theorem right_destroy (h : u.Sound) (hs : u.step (.destroy x) = some u') : u.Right (.destroy x) u' := by
  refine right_of_sound ?_ trivial
  simp only [step, Option.bind_eq_bind, Option.bind_eq_some_iff, Option.pure_def, Option.some.injEq] at hs
  obtain ⟨r, hx, rfl⟩ := hs
  refine h.giveBack hx (fun y r' hy => ?_) (funext fun y => ?_) rfl
  · have hy : update u.objects x none y = some r' := hy
    by_cases hyx : y = x
    · subst hyx
      rw [update_self] at hy
      cases hy
    · rw [update_of_ne hyx] at hy
      exact h.bound y r' hy
  · by_cases hyx : y = x
    · subst hyx
      simp [held]
    · simp [held, freeResult, update_of_ne hyx]

theorem right_getResultSet (h : u.Sound) (hs : u.step (.getResultSet x) = some u') : u.Right (.getResultSet x) u' := by
  refine right_of_sound ?_ trivial
  simp only [step, Option.bind_eq_bind, Option.bind_eq_some_iff, Option.pure_def, Option.some.injEq] at hs
  obtain ⟨r, hx, rfl⟩ := hs
  refine h.replace hx ?_
  unfold MysqlResults.getResultSet
  split
  · rfl
  · split <;> rfl

theorem right_clear (h : u.Sound) (hs : u.step (.clear x) = some u') : u.Right (.clear x) u' := by
  refine right_of_sound ?_ trivial
  simp only [step, Option.bind_eq_bind, Option.bind_eq_some_iff, Option.pure_def, Option.some.injEq] at hs
  obtain ⟨r, hx, rfl⟩ := hs
  exact h.giveBack hx (bound_put h.bound (h.bound x r hx)) held_put rfl

/-- **One step.** -/
theorem right_step {op : UserOp} (h : u.Sound) (hs : u.step op = some u') : u.Right op u' := by
  cases op with
  | construct mode option =>
    cases hs
    exact right_of_sound (h.construct mode option) trivial
  | queryAll => exact right_queryAll h hs
  | execute => exact right_execute h hs
  | executor => exact right_executor h hs
  | getResultSet => exact right_getResultSet h hs
  | clear => exact right_clear h hs
  | moveConstruct x =>
    simp only [step, Option.bind_eq_bind, Option.bind_eq_some_iff, Option.pure_def, Option.some.injEq] at hs
    obtain ⟨r, hx, rfl⟩ := hs
    exact right_of_sound (h.moveConstruct hx) trivial
  | moveAssign => exact right_moveAssign h hs
  | destroy => exact right_destroy h hs

/-- **Every MYSQL_RES is freed once, and the unreleased ones are those that the results objects hold, in every
state of a run exactly if each of its steps keeps the results that it obtains and finds.** -/
theorem results_released_iff (ops : List UserOp) : Always Released ops {} ↔ EachStep Keeps ops {} := by
  have key : ∀ (ops : List UserOp) (u : UserSt), u.Sound → (Always Released ops u ↔ EachStep Keeps ops u) := by
    intro ops
    induction ops with
    | nil =>
      intro u h
      exact iff_of_true ((released_iff h.bound).2 h.balanced.settled) trivial
    | cons op ops ih =>
      intro u h
      have hu : u.Released := (released_iff h.bound).2 h.balanced.settled
      unfold Always EachStep
      cases hs : u.step op with
      | none => exact iff_of_true ⟨hu, trivial⟩ trivial
      | some u' =>
        obtain ⟨h1, h2⟩ := right_step h hs
        constructor
        · rintro ⟨-, h'⟩
          -- the next state is a state of the run
          have hrel : u'.Released := by
            cases ops with
            | nil => exact h'
            | cons op' ops' => exact h'.1
          exact ⟨h2 hrel, (ih u' (h1 (h2 hrel))).1 h'⟩
        · rintro ⟨hk, h'⟩
          exact ⟨hu, (ih u' (h1 hk)).2 h'⟩
  refine key ops {} ⟨fun x r hx => (by cases hx), ?_⟩
  exact Ledger.balanced_empty

/-- A query in bind mode that yields one row: three metadata results were obtained, and none is freed when
the object is gone. -/
theorem metadata_never_freed : ¬ ∀ ops : List UserOp, Always Released ops {} := fun h =>
  absurd (h [.executor 0 .construct (List.replicate 6 {}), .executor 0 .connect (List.replicate 5 {}),
    .construct (.bindType [.int32]) {},
    .queryAll 0 0 (.user (ascii "select a from t")) [] (List.replicate 19
      { columns := some [⟨"a", .long, false⟩]
        rows := some ⟨[⟨"a", .long, false⟩], [[some [1, 0, 0, 0]]]⟩ }),
    .destroy 0]) (by decide +kernel)

end UserSt

end TrpcMysql
