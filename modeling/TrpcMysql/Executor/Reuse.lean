import TrpcMysql.Conc.Lockstep
import TrpcMysql.Executor.Effects

/-!
# One results object for many statements

`QueryAll` and `Execute` fill the caller's `MysqlResults`, and callers use one object for
many statements (`Filled`). `Clear` resets every field but `error_number_`, `Execute`
without arguments does not call it, and the error fields are otherwise written on failure
only. So what the object shows afterwards (`MysqlResults.observe`) depends on what it held
before exactly when the statement itself reports no error (`observe_eq_fresh_iff`).

The proof runs the statement into the used object and into a fresh one in lockstep: the
error fields never decide what is done next, so the two differ in them until an error is
set.
-/

namespace TrpcMysql

open Conc

/-! ## What a caller sees -/

/-- What the methods of a `MysqlResults` show. -/
structure Observed where
  ok : Bool
  errorNumber : ℤ
  errorMessage : String
  rows : List Row
  nullFlags : List (List Bool)
  fieldsName : List String
  affectedRows : ℕ
  value : Option (List Row)
  deriving DecidableEq

def MysqlResults.observe (r : MysqlResults) : Observed where
  ok := r.ok
  errorNumber := r.errorNumber
  errorMessage := r.errorMessage
  rows := r.resultSet
  nullFlags := r.nullFlags
  fieldsName := r.fieldsName
  affectedRows := r.affectedRows
  value := r.getResultSet.1

/-- The results object after one statement, on an executor in state `s` with the answers
`as`; `none` when the statement does not come to its end on them. -/
def resultsAfter (r : MysqlResults) (sql : Sql) (args : List InputArg) (s : ExecSt)
    (as : List ClientAnswer) : Option MysqlResults :=
  ((MysqlExecutor.runStatement r sql args).run clientExec s as).map fun x => x.1.2

/-- A results object after any number of statements, on any executors. -/
inductive Filled (mode : MysqlResultsMode) (option : MysqlResultsOption) : MysqlResults → Prop
  | fresh : Filled mode option { mode := mode, option := option }
  | call {r r' : MysqlResults} (sql : Sql) (args : List InputArg) (s : ExecSt) (as : List ClientAnswer)
      (h : Filled mode option r) (hr : resultsAfter r sql args s as = some r') : Filled mode option r'

/-! ## When a statement reports an error -/

def MysqlResultsMode.outputs : MysqlResultsMode → List OutputArg
  | bindType outputs => outputs
  | _ => []

/-- The reply tells that the statement fails: it is not initialised, prepared, bound,
stored or fetched, the query or its result fails, or an error number is read. -/
def ClientOp.reports : (o : ClientOp) → o.Reply → Bool
  | .mysqlStmtInit _, none => true
  | .mysqlStmtPrepare .., false => true
  | .mysqlStmtBindParam .., false => true
  | .mysqlStmtStoreResult _, none => true
  | .mysqlStmtFetch _, .error => true
  | .mysqlRealQuery .., false => true
  | .mysqlStoreResult _, none => true
  | .mysqlErrno _, n => n ≠ 0
  | .mysqlStmtErrno _, n => n ≠ 0
  | _, _ => false

/-- What the replies to a statement's operations have told so far: nothing, that its
columns fit the outputs, or that it fails. -/
inductive Progress where
  | started
  | checked
  | failed
  deriving DecidableEq

open Progress in
def heed (outputs : List OutputArg) (f : Progress) (o : ClientOp) (r : o.Reply) : Progress :=
  if f = failed then failed
  else if o.reports r then failed
  else match o, r with
    | .mysqlStmtResultMetadata _, some fields =>
      if f = started ∧ checkFieldsOutputArgs outputs fields ≠ "" then failed else checked
    | _, _ => f

/-- The statement reports an error: one of the library calls that its code looks at fails,
or the columns of its result do not fit the outputs. -/
def Reports (mode : MysqlResultsMode) (option : MysqlResultsOption) (sql : Sql) (args : List InputArg)
    (s : ExecSt) (as : List ClientAnswer) : Prop :=
  (MysqlExecutor.runStatement { mode := mode, option := option } sql args).watch clientExec
    (heed mode.outputs) .started s as = .failed

instance : ∀ mode option sql args s as, Decidable (Reports mode option sql args s as) :=
  fun mode option sql args s as => inferInstanceAs (Decidable (Prog.watch clientExec
    (heed mode.outputs) (MysqlExecutor.runStatement { mode := mode, option := option } sql args)
    .started s as = .failed))

/-! ## Operations that tell nothing -/

section Steady

variable {outputs : List OutputArg} {f : Progress} {α β : Type}

theorem heed_failed {o : ClientOp} {r : o.Reply} : heed outputs .failed o r = .failed := by simp [heed]

theorem heed_reports {o : ClientOp} {r : o.Reply} (h : o.reports r = true) :
    heed outputs f o r = .failed := by
  simp [heed, h]

/-- The operations whose replies are not looked at. -/
def ClientOp.plain : ClientOp → Bool
  | mysqlStmtInit _ | mysqlStmtPrepare .. | mysqlStmtBindParam .. | mysqlStmtStoreResult _
  | mysqlStmtFetch _ | mysqlRealQuery .. | mysqlStoreResult _ | mysqlErrno _ | mysqlStmtErrno _
  | mysqlStmtResultMetadata _ => false
  | _ => true

theorem heed_quiet {o : ClientOp} {r : o.Reply} (h : o.reports r = false)
    (hm : ∀ st, o ≠ .mysqlStmtResultMetadata st) : heed outputs f o r = f := by
  unfold heed
  split
  · rename_i hf; exact hf.symm
  rw [h]
  simp only [Bool.false_eq_true, if_false]
  split
  · exact absurd rfl (hm _)
  · rfl

theorem heed_plain {o : ClientOp} (h : o.plain = true) (r : o.Reply) : heed outputs f o r = f := by
  refine heed_quiet ?_ fun st hst => by rw [hst] at h; cases h
  cases o <;> first | rfl | cases h

/-- The program's replies tell nothing. -/
def Steady (p : XProg α) : Prop :=
  ∀ outputs f, p.Lockstep (heed outputs) (fun f' a b => f' = f ∧ a = b) f p

theorem Steady.pure (a : α) : Steady (pure a : XProg α) := fun _ _ => .ret ⟨rfl, rfl⟩

theorem Steady.op {o : ClientOp} (h : o.plain = true) : Steady (xop o) :=
  fun _ _ => .act fun r => .ret ⟨heed_plain h r, rfl⟩

theorem Steady.crash {why : Crash} : Steady (crash why : XProg α) := fun _ _ => .act fun r => r.elim

theorem Steady.bind {p : XProg α} {g : α → XProg β} (hp : Steady p) (hg : ∀ a, Steady (g a)) :
    Steady (p >>= g) := fun _ _ =>
  Prog.Lockstep.bind (hp _ _) fun _ a _ h => by obtain ⟨rfl, rfl⟩ := h; exact hg a _ _

theorem Steady.getThis : Steady getThis := .op rfl

theorem Steady.of_uses {p : XProg α} (h : p.Uses fun o => o.plain = true) : Steady p := by
  induction p with
  | ret a => exact .pure a
  | act o k ih => exact (Steady.op h.1).bind fun r => ih r (h.2 r)

namespace MysqlExecutor

theorem steady_checkAlive : Steady checkAlive := by
  have hoff : Steady (do setConnected false; return false) := (Steady.op rfl).bind fun _ => .pure _
  refine Steady.getThis.bind fun this => ?_
  split
  · exact .pure _
  split
  · exact (Steady.op rfl).bind fun b => by split; exacts [.pure _, hoff]
  · exact hoff

theorem steady_realConnect : Steady realConnect := by
  refine Steady.getThis.bind fun this => (Steady.op rfl).bind fun b => ?_
  split
  · exact (Steady.op rfl).bind fun _ => (Steady.op rfl).bind fun _ => .pure _
  · exact (Steady.op rfl).bind fun _ => .pure _

theorem steady_connect : Steady connect := by
  refine Steady.getThis.bind fun this => ?_
  split
  · exact .pure _
  split
  · exact (Steady.op rfl).bind fun _ => steady_realConnect
  · exact steady_realConnect

theorem steady_retry : ∀ n, Steady (retry n)
  | 0 => .pure _
  | n + 1 => steady_connect.bind fun b => by split; exacts [.pure _, steady_retry n]

theorem steady_endStatement (stmt : MysqlStatement) : Steady (endStatement stmt) := by
  refine Steady.bind ?_ fun x => ?_
  · unfold MysqlStatement.closeStatement
    split
    · refine (Steady.op rfl).bind fun b => ?_
      split
      · exact .pure _
      · exact (Steady.op rfl).bind fun _ => .pure _
    · exact .pure _
  · simp only [MysqlStatement.destroy]; split; exacts [.crash, .pure _]

theorem steady_bindInputArgs (args : List InputArg) : Steady (bindInputArgs args) := by
  unfold bindInputArgs
  split
  · exact .pure _
  · exact .crash

theorem steady_formatQuery (sql : Sql) (args : List InputArg) : Steady (formatQuery sql args) :=
  (Steady.op rfl).bind fun sent => by cases sent; exacts [.crash, .pure _]

theorem steady_fetchRow (stmt : MysqlStatement) (handle : QueryHandle) (row : ServerRow) :
    Steady (fetchRow stmt handle row) := .of_uses (uses_fetchRow stmt handle row fun _ _ => rfl)

end MysqlExecutor

end Steady

/-! ## Lockstep -/

section Lock

variable {outputs : List OutputArg} {f : Progress} {m : String} {n : ℤ} {y : MysqlResults} {γ : Type}

/-- Results of the two runs: equal once an error was set, and until then the one of the
used object still holds its old error. -/
def Tied (m : String) (n : ℤ) (f : Progress) (a b : γ × MysqlResults) : Prop :=
  a.1 = b.1 ∧
    if f = .failed then a.2 = b.2
    else a.2 = b.2.setError m n ∧ b.2.errorNumber = 0 ∧ b.2.errorMessage = ""

/-- No error in the fields. -/
structure MysqlResults.Clean (y : MysqlResults) : Prop where
  number : y.errorNumber = 0
  message : y.errorMessage = ""

/-- The two runs of a statement that fills `y` agree but for an old error. -/
abbrev Locked (outputs : List OutputArg) (m : String) (n : ℤ) (f : Progress)
    (p p' : XProg (γ × MysqlResults)) : Prop :=
  p.Lockstep (heed outputs) (Tied m n) f p'

/-- After a failure nothing changes what the replies have told. -/
theorem lock_failed (p : XProg (γ × MysqlResults)) : Locked outputs m n .failed p p := by
  induction p with
  | ret a => exact .ret ⟨rfl, by simp⟩
  | act o k ih => exact .act fun r => by rw [heed_failed]; exact ih r

theorem lock_pure (hy : y.Clean) (hf : f ≠ .failed) (c : γ) :
    Locked outputs m n f (pure (c, y.setError m n)) (pure (c, y)) :=
  .ret ⟨rfl, by rw [if_neg hf]; exact ⟨rfl, hy.number, hy.message⟩⟩

/-- Both sides run a program that tells nothing. -/
theorem lock_steady {α : Type} {p : XProg α} (hp : Steady p) {g g' : α → XProg (γ × MysqlResults)}
    (hg : ∀ a, Locked outputs m n f (g a) (g' a)) : Locked outputs m n f (p >>= g) (p >>= g') :=
  Prog.Lockstep.bind (hp _ _) fun _ a _ h => by obtain ⟨rfl, rfl⟩ := h; exact hg a

/-- Both sides perform the operation `o`. -/
theorem lock_act {o : ClientOp} {k k' : o.Reply → XProg (γ × MysqlResults)}
    (h : ∀ r, Locked outputs m n (heed outputs f o r) (k r) (k' r)) :
    Locked outputs m n f (xop o >>= k) (xop o >>= k') := .act h

/-- Both sides perform the operation `o`, and go on alike where it fails. -/
theorem lock_op {o : ClientOp} (hm : ∀ st, o ≠ .mysqlStmtResultMetadata st)
    {k k' : o.Reply → XProg (γ × MysqlResults)}
    (hfail : ∀ r, o.reports r = true → k r = k' r)
    (hk : ∀ r, o.reports r = false → Locked outputs m n f (k r) (k' r)) :
    Locked outputs m n f (xop o >>= k) (xop o >>= k') := by
  refine lock_act fun r => ?_
  cases hr : o.reports r with
  | true => rw [heed_reports hr, hfail r hr]; exact lock_failed _
  | false => rw [heed_quiet hr hm]; exact hk r hr

namespace MysqlExecutor

variable {stmt : MysqlStatement}

/-- Setting an error forgets the old one. -/
@[simp] theorem setStmtError_setError : setStmtError (y.setError m n) stmt = setStmtError y stmt := rfl

@[simp] theorem setMysqlError_setError : setMysqlError (y.setError m n) = setMysqlError y := rfl

/-- A `Status` that is not OK goes with a failure. -/
def Judges (p : XProg Status) : Prop :=
  ∀ outputs f, p.Lockstep (heed outputs)
    (fun f' a b => a = b ∧ (a.ok = true ∧ f' = f ∨ a.ok = false ∧ f' = .failed)) f p

theorem Judges.ok : Judges (pure {}) := fun _ _ => .ret ⟨rfl, .inl ⟨rfl, rfl⟩⟩

theorem Judges.steady {α : Type} {p : XProg α} (hp : Steady p) {g : α → XProg Status}
    (hg : ∀ a, Judges (g a)) : Judges (p >>= g) := fun _ _ =>
  Prog.Lockstep.bind (hp _ _) fun _ a _ h => by obtain ⟨rfl, rfl⟩ := h; exact hg a _ _

/-- An error number that was read decides: it makes the status, and it tells a failure. -/
theorem judge_number {o : ClientOp} {r : o.Reply} {number : ℤ} {message : String}
    (hr : o.reports r = decide (number ≠ 0)) (hm : ∀ st, o ≠ .mysqlStmtResultMetadata st) :
    let s : Status := { frameworkRetCode := number, errorMessage := message }
    s.ok = true ∧ heed outputs f o r = f ∨ s.ok = false ∧ heed outputs f o r = .failed := by
  by_cases hn : number = 0
  · exact .inl ⟨by simp [Status.ok, hn], heed_quiet (by rw [hr]; simpa using hn) hm⟩
  · exact .inr ⟨by simp [Status.ok, hn], heed_reports (by rw [hr]; simpa using hn)⟩

theorem judges_mysqlStatus : Judges mysqlStatus := by
  intro outputs f
  refine .act fun this => .act fun number => .act fun _ => .act fun message => .ret ⟨rfl, ?_⟩
  rw [heed_plain (o := .getThis) rfl this]
  exact heed_plain (o := .mysqlError _) rfl message ▸ heed_plain (o := .getThis) rfl _ ▸
    judge_number (o := .mysqlErrno this.mysql) rfl (by simp)

theorem judges_stmtStatus : Judges (stmtStatus stmt) := by
  intro outputs f
  unfold stmtStatus MysqlStatement.getErrorNumber MysqlStatement.getErrorMessage
  split
  · refine .act fun number => .act fun message => .ret ⟨rfl, ?_⟩
    exact heed_plain (o := .mysqlStmtError _) rfl message ▸
      judge_number (o := .mysqlStmtErrno stmt.mysqlStmt) rfl (by simp)
  · exact .ret ⟨rfl, .inl ⟨rfl, rfl⟩⟩

theorem judges_executeStatement (b : Bool) : Judges (executeStatement b stmt) := by
  have hexec : Judges (do
      if !(← mysqlStmtExecute stmt.mysqlStmt) then return ← stmtStatus stmt
      return ({} : Status)) :=
    .steady (.op rfl) fun b => by cases b; exacts [judges_stmtStatus, .ok]
  have hbind : Judges (do
      if !(← mysqlStmtBindResult stmt.mysqlStmt) then return ← stmtStatus stmt
      if !(← mysqlStmtExecute stmt.mysqlStmt) then return ← stmtStatus stmt
      return ({} : Status)) :=
    .steady (.op rfl) fun b => by cases b; exacts [judges_stmtStatus, hexec]
  refine .steady steady_checkAlive fun alive => ?_
  cases b <;> cases alive
  · exact .steady (steady_retry _) fun c => by cases c; exacts [judges_mysqlStatus, hexec]
  · exact hexec
  · exact .steady (steady_retry _) fun c => by cases c; exacts [judges_mysqlStatus, hbind]
  · exact hbind

/-- The rows go in alike, whatever the old error. -/
theorem lock_fetchLoop : ∀ l handle {y : MysqlResults}, y.Clean →
    Prog.Lockstep (heed outputs)
      (fun f' a b => a.1 = b.1 ∧ (a.1 = true ∧ f' = f ∨ a.1 = false ∧ f' = .failed) ∧
        a.2 = b.2.setError m n ∧ b.2.Clean) f
      (fetchLoop stmt l handle (y.setError m n)) (fetchLoop stmt l handle y) := by
  intro l
  induction l with
  | zero =>
    intro handle y hy
    refine .act fun r => ?_
    cases r with
    | error => exact .ret ⟨rfl, .inr ⟨rfl, heed_reports rfl⟩, rfl, hy⟩
    | noData => exact .ret ⟨rfl, .inl ⟨rfl, heed_quiet rfl (by simp)⟩, rfl, hy⟩
    | row row => exact .act fun e => e.elim
  | succ l ih =>
    intro handle y hy
    refine .act fun r => ?_
    cases r with
    | error => exact .ret ⟨rfl, .inr ⟨rfl, heed_reports rfl⟩, rfl, hy⟩
    | noData => exact .ret ⟨rfl, .inl ⟨rfl, heed_quiet rfl (by simp)⟩, rfl, hy⟩
    | row row =>
      rw [heed_quiet rfl (by simp)]
      change Prog.Lockstep _ _ _ (fetchRow stmt handle row >>= _) (fetchRow stmt handle row >>= _)
      refine (steady_fetchRow stmt handle row _ _).bind ?_
      rintro f' handle' _ ⟨rfl, rfl⟩
      exact ih _ (y := y.pushRow handle'.setResultTuple _) ⟨hy.number, hy.message⟩

theorem lock_fetchResults (handle : QueryHandle) (hy : y.Clean) :
    Prog.Lockstep (heed outputs)
      (fun f' a b => a.1 = b.1 ∧ (a.1 = true ∧ f' = f ∨ a.1 = false ∧ f' = .failed) ∧
        a.2 = b.2.setError m n ∧ b.2.Clean) f
      (fetchResults handle stmt (y.setError m n)) (fetchResults handle stmt y) := by
  refine .act fun r => ?_
  cases r with
  | none => exact .ret ⟨rfl, .inr ⟨rfl, heed_reports rfl⟩, rfl, hy⟩
  | some l =>
    rw [heed_quiet rfl (by simp)]
    exact lock_fetchLoop _ _ hy

theorem heed_metadata (st : Option StmtPtr) (fields : Option (List Field)) :
    heed outputs .checked (.mysqlStmtResultMetadata st) fields = .checked := by
  cases fields <;> simp [heed, ClientOp.reports]

theorem lock_queryBound (handle : QueryHandle) (hy : y.Clean) : Locked outputs m n .checked
    (queryBound handle stmt (y.setError m n)) (queryBound handle stmt y) := by
  refine Prog.Lockstep.bind (judges_executeStatement true outputs _) ?_
  rintro f s _ ⟨rfl, ⟨hok, rfl⟩ | ⟨hok, rfl⟩⟩
  · rw [hok]
    refine Prog.Lockstep.bind (lock_fetchResults (m := m) (n := n) _ hy) ?_
    rintro f ⟨b, x⟩ ⟨b', y⟩ ⟨hb, h, hx, hy⟩
    dsimp only at hb h hx hy
    subst hb hx
    obtain ⟨rfl, rfl⟩ | ⟨rfl, rfl⟩ := h
    · refine .act fun fields => ?_
      rw [heed_metadata]
      refine lock_steady (steady_endStatement stmt) fun _ => ?_
      cases fields with
      | none => exact lock_pure hy (by decide) _
      | some fields => exact lock_pure (y := y.setFieldsName (some fields)) ⟨hy.number, hy.message⟩ (by decide) _
    · exact lock_failed _
  · rw [hok]
    exact lock_failed _

theorem lock_queryPrepared (hy : y.Clean) : Locked outputs m n .checked
    (queryPrepared outputs stmt (y.setError m n)) (queryPrepared outputs stmt y) := by
  refine .act fun fields => ?_
  rw [heed_metadata]
  cases fields with
  | none => exact .act fun e => e.elim
  | some fields => exact lock_queryBound _ hy

theorem lock_init (sql : Sql) {g g' : Bool × MysqlStatement → XProg (γ × MysqlResults)}
    (hfail : ∀ st, g (false, st) = g' (false, st))
    (hg : ∀ st, Locked outputs m n f (g (true, st)) (g' (true, st))) :
    Locked outputs m n f (do g (← MysqlStatement.init { mysql := (← getThis).mysql } sql))
      (do g' (← MysqlStatement.init { mysql := (← getThis).mysql } sql)) := by
  refine lock_steady Steady.getThis fun this => ?_
  unfold MysqlStatement.init
  simp only [Prog.bind_assoc]
  refine lock_op (by simp) (fun r hr => ?_) fun r hr => ?_
  · cases r with
    | none => exact hfail _
    | some q => cases hr
  cases r with
  | none => cases hr
  | some q =>
    refine lock_op (by simp) (fun ok hr => ?_) fun ok hr => ?_
    · cases ok
      · exact hfail _
      · cases hr
    · cases ok
      · cases hr
      · exact lock_steady (.op rfl) fun _ => lock_steady (.op rfl) fun _ => hg _

/-- The two runs begin with `Clear` and agree from there. -/
def Cleared (outputs : List OutputArg) (m : String) (n : ℤ) (p p' : XProg (γ × MysqlResults)) : Prop :=
  ∃ x x' k k', p = .act (.mysqlFreeResult x) k ∧ p' = .act (.mysqlFreeResult x') k' ∧
    Locked outputs m n .started (k ()) (k' ())

theorem Cleared.intro {r r₀ : MysqlResults} {g : MysqlResults → XProg (γ × MysqlResults)}
    (hr : r.cleared = r₀.cleared.setError "" n)
    (h : Locked outputs "" n .started (g (r₀.cleared.setError "" n)) (g r₀.cleared)) :
    Cleared outputs "" n (clearResults r >>= g) (clearResults r₀ >>= g) :=
  ⟨r.mysqlRes, r₀.mysqlRes, fun _ => g r.cleared, fun _ => g r₀.cleared, rfl, rfl, by rw [hr]; exact h⟩

theorem Cleared.bind {γ' : Type} {p p' : XProg (γ × MysqlResults)} (h : Cleared outputs m n p p')
    {g : γ × MysqlResults → XProg (γ' × MysqlResults)}
    (hg : ∀ f a b, Tied m n f a b → Locked outputs m n f (g a) (g b)) :
    Cleared outputs m n (p >>= g) (p' >>= g) := by
  obtain ⟨x, x', k, k', rfl, rfl, h⟩ := h
  exact ⟨x, x', fun u => k u >>= g, fun u => k' u >>= g, rfl, rfl, h.bind hg⟩

theorem cleared_queryAllBind (outputs : List OutputArg) {r r₀ : MysqlResults} (hr : r.cleared = r₀.cleared.setError "" n)
    (hy : r₀.cleared.Clean) (sql : Sql) (args : List InputArg) :
    Cleared outputs "" n (queryAllBind outputs r sql args) (queryAllBind outputs r₀ sql args) := by
  refine Cleared.intro hr (lock_init sql (fun st => rfl) fun stmt => lock_act fun fields => ?_)
  cases fields with
  | none => exact .act fun r => r.elim
  | some fields =>
    have hh : heed outputs .started (.mysqlStmtResultMetadata stmt.mysqlStmt) (some fields) =
        if checkFieldsOutputArgs outputs fields ≠ "" then .failed else .checked := by
      simp [heed, ClientOp.reports]
    rw [hh]
    by_cases hc : checkFieldsOutputArgs outputs fields = ""
    · simp only [hc, ne_eq, not_true_eq_false, if_false]
      refine lock_steady (steady_bindInputArgs args) fun _ => ?_
      refine lock_op (o := .mysqlStmtBindParam ..) (by simp) (fun ok hr => ?_) fun ok hr => ?_
      · cases ok
        · rfl
        · cases hr
      · cases ok
        · cases hr
        · exact lock_queryPrepared hy
    · simp only [ne_eq, hc, not_false_eq_true, if_true]
      exact lock_failed _

theorem cleared_queryAllNative (outputs : List OutputArg) {r r₀ : MysqlResults}
    (hr : r.cleared = r₀.cleared.setError "" n)
    (hy : r₀.cleared.Clean) (sql : Sql) (args : List InputArg) :
    Cleared outputs "" n (queryAllNative r sql args) (queryAllNative r₀ sql args) := by
  have hrows : ∀ (rows : List ServerRow) (y : MysqlResults), y.Clean →
      let fill := fun (r : MysqlResults) (row : ServerRow) =>
        r.pushRow (row.map (·.getD [])) (row.map Option.isNone)
      ∃ y' : MysqlResults, rows.foldl fill (y.setError "" n) = y'.setError "" n ∧
        rows.foldl fill y = y' ∧ y'.Clean := by
    intro rows
    induction rows with
    | nil => exact fun y hy => ⟨y, rfl, rfl, hy⟩
    | cons row rows ih => exact fun y hy => ih (y.pushRow _ _) ⟨hy.number, hy.message⟩
  refine Cleared.intro hr (lock_steady (steady_formatQuery sql args)
    fun sent => lock_steady Steady.getThis fun this => ?_)
  refine lock_op (o := .mysqlRealQuery ..) (by simp) (fun ok hr => ?_) fun ok hr => ?_
  · cases ok
    · rfl
    · cases hr
  cases ok
  · cases hr
  refine lock_steady Steady.getThis fun this => ?_
  refine lock_op (o := .mysqlStoreResult ..) (by simp) (fun res hr => ?_) fun res hr => ?_
  · cases res
    · rfl
    · cases hr
  cases res with
  | none => cases hr
  | some res =>
    obtain ⟨y, h1, h2, hy⟩ := hrows res.set.rows _ hy
    dsimp only at h1 h2 ⊢
    rw [h1, h2]
    exact lock_pure (f := .started)
      (y := { y with mysqlRes := some res.ptr }.setFieldsName (some res.set.fields))
      ⟨hy.number, hy.message⟩ (by decide) true

theorem cleared_executePrepared (outputs : List OutputArg) {r r₀ : MysqlResults}
    (hr : r.cleared = r₀.cleared.setError "" n)
    (hy : r₀.cleared.Clean) (sql : Sql) (args : List InputArg) :
    Cleared outputs "" n (executePrepared r sql args) (executePrepared r₀ sql args) := by
  refine Cleared.intro hr (lock_init sql (fun st => rfl) fun stmt => lock_steady (steady_bindInputArgs args) fun _ => ?_)
  refine lock_op (o := .mysqlStmtBindParam ..) (by simp) (fun ok hr => ?_) fun ok hr => ?_
  · cases ok
    · rfl
    · cases hr
  cases ok
  · cases hr
  refine Prog.Lockstep.bind (judges_executeStatement false outputs _) ?_
  rintro f s _ ⟨rfl, ⟨hok, rfl⟩ | ⟨hok, rfl⟩⟩
  · rw [hok]
    refine lock_steady Steady.getThis fun this => lock_steady (.op rfl) fun k => ?_
    exact lock_steady (steady_endStatement stmt) fun _ => lock_pure hy (by decide) k
  · rw [hok]
    exact lock_failed _

/-- The run of a used object and of a fresh one, when both begin with `Clear`. -/
theorem Cleared.run {p p' : XProg (γ × MysqlResults)} (h : Cleared outputs m n p p') {s s' : ExecSt}
    {as rest : List ClientAnswer} {a : γ × MysqlResults}
    (hr : p.run clientExec s as = some (a, s', rest)) :
    ∃ b, p'.run clientExec s as = some (b, s', rest) ∧
      Tied m n (p'.watch clientExec (heed outputs) .started s as) a b := by
  obtain ⟨x, x', k, k', rfl, rfl, h⟩ := h
  cases as with
  | nil => cases hr
  | cons c as =>
    obtain ⟨b, h1, h2⟩ := h.run_eq hr
    refine ⟨b, h1, ?_⟩
    simpa only [Prog.watch, clientExec, heed_plain (o := .mysqlFreeResult x') rfl] using h2

end MysqlExecutor

end Lock

/-! ## The shape of a used object -/

/-- An object without rows. -/
def MysqlResults.rowless (mode : MysqlResultsMode) (option : MysqlResultsOption) (m : String) (n : ℤ)
    (k : ℕ) : MysqlResults where
  mode := mode
  option := option
  errorNumber := n
  errorMessage := m
  affectedRows := k

/-- What every object of a mode looks like: one that only executes holds no rows. -/
structure MysqlResults.Shape (mode : MysqlResultsMode) (option : MysqlResultsOption) (r : MysqlResults) :
    Prop where
  hasMode : r.mode = mode
  hasOption : r.option = option
  rowless : mode = .onlyExec →
    r = .rowless mode option r.errorMessage r.errorNumber r.affectedRows

section Shape

open MysqlResults (Shape)

variable {mode : MysqlResultsMode} {option : MysqlResultsOption} {r : MysqlResults} {γ : Type}
  {stmt : MysqlStatement} {outputs : List OutputArg} {sql : Sql} {args : List InputArg}

theorem shape_fresh : Shape mode option { mode := mode, option := option } := ⟨rfl, rfl, fun _ => rfl⟩

theorem shape_setError (h : Shape mode option r) (m : String) (n : ℤ) : Shape mode option (r.setError m n) := by
  refine ⟨h.hasMode, h.hasOption, fun hm => ?_⟩
  have hr := h.rowless hm
  cases r
  simp only [MysqlResults.rowless, MysqlResults.mk.injEq] at hr
  simp [MysqlResults.setError, MysqlResults.rowless, hr]

theorem shape_cleared (h : Shape mode option r) : Shape mode option r.cleared := by
  refine ⟨h.hasMode, h.hasOption, fun hm => ?_⟩
  simp [MysqlResults.cleared, MysqlResults.rowless, h.hasMode, h.hasOption]

theorem shape_affectedRows (h : Shape mode option r) (k : ℕ) :
    Shape mode option { r with affectedRows := k } := by
  refine ⟨h.hasMode, h.hasOption, fun hm => ?_⟩
  have hr := h.rowless hm
  cases r
  simp only [MysqlResults.rowless, MysqlResults.mk.injEq] at hr
  simp [MysqlResults.rowless, hr]

/-- Of the other objects only the mode and the option are said. -/
theorem shape_update {r' : MysqlResults} (hm : mode ≠ .onlyExec) (h : Shape mode option r)
    (h1 : r'.mode = r.mode) (h2 : r'.option = r.option) : Shape mode option r' :=
  ⟨h1.trans h.hasMode, h2.trans h.hasOption, fun h => absurd h hm⟩

/-- The results of the program have the shape. -/
abbrev Shaped (mode : MysqlResultsMode) (option : MysqlResultsOption) (p : XProg (γ × MysqlResults)) : Prop :=
  p.Ends fun x => Shape mode option x.2

namespace MysqlExecutor

theorem ends_setStmtError (h : Shape mode option r) : Prog.Ends (Shape mode option) (setStmtError r stmt) := by
  refine Prog.Ends.any.bind fun message _ => Prog.Ends.any.bind fun number _ => ?_
  exact shape_setError h message number

theorem shaped_setMysqlError (h : Shape mode option r) (c : γ) : Shaped mode option (do
    let r ← setMysqlError r
    return (c, r)) := by
  refine Prog.Ends.bind (Q := Shape mode option) ?_ fun r h => h
  refine Prog.Ends.any.bind fun message _ => Prog.Ends.any.bind fun number _ => ?_
  exact shape_setError h message number

theorem ends_clearResults (h : Shape mode option r) : Prog.Ends (Shape mode option) (clearResults r) :=
  fun _ => shape_cleared h

theorem shaped_end (h : Shape mode option r) (c : γ) : Shaped mode option (do
    endStatement stmt
    return (c, r)) :=
  Prog.Ends.any.bind fun _ _ => h

theorem shaped_failure (h : Shape mode option r) (c : γ) : Shaped mode option (do
    let r ← setStmtError r stmt
    endStatement stmt
    return (c, r)) :=
  (ends_setStmtError h).bind fun _ hr => shaped_end hr c

theorem shaped_fetchLoop (hm : mode ≠ .onlyExec) : ∀ l handle {r : MysqlResults}, Shape mode option r →
    Shaped mode option (fetchLoop stmt l handle r)
  | 0, _, _, h => fun f => by
    cases f
    exacts [h, h, fun e => e.elim]
  | l + 1, _, _, h => fun f => by
    cases f
    exacts [h, h, Prog.Ends.bind (p := fetchRow ..) .any fun _ _ => shaped_fetchLoop hm l _ (shape_update hm h rfl rfl)]

theorem shaped_queryBound (handle : QueryHandle) (hm : mode ≠ .onlyExec) (h : Shape mode option r) :
    Shaped mode option (queryBound handle stmt r) := by
  refine Prog.Ends.any.bind fun s _ => ?_
  split
  · exact shaped_end (shape_setError h _ _) _
  refine Prog.Ends.bind (Q := fun x => Shape mode option x.2) ?_ fun ⟨fetched, r⟩ h => ?_
  · intro l
    cases l with
    | none => exact h
    | some l => exact shaped_fetchLoop hm l _ h
  · cases fetched
    · exact shaped_failure h _
    · intro fields
      exact shaped_end (shape_update hm h (by cases fields <;> rfl) (by cases fields <;> rfl)) _

theorem shaped_queryPrepared (hm : mode ≠ .onlyExec) (h : Shape mode option r) :
    Shaped mode option (queryPrepared outputs stmt r) := by
  intro fields
  cases fields with
  | none => exact fun e => e.elim
  | some fields => exact shaped_queryBound _ hm h

theorem shaped_queryAllBind (hm : mode ≠ .onlyExec) (h : Shape mode option r) :
    Shaped mode option (queryAllBind outputs r sql args) := by
  refine (ends_clearResults h).bind fun r h => Prog.Ends.any.bind fun this _ =>
    Prog.Ends.any.bind fun ⟨ok, stmt⟩ _ => ?_
  cases ok
  · exact shaped_failure h _
  refine Prog.Ends.any.bind fun fields _ => ?_
  cases fields with
  | none => exact fun e => e.elim
  | some fields =>
    dsimp only
    split
    · exact shaped_end (shape_setError h _ _) _
    refine Prog.Ends.any.bind fun _ _ => Prog.Ends.any.bind fun bound _ => ?_
    cases bound
    · exact shaped_failure h _
    · exact shaped_queryPrepared hm h

theorem shaped_queryAllNative (hm : mode ≠ .onlyExec) (h : Shape mode option r) :
    Shaped mode option (queryAllNative r sql args) := by
  have hrows : ∀ (rows : List ServerRow) (r : MysqlResults), Shape mode option r →
      Shape mode option (rows.foldl (fun r row =>
        r.pushRow (row.map (·.getD [])) (row.map Option.isNone)) r) := by
    intro rows
    induction rows with
    | nil => exact fun r h => h
    | cons row rows ih => exact fun r h => ih _ (shape_update hm h rfl rfl)
  refine (ends_clearResults h).bind fun r h => Prog.Ends.any.bind fun sent _ => Prog.Ends.any.bind fun this _ =>
    Prog.Ends.any.bind fun ok _ => ?_
  cases ok
  · exact shaped_setMysqlError h _
  refine Prog.Ends.any.bind fun this _ => Prog.Ends.any.bind fun res _ => ?_
  cases res with
  | none => exact shaped_setMysqlError h _
  | some res => exact shape_update hm (hrows res.set.rows r h) rfl rfl

theorem shaped_executeText (h : Shape mode option r) : Shaped mode option (executeText r sql) := by
  refine Prog.Ends.any.bind fun this _ => Prog.Ends.any.bind fun ok _ => ?_
  cases ok
  · exact shaped_setMysqlError h _
  · exact Prog.Ends.any.bind fun this _ => Prog.Ends.any.bind fun n _ => h

theorem shaped_executePrepared (h : Shape mode option r) :
    Shaped mode option (executePrepared r sql args) := by
  refine (ends_clearResults h).bind fun r h => Prog.Ends.any.bind fun this _ =>
    Prog.Ends.any.bind fun ⟨ok, stmt⟩ _ => ?_
  cases ok
  · exact shaped_failure h _
  refine Prog.Ends.any.bind fun _ _ => Prog.Ends.any.bind fun bound _ => ?_
  cases bound
  · exact shaped_failure h _
  refine Prog.Ends.any.bind fun s _ => ?_
  dsimp only
  split
  · exact shaped_end (shape_setError h _ _) _
  · exact Prog.Ends.any.bind fun this _ => Prog.Ends.any.bind fun n _ => shaped_end h n

/-- **A statement keeps the shape of its results object.** -/
theorem shaped_runStatement (h : Shape mode option r) : Shaped mode option (runStatement r sql args) := by
  have hend : ∀ x : Bool × MysqlResults, mode ≠ .onlyExec → Shape mode option x.2 →
      Shaped mode option (do
        if !x.1 then return (false, x.2)
        return (true, { x.2 with hasValue := true }) : XProg (Bool × MysqlResults)) := by
    rintro ⟨ok, r⟩ hm h
    cases ok
    exacts [h, shape_update hm h rfl rfl]
  unfold runStatement
  split
  · unfold execute
    split
    · exact (shaped_executeText h).bind fun x hx => shape_affectedRows hx x.1
    · exact (shaped_executePrepared h).bind fun x hx => shape_affectedRows hx x.1
  · rename_i hm
    have hm : mode ≠ .onlyExec := fun hm' => hm (h.hasMode.trans hm')
    unfold queryAll
    split
    · exact (shaped_queryAllBind hm h).bind fun x hx => hend x hm hx
    · exact (shaped_queryAllNative hm h).bind fun x hx => hend x hm hx
    · exact fun e => e.elim

end MysqlExecutor

theorem Filled.shape (h : Filled mode option r) : Shape mode option r := by
  induction h with
  | fresh => exact shape_fresh
  | call sql args s as _ hr ih =>
    obtain ⟨x, hx, rfl⟩ := Option.map_eq_some_iff.1 hr
    exact (MysqlExecutor.shaped_runStatement ih).run hx

end Shape

/-! ## The two runs of a statement -/

section Reuse

open MysqlExecutor

variable {mode : MysqlResultsMode} {option : MysqlResultsOption} {r : MysqlResults} {sql : Sql}
  {args : List InputArg}

/-- `Execute` without arguments, which does not clear the object. -/
def skipsClear (mode : MysqlResultsMode) (args : List InputArg) : Bool := mode = .onlyExec && args.isEmpty

/-- The old error message that a statement leaves when it sets none. -/
def leftMessage (mode : MysqlResultsMode) (args : List InputArg) (r : MysqlResults) : String :=
  if skipsClear mode args then r.errorMessage else ""

theorem cleared_eq (h : r.Shape mode option) :
    r.cleared = ({ mode := mode, option := option : MysqlResults }).cleared.setError "" r.errorNumber := by
  simp [MysqlResults.cleared, MysqlResults.setError, h.hasMode, h.hasOption]

theorem clean_fresh : ({ mode := mode, option := option : MysqlResults }).cleared.Clean := ⟨rfl, rfl⟩

/-- The end of `QueryAll`. -/
theorem lock_hasValue {outputs : List OutputArg} {m : String} {n : ℤ} {f : Progress}
    {a b : Bool × MysqlResults} (h : Tied m n f a b) :
    Locked outputs m n f
      (do if !a.1 then return (false, a.2)
          return (true, { a.2 with hasValue := true }))
      (do if !b.1 then return (false, b.2)
          return (true, { b.2 with hasValue := true })) := by
  obtain ⟨ok, x⟩ := a
  obtain ⟨ok', y⟩ := b
  obtain ⟨hok, h⟩ := h
  dsimp only at hok h
  subst hok
  cases ok
  · exact .ret ⟨rfl, h⟩
  · refine .ret ⟨rfl, ?_⟩
    split at h
    · rename_i hf; rw [if_pos hf, h]
    · rename_i hf; rw [if_neg hf]; exact ⟨by rw [h.1]; rfl, h.2⟩

/-- The end of `Execute`. -/
theorem lock_affectedRows {outputs : List OutputArg} {m : String} {n : ℤ} {f : Progress}
    {a b : ℕ × MysqlResults} (h : Tied m n f a b) :
    Locked outputs m n f (pure (true, { a.2 with affectedRows := a.1 }))
      (pure (true, { b.2 with affectedRows := b.1 })) := by
  obtain ⟨k, x⟩ := a
  obtain ⟨k', y⟩ := b
  obtain ⟨hk, h⟩ := h
  dsimp only at hk h
  subst hk
  refine .ret ⟨rfl, ?_⟩
  split at h
  · rename_i hf; rw [if_pos hf, h]
  · rename_i hf; rw [if_neg hf]; exact ⟨by rw [h.1]; rfl, h.2⟩

/-- `Execute` without arguments, into an object without rows. -/
theorem lock_executeText (m : String) (n : ℤ) (k : ℕ) :
    Locked [] m n .started (execute (.rowless mode option m n k) sql [])
      (execute { mode := mode, option := option } sql []) := by
  refine lock_steady (γ := Bool) Steady.getThis fun this => ?_
  refine lock_op (o := .mysqlRealQuery ..) (by simp) (fun ok hr => ?_) fun ok hr => ?_
  · cases ok
    · rfl
    · cases hr
  · cases ok
    · cases hr
    · exact lock_steady Steady.getThis fun this => lock_steady (Steady.op rfl) fun c =>
        .ret ⟨rfl, rfl, rfl, rfl⟩

/-- **The run of a statement into a used object and into a fresh one.** -/
theorem two_runs (h : r.Shape mode option) {s s' : ExecSt} {as rest : List ClientAnswer}
    {a : Bool × MysqlResults} (hr : (runStatement r sql args).run clientExec s as = some (a, s', rest)) :
    ∃ b, (runStatement { mode := mode, option := option } sql args).run clientExec s as =
        some (b, s', rest) ∧
      Tied (leftMessage mode args r) r.errorNumber
        ((runStatement { mode := mode, option := option } sql args).watch clientExec
          (heed mode.outputs) .started s as) a b := by
  unfold runStatement at hr ⊢
  rw [h.hasMode] at hr
  cases mode with
  | bindType outputs =>
    have hc := (cleared_queryAllBind outputs (cleared_eq h) clean_fresh sql args).bind
      fun f a b => lock_hasValue
    simp only [queryAll, h.hasMode] at hr ⊢
    exact hc.run hr
  | nativeString =>
    have hc := (cleared_queryAllNative [] (cleared_eq h) clean_fresh sql args).bind
      fun f a b => lock_hasValue
    simp only [queryAll, h.hasMode] at hr ⊢
    exact hc.run hr
  | onlyExec =>
    cases args with
    | nil =>
      rw [h.rowless rfl] at hr
      exact (lock_executeText _ _ _).run_eq hr
    | cons arg args =>
      have hc := (cleared_executePrepared [] (cleared_eq h) clean_fresh sql (arg :: args)).bind
        fun f a b => lock_affectedRows
      exact hc.run hr

/-- An old error shows. -/
theorem observe_setError_iff {y : MysqlResults} (hy : y.Clean) (m : String) (n : ℤ) :
    (y.setError m n).observe = y.observe ↔ n = 0 ∧ m = "" := by
  constructor
  · intro h
    simp only [MysqlResults.observe, MysqlResults.setError, Observed.mk.injEq, hy.number, hy.message] at h
    exact ⟨h.2.1, h.2.2.1⟩
  · rintro ⟨rfl, rfl⟩
    have : y.setError "" 0 = y := by
      have hn := hy.number
      have hm := hy.message
      cases y; dsimp only at hn hm; subst hn hm; rfl
    rw [this]

/-- An executor right after `Connect`. -/
def connectedExec : ExecSt where
  this := { isConnected := true, mysql := some 0 }
  mysqls := fun _ => { session := some { id := 0 } }
  nextMysql := 1
  sessions := 1

/-- The answers to a `QueryAll` that yields one row with the text `b`. -/
def oneRow (b : Bytes) : List ClientAnswer :=
  [{}, {}, {}, { rows := some { fields := [{ name := "x", type := .string }], rows := [[some b]] } }, {}, {}]

/-- What `oneRow b` leaves in the object. -/
def oneRowResults (b : Bytes) : MysqlResults where
  mode := .nativeString
  resultSet := [[b]]
  fieldsName := ["x"]
  nullFlags := [[false]]
  hasValue := true
  mysqlRes := some 0

end Reuse

end TrpcMysql
