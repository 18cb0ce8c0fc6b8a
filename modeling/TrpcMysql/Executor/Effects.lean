import TrpcMysql.Executor.Executor

/-!
# What the operations of an executor do

Most operations only ask, or fail, or take a result off the line (`ClientOp.minor`).
`Fades` says what such operations may change over any number of steps: a connection may
be lost, a pending result may go, failures may be noted. Nothing else: the fields, the
open objects and the sessions are as they were, and the server acknowledged nothing
(`fades_exec`).

The operations that do more have a lemma each: `realConnect_exec`, `realQuery_exec`,
`stmtPrepare_exec`, `stmtExecute_exec`, `ping_exec`.
-/

namespace TrpcMysql

open Function Conc

/-! ## Updates -/

namespace ExecSt

variable {s : ExecSt} {p q : MysqlPtr} {m : Mysql} {a : ClientAnswer} {σ : Session} {sql : Sql}

@[simp] theorem setMysql_this : (s.setMysql p m).this = s.this := rfl
@[simp] theorem setMysql_stmts : (s.setMysql p m).stmts = s.stmts := rfl
@[simp] theorem setMysql_events : (s.setMysql p m).events = s.events := rfl
@[simp] theorem setMysql_self : (s.setMysql p m).mysqls p = m := by simp [setMysql]

theorem setMysql_of_ne (h : q ≠ p) : (s.setMysql p m).mysqls q = s.mysqls q := by
  simp [setMysql, update_of_ne h]

/-- An update that keeps the flag closes nothing. -/
theorem setMysql_closed (h : m.closed = (s.mysqls p).closed) :
    ((s.setMysql p m).mysqls q).closed = (s.mysqls q).closed := by
  by_cases hq : q = p
  · subst hq; simpa using h
  · rw [setMysql_of_ne hq]

@[simp] theorem enter_this : (s.enter a p).this = s.this := by unfold enter; split <;> rfl
@[simp] theorem enter_stmts : (s.enter a p).stmts = s.stmts := by unfold enter; split <;> rfl
@[simp] theorem enter_events : (s.enter a p).events = s.events := by unfold enter; split <;> rfl

theorem enter_closed : ((s.enter a p).mysqls q).closed = (s.mysqls q).closed := by
  unfold enter
  split
  · exact setMysql_closed rfl
  · rfl

@[simp] theorem acknowledge_this : (s.acknowledge p σ sql a).this = s.this := rfl
@[simp] theorem acknowledge_stmts : (s.acknowledge p σ sql a).stmts = s.stmts := rfl
@[simp] theorem acknowledge_events : (s.acknowledge p σ sql a).events = s.events ++ [.acked σ.id sql] := rfl

theorem acknowledge_closed : ((s.acknowledge p σ sql a).mysqls q).closed = (s.mysqls q).closed :=
  setMysql_closed rfl

end ExecSt

/-! ## Losses and failures -/

/-- From `s` to `s'` nothing happened but losses and failures. -/
structure Fades (s s' : ExecSt) : Prop where
  this : s'.this = s.this
  nextMysql : s'.nextMysql = s.nextMysql
  sessions : s'.sessions = s.sessions
  closed : ∀ p, (s'.mysqls p).closed = (s.mysqls p).closed
  closes : ∀ p, (s'.mysqls p).closes = (s.mysqls p).closes
  session : ∀ p, (s'.mysqls p).session = (s.mysqls p).session ∨ (s'.mysqls p).session = none
  pending : ∀ p, (s'.mysqls p).pending = (s.mysqls p).pending ∨ (s'.mysqls p).pending = none
  more : ∀ p, (s'.mysqls p).more = (s.mysqls p).more ∨ (s'.mysqls p).more = false
  texts : ∀ q, (s'.stmts q).sql = (s.stmts q).sql ∨ (s'.stmts q).sql = .user []
  events : ∃ n, s'.events = s.events ++ List.replicate n .failed

/-- A flag that only goes. -/
theorem and_or_false (b c : Bool) : (b && c) = b ∨ (b && c) = false := by cases b <;> cases c <;> decide

namespace Fades

variable {s s' s'' : ExecSt} {a : ClientAnswer} {p : MysqlPtr} {m : Mysql} {q : StmtPtr} {st : Stmt}

theorem refl (s : ExecSt) : Fades s s :=
  ⟨rfl, rfl, rfl, fun _ => rfl, fun _ => rfl, fun _ => .inl rfl, fun _ => .inl rfl, fun _ => .inl rfl,
    fun _ => .inl rfl, 0, by simp⟩

theorem trans (h : Fades s s') (h' : Fades s' s'') : Fades s s'' := by
  refine ⟨h'.this.trans h.this, h'.nextMysql.trans h.nextMysql, h'.sessions.trans h.sessions,
    fun p => (h'.closed p).trans (h.closed p), fun p => (h'.closes p).trans (h.closes p), fun p => ?_, fun p => ?_,
    fun p => ?_, fun q => ?_, ?_⟩
  · rcases h'.session p with h1 | h1
    · rw [h1]; exact h.session p
    · exact .inr h1
  · rcases h'.pending p with h1 | h1
    · rw [h1]; exact h.pending p
    · exact .inr h1
  · rcases h'.more p with h1 | h1
    · rw [h1]; exact h.more p
    · exact .inr h1
  · rcases h'.texts q with h1 | h1
    · rw [h1]; exact h.texts q
    · exact .inr h1
  · obtain ⟨n, hn⟩ := h.events
    obtain ⟨n', hn'⟩ := h'.events
    exact ⟨n + n', by rw [hn', hn, List.append_assoc, List.replicate_append_replicate]⟩

theorem setMysql (h : Fades s s')
    (hc : m.closed = (s'.mysqls p).closed ∧ m.closes = (s'.mysqls p).closes)
    (hs : m.session = (s'.mysqls p).session ∨ m.session = none)
    (hp : m.pending = (s'.mysqls p).pending ∨ m.pending = none)
    (hm : m.more = (s'.mysqls p).more ∨ m.more = false) : Fades s (s'.setMysql p m) := by
  obtain ⟨hclosed, hcloses⟩ := hc
  refine h.trans ⟨rfl, rfl, rfl, fun q => ?_, fun q => ?_, fun q => ?_, fun q => ?_, fun q => ?_,
    fun _ => .inl rfl, 0, by simp [ExecSt.setMysql]⟩
  all_goals
    by_cases hq : q = p
    · subst hq; simp only [ExecSt.setMysql, update_self]; assumption
    · simp only [ExecSt.setMysql, update_of_ne hq, true_or]

theorem enter (h : Fades s s') : Fades s (s'.enter a p) := by
  unfold ExecSt.enter
  split
  · exact h.setMysql ⟨rfl, rfl⟩ (.inr rfl) (.inr rfl) (.inr rfl)
  · exact h

theorem setStmt (h : Fades s s') (hsql : st.sql = (s'.stmts q).sql ∨ st.sql = .user []) :
    Fades s (s'.setStmt q st) := by
  refine h.trans ⟨rfl, rfl, rfl, fun _ => rfl, fun _ => rfl, fun _ => .inl rfl, fun _ => .inl rfl,
    fun _ => .inl rfl, fun q' => ?_, 0, by simp [ExecSt.setStmt]⟩
  by_cases hq : q' = q
  · subst hq; simpa only [ExecSt.setStmt, update_self] using hsql
  · simp only [ExecSt.setStmt, update_of_ne hq, true_or]

theorem newStmt {n : ℕ} (h : Fades s s') (hsql : st.sql = .user []) :
    Fades s { s'.setStmt q st with nextStmt := n } :=
  let h := h.setStmt (q := q) (.inr hsql)
  ⟨h.this, h.nextMysql, h.sessions, h.closed, h.closes, h.session, h.pending, h.more, h.texts, h.events⟩

theorem failed (h : Fades s s') : Fades s (s'.note .failed) :=
  h.trans ⟨rfl, rfl, rfl, fun _ => rfl, fun _ => rfl, fun _ => .inl rfl, fun _ => .inl rfl, fun _ => .inl rfl,
    fun _ => .inl rfl, 1, rfl⟩

theorem fail {e : MysqlError} (h : Fades s s') : Fades s (s'.setMysql p ((s'.mysqls p).fail e)) :=
  .setMysql h ⟨rfl, rfl⟩ (.inl rfl) (.inl rfl) (.inl rfl)

theorem failMysql (h : Fades s s') : Fades s (s'.failMysql p a) := h.fail.failed

theorem failStmt (h : Fades s s') : Fades s (s'.failStmt q a) := .failed (.setStmt h (.inl rfl))

end Fades

/-- The operations that neither set a field, nor open or close anything, nor prepare or
send a statement. -/
def ClientOp.minor : ClientOp → Bool
  | setConnected _ | initMysql | clearMysql | setAutoCommit _ | refreshAliveTime | setExecutorId _
  | mysqlRealConnect .. | mysqlClose _ | mysqlRealQuery .. | mysqlStmtPrepare .. | mysqlStmtExecute _
  | crash _ => false
  | _ => true

-- the equations of `clientExec` are made here, once for all the lemmas that unfold it
attribute [local simp] clientExec in
/-- **A minor operation changes nothing but by losses and failures.** -/
theorem fades_exec {o : ClientOp} (ho : o.minor = true) {a : ClientAnswer} {s s' : ExecSt} {r : o.Reply}
    (h : clientExec o a s = some (r, s')) : Fades s s' := by
  have h0 : Fades s s := .refl s
  unfold clientExec at h
  split at h <;> simp only [ClientOp.minor, Bool.false_eq_true] at ho
  all_goals try dsimp only at h
  all_goals repeat' (split at h)
  all_goals try contradiction
  all_goals simp only [Option.some.injEq, Prod.mk.injEq] at h
  all_goals obtain ⟨-, rfl⟩ := h
  all_goals first
    | exact h0
    | exact h0.enter
    | exact .setStmt h0 (.inl rfl)
    | exact h0.failStmt
    | exact .failMysql h0.enter
    | exact .newStmt h0.enter rfl
    | exact .setStmt h0.enter (.inl rfl)
    | exact .failStmt h0.enter
    | exact .setMysql h0.enter ⟨rfl, rfl⟩ (.inl rfl) (.inl rfl) (.inl rfl)
    | exact .setMysql h0.enter ⟨rfl, rfl⟩ (.inl rfl) (.inr rfl) (.inl rfl)
    | exact .failMysql (.setMysql h0.enter ⟨rfl, rfl⟩ (.inl rfl) (.inr rfl) (.inl rfl))
    | exact .setStmt (.setMysql h0.enter ⟨rfl, rfl⟩ (.inl rfl) (.inr rfl) (.inl rfl)) (.inl rfl)
    | exact .setStmt (.setMysql h0.enter ⟨rfl, rfl⟩ (.inl rfl) (.inr rfl) (and_or_false _ _)) (.inl rfl)

/-! ## The operations that do more -/

section Exec

variable {m : Option MysqlPtr} {a : ClientAnswer} {s s' : ExecSt}

theorem realConnect_exec {o : MysqlConnOption} {r : Bool}
    (h : clientExec (.mysqlRealConnect m o) a s = some (r, s')) :
    ∃ p, m = some p ∧
      ((r = true ∧ ((s.enter a p).mysqls p).session = none ∧ a.ok = true ∧ s' = (s.enter a p).connected p) ∨
       (r = false ∧ s' = (s.enter a p).setMysql p (((s.enter a p).mysqls p).fail a.error))) := by
  cases m with
  | none => cases h
  | some p =>
    refine ⟨p, rfl, ?_⟩
    simp only [clientExec] at h
    split at h
    · rename_i hc
      simp only [Bool.and_eq_true, Option.isNone_iff_eq_none] at hc
      cases h; exact .inl ⟨rfl, hc.1, hc.2, rfl⟩
    · cases h; exact .inr ⟨rfl, rfl⟩

theorem realQuery_exec {sql : Sql} {r : Bool}
    (h : clientExec (.mysqlRealQuery m sql) a s = some (r, s')) :
    ∃ p, m = some p ∧
      ((r = true ∧ ∃ σ, (s.enter a p).ready p = some σ ∧ s' = (s.enter a p).acknowledge p σ sql a) ∨
       (r = false ∧ s' = (s.enter a p).failMysql p a)) := by
  cases m with
  | none => cases h
  | some p =>
    refine ⟨p, rfl, ?_⟩
    simp only [clientExec] at h
    split at h
    · rename_i σ hr _; cases h; exact .inl ⟨rfl, σ, hr, rfl⟩
    · cases h; exact .inr ⟨rfl, rfl⟩

theorem stmtExecute_exec {st : Option StmtPtr} {r : Bool}
    (h : clientExec (.mysqlStmtExecute st) a s = some (r, s')) :
    ∃ q p, st = some q ∧ p = (s.stmts q).mysql ∧
      ((r = true ∧ ∃ σ, (s.enter a p).ready p = some σ ∧ (s.stmts q).session = some σ.id ∧
          s' = (s.enter a p).acknowledge p σ (s.stmts q).sql a) ∨
       (r = false ∧ s' = (s.enter a p).failStmt q a)) := by
  cases st with
  | none => cases h
  | some q =>
    have he : (s.enter a (s.stmts q).mysql).stmts = s.stmts := by
      unfold ExecSt.enter; split <;> rfl
    refine ⟨q, _, rfl, rfl, ?_⟩
    simp only [clientExec, he] at h
    split at h
    · rename_i σ hr _
      split at h
      · rename_i hs; cases h; exact .inl ⟨rfl, σ, hr, hs, rfl⟩
      · cases h; exact .inr ⟨rfl, rfl⟩
    · cases h; exact .inr ⟨rfl, rfl⟩

theorem stmtPrepare_exec {st : Option StmtPtr} {sql : Sql} {r : Bool}
    (h : clientExec (.mysqlStmtPrepare st sql) a s = some (r, s')) :
    ∃ q, st = some q ∧
      ((r = true ∧ ∃ id, s' = (s.enter a (s.stmts q).mysql).setStmt q
          { (s.enter a (s.stmts q).mysql).stmts q with session := some id, sql := sql, columns := a.columns }) ∨
       (r = false ∧ s' = (s.enter a (s.stmts q).mysql).failStmt q a)) := by
  cases st with
  | none => cases h
  | some q =>
    refine ⟨q, rfl, ?_⟩
    simp only [clientExec] at h
    split at h
    · rename_i σ hr _; cases h; exact .inl ⟨rfl, σ.id, rfl⟩
    · cases h; exact .inr ⟨rfl, rfl⟩

theorem ping_exec {r : Bool} (h : clientExec (.mysqlPing m) a s = some (r, s')) :
    ∃ p, m = some p ∧
      ((r = true ∧ (∃ σ, (s.enter a p).ready p = some σ) ∧
          s' = (s.enter a p).setMysql p ((s.enter a p).mysqls p).clear) ∨
       (r = false ∧ (s.enter a p).ready p = none ∧
          s' = (s.enter a p).setMysql p (((s.enter a p).mysqls p).fail a.error))) := by
  cases m with
  | none => cases h
  | some p =>
    refine ⟨p, rfl, ?_⟩
    simp only [clientExec] at h
    split at h
    · rename_i σ hr; cases h; exact .inl ⟨rfl, ⟨σ, hr⟩, rfl⟩
    · rename_i hr; cases h; exact .inr ⟨rfl, hr, rfl⟩

/-- An operation only adds to the history. -/
theorem events_exec {o : ClientOp} {r : o.Reply} (h : clientExec o a s = some (r, s')) :
    ∃ new, s'.events = s.events ++ new := by
  have hsame : ∀ {t : ExecSt}, t.events = s.events → ∃ new, t.events = s.events ++ new := fun h =>
    ⟨[], by rw [h, List.append_nil]⟩
  by_cases ho : o.minor = true
  · obtain ⟨n, hn⟩ := (fades_exec ho h).events
    exact ⟨_, hn⟩
  cases o <;> simp only [ClientOp.minor, not_true_eq_false] at ho
  case mysqlRealConnect m o =>
    obtain ⟨p, -, ⟨-, -, -, rfl⟩ | ⟨-, rfl⟩⟩ := realConnect_exec h
    · exact hsame (by simp [ExecSt.connected])
    · exact hsame (by simp)
  case mysqlClose m =>
    cases m with
    | none => cases h; exact hsame rfl
    | some p => cases h; exact hsame (by simp)
  case mysqlRealQuery m sql =>
    obtain ⟨p, -, ⟨-, σ, -, rfl⟩ | ⟨-, rfl⟩⟩ := realQuery_exec h
    · exact ⟨[.acked σ.id sql], by simp⟩
    · exact ⟨[.failed], by simp [ExecSt.failMysql, ExecSt.note]⟩
  case mysqlStmtPrepare st sql =>
    obtain ⟨q, -, ⟨-, id, rfl⟩ | ⟨-, rfl⟩⟩ := stmtPrepare_exec h
    · exact hsame (by simp [ExecSt.setStmt])
    · exact ⟨[.failed], by simp [ExecSt.failStmt, ExecSt.note, ExecSt.setStmt]⟩
  case mysqlStmtExecute st =>
    obtain ⟨q, p, -, -, ⟨-, σ, -, -, rfl⟩ | ⟨-, rfl⟩⟩ := stmtExecute_exec h
    · exact ⟨[.acked σ.id (s.stmts q).sql], by simp⟩
    · exact ⟨[.failed], by simp [ExecSt.failStmt, ExecSt.note, ExecSt.setStmt]⟩
  case crash why => cases h
  all_goals
    cases h
    exact hsame rfl

end Exec

/-! ## What the functions perform -/

/-- What `Connect` performs. -/
def ClientOp.ofConnect : ClientOp → Bool
  | getThis | setConnected _ | initMysql | mysqlRealConnect .. | mysqlClose _ => true
  | _ => false

/-- What looks at the connection and at errors, and ends a statement. -/
def ClientOp.aside : ClientOp → Bool
  | getThis | setConnected _ | mysqlPing _ | mysqlErrno _ | mysqlError _ | mysqlStmtErrno _ | mysqlStmtError _
  | mysqlStmtFreeResult _ | mysqlStmtClose _ | crash _ => true
  | _ => false

namespace MysqlExecutor

theorem uses_op {β : Type} {o : ClientOp} {f : o.Reply → XProg β} {P : ClientOp → Prop} (ho : P o)
    (hf : ∀ r, (f r).Uses P) : (xop o >>= f).Uses P := ⟨ho, hf⟩

section Uses

variable {P : ClientOp → Prop}

theorem uses_connect (hP : ∀ o : ClientOp, o.ofConnect = true → P o) : connect.Uses P := by
  have hreal : realConnect.Uses P := by
    refine uses_op (hP _ rfl) fun this => uses_op (hP _ rfl) fun connected => ?_
    cases connected
    · exact uses_op (hP _ rfl) fun _ => uses_op (hP _ rfl) fun _ => trivial
    · exact uses_op (hP _ rfl) fun _ => trivial
  refine uses_op (hP _ rfl) fun this => ?_
  dsimp only
  split
  · trivial
  split
  · exact uses_op (hP _ rfl) fun _ => hreal
  · exact hreal

theorem uses_retry (hP : ∀ o : ClientOp, o.ofConnect = true → P o) : ∀ n, (retry n).Uses P := by
  intro n
  induction n with
  | zero => trivial
  | succ n ih => exact (uses_connect hP).bind fun c => by cases c; exacts [ih, trivial]

variable (hP : ∀ o : ClientOp, o.aside = true → P o)
include hP

theorem uses_mysqlErrno : getErrorNumber.Uses P := uses_op (hP _ rfl) fun _ => uses_op (hP _ rfl) fun _ => trivial

theorem uses_mysqlError : getErrorMessage.Uses P := uses_op (hP _ rfl) fun _ => uses_op (hP _ rfl) fun _ => trivial

theorem uses_checkAlive : checkAlive.Uses P := by
  have hoff : (do setConnected false; return false : XProg Bool).Uses P := uses_op (hP _ rfl) fun _ => trivial
  refine uses_op (hP _ rfl) fun this => ?_
  dsimp only
  split
  · trivial
  split
  · exact uses_op (hP _ rfl) fun alive => by cases alive; exacts [hoff, trivial]
  · exact hoff

theorem uses_stmtError (stmt : MysqlStatement) : stmt.getErrorMessage.Uses P := by
  unfold MysqlStatement.getErrorMessage
  split
  · exact ⟨hP _ rfl, fun _ => trivial⟩
  · trivial

theorem uses_stmtErrno (stmt : MysqlStatement) : stmt.getErrorNumber.Uses P := by
  unfold MysqlStatement.getErrorNumber
  split
  · exact ⟨hP _ rfl, fun _ => trivial⟩
  · trivial

theorem uses_bindInputArgs (args : List InputArg) : (bindInputArgs args).Uses P := by
  unfold bindInputArgs
  split
  · trivial
  · exact ⟨hP _ rfl, fun r => r.elim⟩

theorem uses_endStatement (stmt : MysqlStatement) : (endStatement stmt).Uses P := by
  have hdestroy : ∀ stmt : MysqlStatement, stmt.destroy.Uses P := by
    intro stmt
    unfold MysqlStatement.destroy
    split
    · exact ⟨hP _ rfl, fun r => r.elim⟩
    · trivial
  refine Prog.Uses.bind ?_ fun x => hdestroy x.2
  unfold MysqlStatement.closeStatement
  split
  · refine uses_op (hP _ rfl) fun freed => ?_
    cases freed
    · trivial
    · exact uses_op (hP _ rfl) fun _ => trivial
  · trivial

end Uses

/-- Where the end of the process is no concern, `BindInputArgs` changes nothing. -/
theorem gwp_bindInputArgs {α : Type} {G P : ClientOp → ClientAnswer → ExecSt → Prop} {Q : α → ExecSt → Prop}
    {args : List InputArg} {f : Unit → XProg α} {s : ExecSt} (hP : ∀ a, P (.crash .nullPointer) a s)
    (h : (f ()).gwp clientExec G P Q s) : (bindInputArgs args >>= f).gwp clientExec G P Q s := by
  unfold bindInputArgs
  split
  · exact h
  · exact fun a _ => ⟨hP a, fun r => r.elim⟩

theorem uses_fetchTruncatedResults {P : ClientOp → Prop} (stmt : MysqlStatement) (row : ServerRow)
    (hP : ∀ column offset, P (.mysqlStmtFetchColumn stmt.mysqlStmt column offset)) : ∀ (h : QueryHandle) (i : ℕ),
      (fetchTruncatedResults stmt row i h).Uses P := by
  intro h
  induction h with
  | nil => exact fun i => trivial
  | cons c h ih =>
    intro i
    have hrest : ∀ c : OutputColumn, (fetchTruncatedResults stmt row (i + 1) h >>= fun x =>
        pure (x.1, c :: x.2)).Uses P := fun c => (ih (i + 1)).bind fun _ => trivial
    unfold fetchTruncatedResults
    split
    · refine uses_op (hP _ _) fun ok => ?_
      cases ok
      · trivial
      · exact hrest _
    · exact hrest c

/-- A row is fetched by `mysql_stmt_fetch_column` alone. -/
theorem uses_fetchRow {P : ClientOp → Prop} (stmt : MysqlStatement) (handle : QueryHandle) (row : ServerRow)
    (hP : ∀ column offset, P (.mysqlStmtFetchColumn stmt.mysqlStmt column offset)) :
    (fetchRow stmt handle row).Uses P := by
  unfold fetchRow
  split
  · exact (uses_fetchTruncatedResults stmt row hP _ 0).bind fun _ => trivial
  · trivial

end MysqlExecutor

/-! ## The executor's identity -/

/-- The operation gives the executor its number. -/
def ClientOp.numbers : ClientOp → Bool
  | setExecutorId _ => true
  | _ => false

/-- **No operation changes whom an executor connects to, and only one changes its number.** -/
theorem identity_exec {o : ClientOp} {a : ClientAnswer} {s s' : ExecSt} {r : o.Reply}
    (h : clientExec o a s = some (r, s')) :
    s'.this.option = s.this.option ∧ (o.numbers = false → s'.this.executorId = s.this.executorId) := by
  by_cases ho : o.minor = true
  · rw [(fades_exec ho h).this]
    exact ⟨rfl, fun _ => rfl⟩
  cases o <;> simp only [ClientOp.minor, not_true_eq_false] at ho
  case mysqlRealConnect =>
    obtain ⟨p, -, ⟨-, -, -, rfl⟩ | ⟨-, rfl⟩⟩ := realConnect_exec h <;> simp [ExecSt.connected]
  case mysqlRealQuery =>
    obtain ⟨p, -, ⟨-, σ, -, rfl⟩ | ⟨-, rfl⟩⟩ := realQuery_exec h <;> simp [ExecSt.failMysql, ExecSt.note]
  case mysqlStmtPrepare =>
    obtain ⟨q, -, ⟨-, id, rfl⟩ | ⟨-, rfl⟩⟩ := stmtPrepare_exec h <;>
      simp [ExecSt.failStmt, ExecSt.note, ExecSt.setStmt]
  case mysqlStmtExecute =>
    obtain ⟨q, p, -, -, ⟨-, σ, -, -, rfl⟩ | ⟨-, rfl⟩⟩ := stmtExecute_exec h <;>
      simp [ExecSt.failStmt, ExecSt.note, ExecSt.setStmt]
  case mysqlClose m => cases m <;> cases h <;> simp
  case crash why => cases h
  all_goals cases h; simp [ClientOp.numbers]

end TrpcMysql
