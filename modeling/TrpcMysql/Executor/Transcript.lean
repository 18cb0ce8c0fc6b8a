import TrpcMysql.Conc.Ending
import TrpcMysql.Executor.Spec

/-!
# What the calls of a statement tell

The libmysqlclient calls of `QueryAll` and `Execute` that open or close a statement or can fail, with their
outcomes (`Heard`), in the order in which they are made, for every end that the function can come to. Each function
has one lemma, up to `ExecuteStatement` (`executeStatement_told`): a statement is executed only in the session that
prepared it.
-/

namespace TrpcMysql

open Function Conc

/-- What a call tells. -/
inductive Heard where
  /-- `mysql_stmt_init` -/
  | opened (q : Option StmtPtr)
  /-- `mysql_stmt_free_result` -/
  | freed (ok : Bool)
  /-- `mysql_stmt_close` -/
  | closed (q : Option StmtPtr)
  /-- `mysql_stmt_result_metadata`; there is none for a statement without a result set -/
  | columns (fields : Option (List Field))
  /-- `FormatQuery`, which may throw -/
  | formatted (ok : Bool)
  /-- `mysql_stmt_execute` or `mysql_real_query` -/
  | executed (ok : Bool)
  /-- `mysql_stmt_fetch` of a row -/
  | fetched
  | noData
  | fetchFailed
  /-- `mysql_stmt_fetch_column` -/
  | column (ok : Bool)
  /-- `mysql_store_result` -/
  | stored (there : Bool)
  /-- `mysql_errno` -/
  | errno (number : ℤ)
  /-- `mysql_ping`, `mysql_real_connect`, `mysql_stmt_prepare`, `mysql_stmt_bind_param`,
  `mysql_stmt_bind_result` or `mysql_stmt_store_result` -/
  | done (ok : Bool)
  deriving DecidableEq

/-- The call failed. -/
def Heard.failed : Heard → Bool
  | opened q => q.isNone
  | freed ok | formatted ok | executed ok | column ok | done ok => !ok
  | columns fields => fields.isNone
  | stored there => !there
  | fetchFailed => true
  | _ => false

def told : (o : ClientOp) → o.Reply → List Heard
  | .mysqlStmtInit _, q => [.opened q]
  | .mysqlStmtFreeResult _, ok => [.freed ok]
  | .mysqlStmtClose q, _ => [.closed q]
  | .mysqlStmtResultMetadata _, fields => [.columns fields]
  | .formatQuery .., sent => [.formatted sent.isSome]
  | .mysqlStmtExecute _, ok | .mysqlRealQuery .., ok => [.executed ok]
  | .mysqlStmtFetch _, .row _ => [.fetched]
  | .mysqlStmtFetch _, .noData => [.noData]
  | .mysqlStmtFetch _, .error => [.fetchFailed]
  | .mysqlStmtFetchColumn .., ok => [.column ok]
  | .mysqlStoreResult _, res => [.stored res.isSome]
  | .mysqlErrno _, number => [.errno number]
  | .mysqlPing _, ok | .mysqlRealConnect .., ok | .mysqlStmtPrepare .., ok | .mysqlStmtBindParam .., ok
  | .mysqlStmtBindResult _, ok => [.done ok]
  | .mysqlStmtStoreResult _, n => [.done n.isSome]
  | _, _ => []

/-- The operation has the objects that it needs. -/
def ClientOp.given : ClientOp → Bool
  | mysqlSetCharacterSet m _ | mysqlOptions m _ _ | mysqlRealConnect m _ | mysqlPing m | mysqlRealQuery m _
  | mysqlAffectedRows m | mysqlAutocommit m _ | mysqlStoreResult m | mysqlStmtInit m => m.isSome
  | mysqlStmtPrepare st _ | mysqlStmtFieldCount st | mysqlStmtParamCount st | mysqlStmtResultMetadata st
  | mysqlStmtBindParam st _ | mysqlStmtBindResult st | mysqlStmtExecute st | mysqlStmtErrno st | mysqlStmtError st
  | mysqlStmtStoreResult st | mysqlStmtFetch st | mysqlStmtFetchColumn st _ _ | mysqlStmtFreeResult st
  | mysqlStmtClose st => st.isSome
  | crash _ => false
  | _ => true

-- the operations that have what they need are the ones that `clientExec` names
theorem given_exec {o : ClientOp} (ho : o.given = true) (a : ClientAnswer) (s : ExecSt) : clientExec o a s ≠ none := by
  unfold clientExec
  split
  case h_40 =>
    -- the last case of the match: an object is missing
    cases o <;> simp_all [ClientOp.given, Option.isSome_iff_exists, ← Option.eq_none_iff_forall_ne_some]
  all_goals try dsimp only
  all_goals repeat' split
  all_goals simp

/-- What is told and left at every end of the program; `R` tells where the process ends. -/
abbrev Says {α : Type} (R : List Heard → ClientOp → Prop) (p : XProg α) (Q : List Heard → α → ExecSt → Prop)
    (tr : List Heard) (s : ExecSt) : Prop := p.Tells clientExec told R Q tr s

section Rules

variable {α β : Type} {R : List Heard → ClientOp → Prop} {tr : List Heard} {s : ExecSt}
  {Q : List Heard → β → ExecSt → Prop}

theorem says_op {o : ClientOp} {f : o.Reply → XProg β} (ho : o.given = true)
    (hf : ∀ a r s', clientExec o a s = some (r, s') → Says R (f r) Q (tr ++ told o r) s') :
    Says R (xop o >>= f) Q tr s := Prog.tells_op (fun a h => absurd h (given_exec ho a s)) hf

theorem says_getThis {f : ExecutorFields → XProg β} (hf : Says R (f s.this) Q tr s) :
    Says R (getThis >>= f) Q tr s := by
  refine says_op rfl fun a r s' he => ?_
  cases he
  simpa [told] using hf

end Rules

/-! ## The error of the statement, and its end -/

section Statement

variable {α β : Type} {R : List Heard → ClientOp → Prop} {tr : List Heard} {s : ExecSt}
  {Q : List Heard → β → ExecSt → Prop}
  {stmt : MysqlStatement} {p : MysqlPtr} {q : StmtPtr} {r : MysqlResults} {a : ClientAnswer}

theorem failStmt_errno : ((s.failStmt q a).stmts q).errno ≠ 0 := by
  simpa [ExecSt.failStmt, ExecSt.note, ExecSt.setStmt, Stmt.fail] using a.error.ne_zero

namespace MysqlExecutor

theorem says_setStmtError {f : MysqlResults → XProg β} (hq : stmt.mysqlStmt = some q)
    (hf : ∀ message, Says R (f (r.setError message (s.stmts q).errno)) Q tr s) :
    Says R (setStmtError r stmt >>= f) Q tr s := by
  obtain ⟨st, k, n, l⟩ := stmt
  obtain rfl : st = some q := hq
  refine says_op rfl fun a message s₁ he => says_op rfl fun a number s₂ he' => ?_
  cases he
  cases he'
  simpa [told] using hf (s.stmts q).error

theorem says_stmtStatus {f : Status → XProg β} (hq : stmt.mysqlStmt = some q)
    (hf : ∀ message, Says R (f { frameworkRetCode := (s.stmts q).errno, errorMessage := message }) Q tr s) :
    Says R (stmtStatus stmt >>= f) Q tr s := by
  obtain ⟨st, k, n, l⟩ := stmt
  obtain rfl : st = some q := hq
  refine says_op rfl fun a message s₁ he => says_op rfl fun a number s₂ he' => ?_
  cases he
  cases he'
  simpa [told] using hf (s.stmts q).error

/-- `mysql_stmt_free_result`, then `mysql_stmt_close`; when the first fails the destructor ends the process. -/
theorem says_endStatement {f : Unit → XProg β} (hq : stmt.mysqlStmt = some q)
    (hR : R (tr ++ [.freed false]) (.crash .assertion))
    (hf : ∀ s', Says R (f ()) Q (tr ++ [.freed true, .closed (some q)]) s') :
    Says R (endStatement stmt >>= f) Q tr s := by
  obtain ⟨st, k, n, l⟩ := stmt
  obtain rfl : st = some q := hq
  refine says_op rfl fun a freed s₁ he => ?_
  cases freed
  · intro b
    exact ⟨fun _ => hR, fun x => x.elim⟩
  · refine says_op rfl fun b x s₂ he' => ?_
    have h := hf s₂
    simp only [told, List.append_assoc]
    exact h

/-- The end of a statement that failed. -/
theorem says_stmtFailure {x : α} {Q : List Heard → α × MysqlResults → ExecSt → Prop} (hq : stmt.mysqlStmt = some q)
    (hR : R (tr ++ [.freed false]) (.crash .assertion))
    (hQ : ∀ message s', Q (tr ++ [.freed true, .closed (some q)]) (x, r.setError message (s.stmts q).errno) s') :
    Says R (do
      let r ← setStmtError r stmt
      endStatement stmt
      return (x, r)) Q tr s :=
  says_setStmtError hq fun message => says_endStatement hq hR fun s' => Prog.tells_pure (hQ message s')

/-- The end of a statement that `mysql_stmt_init` did not make. -/
theorem says_noStatement {x : α} {Q : List Heard → α × MysqlResults → ExecSt → Prop} (hq : stmt.mysqlStmt = none)
    (hQ : Q tr (x, r.setError "" 0) s) : Says R (do
      let r ← setStmtError r stmt
      endStatement stmt
      return (x, r)) Q tr s := by
  obtain ⟨st, k, n, l⟩ := stmt
  obtain rfl : st = none := hq
  exact hQ

end MysqlExecutor

end Statement

/-! ## The connection -/

/-- The sessions are numbered as they come; `N` below stands for this where few results need it. -/
def ExecSt.Numbered (s : ExecSt) : Prop := ∀ p σ, (s.mysqls p).session = some σ → σ.id < s.sessions

/-- The statement `q` of `p`, the current MYSQL object; its session is one that there has been. -/
structure Stands (N : Prop) (p : MysqlPtr) (q : StmtPtr) (s : ExecSt) : Prop where
  mysql : s.this.mysql = some p
  stmt : (s.stmts q).mysql = p
  behind : N → ∀ id, (s.stmts q).session = some id → id < s.sessions

/-- What an attempt to connect leaves of an executor that was not connected. -/
structure Attempted (p : MysqlPtr) (s : ExecSt) (done : Bool) (s' : ExecSt) : Prop where
  mysql : s'.this.mysql = some p
  isConnected : s'.this.isConnected = done
  stmts : s'.stmts = s.stmts
  sessions : s.sessions ≤ s'.sessions
  up : done = true → ∃ σ, (s'.mysqls p).session = some σ ∧ s.sessions ≤ σ.id
  down : done = false → (s'.mysqls p).session = none

section Connection

variable {R : List Heard → ClientOp → Prop} {tr : List Heard} {s : ExecSt} {p : MysqlPtr} {q : StmtPtr} {a : ClientAnswer}

@[simp] theorem ExecSt.setMysql_sessions {x : Mysql} : (s.setMysql p x).sessions = s.sessions := rfl

@[simp] theorem ExecSt.enter_sessions {p' : MysqlPtr} : (s.enter a p').sessions = s.sessions := by
  unfold ExecSt.enter; split <;> rfl

/-- A call on `p` begins where no other session is. -/
theorem ExecSt.enter_session {σ : Session} (h : ((s.enter a p).mysqls p).session = some σ) :
    (s.mysqls p).session = some σ := by
  unfold ExecSt.enter at h
  split at h
  · simp [Mysql.lose] at h
  · exact h

/-- What only fades leaves the numbers as they are. -/
theorem Fades.numbered {s' : ExecSt} (h : Fades s s') (hs : s.Numbered) : s'.Numbered := by
  intro p σ hσ
  rw [h.sessions]
  exact hs p σ (h.keeps p σ hσ)

theorem numbered_setMysql {x : Mysql} (hs : s.Numbered) (hx : ∀ σ, x.session = some σ → σ.id < s.sessions) :
    (s.setMysql p x).Numbered := by
  intro p' σ hσ
  by_cases hp : p' = p
  · subst hp
    rw [ExecSt.setMysql_self] at hσ
    exact hx σ hσ
  · rw [ExecSt.setMysql_of_ne hp] at hσ
    exact hs p' σ hσ

theorem numbered_acknowledge {σ : Session} {sql : Sql} (hs : s.Numbered) (hσ : (s.mysqls p).session = some σ) :
    (s.acknowledge p σ sql a).Numbered := by
  refine numbered_setMysql hs fun τ hτ => ?_
  cases hτ
  have hid : (σ.after sql).id = σ.id := by cases sql <;> rfl
  rw [hid]
  exact hs p σ hσ

/-- A connection takes the next number. -/
theorem numbered_connected (hs : s.Numbered) : (s.connected p).Numbered := by
  intro p' σ hσ
  by_cases hp : p' = p
  · subst hp
    simp only [ExecSt.connected, ExecSt.setMysql_self, Option.some.injEq] at hσ
    subst hσ
    exact Nat.lt_succ_self _
  · simp only [ExecSt.connected, ExecSt.setMysql_of_ne hp] at hσ
    exact Nat.lt_succ_of_lt (hs p' σ hσ)

theorem numbered_exec {o : ClientOp} {r : o.Reply} {s' : ExecSt} (h : clientExec o a s = some (r, s'))
    (hs : s.Numbered) : s'.Numbered := by
  have henter : ∀ p, (s.enter a p).Numbered := fun p => ((Fades.refl s).enter).numbered hs
  by_cases ho : o.minor = true
  · exact (fades_exec ho h).numbered hs
  cases o <;> simp only [ClientOp.minor, not_true_eq_false] at ho
  case initMysql =>
    cases h
    exact numbered_setMysql hs fun σ hσ => by cases hσ
  case mysqlRealConnect m o =>
    obtain ⟨p, -, ⟨-, -, -, rfl⟩ | ⟨-, rfl⟩⟩ := realConnect_exec h
    · exact numbered_connected (henter p)
    · exact numbered_setMysql (henter p) fun σ hσ => henter p p σ hσ
  case mysqlClose m =>
    cases m with
    | none => cases h; exact hs
    | some p =>
      cases h
      exact numbered_setMysql (henter p) fun σ hσ => by cases hσ
  case mysqlRealQuery m sql =>
    obtain ⟨p, -, ⟨-, σ, hσ, rfl⟩ | ⟨-, rfl⟩⟩ := realQuery_exec h
    · exact numbered_acknowledge (henter p) (ExecSt.ready_eq hσ).1
    · exact ((Fades.refl s).enter.failMysql).numbered hs
  case mysqlStmtPrepare st sql =>
    obtain ⟨q, -, ⟨-, id, rfl⟩ | ⟨-, rfl⟩⟩ := stmtPrepare_exec h
    · exact henter _
    · exact ((Fades.refl s).enter.failStmt).numbered hs
  case mysqlStmtExecute st =>
    obtain ⟨q, p, -, -, ⟨-, σ, hσ, -, rfl⟩ | ⟨-, rfl⟩⟩ := stmtExecute_exec h
    · exact numbered_acknowledge (henter p) (ExecSt.ready_eq hσ).1
    · exact ((Fades.refl s).enter.failStmt).numbered hs
  case crash why => cases h
  all_goals
    cases h
    exact hs

/-- **Every executor numbers its sessions**, from its construction on. -/
theorem numbered_run {α : Type} {p : XProg α} {x : α} {s' : ExecSt} {as rest : List ClientAnswer}
    (h : p.run clientExec s as = some (x, s', rest)) (hs : s.Numbered) : s'.Numbered := by
  have huses : p.Uses fun _ => True := by
    clear h
    induction p with
    | ret a => trivial
    | act o k ih => exact ⟨trivial, ih⟩
  exact Prog.wp_run (huses.keeps (I := ExecSt.Numbered) (fun o a s r s' _ hs he => numbered_exec he hs) hs) h

namespace MysqlExecutor

theorem connect_told (hp : s.this.mysql = some p) (hc : s.this.isConnected = false) :
    Says R connect (fun tr' done s' => tr' = tr ++ [.done done] ∧ Attempted p s done s') tr s := by
  refine says_getThis ?_
  simp only [hc, hp, Option.isNone_some, Bool.false_eq_true, if_false]
  refine says_getThis ?_
  rw [hp]
  refine says_op rfl fun a done s₁ he => ?_
  obtain ⟨p', hp', ⟨rfl, hnone, -, rfl⟩ | ⟨rfl, rfl⟩⟩ := realConnect_exec he
  · obtain rfl : p = p' := Option.some.inj hp'
    refine says_op rfl fun b r s₂ he => ?_
    cases he
    refine Prog.tells_pure ⟨by simp [told], ?_⟩
    refine ⟨by simpa [ExecSt.connected] using hp, rfl, by simp [ExecSt.connected], ?_, fun _ => ?_,
      fun h => (by cases h)⟩
    · simp [ExecSt.connected]
    · exact ⟨{ id := s.sessions }, by simp [ExecSt.connected], le_rfl⟩
  · obtain rfl : p = p' := Option.some.inj hp'
    refine says_op rfl fun b r s₂ he => says_op rfl fun c r' s₃ he' => ?_
    cases he
    cases he'
    refine Prog.tells_pure ⟨by simp [told], ?_⟩
    exact ⟨by simpa using hp, rfl, by simp, by simp, fun h => (by cases h), fun _ => by simp [Mysql.close, Mysql.lose]⟩

/-- The attempts of `StartReconnect`, at least one. -/
theorem retry_told (n : ℕ) : ∀ {tr s}, s.this.mysql = some p → s.this.isConnected = false →
    Says R (retry (n + 1)) (fun tr' done s' => (∃ new, tr' = tr ++ new ∧ (∀ c ∈ new, ∃ ok, c = .done ok) ∧
      (done = false → .done false ∈ new)) ∧ Attempted p s done s') tr s := by
  induction n with
  | zero =>
    intro tr s hp hc
    refine Prog.tells_call ?_ (connect_told hp hc)
    rintro tr' done s' ⟨rfl, h⟩
    cases done
    · exact ⟨⟨_, rfl, by simp, fun _ => by simp⟩, h⟩
    · exact ⟨⟨_, rfl, by simp, fun h => (by cases h)⟩, h⟩
  | succ n ih =>
    intro tr s hp hc
    refine Prog.tells_call ?_ (connect_told hp hc)
    rintro tr' done s' ⟨rfl, h⟩
    cases done
    · refine Prog.Tells.mono ?_ (ih h.mysql h.isConnected)
      rintro tr' done s'' ⟨⟨new, rfl, hnew, hdone⟩, h'⟩
      refine ⟨⟨.done false :: new, by simp, by simpa using hnew, fun _ => by simp⟩, ?_⟩
      refine ⟨h'.mysql, h'.isConnected, h'.stmts.trans h.stmts, h.sessions.trans h'.sessions, fun hd => ?_, h'.down⟩
      obtain ⟨σ, hσ, hle⟩ := h'.up hd
      exact ⟨σ, hσ, h.sessions.trans hle⟩
    · exact ⟨⟨_, rfl, by simp, fun h => (by cases h)⟩, h⟩

theorem checkAlive_told (hp : s.this.mysql = some p) :
    Says R checkAlive (fun tr' alive s' => (∃ new, tr' = tr ++ new ∧ (new = [] ∨ new = [.done alive])) ∧
      s'.this.mysql = some p ∧ s'.this.isConnected = alive ∧ s'.stmts = s.stmts ∧ s'.sessions = s.sessions) tr s := by
  refine says_getThis ?_
  by_cases hc : s.this.isConnected = true
  · simp only [hc, hp, Option.isSome_some, Bool.not_true, Bool.false_eq_true, if_false, if_true]
    refine says_op rfl fun a alive s₁ he => ?_
    obtain ⟨p', hp', ⟨rfl, -, rfl⟩ | ⟨rfl, -, rfl⟩⟩ := ping_exec he
    · obtain rfl : p = p' := Option.some.inj hp'
      exact Prog.tells_pure ⟨⟨_, rfl, .inr rfl⟩, by simpa using hp, by simpa using hc, by simp, by simp⟩
    · obtain rfl : p = p' := Option.some.inj hp'
      refine says_op rfl fun b r s₂ he => ?_
      cases he
      exact Prog.tells_pure ⟨⟨[.done false], by simp [told], .inr rfl⟩, by simpa using hp, rfl, by simp, by simp⟩
  · simp only [hc, Bool.not_false, if_true]
    exact Prog.tells_pure ⟨⟨[], by simp, .inl rfl⟩, hp, by simpa using hc, rfl, rfl⟩

end MysqlExecutor

end Connection

/-! ## The statement -/

/-- A call between `mysql_stmt_init` and the first fetch; without metadata the process ends. -/
def Heard.step : Heard → Bool
  | columns fields => fields.isSome
  | executed _ | errno _ | done _ => true
  | _ => false

/-- What `ExecuteStatement` returns, and what was told. -/
inductive StatementTold (N : Prop) (p : MysqlPtr) (q : StmtPtr) (new : List Heard) (st : Status) (s : ExecSt) : Prop where
  | sent (hexec : .executed true ∈ new) (hok : N → ∀ c ∈ new, c.failed = false) (hstmt : (s.stmts q).mysql = p)
    (hst : st = {})
  | failed (hfail : ∃ c ∈ new, c.failed = true) (hst : st.frameworkRetCode ≠ 0)
  /-- the number is read from the MYSQL object, which is closed -/
  | gaveUp (hfail : ∃ c ∈ new, c.failed = true) (hstmt : (s.stmts q).mysql = p) (hs : (s.mysqls p).session = none)
    (hst : st.funcRetCode = 0)

section Execution

variable {N : Prop} {R : List Heard → ClientOp → Prop} {tr : List Heard} {s : ExecSt} {p : MysqlPtr} {q : StmtPtr}
  {stmt : MysqlStatement}

/-- Before the statement runs: every call succeeded so far, or the connection is a new one. -/
def AliveOrStale (N : Prop) (p : MysqlPtr) (q : StmtPtr) (new : List Heard) (s : ExecSt) : Prop :=
  (∀ c ∈ new, c.failed = false) ∨ ∃ σ, (s.mysqls p).session = some σ ∧ (N → (s.stmts q).session ≠ some σ.id)

/-- What `ExecuteStatement` tells. -/
def ExecutionTold (N : Prop) (p : MysqlPtr) (q : StmtPtr) (tr tr' : List Heard) (st : Status) (s : ExecSt) : Prop :=
  ∃ new, tr' = tr ++ new ∧ (∀ c ∈ new, c.step = true) ∧ s.this.mysql = some p ∧ StatementTold N p q new st s

namespace MysqlExecutor

/-- A call on the statement failed, and its error is returned. -/
theorem stmtStatus_told {new : List Heard} {c : Heard} (hq : stmt.mysqlStmt = some q) (hp : s.this.mysql = some p)
    (hnew : ∀ c ∈ new, c.step = true) (hc : c.step = true ∧ c.failed = true) (hn : (s.stmts q).errno ≠ 0) :
    Says R (stmtStatus stmt) (ExecutionTold N p q tr) (tr ++ new ++ [c]) s := by
  have h : Says R (stmtStatus stmt >>= pure) (ExecutionTold N p q tr) (tr ++ new ++ [c]) s := by
    refine says_stmtStatus hq fun message => Prog.tells_pure ?_
    refine ⟨new ++ [c], by simp, ?_, hp, .failed ⟨c, by simp, hc.2⟩ hn⟩
    simpa [or_imp, forall_and] using ⟨hnew, hc.1⟩
  rwa [bind_pure] at h

theorem stmtExecute_told {new : List Heard} (hq : stmt.mysqlStmt = some q) (hp : s.this.mysql = some p)
    (hm : (s.stmts q).mysql = p) (hnew : ∀ c ∈ new, c.step = true) (h : AliveOrStale N p q new s) : Says R (do
      if !(← mysqlStmtExecute stmt.mysqlStmt) then return ← stmtStatus stmt
      return ({} : Status)) (ExecutionTold N p q tr) (tr ++ new) s := by
  rw [hq]
  refine says_op rfl fun a done s' he => ?_
  obtain ⟨q', p', hq', rfl, ⟨rfl, σ, hσ, hs, rfl⟩ | ⟨rfl, rfl⟩⟩ := stmtExecute_exec he
  · obtain rfl : q = q' := Option.some.inj hq'
    -- a statement of another session is not executed
    have hok : N → ∀ c ∈ new, c.failed = false := by
      intro hN
      rcases h with h | ⟨τ, hτ, hne⟩
      · exact h
      · rw [hm] at hσ
        have heq := ExecSt.enter_session (ExecSt.ready_eq hσ).1
        rw [hτ] at heq
        cases heq
        exact absurd hs (hne hN)
    refine Prog.tells_pure ⟨new ++ [.executed true], by simp [told], ?_, by simpa using hp, ?_⟩
    · simpa [or_imp, forall_and, Heard.step] using hnew
    · have hok' : N → ∀ c ∈ new ++ [Heard.executed true], c.failed = false := by
        simpa [or_imp, forall_and, Heard.failed] using hok
      exact .sent (by simp) hok' (by simp [hm]) rfl
  · obtain rfl : q = q' := Option.some.inj hq'
    exact stmtStatus_told hq (by simpa [ExecSt.failStmt, ExecSt.note, ExecSt.setStmt] using hp) hnew ⟨rfl, rfl⟩
      failStmt_errno

theorem boundExecute_told {new : List Heard} (b : Bool) (hq : stmt.mysqlStmt = some q) (hp : s.this.mysql = some p)
    (hm : (s.stmts q).mysql = p) (hnew : ∀ c ∈ new, c.step = true) (h : AliveOrStale N p q new s) : Says R (do
      if b then
        if !(← mysqlStmtBindResult stmt.mysqlStmt) then return ← stmtStatus stmt
      if !(← mysqlStmtExecute stmt.mysqlStmt) then return ← stmtStatus stmt
      return ({} : Status)) (ExecutionTold N p q tr) (tr ++ new) s := by
  cases b
  · exact stmtExecute_told hq hp hm hnew h
  rw [hq]
  refine says_op rfl fun a bound s' he => ?_
  simp only [clientExec] at he
  split at he
  · cases he
    have hnew' : ∀ c ∈ new ++ [Heard.done true], c.step = true := by simpa [or_imp, forall_and, Heard.step] using hnew
    have h' : AliveOrStale N p q (new ++ [.done true]) s := by
      rcases h with h | h
      · exact .inl (by simpa [or_imp, forall_and, Heard.failed] using h)
      · exact .inr h
    have hexec : Says R (do
        if !(← mysqlStmtExecute stmt.mysqlStmt) then return ← stmtStatus stmt
        return ({} : Status)) (ExecutionTold N p q tr) (tr ++ (new ++ [.done true])) s :=
      stmtExecute_told hq hp hm hnew' h'
    rw [← List.append_assoc, hq] at hexec
    exact hexec
  · cases he
    exact stmtStatus_told hq (by simpa [ExecSt.failStmt, ExecSt.note, ExecSt.setStmt] using hp) hnew ⟨rfl, rfl⟩
      failStmt_errno

/-- After a reconnect the statement is of another session than the object, and is not executed. -/
theorem executeStatement_told (b : Bool) (hq : stmt.mysqlStmt = some q) (h : Stands N p q s) :
    Says R (executeStatement b stmt) (ExecutionTold N p q tr) tr s := by
  refine Prog.tells_call ?_ (checkAlive_told h.mysql)
  rintro tr₁ alive s₁ ⟨⟨new, rfl, hnew⟩, hmysql, hconn, hstmts, hsessions⟩
  have hstep : ∀ c ∈ new, c.step = true := by rcases hnew with rfl | rfl <;> simp [Heard.step]
  cases alive
  · refine Prog.tells_call ?_ (retry_told 4 hmysql hconn)
    rintro tr₂ done s₂ ⟨⟨tries, rfl, htries, hfail⟩, h₂⟩
    have hstep₂ : ∀ c ∈ new ++ tries, c.step = true := by
      intro c hc
      rcases List.mem_append.1 hc with hc | hc
      · exact hstep c hc
      · obtain ⟨ok, rfl⟩ := htries c hc; rfl
    have hstmt : s₂.stmts q = s.stmts q := by rw [h₂.stmts, hstmts]
    rw [List.append_assoc]
    -- the connection was lost, and `StartReconnect` fails or makes a new one
    cases done
    · refine says_getThis ?_
      rw [h₂.mysql]
      refine says_op rfl fun a number s₃ he => says_getThis ?_
      cases he
      rw [ExecSt.enter_this, h₂.mysql]
      refine says_op rfl fun a' message s₄ he => ?_
      cases he
      have htr : ∀ x, tr ++ (new ++ tries) ++ [Heard.errno x] ++ [] = tr ++ (new ++ (tries ++ [.errno x])) := by simp
      refine Prog.tells_pure ⟨_, htr _, ?_, ?_, .gaveUp ?_ ?_ ?_ rfl⟩
      · intro c hc
        rw [← List.append_assoc] at hc
        rcases List.mem_append.1 hc with hc | hc
        · exact hstep₂ c hc
        · rw [List.mem_singleton.1 hc]; rfl
      · simpa using h₂.mysql
      · exact ⟨.done false, by simp [hfail rfl], rfl⟩
      · simp [hstmt, h.stmt]
      · by_contra hne
        obtain ⟨σ, hσ⟩ := Option.ne_none_iff_exists'.1 hne
        have := ExecSt.enter_session (ExecSt.enter_session hσ)
        rw [h₂.down rfl] at this
        cases this
    · -- the new session has a new number
      obtain ⟨σ, hσ, hle⟩ := h₂.up rfl
      refine boundExecute_told b hq h₂.mysql (by rw [hstmt, h.stmt]) hstep₂ (.inr ⟨σ, hσ, fun hN hs => ?_⟩)
      rw [hstmt] at hs
      have := h.behind hN σ.id hs
      omega
  · refine boundExecute_told b hq hmysql (by rw [hstmts, h.stmt]) hstep (.inl ?_)
    rcases hnew with rfl | rfl <;> simp [Heard.failed]

end MysqlExecutor

end Execution

end TrpcMysql
