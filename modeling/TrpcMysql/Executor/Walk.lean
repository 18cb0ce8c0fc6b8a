import TrpcMysql.Executor.Effects

/-!
# Walking through a statement

`QueryAll` and `Execute` perform the operations of one statement, and in between they may
reconnect. What every such operation keeps, made with the executor's own MYSQL object, and
what `Connect` keeps, is kept by the whole (`Walk`, `keeps_runStatement`).
-/

namespace TrpcMysql

open Function Conc

section Walk

variable {S α β : Type} {exec : (o : ClientOp) → ClientAnswer → S → Option (o.Reply × S)} {this : S → ExecutorFields}
  {G P : ClientOp → ClientAnswer → S → Prop} {I : S → Prop} {T : Sql → Prop}

/-- While its operations satisfy `G`, the program keeps `I` and its operations satisfy `P`. -/
def Keeps (exec : (o : ClientOp) → ClientAnswer → S → Option (o.Reply × S)) (G P : ClientOp → ClientAnswer → S → Prop)
    (I : S → Prop) (p : XProg α) : Prop :=
  ∀ s, I s → p.gwp exec G P (fun _ => I) s

theorem Keeps.pure (a : α) : Keeps exec G P I (pure a : XProg α) := fun _ h => h

theorem Keeps.bind {p : XProg α} {f : α → XProg β} (hp : Keeps exec G P I p) (hf : ∀ a, Keeps exec G P I (f a)) :
    Keeps exec G P I (p >>= f) := by
  intro s h
  rw [Prog.gwp_bind]
  exact Prog.gwp_mono (fun a s' h' => hf a s' h') (hp s h)

/-- The text that the operation sends. -/
def ClientOp.text? : ClientOp → Option Sql
  | mysqlRealQuery _ sql | mysqlStmtPrepare _ sql => some sql
  | _ => none

/-- The operations of a statement without a text, outside `CheckAlive` and `Connect`. -/
def ClientOp.ofStatement : ClientOp → Bool
  | mysqlRealQuery .. | mysqlStmtPrepare .. | mysqlPing _ | setConnected _ | initMysql | clearMysql | setAutoCommit _
  | refreshAliveTime | getAliveTime | setExecutorId _ | mysqlSetCharacterSet .. | mysqlOptions ..
  | mysqlRealConnect .. | mysqlClose _ | mysqlAutocommit .. => false
  | _ => true

/-- The operations of a statement that is sent as one of `T`. -/
def ClientOp.OfStatement (T : Sql → Prop) (o : ClientOp) : Prop := o.ofStatement = true ∨ ∃ sql ∈ o.text?, T sql

/-- The operations of `CheckAlive`. -/
def ClientOp.ofCheck : ClientOp → Bool
  | getThis | mysqlPing _ => true
  | setConnected b => !b
  | _ => false

/-- What the operations keep that satisfy `Q` and are made with `mysql_`. -/
def KeepsOps (exec : (o : ClientOp) → ClientAnswer → S → Option (o.Reply × S)) (this : S → ExecutorFields)
    (G P : ClientOp → ClientAnswer → S → Prop) (I : S → Prop) (Q : ClientOp → Prop) : Prop :=
  ∀ {o a s}, Q o → o.mysqlArg = none ∨ o.mysqlArg = (this s).mysql → I s → G o a s →
    P o a s ∧ ∀ r s', exec o a s = some (r, s') → I s'

/-- What the operations of a statement keep, when they are made with `mysql_`, and what `CheckAlive` and
`Connect` keep. -/
structure Walk (exec : (o : ClientOp) → ClientAnswer → S → Option (o.Reply × S)) (this : S → ExecutorFields)
    (G P : ClientOp → ClientAnswer → S → Prop) (I : S → Prop) (T : Sql → Prop) : Prop where
  getThis : ∀ {a s t s'}, exec .getThis a s = some (t, s') → t = this s ∧ s' = s
  op : KeepsOps exec this G P I (ClientOp.OfStatement T)
  checkAlive : Keeps exec G P I MysqlExecutor.checkAlive
  connect : Keeps exec G P I MysqlExecutor.connect

/-- An operation made with `mysql_`. -/
theorem KeepsOps.self {Q : ClientOp → Prop} (hop : KeepsOps exec this G P I Q) {s : S} (h : I s) {o : ClientOp} (ho : Q o)
    (hm : o.mysqlArg = (this s).mysql) {k : o.Reply → XProg α} (hk : ∀ r, Keeps exec G P I (k r)) :
    (xop o >>= k).gwp exec G P (fun _ => I) s := fun _ hG =>
  ⟨(hop ho (.inr hm) h hG).1, fun r s' he => hk r s' ((hop ho (.inr hm) h hG).2 r s' he)⟩

/-- What reads the fields of the executor. -/
theorem KeepsOps.get {Q : ClientOp → Prop} (hop : KeepsOps exec this G P I Q) (ho : Q .getThis)
    (hget : ∀ {a s t s'}, exec .getThis a s = some (t, s') → t = this s ∧ s' = s) {f : ExecutorFields → XProg α}
    (hf : ∀ s, I s → (f (this s)).gwp exec G P (fun _ => I) s) : Keeps exec G P I (TrpcMysql.getThis >>= f) := by
  intro s h a hG
  refine ⟨(hop ho (.inl rfl) h hG).1, fun t s' he => ?_⟩
  obtain ⟨rfl, rfl⟩ := hget he
  exact hf s' h

/-- What every operation of `CheckAlive` keeps. -/
theorem KeepsOps.checkAlive (hop : KeepsOps exec this G P I fun o => o.ofCheck = true)
    (hget : ∀ {a s t s'}, exec .getThis a s = some (t, s') → t = this s ∧ s' = s) :
    Keeps exec G P I MysqlExecutor.checkAlive := by
  refine hop.get rfl hget fun s h => ?_
  have hoff : Keeps exec G P I (do setConnected false; return false) := fun s h a hG =>
    ⟨(hop (o := .setConnected false) rfl (.inl rfl) h hG).1, fun r s' he =>
      (hop (o := .setConnected false) rfl (.inl rfl) h hG).2 r s' he⟩
  split
  · exact h
  split
  · exact hop.self h rfl rfl fun r => by split; exacts [.pure _, hoff]
  · exact hoff s h

/-- What every operation of a statement and of `CheckAlive` keeps, one by one. -/
theorem Walk.ofOps {G P : ClientOp → ClientAnswer → ExecSt → Prop} {I : ExecSt → Prop}
    (hop : KeepsOps clientExec ExecSt.this G P I fun o => o.OfStatement T ∨ o.ofCheck = true)
    (hconnect : Keeps clientExec G P I MysqlExecutor.connect) : Walk clientExec ExecSt.this G P I T := by
  have hget : ∀ {a s t s'}, clientExec .getThis a s = some (t, s') → t = s.this ∧ s' = s := by
    intro a s t s' he
    cases he
    exact ⟨rfl, rfl⟩
  exact ⟨hget, fun ho hm h hG => hop (.inl ho) hm h hG,
    KeepsOps.checkAlive (fun ho hm h hG => hop (.inr ho) hm h hG) hget,
    hconnect⟩

namespace Walk

variable (hw : Walk exec this G P I T)
include hw

theorem run {o : ClientOp} (ho : o.OfStatement T) (hm : o.mysqlArg = none) :
    Keeps exec G P I (xop o) := fun _ h _ hG => hw.op ho (.inl hm) h hG

theorem crash {why : Crash} {k : Empty → XProg α} : Keeps exec G P I (.act (.crash why) k) := fun _ h _ hG =>
  ⟨(hw.op (o := .crash why) (.inl rfl) (.inl rfl) h hG).1, fun r => r.elim⟩

/-- An operation made with `mysql_`. -/
theorem self {s : S} (h : I s) {o : ClientOp} (ho : o.OfStatement T)
    (hm : o.mysqlArg = (this s).mysql) {k : o.Reply → XProg α} (hk : ∀ r, Keeps exec G P I (k r)) :
    (xop o >>= k).gwp exec G P (fun _ => I) s := KeepsOps.self hw.op h ho hm hk

theorem get {f : ExecutorFields → XProg α}
    (hf : ∀ s, I s → (f (this s)).gwp exec G P (fun _ => I) s) : Keeps exec G P I (TrpcMysql.getThis >>= f) :=
  KeepsOps.get hw.op (.inl rfl) hw.getThis hf

end Walk

namespace MysqlExecutor

variable (hw : Walk exec this G P I T) (stmt : MysqlStatement) (r : MysqlResults) (outputs : List OutputArg)
  (args : List InputArg) {sql : Sql}
include hw

theorem keeps_getErrorNumber : Keeps exec G P I getErrorNumber :=
  hw.get fun _ h => hw.self (k := Prog.ret) h (.inl rfl) rfl .pure

theorem keeps_getErrorMessage : Keeps exec G P I getErrorMessage :=
  hw.get fun _ h => hw.self (k := Prog.ret) h (.inl rfl) rfl .pure

theorem keeps_retry : ∀ n, Keeps exec G P I (retry n)
  | 0 => .pure _
  | n + 1 => hw.connect.bind fun r => by split; exacts [.pure _, keeps_retry n]

theorem keeps_startReconnect : Keeps exec G P I startReconnect := keeps_retry hw _

theorem keeps_mysqlStatus : Keeps exec G P I mysqlStatus :=
  (keeps_getErrorNumber hw).bind fun _ => (keeps_getErrorMessage hw).bind fun _ => .pure _

theorem keeps_setMysqlError : Keeps exec G P I (setMysqlError r) :=
  (keeps_getErrorMessage hw).bind fun _ => (keeps_getErrorNumber hw).bind fun _ => .pure _

/-! ### Prepared statements -/

theorem keeps_stmtErrorMessage : Keeps exec G P I stmt.getErrorMessage := by
  unfold MysqlStatement.getErrorMessage; split; exacts [hw.run (.inl rfl) rfl, .pure _]

theorem keeps_stmtErrorNumber : Keeps exec G P I stmt.getErrorNumber := by
  unfold MysqlStatement.getErrorNumber; split; exacts [hw.run (.inl rfl) rfl, .pure _]

theorem keeps_stmtStatus : Keeps exec G P I (stmtStatus stmt) :=
  (keeps_stmtErrorNumber hw stmt).bind fun _ => (keeps_stmtErrorMessage hw stmt).bind fun _ => .pure _

theorem keeps_setStmtError : Keeps exec G P I (setStmtError r stmt) :=
  (keeps_stmtErrorMessage hw stmt).bind fun _ => (keeps_stmtErrorNumber hw stmt).bind fun _ => .pure _

theorem keeps_endStatement : Keeps exec G P I (endStatement stmt) := by
  refine Keeps.bind ?_ fun x => ?_
  · unfold MysqlStatement.closeStatement
    split
    · refine Keeps.bind (hw.run (.inl rfl) rfl) fun b => ?_
      split
      · exact .pure _
      · exact (hw.run (.inl rfl) rfl).bind fun _ => .pure _
    · exact .pure _
  · simp only [MysqlStatement.destroy]; split; exacts [hw.crash, .pure _]

theorem keeps_executeStatement (b : Bool) : Keeps exec G P I (executeStatement b stmt) := by
  have hexec : Keeps exec G P I (do
      if !(← mysqlStmtExecute stmt.mysqlStmt) then return ← stmtStatus stmt
      return ({} : Status)) :=
    (hw.run (.inl rfl) rfl).bind fun b => by split; exacts [keeps_stmtStatus hw stmt, .pure _]
  have hbind : Keeps exec G P I (do
      if !(← mysqlStmtBindResult stmt.mysqlStmt) then return ← stmtStatus stmt
      if !(← mysqlStmtExecute stmt.mysqlStmt) then return ← stmtStatus stmt
      return ({} : Status)) :=
    (hw.run (.inl rfl) rfl).bind fun b => by split; exacts [keeps_stmtStatus hw stmt, hexec]
  refine hw.checkAlive.bind fun alive => ?_
  cases b <;> cases alive
  · exact (keeps_startReconnect hw).bind fun c => by cases c; exacts [keeps_mysqlStatus hw, hexec]
  · exact hexec
  · exact (keeps_startReconnect hw).bind fun c => by cases c; exacts [keeps_mysqlStatus hw, hbind]
  · exact hbind

theorem keeps_bindInputArgs : Keeps exec G P I (bindInputArgs args) := by
  unfold bindInputArgs; split; exacts [.pure _, hw.crash]

theorem keeps_formatQuery {α : Type} {f : Sql → XProg α}
    (hT : ∀ fmt sent, Formatter.formatSql fmt args sql = some sent → T sent)
    (hf : ∀ sent, T sent → Keeps exec G P I (f sent)) :
    Keeps exec G P I (formatQuery sql args >>= f) := by
  unfold formatQuery
  rw [Prog.bind_assoc]
  refine (hw.run (.inl rfl) rfl).bind fun sent => ?_
  cases sent with
  | none => exact hw.crash
  | some sent =>
    obtain ⟨sent, fmt, hsent⟩ := sent
    exact hf sent (hT fmt sent hsent)

theorem keeps_fetchTruncatedResults (row : ServerRow) : ∀ (i : ℕ) (handle : QueryHandle),
    Keeps exec G P I (fetchTruncatedResults stmt row i handle)
  | _, [] => .pure _
  | i, c :: handle => by
    unfold fetchTruncatedResults
    have hrest := (keeps_fetchTruncatedResults row (i + 1) handle)
    split
    · exact (hw.run (.inl rfl) rfl).bind fun b => by cases b; exacts [.pure _, hrest.bind fun _ => .pure _]
    · exact hrest.bind fun _ => .pure _

theorem keeps_fetchRow (handle : QueryHandle) (row : ServerRow) : Keeps exec G P I (fetchRow stmt handle row) := by
  unfold fetchRow
  split
  · exact (keeps_fetchTruncatedResults hw stmt row 0 _).bind fun _ => .pure _
  · exact .pure _

theorem keeps_fetchLoop : ∀ n handle r, Keeps exec G P I (fetchLoop stmt n handle r)
  | 0, _, _ => (hw.run (.inl rfl) rfl).bind fun f => by
    cases f
    exacts [.pure _, .pure _, hw.crash]
  | n + 1, _, _ => (hw.run (.inl rfl) rfl).bind fun f => by
    cases f
    exacts [.pure _, .pure _, (keeps_fetchRow hw stmt _ _).bind fun _ => keeps_fetchLoop n _ _]

theorem keeps_fetchResults (handle : QueryHandle) : Keeps exec G P I (fetchResults handle stmt r) :=
  (hw.run (.inl rfl) rfl).bind fun n => by cases n; exacts [.pure _, keeps_fetchLoop hw stmt _ _ _]

theorem keeps_queryBound (handle : QueryHandle) : Keeps exec G P I (queryBound handle stmt r) := by
  refine (keeps_executeStatement hw stmt true).bind fun s => ?_
  split
  · exact (keeps_endStatement hw stmt).bind fun _ => .pure _
  refine (keeps_fetchResults hw stmt r _).bind fun ⟨fetched, r⟩ => ?_
  cases fetched
  · exact (keeps_setStmtError hw stmt _).bind fun _ => (keeps_endStatement hw stmt).bind fun _ => .pure _
  · exact (hw.run (.inl rfl) rfl).bind fun _ => (keeps_endStatement hw stmt).bind fun _ => .pure _

theorem keeps_queryPrepared : Keeps exec G P I (queryPrepared outputs stmt r) :=
  (hw.run (.inl rfl) rfl).bind fun fields => by cases fields; exacts [hw.crash, keeps_queryBound hw stmt r _]

theorem keeps_clearResults : Keeps exec G P I (clearResults r) := (hw.run (.inl rfl) rfl).bind fun _ => .pure _

/-- `MysqlStatement(mysql_)` and `Init`. -/
theorem keeps_init (hT : T sql) {α : Type} {f : Bool × MysqlStatement → XProg α} (hf : ∀ x, Keeps exec G P I (f x)) :
    Keeps exec G P I (do f (← MysqlStatement.init { mysql := (← getThis).mysql } sql)) := by
  refine hw.get fun s h => ?_
  unfold MysqlStatement.init
  rw [Prog.bind_assoc]
  refine hw.self h (.inl rfl) rfl fun st => ?_
  refine Keeps.bind ?_ hf
  split
  · exact .pure _
  refine (hw.run (.inr ⟨sql, rfl, hT⟩) rfl).bind fun ok => ?_
  cases ok
  · exact .pure _
  · exact (hw.run (.inl rfl) rfl).bind fun _ => (hw.run (.inl rfl) rfl).bind fun _ => .pure _

theorem keeps_stmtFailure {α : Type} (a : α) : Keeps exec G P I (do
    let r ← setStmtError r stmt
    endStatement stmt
    return (a, r)) :=
  (keeps_setStmtError hw stmt r).bind fun _ => (keeps_endStatement hw stmt).bind fun _ => .pure _

theorem keeps_queryAllBind (hT : T sql) : Keeps exec G P I (queryAllBind outputs r sql args) := by
  refine (keeps_clearResults hw r).bind fun r => keeps_init hw hT fun ⟨ok, stmt⟩ => ?_
  cases ok
  · exact keeps_stmtFailure hw stmt r _
  refine (hw.run (.inl rfl) rfl).bind fun fields => ?_
  cases fields with
  | none => exact hw.crash
  | some fields =>
    dsimp only
    split
    · exact (keeps_endStatement hw stmt).bind fun _ => .pure _
    refine (keeps_bindInputArgs hw args).bind fun _ => (hw.run (.inl rfl) rfl).bind fun bound => ?_
    cases bound
    · exact keeps_stmtFailure hw stmt r _
    · exact keeps_queryPrepared hw stmt r outputs

theorem keeps_queryAllNative (hT : ∀ fmt sent, Formatter.formatSql fmt args sql = some sent → T sent) :
    Keeps exec G P I (queryAllNative r sql args) := by
  refine (keeps_clearResults hw r).bind fun r => keeps_formatQuery hw args hT fun sent hsent => hw.get fun s h =>
    hw.self h (.inr ⟨sent, rfl, hsent⟩) rfl fun ok => ?_
  cases ok
  · exact (keeps_setMysqlError hw r).bind fun _ => .pure _
  refine hw.get fun s h => hw.self h (.inl rfl) rfl fun res => ?_
  cases res
  · exact (keeps_setMysqlError hw r).bind fun _ => .pure _
  · exact .pure _

theorem keeps_queryAll (hT : ∀ sent, Sql.Sent r.mode sql args sent → T sent) :
    Keeps exec G P I (queryAll r sql args) := by
  have hend : ∀ x : Bool × MysqlResults, Keeps exec G P I (do
      if !x.1 then return (false, x.2)
      return (true, { x.2 with hasValue := true })) := fun ⟨ok, r⟩ => by cases ok <;> exact .pure _
  unfold queryAll
  cases hm : r.mode with
  | bindType outputs => exact (keeps_queryAllBind hw r _ args (hT sql (.same (by simp [hm])))).bind hend
  | onlyExec => exact hw.crash.bind hend
  | nativeString =>
    exact (keeps_queryAllNative hw r args fun fmt sent h => hT sent (by rw [hm]; exact ⟨fmt, h⟩)).bind hend

theorem keeps_executeText (hT : T sql) : Keeps exec G P I (executeText r sql) := by
  refine hw.get fun s h => hw.self h (.inr ⟨sql, rfl, hT⟩) rfl fun ok => ?_
  cases ok
  · exact (keeps_setMysqlError hw r).bind fun _ => .pure _
  · exact hw.get fun s h => hw.self h (.inl rfl) rfl fun n => .pure _

theorem keeps_executePrepared (hT : T sql) : Keeps exec G P I (executePrepared r sql args) := by
  refine (keeps_clearResults hw r).bind fun r => keeps_init hw hT fun ⟨ok, stmt⟩ => ?_
  cases ok
  · exact keeps_stmtFailure hw stmt r _
  refine (keeps_bindInputArgs hw args).bind fun _ => (hw.run (.inl rfl) rfl).bind fun bound => ?_
  cases bound
  · exact keeps_stmtFailure hw stmt r _
  refine (keeps_executeStatement hw stmt false).bind fun s => ?_
  dsimp only
  split
  · exact (keeps_endStatement hw stmt).bind fun _ => .pure _
  · exact hw.get fun s h => hw.self h (.inl rfl) rfl fun n => (keeps_endStatement hw stmt).bind fun _ => .pure _

theorem keeps_execute (hT : T sql) : Keeps exec G P I (execute r sql args) := by
  unfold execute
  split
  · exact (keeps_executeText hw r hT).bind fun _ => .pure _
  · exact (keeps_executePrepared hw r args hT).bind fun _ => .pure _

/-- **A statement keeps what its operations and `Connect` keep.** -/
theorem keeps_runStatement (hT : ∀ sent, Sql.Sent r.mode sql args sent → T sent) :
    Keeps exec G P I (runStatement r sql args) := by
  unfold runStatement
  split
  · rename_i hm
    exact keeps_execute hw r args (hT sql (.same (by simp [hm])))
  · exact keeps_queryAll hw r args hT

end MysqlExecutor

end Walk

end TrpcMysql
