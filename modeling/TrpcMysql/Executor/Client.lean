import TrpcMysql.Conc.Prog
import TrpcMysql.Executor.Formatter

/-!
# An executor and its libmysqlclient objects

`ExecSt` is everything one `MysqlExecutor` owns: its fields, the MYSQL and
MYSQL_STMT objects it obtained, and the server sessions behind them. `ClientOp`
lists what the executor's code can do, one constructor for each access to a field
and each libmysqlclient call, and `clientExec` says what each does, from the
library's documentation. The environment decides the rest through `ClientAnswer`.

* A connection may be lost before any call (`ClientAnswer.lost`); a lost
  session's open transaction is gone with it.
* While a result is pending on a connection, ping and every statement fail. The results of a statement
  after its first (those of a procedure that is called) stay on the connection, since nothing asks for
  them (`mysql_next_result`).
* A new session is in autocommit mode, with no open transaction.
* A statement runs only in the session that prepared it.

Two fields are history only (no code reads them): `events` lists what the server acknowledged
and what failed, and `closes` counts the closings of a MYSQL object.
-/

namespace TrpcMysql

open Function Conc

/-- A server session; `inTx` is true from the acknowledged 'begin' to the acknowledged
'commit' or 'rollback'. -/
structure Session where
  id : ℕ
  inTx : Bool := false
  deriving DecidableEq, Repr

/-- What a statement does to the transaction of its session when the server acknowledges it. -/
def Session.after (σ : Session) : Sql → Session
  | .begin => { σ with inTx := true }
  | .commit | .rollback => { σ with inTx := false }
  | .user _ => σ

/-- A MYSQL object: whether `mysql_close` was called on it, its session while it is
connected, the result set that waits to be stored, whether further results come after it, and the
last error. How often it was closed is history only. -/
structure Mysql where
  closed : Bool := false
  closes : ℕ := 0
  session : Option Session := none
  pending : Option ResultSet := none
  more : Bool := false
  errno : ℤ := 0
  error : String := ""

/-- The connection is lost. -/
def Mysql.lose (m : Mysql) : Mysql := { m with session := none, pending := none, more := false }

/-- A result waits on the connection. -/
def Mysql.busy (m : Mysql) : Bool := m.pending.isSome || m.more

/-- The object is closed. -/
def Mysql.close (m : Mysql) : Mysql := { m.lose with closed := true, closes := m.closes + 1 }

/-- A call on the object failed with `e`. -/
def Mysql.fail (m : Mysql) (e : MysqlError) : Mysql := { m with errno := e.number, error := e.message }

/-- A call on the object succeeded. -/
def Mysql.clear (m : Mysql) : Mysql := { m with errno := 0, error := "" }

/-- A MYSQL_STMT object: the connection and the session it was prepared in, its text and
columns, the rows stored on the client, and the last error. -/
structure Stmt where
  mysql : MysqlPtr
  session : Option ℕ := none
  sql : Sql := .user []
  columns : Option (List Field) := none
  rows : List ServerRow := []
  errno : ℤ := 0
  error : String := ""
  closed : Bool := false

def Stmt.fail (st : Stmt) (e : MysqlError) : Stmt := { st with errno := e.number, error := e.message }

structure MysqlConnOption where
  hostname : Bytes := []
  username : String := ""
  password : String := ""
  database : String := ""
  port : ℕ := 0
  charSet : String := "utf8mb4"
  deriving DecidableEq

/-- The fields of a `MysqlExecutor`. -/
structure ExecutorFields where
  isConnected : Bool := false
  autoCommit : Bool := true
  mysql : Option MysqlPtr := none
  aliveTime : ℕ := 0
  executorId : ℕ := 0
  option : MysqlConnOption := {}

/-- What happened to the statements of the executor. The two calls whose failure the executor's code does not
look at, `mysql_stmt_free_result` and `mysql_stmt_fetch_column`, leave nothing here. -/
inductive SqlEvent where
  | acked (session : ℕ) (sql : Sql)
  | failed
  deriving DecidableEq, Repr

/-- An executor with everything it owns in libmysqlclient and on the server. -/
structure ExecSt where
  this : ExecutorFields := {}
  mysqls : MysqlPtr → Mysql := fun _ => {}
  nextMysql : ℕ := 0
  stmts : StmtPtr → Stmt := fun _ => { mysql := 0 }
  nextStmt : ℕ := 0
  sessions : ℕ := 0
  events : List SqlEvent := []

instance : Inhabited ExecSt := ⟨{}⟩

/-- What the environment decides at one operation of an executor. -/
structure ClientAnswer where
  /-- the connection was lost since the last operation -/
  lost : Bool := false
  /-- the call succeeds, if it can -/
  ok : Bool := true
  error : MysqlError := default
  /-- the result set of a statement, if it yields one -/
  rows : Option ResultSet := none
  /-- the statement yields further results -/
  more : Bool := false
  /-- the columns of a prepared statement, if it yields a result set -/
  columns : Option (List Field) := none
  params : ℕ := 0
  affected : ℕ := 0
  res : ResPtr := 0
  /-- the steady clock, in milliseconds -/
  now : ℕ := 0
  /-- what `mysql_errno` and `mysql_error` read where there is no MYSQL object -/
  strayNumber : ℤ := 0
  strayMessage : String := ""
  fmt : Formatter.Fmt := {}

inductive MysqlOpt where
  | connectTimeout | readTimeout | writeTimeout
  deriving DecidableEq, Repr

/-- The outcome of `mysql_stmt_fetch`. -/
inductive Fetch where
  | noData
  | error
  | row (r : ServerRow)

/-- Why the process ends. -/
inductive Crash where
  /-- the library is given a null pointer -/
  | nullPointer
  | assertion
  /-- nothing catches an exception -/
  | exception
  /-- no run comes here -/
  | unreachable
  deriving DecidableEq, Repr

/-- The operations of an executor. -/
inductive ClientOp where
  | getThis
  | setConnected (b : Bool)
  | initMysql
  | clearMysql
  | setAutoCommit (b : Bool)
  | refreshAliveTime
  | getAliveTime
  | setExecutorId (id : ℕ)
  | mysqlSetCharacterSet (m : Option MysqlPtr) (charSet : String)
  | mysqlOptions (m : Option MysqlPtr) (opt : MysqlOpt) (value : ℕ)
  | mysqlRealConnect (m : Option MysqlPtr) (option : MysqlConnOption)
  | mysqlClose (m : Option MysqlPtr)
  | mysqlPing (m : Option MysqlPtr)
  /-- `Formatter::FormatQuery`; the reply is nothing if it throws -/
  | formatQuery (sql : Sql) (args : List InputArg)
  | mysqlRealQuery (m : Option MysqlPtr) (sql : Sql)
  | mysqlAffectedRows (m : Option MysqlPtr)
  | mysqlErrno (m : Option MysqlPtr)
  | mysqlError (m : Option MysqlPtr)
  | mysqlAutocommit (m : Option MysqlPtr) (mode : Bool)
  | mysqlStoreResult (m : Option MysqlPtr)
  | mysqlFreeResult (r : Option ResPtr)
  | mysqlStmtInit (m : Option MysqlPtr)
  | mysqlStmtPrepare (st : Option StmtPtr) (sql : Sql)
  | mysqlStmtFieldCount (st : Option StmtPtr)
  | mysqlStmtParamCount (st : Option StmtPtr)
  | mysqlStmtResultMetadata (st : Option StmtPtr)
  | mysqlStmtBindParam (st : Option StmtPtr) (args : List InputArg)
  | mysqlStmtBindResult (st : Option StmtPtr)
  | mysqlStmtExecute (st : Option StmtPtr)
  | mysqlStmtErrno (st : Option StmtPtr)
  | mysqlStmtError (st : Option StmtPtr)
  | mysqlStmtStoreResult (st : Option StmtPtr)
  | mysqlStmtFetch (st : Option StmtPtr)
  | mysqlStmtFetchColumn (st : Option StmtPtr) (column offset : ℕ)
  | mysqlStmtFreeResult (st : Option StmtPtr)
  | mysqlStmtClose (st : Option StmtPtr)
  | crash (why : Crash)

/-- The reply of each operation; success is `true`. -/
@[reducible] def ClientOp.Reply : ClientOp → Type
  | getThis => ExecutorFields
  | getAliveTime | mysqlAffectedRows _ | mysqlStmtFieldCount _ | mysqlStmtParamCount _ => ℕ
  | mysqlErrno _ | mysqlStmtErrno _ => ℤ
  | mysqlError _ | mysqlStmtError _ => String
  | mysqlRealConnect .. | mysqlPing _ | mysqlRealQuery .. | mysqlAutocommit .. => Bool
  | mysqlStmtPrepare .. | mysqlStmtBindParam .. | mysqlStmtBindResult _ | mysqlStmtExecute _
  | mysqlStmtFetchColumn .. | mysqlStmtFreeResult _ => Bool
  | mysqlStoreResult _ => Option StoredResult
  | mysqlStmtInit _ => Option StmtPtr
  | mysqlStmtResultMetadata _ => Option (List Field)
  | mysqlStmtStoreResult _ => Option ℕ
  | mysqlStmtFetch _ => Fetch
  | formatQuery sql args => Option { sent : Sql // ∃ fmt, Formatter.formatSql fmt args sql = some sent }
  | crash _ => Empty
  | _ => Unit

/-- The MYSQL object that a libmysqlclient call is made with; statement calls take a
MYSQL_STMT instead. -/
def ClientOp.mysqlArg : ClientOp → Option MysqlPtr
  | mysqlSetCharacterSet m _ | mysqlOptions m _ _ | mysqlRealConnect m _ | mysqlClose m | mysqlPing m
  | mysqlRealQuery m _ | mysqlAffectedRows m | mysqlErrno m | mysqlError m | mysqlAutocommit m _
  | mysqlStoreResult m | mysqlStmtInit m => m
  | _ => none

namespace ExecSt

variable (s : ExecSt)

def setMysql (p : MysqlPtr) (m : Mysql) : ExecSt := { s with mysqls := update s.mysqls p m }

def setStmt (q : StmtPtr) (st : Stmt) : ExecSt := { s with stmts := update s.stmts q st }

def note (e : SqlEvent) : ExecSt := { s with events := s.events ++ [e] }

/-- The session behind `mysql_`. -/
def session : Option Session := s.this.mysql.bind fun p => (s.mysqls p).session

/-- A call on the MYSQL object `p` or on one of its statements begins: the connection may
be lost by now. -/
def enter (a : ClientAnswer) (p : MysqlPtr) : ExecSt :=
  if a.lost then s.setMysql p (s.mysqls p).lose else s

/-- The session that a statement of `p` runs in now: none without a live connection or
while a result waits. -/
def ready (p : MysqlPtr) : Option Session := if (s.mysqls p).busy then none else (s.mysqls p).session

/-- The result set that the server sends for a statement; the proxy's own texts have none. -/
def resultOf (a : ClientAnswer) : Sql → Option ResultSet
  | .user _ => a.rows
  | _ => none

/-- Further results come after the first. -/
def moreOf (a : ClientAnswer) : Sql → Bool
  | .user _ => a.more
  | _ => false

/-- The server acknowledges `sql` in session `σ` of `p`. -/
def acknowledge (p : MysqlPtr) (σ : Session) (sql : Sql) (a : ClientAnswer) : ExecSt :=
  (s.setMysql p { (s.mysqls p).clear with
    session := some (σ.after sql), pending := resultOf a sql, more := moreOf a sql }).note (.acked σ.id sql)

/-- What `mysql_real_connect` leaves when it succeeds: an open object with a fresh session. -/
def connected (p : MysqlPtr) : ExecSt :=
  { s.setMysql p { (s.mysqls p).clear with
      closed := false, session := some { id := s.sessions }, pending := none, more := false } with
    sessions := s.sessions + 1 }

/-- A statement call on `p` fails. -/
def failMysql (p : MysqlPtr) (a : ClientAnswer) : ExecSt :=
  (s.setMysql p ((s.mysqls p).fail a.error)).note .failed

/-- A call on the statement `q` fails. -/
def failStmt (q : StmtPtr) (a : ClientAnswer) : ExecSt :=
  (s.setStmt q ((s.stmts q).fail a.error)).note .failed

end ExecSt

open ExecSt in
/-- What an operation does, and its reply; `none` is a crash (a null pointer is passed
where the library needs an object). -/
def clientExec : (o : ClientOp) → ClientAnswer → ExecSt → Option (o.Reply × ExecSt)
  | .getThis, _, s => some (s.this, s)
  | .setConnected b, _, s => some ((), { s with this := { s.this with isConnected := b } })
  | .initMysql, _, s =>
    some ((), { s.setMysql s.nextMysql {} with
      this := { s.this with mysql := some s.nextMysql }, nextMysql := s.nextMysql + 1 })
  | .clearMysql, _, s => some ((), { s with this := { s.this with mysql := none } })
  | .setAutoCommit b, _, s => some ((), { s with this := { s.this with autoCommit := b } })
  | .refreshAliveTime, a, s => some ((), { s with this := { s.this with aliveTime := a.now } })
  | .getAliveTime, a, s => some ((a.now + 2 ^ 64 - s.this.aliveTime) % 2 ^ 64, s)
  | .setExecutorId id, _, s => some ((), { s with this := { s.this with executorId := id } })
  | .mysqlSetCharacterSet (some p) _, a, s => some ((), s.enter a p)
  | .mysqlOptions (some p) _ _, a, s => some ((), s.enter a p)
  | .mysqlRealConnect (some p) _, a, s =>
    let s := s.enter a p
    -- an object that is still connected refuses (CR_ALREADY_CONNECTED); a closed one is
    -- freed memory, and the attempt goes as the code expects
    if (s.mysqls p).session.isNone && a.ok then some (true, s.connected p)
    else some (false, s.setMysql p ((s.mysqls p).fail a.error))
  | .mysqlClose none, _, s => some ((), s)
  | .mysqlClose (some p), a, s =>
    let s := s.enter a p
    some ((), s.setMysql p (s.mysqls p).close)
  | .mysqlPing (some p), a, s =>
    let s := s.enter a p
    match s.ready p with
    | some _ => some (true, s.setMysql p (s.mysqls p).clear)
    | none => some (false, s.setMysql p ((s.mysqls p).fail a.error))
  | .formatQuery sql args, a, s =>
    some ((Formatter.formatSql a.fmt args sql).pmap (fun sent h => ⟨sent, a.fmt, h⟩) fun _ h => h, s)
  | .mysqlRealQuery (some p) sql, a, s =>
    let s := s.enter a p
    match s.ready p, a.ok with
    | some σ, true => some (true, s.acknowledge p σ sql a)
    | _, _ => some (false, s.failMysql p a)
  | .mysqlAffectedRows (some p), a, s => some (a.affected, s.enter a p)
  | .mysqlErrno none, a, s => some (a.strayNumber, s)
  | .mysqlErrno (some p), a, s =>
    -- a closed object is freed memory
    some (if (s.mysqls p).closed then a.strayNumber else (s.mysqls p).errno, s.enter a p)
  | .mysqlError none, a, s => some (a.strayMessage, s)
  | .mysqlError (some p), a, s =>
    some (if (s.mysqls p).closed then a.strayMessage else (s.mysqls p).error, s.enter a p)
  | .mysqlAutocommit (some p) _, a, s =>
    let s := s.enter a p
    match s.ready p, a.ok with
    | some _, true => some (true, s.setMysql p (s.mysqls p).clear)
    | _, _ => some (false, s.setMysql p ((s.mysqls p).fail a.error))
  | .mysqlStoreResult (some p), a, s =>
    let s := s.enter a p
    match (s.mysqls p).pending with
    | none => some (none, s)
    | some rs =>
      let s := s.setMysql p { s.mysqls p with pending := none }
      if a.ok then some (some ⟨a.res, rs⟩, s) else some (none, s.failMysql p a)
  | .mysqlFreeResult _, _, s => some ((), s)
  | .mysqlStmtInit (some p), a, s =>
    let s := s.enter a p
    if a.ok then
      some (some s.nextStmt, { s.setStmt s.nextStmt { mysql := p } with nextStmt := s.nextStmt + 1 })
    else some (none, s.failMysql p a)
  | .mysqlStmtPrepare (some q) sql, a, s =>
    let s := s.enter a (s.stmts q).mysql
    match s.ready (s.stmts q).mysql, a.ok with
    | some σ, true =>
      some (true, s.setStmt q { s.stmts q with session := some σ.id, sql := sql, columns := a.columns })
    | _, _ => some (false, s.failStmt q a)
  | .mysqlStmtFieldCount (some q), _, s => some (((s.stmts q).columns.getD []).length, s)
  | .mysqlStmtParamCount (some _), a, s => some (a.params, s)
  | .mysqlStmtResultMetadata (some q), _, s => some ((s.stmts q).columns, s)
  | .mysqlStmtBindParam (some q) _, a, s => if a.ok then some (true, s) else some (false, s.failStmt q a)
  | .mysqlStmtBindResult (some q), a, s => if a.ok then some (true, s) else some (false, s.failStmt q a)
  | .mysqlStmtExecute (some q), a, s =>
    let s := s.enter a (s.stmts q).mysql
    match s.ready (s.stmts q).mysql, a.ok with
    | some σ, true =>
      if (s.stmts q).session = some σ.id then
        some (true, s.acknowledge (s.stmts q).mysql σ (s.stmts q).sql a)
      else some (false, s.failStmt q a)
    | _, _ => some (false, s.failStmt q a)
  | .mysqlStmtErrno (some q), _, s => some ((s.stmts q).errno, s)
  | .mysqlStmtError (some q), _, s => some ((s.stmts q).error, s)
  | .mysqlStmtStoreResult (some q), a, s =>
    let p := (s.stmts q).mysql
    let s := s.enter a p
    match (s.mysqls p).session, a.ok with
    | some _, true =>
      let rows := ((s.mysqls p).pending.getD {}).rows
      some (some rows.length,
        (s.setMysql p { s.mysqls p with pending := none }).setStmt q { s.stmts q with rows := rows })
    | _, _ => some (none, s.failStmt q a)
  | .mysqlStmtFetch (some q), a, s =>
    if a.ok then
      match (s.stmts q).rows with
      | [] => some (.noData, s)
      | r :: rows => some (.row r, s.setStmt q { s.stmts q with rows := rows })
    else some (.error, s.failStmt q a)
  | .mysqlStmtFetchColumn (some q) _ _, a, s =>
    if a.ok then some (true, s) else some (false, s.setStmt q ((s.stmts q).fail a.error))
  | .mysqlStmtFreeResult (some q), a, s =>
    let p := (s.stmts q).mysql
    let s := s.enter a p
    if a.ok then
      some (true, (s.setMysql p { s.mysqls p with pending := none }).setStmt q { s.stmts q with rows := [] })
    else some (false, s.setStmt q ((s.stmts q).fail a.error))
  | .mysqlStmtClose (some q), a, s =>
    let p := (s.stmts q).mysql
    let s := s.enter a p
    -- a result that is not stored is read to its end, and all that come after it
    let more := (s.mysqls p).more && (s.mysqls p).pending.isNone
    some ((), (s.setMysql p { s.mysqls p with pending := none, more := more }).setStmt q
      { s.stmts q with closed := true })
  | _, _, _ => none

/-- Programs of an executor. -/
abbrev XProg := Prog ClientOp ClientOp.Reply

/-- What holds at the end of every execution of an executor's program. -/
abbrev xwp {α : Type} (p : XProg α) (Q : α → ExecSt → Prop) (s : ExecSt) : Prop :=
  p.wp clientExec Q s

end TrpcMysql
