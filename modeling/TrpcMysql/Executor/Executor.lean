import TrpcMysql.Executor.Buffers
import TrpcMysql.Executor.Client
import TrpcMysql.Executor.InputBinds

/-!
# `MysqlExecutor` and `MysqlStatement`

The functions of `mysql_executor.cc`, `mysql_executor.h` and `mysql_statement.cc`,
as programs over the fields of the executor and the libmysqlclient calls.

`mysql_stmt_store_result` tells how many rows are stored on the client, so the fetch
loop runs over that number.
-/

namespace TrpcMysql

open Conc

/-! ## Operations -/

/-- One operation, as a program. -/
abbrev xop (o : ClientOp) : XProg o.Reply := Prog.op o

abbrev getThis : XProg ExecutorFields := xop .getThis
abbrev setConnected (b : Bool) : XProg Unit := xop (.setConnected b)
abbrev initMysql : XProg Unit := xop .initMysql
abbrev clearMysql : XProg Unit := xop .clearMysql
abbrev mysqlRealConnect (m : Option MysqlPtr) (o : MysqlConnOption) : XProg Bool :=
  xop (.mysqlRealConnect m o)
abbrev mysqlClose (m : Option MysqlPtr) : XProg Unit := xop (.mysqlClose m)
abbrev mysqlPing (m : Option MysqlPtr) : XProg Bool := xop (.mysqlPing m)
abbrev mysqlRealQuery (m : Option MysqlPtr) (sql : Sql) : XProg Bool := xop (.mysqlRealQuery m sql)
abbrev mysqlAffectedRows (m : Option MysqlPtr) : XProg ℕ := xop (.mysqlAffectedRows m)
abbrev mysqlErrno (m : Option MysqlPtr) : XProg ℤ := xop (.mysqlErrno m)
abbrev mysqlError (m : Option MysqlPtr) : XProg String := xop (.mysqlError m)
abbrev mysqlStoreResult (m : Option MysqlPtr) : XProg (Option StoredResult) :=
  xop (.mysqlStoreResult m)
abbrev mysqlFreeResult (r : Option ResPtr) : XProg Unit := xop (.mysqlFreeResult r)
abbrev mysqlStmtInit (m : Option MysqlPtr) : XProg (Option StmtPtr) := xop (.mysqlStmtInit m)
abbrev mysqlStmtPrepare (st : Option StmtPtr) (sql : Sql) : XProg Bool :=
  xop (.mysqlStmtPrepare st sql)
abbrev mysqlStmtBindResult (st : Option StmtPtr) : XProg Bool := xop (.mysqlStmtBindResult st)
abbrev mysqlStmtExecute (st : Option StmtPtr) : XProg Bool := xop (.mysqlStmtExecute st)
abbrev mysqlStmtStoreResult (st : Option StmtPtr) : XProg (Option ℕ) :=
  xop (.mysqlStmtStoreResult st)
abbrev mysqlStmtFetch (st : Option StmtPtr) : XProg Fetch := xop (.mysqlStmtFetch st)
abbrev mysqlStmtFetchColumn (st : Option StmtPtr) (column offset : ℕ) : XProg Bool :=
  xop (.mysqlStmtFetchColumn st column offset)
abbrev mysqlStmtFreeResult (st : Option StmtPtr) : XProg Bool := xop (.mysqlStmtFreeResult st)
abbrev mysqlStmtClose (st : Option StmtPtr) : XProg Unit := xop (.mysqlStmtClose st)

/-- The process ends here. -/
def crash {α : Type} (why : Crash := .nullPointer) : XProg α := .act (.crash why) fun e => e.elim

/-! ## `MysqlStatement` -/

structure MysqlStatement where
  mysqlStmt : Option StmtPtr := none
  mysql : Option MysqlPtr
  fieldCount : ℕ := 0
  paramsCount : ℕ := 0

namespace MysqlStatement

def init (stmt : MysqlStatement) (sql : Sql) : XProg (Bool × MysqlStatement) := do
  let st ← mysqlStmtInit stmt.mysql
  let stmt := { stmt with mysqlStmt := st }
  if st.isNone then return (false, stmt)
  if !(← mysqlStmtPrepare st sql) then return (false, stmt)
  let fieldCount ← xop (.mysqlStmtFieldCount st)
  let paramsCount ← xop (.mysqlStmtParamCount st)
  return (true, { stmt with fieldCount := fieldCount, paramsCount := paramsCount })

def closeStatement (stmt : MysqlStatement) : XProg (Bool × MysqlStatement) := do
  if stmt.mysqlStmt.isSome then
    if !(← mysqlStmtFreeResult stmt.mysqlStmt) then return (false, stmt)
    mysqlStmtClose stmt.mysqlStmt
    return (true, { stmt with mysqlStmt := none })
  return (true, stmt)

/-- `~MysqlStatement`: asserts that the statement was closed. -/
def destroy (stmt : MysqlStatement) : XProg Unit :=
  if stmt.mysqlStmt.isSome then crash .assertion else pure ()

def getErrorMessage (stmt : MysqlStatement) : XProg String :=
  if stmt.mysqlStmt.isSome then xop (.mysqlStmtError stmt.mysqlStmt) else pure ""

def getErrorNumber (stmt : MysqlStatement) : XProg ℤ :=
  if stmt.mysqlStmt.isSome then xop (.mysqlStmtErrno stmt.mysqlStmt) else pure 0

def bindParam (stmt : MysqlStatement) (args : List InputArg) : XProg Bool :=
  xop (.mysqlStmtBindParam stmt.mysqlStmt args)

def getResultsMeta (stmt : MysqlStatement) : XProg (Option (List Field)) :=
  xop (.mysqlStmtResultMetadata stmt.mysqlStmt)

end MysqlStatement

/-! ## `MysqlExecutor` -/

def TRPC_MYSQL_API_TIMEOUT : ℕ := 5
def RECONNECT_MAX_RETRY : ℕ := 5

/-- `TrpcMysqlRetCode`. -/
def TRPC_MYSQL_INVALID_HANDLE : ℤ := 3502
def TRPC_MYSQL_STMT_PARAMS_ERROR : ℤ := 3503

namespace MysqlExecutor

/-- The constructor's body; the fields are set when the executor is made. -/
def construct : XProg Unit := do
  initMysql
  let this ← getThis
  xop (.mysqlSetCharacterSet this.mysql this.option.charSet)
  xop (.mysqlOptions this.mysql .connectTimeout TRPC_MYSQL_API_TIMEOUT)
  xop (.mysqlOptions this.mysql .readTimeout TRPC_MYSQL_API_TIMEOUT)
  xop (.mysqlOptions this.mysql .writeTimeout TRPC_MYSQL_API_TIMEOUT)

/-- The second half of `Connect`, on the current MYSQL object. -/
def realConnect : XProg Bool := do
  let this ← getThis
  if !(← mysqlRealConnect this.mysql this.option) then
    mysqlClose this.mysql
    setConnected false
    return false
  setConnected true
  return true

def connect : XProg Bool := do
  let this ← getThis
  if this.isConnected then return true
  if this.mysql.isNone then initMysql
  realConnect

def close : XProg Unit := do
  let this ← getThis
  if this.mysql.isSome && this.isConnected then
    mysqlClose this.mysql
    clearMysql
  setConnected false

def reconnect : XProg Bool := connect

/-- The loop of `StartReconnect`; the sleep between two attempts is not modelled. -/
def retry : ℕ → XProg Bool
  | 0 => return false
  | n + 1 => do
    if ← reconnect then return true
    retry n

def startReconnect : XProg Bool := retry RECONNECT_MAX_RETRY

def checkAlive : XProg Bool := do
  let this ← getThis
  if !this.isConnected then return false
  if this.mysql.isSome then
    if ← mysqlPing this.mysql then return true
  setConnected false
  return false

def isConnected : XProg Bool := return (← getThis).isConnected

def getErrorNumber : XProg ℤ := do mysqlErrno (← getThis).mysql

def getErrorMessage : XProg String := do mysqlError (← getThis).mysql

def autoCommit (mode : Bool) : XProg Bool := do
  if !(← xop (.mysqlAutocommit (← getThis).mysql mode)) then return false
  xop (.setAutoCommit mode)
  return true

def getAliveTime : XProg ℕ := xop .getAliveTime

/-- `~MysqlExecutor`, once its assertion has passed. -/
def destroy : XProg Unit := do
  if ← isConnected then crash .assertion else close

/-! ### Statements -/

/-- `MysqlResults::Clear`, with the result it frees. -/
def clearResults (r : MysqlResults) : XProg MysqlResults := do
  mysqlFreeResult r.mysqlRes
  return r.cleared

/-- The error of the MYSQL object, as a `Status`. -/
def mysqlStatus : XProg Status := do
  let number ← getErrorNumber
  let message ← getErrorMessage
  return { frameworkRetCode := number, errorMessage := message }

/-- The error of the statement, as a `Status`. -/
def stmtStatus (stmt : MysqlStatement) : XProg Status := do
  let number ← stmt.getErrorNumber
  let message ← stmt.getErrorMessage
  return { frameworkRetCode := number, errorMessage := message }

/-- `ExecuteStatement`; `outputs` tells the overload that binds the result columns. -/
def executeStatement (outputs : Bool) (stmt : MysqlStatement) : XProg Status := do
  if !(← checkAlive) then
    if !(← startReconnect) then
      -- the error of mysql_, not of the statement
      return ← mysqlStatus
  if outputs then
    if !(← mysqlStmtBindResult stmt.mysqlStmt) then return ← stmtStatus stmt
  if !(← mysqlStmtExecute stmt.mysqlStmt) then return ← stmtStatus stmt
  return {}

/-- `SetErrorMessage(stmt.GetErrorMessage()); SetErrorNumber(stmt.GetErrorNumber())`. -/
def setStmtError (r : MysqlResults) (stmt : MysqlStatement) : XProg MysqlResults := do
  let message ← stmt.getErrorMessage
  let number ← stmt.getErrorNumber
  return r.setError message number

/-- The same with the errors of the MYSQL object. -/
def setMysqlError (r : MysqlResults) : XProg MysqlResults := do
  let message ← getErrorMessage
  let number ← getErrorNumber
  return r.setError message number

/-- `stmt.CloseStatement()` and the end of the statement's scope. -/
def endStatement (stmt : MysqlStatement) : XProg Unit := do
  let (_, stmt) ← stmt.closeStatement
  stmt.destroy

/-- `FetchTruncatedResults`, over the columns from `i` on. -/
def fetchTruncatedResults (stmt : MysqlStatement) (row : ServerRow) : ℕ → QueryHandle → XProg (Bool × QueryHandle)
  | _, [] => return (true, [])
  | i, c :: h => do
    if c.output.dynamic && c.short then
      let bufferOldSize := c.data.length
      let c := c.enlarge
      -- the bind stays as it is when this fails
      if !(← mysqlStmtFetchColumn stmt.mysqlStmt i bufferOldSize) then return (false, c :: h)
      let (ok, h) ← fetchTruncatedResults stmt row (i + 1) h
      return (ok, (c.fetchColumn bufferOldSize (row.value i)).restore :: h)
    let (ok, h) ← fetchTruncatedResults stmt row (i + 1) h
    return (ok, c :: h)

/-- The buffers of a row that was fetched. `FetchResults` ignores what `FetchTruncatedResults` returns. -/
def fetchRow (stmt : MysqlStatement) (handle : QueryHandle) (row : ServerRow) : XProg QueryHandle := do
  let fetched := handle.fetch row
  if handle.truncated row then
    let (_, refetched) ← fetchTruncatedResults stmt row 0 fetched
    return refetched
  return fetched

/-- The loop of `FetchResults`, over the `n` stored rows. -/
def fetchLoop (stmt : MysqlStatement) : ℕ → QueryHandle → MysqlResults → XProg (Bool × MysqlResults)
  | 0, _, r => do
    match ← mysqlStmtFetch stmt.mysqlStmt with
    | .error => return (false, r)
    | .noData => return (true, r)
    | .row _ => crash .unreachable  -- there is no further row
  | n + 1, handle, r => do
    match ← mysqlStmtFetch stmt.mysqlStmt with
    | .error => return (false, r)
    | .noData => return (true, r)
    | .row row =>
      let handle ← fetchRow stmt handle row
      fetchLoop stmt n handle (r.pushRow handle.setResultTuple handle.nullFlags)

def fetchResults (handle : QueryHandle) (stmt : MysqlStatement) (r : MysqlResults) :
    XProg (Bool × MysqlResults) := do
  match ← mysqlStmtStoreResult stmt.mysqlStmt with
  | none => return (false, r)
  | some n => fetchLoop stmt n handle r

/-- The part of `QueryAllInternal` after the outputs are bound. -/
def queryBound (handle : QueryHandle) (stmt : MysqlStatement) (r : MysqlResults) : XProg (Bool × MysqlResults) := do
  let s ← executeStatement true stmt
  if !s.ok then
    let r := r.setError s.errorMessage s.frameworkRetCode
    endStatement stmt
    return (false, r)
  -- the statement has its copies of the binds since `mysql_stmt_bind_result`
  let (fetched, r) ← fetchResults handle.bindResult stmt r
  if !fetched then
    let r ← setStmtError r stmt
    endStatement stmt
    return (false, r)
  let r := r.setFieldsName (← stmt.getResultsMeta)
  endStatement stmt
  return (true, r)

/-- The part of `QueryAllInternal` after the parameters are bound. -/
def queryPrepared (outputs : List OutputArg) (stmt : MysqlStatement) (r : MysqlResults) :
    XProg (Bool × MysqlResults) := do
  let handle := QueryHandle.new outputs r.option.dynamicBufferInitSize
  match ← stmt.getResultsMeta with
  | none => crash  -- so does mysql_fetch_fields
  | some fields => queryBound (handle.bindOutputs fields) stmt r

/-- `BindInputArgs`; the length of a null C string is asked for. -/
def bindInputArgs (args : List InputArg) : XProg Unit :=
  if (bindInputImpl args).isSome then pure () else crash

/-- `QueryAllInternal` in bind mode. -/
def queryAllBind (outputs : List OutputArg) (r : MysqlResults) (sql : Sql) (args : List InputArg) :
    XProg (Bool × MysqlResults) := do
  let r ← clearResults r
  let (ok, stmt) ← MysqlStatement.init { mysql := (← getThis).mysql } sql
  if !ok then
    let r ← setStmtError r stmt
    endStatement stmt
    return (false, r)
  match ← stmt.getResultsMeta with
  | none => crash  -- mysql_num_fields needs a result
  | some fields =>
    let message := checkFieldsOutputArgs outputs fields
    if message ≠ "" then
      let r := r.setError message TRPC_MYSQL_STMT_PARAMS_ERROR
      endStatement stmt
      return (false, r)
    bindInputArgs args
    if !(← stmt.bindParam args) then
      let r ← setStmtError r stmt
      endStatement stmt
      return (false, r)
    queryPrepared outputs stmt r

/-- `FormatQuery`. -/
def formatQuery (sql : Sql) (args : List InputArg) : XProg Sql := do
  match ← xop (.formatQuery sql args) with
  | some sent => return sent.1
  | none => crash .exception

/-- `QueryAllInternal` for `NativeString`. -/
def queryAllNative (r : MysqlResults) (sql : Sql) (args : List InputArg) :
    XProg (Bool × MysqlResults) := do
  let r ← clearResults r
  let sent ← formatQuery sql args
  if !(← mysqlRealQuery (← getThis).mysql sent) then
    let r ← setMysqlError r
    return (false, r)
  match ← mysqlStoreResult (← getThis).mysql with
  | none =>
    let r ← setMysqlError r
    return (false, r)
  | some res =>
    let r := res.set.rows.foldl
      (fun r row => r.pushRow (row.map (·.getD [])) (row.map Option.isNone)) r
    return (true, { r with mysqlRes := some res.ptr }.setFieldsName (some res.set.fields))

/-- `QueryAll`; it asserts that the mode is not `OnlyExec`. -/
def queryAll (r : MysqlResults) (sql : Sql) (args : List InputArg) : XProg (Bool × MysqlResults) := do
  let (ok, r) ← match r.mode with
    | .bindType outputs => queryAllBind outputs r sql args
    | .nativeString => queryAllNative r sql args
    | .onlyExec => crash .assertion
  if !ok then return (false, r)
  return (true, { r with hasValue := true })

/-- `ExecuteInternal` without arguments. -/
def executeText (r : MysqlResults) (sql : Sql) : XProg (ℕ × MysqlResults) := do
  if !(← mysqlRealQuery (← getThis).mysql sql) then
    let r ← setMysqlError r
    return (0, r)
  let n ← mysqlAffectedRows (← getThis).mysql
  return (n, r)

/-- `ExecuteInternal` with arguments. -/
def executePrepared (r : MysqlResults) (sql : Sql) (args : List InputArg) :
    XProg (ℕ × MysqlResults) := do
  let r ← clearResults r
  let (ok, stmt) ← MysqlStatement.init { mysql := (← getThis).mysql } sql
  if !ok then
    let r ← setStmtError r stmt
    endStatement stmt
    return (0, r)
  bindInputArgs args
  if !(← stmt.bindParam args) then
    let r ← setStmtError r stmt
    endStatement stmt
    return (0, r)
  let s ← executeStatement false stmt
  if !s.ok then
    let r := r.setError s.errorMessage s.frameworkRetCode
    endStatement stmt
    return (0, r)
  let n ← mysqlAffectedRows (← getThis).mysql
  endStatement stmt
  return (n, r)

/-- `Execute`. -/
def execute (r : MysqlResults) (sql : Sql) (args : List InputArg) : XProg (Bool × MysqlResults) := do
  let (n, r) ← if args.isEmpty then executeText r sql else executePrepared r sql args
  return (true, { r with affectedRows := n })

/-- `Execute` or `QueryAll`, as the proxy chooses by the mode of the results. -/
def runStatement (r : MysqlResults) (sql : Sql) (args : List InputArg) : XProg (Bool × MysqlResults) :=
  match r.mode with
  | .onlyExec => execute r sql args
  | _ => queryAll r sql args

end MysqlExecutor

end TrpcMysql
