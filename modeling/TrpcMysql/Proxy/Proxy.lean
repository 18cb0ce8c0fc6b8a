import TrpcMysql.Proxy.Pool

/-!
# `MysqlServiceProxy`

The functions of `mysql_service_proxy.h` and `mysql_service_proxy.cc`, as programs. One
call is one program: the caller waits for the task of a synchronous call, and the
continuations of an asynchronous call run after its task. `Execute` is `Query`.

`FillClientContext` and `ProxyStatistics` change nothing that the calls read.
-/

namespace TrpcMysql

open Conc MysqlExecutorPool

/-- An exception future carries its message. -/
abbrev Future (α : Type) := Except String α

namespace MysqlServiceProxy

def isConnected (e : ExecId) : WProg Bool := onExecutor e MysqlExecutor.isConnected

/-- The status of a call whose executor is not connected, and its message. -/
def connectionFailed (x : CtxId) (e : ExecId) : WProg String := do
  let serviceName ← wop .getServiceName
  let message ← onExecutor e MysqlExecutor.getErrorMessage
  let errorMessage := s!"service name:{serviceName}, connection failed. {message}."
  let number ← onExecutor e MysqlExecutor.getErrorNumber
  wop (.setStatus x { frameworkRetCode := number, errorMessage := errorMessage })
  return errorMessage

/-! ## Invocations -/

/-- The task of a call without an executor: it borrows one from the pool of the context's
address. The result is none when the executor is not connected. -/
def borrowTask (x : CtxId) (r : MysqlResults) (sql : Sql) (args : List InputArg) :
    WProg (Except String MysqlResults) := do
  let p ← MysqlExecutorPoolManager.get (← wop (.getNodeAddr x))
  let conn ← getExecutor p
  if !(← isConnected conn) then
    let message ← connectionFailed x conn
    wop (.release conn)
    return .error message
  let (_, r) ← onExecutor conn (MysqlExecutor.runStatement r sql args)
  if !(← reclaim p conn none) then wop (.release conn)
  return .ok r

/-- The task of a call with an executor. -/
def ownTask (x : CtxId) (e : ExecId) (r : MysqlResults) (sql : Sql) (args : List InputArg) :
    WProg (Except String MysqlResults) := do
  if !(← isConnected e) then
    let message ← connectionFailed x e
    return .error message
  let (_, r) ← onExecutor e (MysqlExecutor.runStatement r sql args)
  return .ok r

/-- The task that `UnaryInvoke` and `AsyncUnaryInvoke` hand to the thread pool. -/
def task (x : CtxId) (executor : Option ExecId) (r : MysqlResults) (sql : Sql) (args : List InputArg) :
    WProg (Except String MysqlResults) :=
  match executor with
  | none => borrowTask x r sql args
  | some e => ownTask x e r sql args

def unaryInvoke (x : CtxId) (executor : Option ExecId) (r : MysqlResults) (sql : Sql)
    (args : List InputArg) : WProg MysqlResults := do
  if ← wop (.checkTimeout x) then return r
  if !(← wop (.runFilters .preSendMsg x)) then
    let _ ← wop (.runFilters .postRecvMsg x)
    return r
  wop .addTask
  let out ← task x executor r sql args
  -- the task fills the caller's object, or leaves it as it was
  let r := out.toOption.getD r
  if !r.ok then
    wop (.setStatus x { frameworkRetCode := r.errorNumber, errorMessage := r.errorMessage })
  let _ ← wop (.runFilters .postRecvMsg x)
  return r

def asyncUnaryInvoke (x : CtxId) (executor : Option ExecId) (mode : MysqlResultsMode) (sql : Sql)
    (args : List InputArg) : WProg (Future MysqlResults) := do
  if ← wop (.checkTimeout x) then return .error (← wop (.getStatus x)).errorMessage
  if !(← wop (.runFilters .preSendMsg x)) then
    let _ ← wop (.runFilters .postRecvMsg x)
    let _ ← wop (.runFilters .postRpcInvoke x)
    return .error (← wop (.getStatus x)).errorMessage
  wop .addTask
  let out ← task x executor { mode := mode } sql args
  let _ ← wop (.runFilters .postRecvMsg x)
  match out with
  | .error message => return .error message
  | .ok r => if r.ok then return .ok r else return .error r.errorMessage

/-! ## Queries -/

def query (x : CtxId) (r : MysqlResults) (sql : Sql) (args : List InputArg) :
    WProg (Status × MysqlResults) := do
  let pass ← wop (.runFilters .preRpcInvoke x)
  let r ← if pass then unaryInvoke x none r sql args else pure r
  let _ ← wop (.runFilters .postRpcInvoke x)
  return (← wop (.getStatus x), r)

/-- A filter rejects an asynchronous call. -/
def rejected (x : CtxId) {α : Type} : WProg (Future α) := do
  let s ← wop (.getStatus x)
  let _ ← wop (.runFilters .postRpcInvoke x)
  return .error s.errorMessage

def asyncQuery (x : CtxId) (mode : MysqlResultsMode) (sql : Sql) (args : List InputArg) :
    WProg (Future MysqlResults) := do
  if !(← wop (.runFilters .preRpcInvoke x)) then return ← rejected x
  let out ← asyncUnaryInvoke x none mode sql args
  let _ ← wop (.runFilters .postRpcInvoke x)
  return out

/-- `handle->GetExecutor()->CheckAlive()`. -/
def handleAlive (h : HandleId) : WProg Bool := do
  match ← wop (.getExecutor h) with
  | none => crashed
  | some e =>
    let alive ← onExecutor e MysqlExecutor.checkAlive
    wop (.release e)
    return alive

/-- The status of a handle that is not started. -/
def invalidHandle (st : TxState) : Status :=
  { frameworkRetCode := TRPC_MYSQL_INVALID_HANDLE
    errorMessage := s!"Invalid transaction state code: {st.code}." }

/-- The status of a handle whose connection is lost. -/
def connectionLost : Status :=
  { frameworkRetCode := TRPC_CLIENT_CONNECT_ERR, errorMessage := "Connect error. Rollback." }

/-- `Query` with a handle, after the filters let it pass. -/
def handleInvoke (x : CtxId) (h : HandleId) (r : MysqlResults) (sql : Sql) (args : List InputArg) :
    WProg MysqlResults := do
  let st ← wop (.getState h)
  if st ≠ .kStarted then
    wop (.setStatus x (invalidHandle st))
    return r
  if !(← handleAlive h) then
    wop (.setState h .kRollBacked)
    wop (.setStatus x connectionLost)
    return r
  let executor ← wop (.getExecutor h)
  let r ← unaryInvoke x executor r sql args
  match executor with
  | none => return r
  | some e =>
    wop (.release e)
    return r

/-- `Query` with a handle. -/
def queryTx (x : CtxId) (h : HandleId) (r : MysqlResults) (sql : Sql) (args : List InputArg) :
    WProg (Status × MysqlResults) := do
  let pass ← wop (.runFilters .preRpcInvoke x)
  let r ← if pass then handleInvoke x h r sql args else pure r
  let _ ← wop (.runFilters .postRpcInvoke x)
  return (← wop (.getStatus x), r)

/-- `AsyncQuery` with a handle. -/
def asyncQueryTx (x : CtxId) (h : HandleId) (mode : MysqlResultsMode) (sql : Sql)
    (args : List InputArg) : WProg (Future MysqlResults) := do
  if !(← wop (.runFilters .preRpcInvoke x)) then return ← rejected x
  if (← wop (.getState h)) ≠ .kStarted then
    wop (.setStatus x { frameworkRetCode := TRPC_MYSQL_INVALID_HANDLE, errorMessage := "Invalid handle." })
    let _ ← wop (.runFilters .postRpcInvoke x)
    return .error "Invalid handle."
  if !(← handleAlive h) then
    wop (.setState h .kRollBacked)
    wop (.setStatus x connectionLost)
    let _ ← wop (.runFilters .postRpcInvoke x)
    return .error "Connect error. Rollback."
  let executor ← wop (.getExecutor h)
  let out ← asyncUnaryInvoke x executor mode sql args
  let _ ← wop (.runFilters .postRpcInvoke x)
  match executor with
  | none => return out
  | some e =>
    wop (.release e)
    return out

/-! ## Transactions -/

/-- The address of a call of `Begin`: the context's, or the one the selector finds. If it finds none, the
text of its status. -/
def beginAddr (x : CtxId) : WProg (Except String NodeAddr) := do
  let addr ← wop (.getNodeAddr x)
  if addr.ip = [] then
    match ← wop .selectTarget with
    | .error text =>
      wop (.setStatus x routerStatus)
      return .error text
    | .ok addr => return .ok addr
  return .ok addr

/-- `Begin` with an executor from the pool. -/
def beginOn (x : CtxId) (e : ExecId) : WProg (Status × Option HandleId) := do
  if !(← isConnected e) then
    let _ ← connectionFailed x e
  else
    let _ ← unaryInvoke x (some e) { mode := .onlyExec } .begin []
  let handle ← if (← wop (.getStatus x)).ok then
      pure (some (← wop (.newHandle e)))
    else pure none
  let _ ← wop (.runFilters .postRpcInvoke x)
  let s ← wop (.getStatus x)
  -- the executor was moved into the handle, or leaves its scope
  if handle.isNone then wop (.release e)
  return (s, handle)

def begin (x : CtxId) : WProg (Status × Option HandleId) := do
  if !(← wop (.runFilters .preRpcInvoke x)) then
    let _ ← wop (.runFilters .postRpcInvoke x)
    return (← wop (.getStatus x), none)
  match ← beginAddr x with
  | .error _ => return (← wop (.getStatus x), none)
  | .ok addr =>
    let p ← MysqlExecutorPoolManager.get addr
    beginOn x (← getExecutor p)

/-- `AsyncBegin` with an executor from the pool. -/
def asyncBeginOn (x : CtxId) (e : ExecId) : WProg (Future HandleId) := do
  if !(← isConnected e) then
    let message ← connectionFailed x e
    wop (.release e)
    return .error message
  match ← asyncUnaryInvoke x (some e) .onlyExec .begin [] with
  | .error message =>
    wop (.release e)
    return .error message
  | .ok _ => return .ok (← wop (.newHandle e))

def asyncBegin (x : CtxId) : WProg (Future HandleId) := do
  if !(← wop (.runFilters .preRpcInvoke x)) then return ← rejected x
  match ← beginAddr x with
  | .error text => return .error text
  | .ok addr =>
    let p ← MysqlExecutorPoolManager.get addr
    asyncBeginOn x (← getExecutor p)

def endTransaction (h : HandleId) (rollback : Bool) : WProg Unit := do
  wop (.setState h (if rollback then .kRollBacked else .kCommitted))
  match ← wop (.getExecutor h) with
  | none => return ()
  | some e =>
    let option := (← onExecutor e getThis).option
    let p ← MysqlExecutorPoolManager.get { ip := option.hostname, port := option.port }
    let _ ← reclaim p e (some h)
    wop (.release e)

/-- `Commit` and `Rollback`. -/
def finish (x : CtxId) (h : HandleId) (rollback : Bool) : WProg Status := do
  let (_, r) ← queryTx x h { mode := .onlyExec } (if rollback then .rollback else .commit) []
  if !r.ok then
    wop (.setStatus x { kUnknownErrorStatus with errorMessage := r.errorMessage })
  else endTransaction h rollback
  wop (.getStatus x)

def commit (x : CtxId) (h : HandleId) : WProg Status := finish x h false

def rollback (x : CtxId) (h : HandleId) : WProg Status := finish x h true

def asyncCommit (x : CtxId) (h : HandleId) : WProg (Future Unit) := do
  match ← asyncQueryTx x h .onlyExec .commit [] with
  | .error message => return .error message
  | .ok _ =>
    endTransaction h false
    return .ok ()

def asyncRollback (x : CtxId) (h : HandleId) : WProg (Future Unit) := do
  match ← asyncQueryTx x h .onlyExec .rollback [] with
  | .error _ => crashed  -- GetValue on a failed future
  | .ok _ =>
    endTransaction h true
    return .ok ()

/-- `~TransactionHandle`. -/
def dropHandle (h : HandleId) : WProg Unit := do
  match ← wop (.getExecutor h) with
  | none => pure ()
  | some e =>
    onExecutor e MysqlExecutor.close
    wop (.release e)
  wop (.endHandle h)

end MysqlServiceProxy

/-! ## The system -/

/-- What the users of a proxy call. A user's statement is a text of its own. -/
inductive Call where
  | query (x : CtxId) (r : MysqlResults) (text : Bytes) (args : List InputArg)
  | asyncQuery (x : CtxId) (mode : MysqlResultsMode) (text : Bytes) (args : List InputArg)
  | queryTx (x : CtxId) (h : HandleId) (r : MysqlResults) (text : Bytes) (args : List InputArg)
  | asyncQueryTx (x : CtxId) (h : HandleId) (mode : MysqlResultsMode) (text : Bytes)
      (args : List InputArg)
  | begin (x : CtxId)
  | asyncBegin (x : CtxId)
  | finish (x : CtxId) (h : HandleId) (rollback : Bool)
  | asyncFinish (x : CtxId) (h : HandleId) (rollback : Bool)
  | moveHandle (h : HandleId)
  | dropHandle (h : HandleId)
  | stop (p : PoolId)
  | destroy (p : PoolId)

/-- What a call returns. -/
inductive Result where
  | status (s : Status) (r : MysqlResults)
  | begun (s : Status) (h : Option HandleId)
  | finished (s : Status)
  | future (out : Future MysqlResults)
  | futureHandle (out : Future HandleId)
  | futureUnit (out : Future Unit)
  | handle (h : HandleId)
  | unit

open MysqlServiceProxy in
def Call.prog : Call → WProg Result
  | query x r text args => do
    let (s, r) ← MysqlServiceProxy.query x r (.user text) args
    return .status s r
  | asyncQuery x mode text args => return .future (← MysqlServiceProxy.asyncQuery x mode (.user text) args)
  | queryTx x h r text args => do
    let (s, r) ← MysqlServiceProxy.queryTx x h r (.user text) args
    return .status s r
  | asyncQueryTx x h mode text args =>
    return .future (← MysqlServiceProxy.asyncQueryTx x h mode (.user text) args)
  | begin x => do
    let (s, h) ← MysqlServiceProxy.begin x
    return .begun s h
  | asyncBegin x => return .futureHandle (← MysqlServiceProxy.asyncBegin x)
  | finish x h false => return .finished (← commit x h)
  | finish x h true => return .finished (← rollback x h)
  | asyncFinish x h false => return .futureUnit (← asyncCommit x h)
  | asyncFinish x h true => return .futureUnit (← asyncRollback x h)
  | moveHandle h => return .handle (← wop (.moveHandle h))
  | dropHandle h => do
    MysqlServiceProxy.dropHandle h
    return .unit
  | stop p => do
    MysqlExecutorPool.stop p
    return .unit
  | destroy p => do
    MysqlExecutorPool.destroy p
    return .unit

/-- A proxy with any number of calls in progress. -/
def proxySystem : System World WorldOp Answer Call Result WorldOp.Reply where
  exec := worldExec
  prog := Call.prog

end TrpcMysql
