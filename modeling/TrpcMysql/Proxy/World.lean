import TrpcMysql.Conc.Interleave
import TrpcMysql.Executor.Executor

/-!
# The shared state of a proxy

`World` is everything the calls on one `MysqlServiceProxy` share: the executors, the pools
(`mysql_executor_pool.h`) and the map that finds them, the transaction handles
(`transaction.h`), and the client contexts. `WorldOp` lists the atomic steps of the code:
a critical section, an atomic counter, an access to a handle or a context, a step of the
framework, or one operation of an executor (`client`). `worldExec` says what each does.

* `refs e` counts the references to executor `e`, as `RefPtr` does; the copies that one
  call holds count as one. `release` gives a reference up, and the last one runs the
  destructor: its assertion fails on a connected executor, and the process ends (`aborted`).
* A pool that is not yet in the map is a local value of the call that made it.
* Filters may reject, a passing filter may set the address (the selector does), contexts
  may be timed out, and the thread pool may refuse a task; the answers decide.

History that no code reads: `Pool.connected` and `Pool.discarded` count the executors that
the pool connected and gave up, `TransactionHandle.opened` is the executor and the session
the handle was made with, and `log` lists for every call the filters that rejected it, its
timeouts, and what became of its statements.
-/

namespace TrpcMysql

open Function Conc

abbrev ExecId := ℕ
abbrev PoolId := ℕ
abbrev HandleId := ℕ
abbrev CtxId := ℕ

structure NodeAddr where
  ip : Bytes := []
  port : ℕ := 0
  deriving DecidableEq, Repr

/-! ## Pools -/

structure MysqlExecutorPoolOption where
  maxSize : ℕ := 0
  maxIdleTime : ℕ := 0
  numShardGroup : ℕ := 4
  dbname : String := ""
  username : String := ""
  password : String := ""
  charSet : String := ""
  deriving DecidableEq

/-- A `MysqlExecutorPool`; the back of a shard's list is the end of the list. -/
structure Pool where
  option : MysqlExecutorPoolOption := {}
  target : NodeAddr := {}
  executorNum : ℕ := 0
  maxNumPerShard : ℕ := 0
  shards : ℕ → List ExecId := fun _ => []
  shardIdGen : ℕ := 0
  executorIdGen : ℕ := 0
  connected : ℕ := 0
  discarded : ℕ := 0

/-- The constructor. `std::ceil` gets the quotient of two integers. -/
def Pool.new (option : MysqlExecutorPoolOption) (addr : NodeAddr) : Pool :=
  { option := option, target := addr, maxNumPerShard := option.maxSize / option.numShardGroup }

/-- The test of `Reclaim` under the shard's lock. -/
def Pool.hasRoom (p : Pool) (k : ℕ) : Bool :=
  (p.shards k).length ≤ p.maxNumPerShard && p.executorNum ≤ p.option.maxSize

abbrev colon : UInt8 := 58

/-- The key of the pool map: `snprintf` of "%s:%d" into 64 bytes. -/
def endpoint (addr : NodeAddr) : Bytes :=
  (addr.ip.takeWhile (· ≠ 0) ++ colon :: ascii (toString addr.port)).take 63

/-! ## Transactions and contexts -/

/-- `TransactionHandle::TxState`. -/
inductive TxState where
  | kNotInited | kStarted | kRollBacked | kCommitted | kInValid
  deriving DecidableEq, Repr

/-- The number of the state, as the error message of `Query` prints it. -/
def TxState.code : TxState → ℕ
  | kNotInited => 0
  | kStarted => 1
  | kRollBacked => 2
  | kCommitted => 3
  | kInValid => 4

structure TransactionHandle where
  state : TxState := .kNotInited
  executor : Option ExecId := none
  opened : Option (ExecId × ℕ) := none
  deriving DecidableEq

structure ClientContext where
  status : Status := {}
  nodeAddr : NodeAddr := {}
  deriving DecidableEq

/-- The points at which the proxy runs the filters. -/
inductive FilterPoint where
  | preRpcInvoke | postRpcInvoke | preSendMsg | postRecvMsg
  deriving DecidableEq, Repr

/-- Return codes of the framework. -/
def TRPC_CLIENT_INVOKE_TIMEOUT_ERR : ℤ := 101
def TRPC_CLIENT_CONNECT_ERR : ℤ := 111
def TRPC_CLIENT_ROUTER_ERR : ℤ := 131
def TRPC_INVOKE_UNKNOWN_ERR : ℤ := 999

/-- The status of `CheckTimeout`. -/
def timeoutStatus : Status :=
  { frameworkRetCode := TRPC_CLIENT_INVOKE_TIMEOUT_ERR, errorMessage := "request timeout." }

/-- The status that a failed `SelectTarget` leaves. -/
def routerStatus : Status :=
  { frameworkRetCode := TRPC_CLIENT_ROUTER_ERR, errorMessage := "service route failed." }

def kUnknownErrorStatus : Status :=
  { frameworkRetCode := TRPC_INVOKE_UNKNOWN_ERR, errorMessage := "unknown error" }

/-! ## The world -/

/-- An entry of the history. -/
inductive Note where
  | rejected (pt : FilterPoint)
  | timedOut
  | sql (e : ExecId) (ev : SqlEvent)
  deriving DecidableEq, Repr

structure World where
  serviceName : String := ""
  poolOption : MysqlExecutorPoolOption := {}
  execs : ExecId → ExecSt := fun _ => {}
  nextExec : ℕ := 0
  refs : ExecId → ℕ := fun _ => 0
  pools : PoolId → Pool := fun _ => {}
  nextPool : ℕ := 0
  executorPools : Bytes → Option PoolId := fun _ => none
  handles : HandleId → TransactionHandle := fun _ => {}
  nextHandle : ℕ := 0
  ctxs : CtxId → ClientContext := fun _ => {}
  log : List (ℕ × Note) := []
  aborted : Bool := false

/-- What the environment decides at one step. -/
structure Answer extends ClientAnswer where
  /-- the filters let the call pass -/
  pass : Bool := true
  /-- the status that the filters leave, if they set one -/
  status : Option Status := none
  /-- the address that a filter sets, or that the selector finds -/
  addr : Option NodeAddr := none
  /-- how `Status::ToString` prints the status of a failed `SelectTarget` -/
  text : String := ""
  timedOut : Bool := false
  /-- the thread pool takes the task -/
  taken : Bool := true

/-- The steps of the proxy, the pools and the handles. -/
inductive WorldOp where
  | client (e : ExecId) (o : ClientOp)
  | getServiceName
  | getStatus (x : CtxId)
  | setStatus (x : CtxId) (s : Status)
  | getNodeAddr (x : CtxId)
  | runFilters (pt : FilterPoint) (x : CtxId)
  | checkTimeout (x : CtxId)
  | selectTarget
  | addTask
  | poolsGet (key : Bytes)
  | managerOption
  | poolsGetOrInsert (key : Bytes) (pool : Pool)
  | poolOption (p : PoolId)
  | poolTarget (p : PoolId)
  | fetchAddShardId (p : PoolId)
  | fetchAddExecutorId (p : PoolId)
  | fetchAddExecutorNum (p : PoolId)
  | noteConnected (p : PoolId)
  | noteDiscarded (p : PoolId)
  | popBack (p : PoolId) (k : ℕ)
  | pushBack (p : PoolId) (k : ℕ) (e : ExecId) (from? : Option HandleId)
  | copyShard (p : PoolId) (k : ℕ)
  | swapShard (p : PoolId) (k : ℕ)
  | newExecutor (option : MysqlConnOption)
  | release (e : ExecId)
  | getState (h : HandleId)
  | setState (h : HandleId) (st : TxState)
  | getExecutor (h : HandleId)
  | newHandle (e : ExecId)
  | moveHandle (h : HandleId)
  | endHandle (h : HandleId)
  | crash

@[reducible] def WorldOp.Reply : WorldOp → Type
  | client _ o => o.Reply
  | getServiceName => String
  | getStatus _ => Status
  | getNodeAddr _ | poolTarget _ => NodeAddr
  | runFilters .. | checkTimeout _ | pushBack .. => Bool
  | selectTarget => Except String NodeAddr
  | poolsGet _ => Option PoolId
  | poolsGetOrInsert .. => PoolId
  | managerOption | poolOption _ => MysqlExecutorPoolOption
  | fetchAddShardId _ | fetchAddExecutorId _ => ℕ
  | popBack .. | getExecutor _ => Option ExecId
  | copyShard .. | swapShard .. => List ExecId
  | newExecutor _ => ExecId
  | newHandle _ | moveHandle _ => HandleId
  | getState _ => TxState
  | crash => Empty
  | _ => Unit

namespace World

variable (w : World)

def setPool (p : PoolId) (q : Pool) : World := { w with pools := update w.pools p q }

def setShard (p : PoolId) (k : ℕ) (es : List ExecId) : World :=
  w.setPool p { w.pools p with shards := update (w.pools p).shards k es }

def setHandle (h : HandleId) (t : TransactionHandle) : World := { w with handles := update w.handles h t }

def setCtx (x : CtxId) (c : ClientContext) : World := { w with ctxs := update w.ctxs x c }

def setExec (e : ExecId) (s : ExecSt) : World := { w with execs := update w.execs e s }

/-- What call `i` leaves in the history. -/
def record (i : ℕ) (notes : List Note) : World := { w with log := w.log ++ notes.map (i, ·) }

/-- One more reference to each of the executors. -/
def retain (es : List ExecId) : World :=
  { w with refs := fun e => w.refs e + es.count e }

/-- A reference to `e` goes; the last one runs `~MysqlExecutor`. -/
def release (e : ExecId) : World :=
  { w with
    refs := update w.refs e (w.refs e - 1)
    aborted := w.aborted || (w.refs e = 1 && (w.execs e).this.isConnected) }

end World

open World in
/-- What a step does when call `i` makes it, and its reply; `none` is a crash or a step
that never returns. -/
def worldStep (i : ℕ) : (o : WorldOp) → Answer → World → Option (o.Reply × World)
  | .client e o, a, w =>
    (clientExec o a.toClientAnswer (w.execs e)).map fun x =>
      (x.1, (w.setExec e x.2).record i ((x.2.events.drop (w.execs e).events.length).map (.sql e)))
  | .getServiceName, _, w => some (w.serviceName, w)
  | .getStatus x, _, w => some ((w.ctxs x).status, w)
  | .setStatus x s, _, w => some ((), w.setCtx x { w.ctxs x with status := s })
  | .getNodeAddr x, _, w => some ((w.ctxs x).nodeAddr, w)
  | .runFilters pt x, a, w =>
    let c := w.ctxs x
    some (a.pass, (w.setCtx x { status := a.status.getD c.status, nodeAddr := a.addr.getD c.nodeAddr }).record i
      (if a.pass then [] else [.rejected pt]))
  | .checkTimeout x, a, w =>
    if a.timedOut then some (true, (w.setCtx x { w.ctxs x with status := timeoutStatus }).record i [.timedOut])
    else some (false, w)
  | .selectTarget, a, w => some (a.addr.elim (.error a.text) .ok, w)
  | .addTask, a, w => if a.taken then some ((), w) else none
  | .poolsGet key, _, w => some (w.executorPools key, w)
  | .managerOption, _, w => some (w.poolOption, w)
  | .poolsGetOrInsert key pool, _, w =>
    match w.executorPools key with
    | some p => some (p, w)
    | none => some (w.nextPool, { w.setPool w.nextPool pool with
        nextPool := w.nextPool + 1, executorPools := update w.executorPools key (some w.nextPool) })
  | .poolOption p, _, w => some ((w.pools p).option, w)
  | .poolTarget p, _, w => some ((w.pools p).target, w)
  | .fetchAddShardId p, _, w =>
    let q := w.pools p
    some (q.shardIdGen, w.setPool p { q with shardIdGen := (q.shardIdGen + 1) % 2 ^ 32 })
  | .fetchAddExecutorId p, _, w =>
    let q := w.pools p
    some (q.executorIdGen, w.setPool p { q with executorIdGen := (q.executorIdGen + 1) % 2 ^ 32 })
  | .fetchAddExecutorNum p, _, w =>
    let q := w.pools p
    some ((), w.setPool p { q with executorNum := (q.executorNum + 1) % 2 ^ 32 })
  | .noteConnected p, _, w =>
    some ((), w.setPool p { w.pools p with connected := (w.pools p).connected + 1 })
  | .noteDiscarded p, _, w =>
    some ((), w.setPool p { w.pools p with discarded := (w.pools p).discarded + 1 })
  | .popBack p k, _, w =>
    match ((w.pools p).shards k).getLast? with
    | none => some (none, w)
    | some e => some (some e, w.setShard p k ((w.pools p).shards k).dropLast)
  | .pushBack p k e from?, a, w =>
    -- the reference is its owner's own, and null if another call has moved it away
    if from?.all fun h => (w.handles h).executor = some e then
      if (w.pools p).hasRoom k then
        let s := w.execs e
        let w := (w.setExec e { s with this := { s.this with aliveTime := a.now } }).setShard p k
          ((w.pools p).shards k ++ [e])
        -- the reference moves from its owner into the list
        match from? with
        | none => some (true, w)
        | some h => some (true, w.setHandle h { w.handles h with executor := none })
      else some (false, w)
    else none
  | .copyShard p k, _, w => some ((w.pools p).shards k, w.retain ((w.pools p).shards k))
  | .swapShard p k, _, w => some ((w.pools p).shards k, w.setShard p k [])
  | .newExecutor option, _, w =>
    some (w.nextExec, { w.setExec w.nextExec { this := { option := option } } with
      nextExec := w.nextExec + 1, refs := update w.refs w.nextExec 1 })
  | .release e, _, w => some ((), w.release e)
  | .getState h, _, w => some ((w.handles h).state, w)
  | .setState h st, _, w => some ((), w.setHandle h { w.handles h with state := st })
  | .getExecutor h, _, w =>
    some ((w.handles h).executor, w.retain (w.handles h).executor.toList)
  | .newHandle e, _, w =>
    let t : TransactionHandle :=
      { state := .kStarted, executor := some e, opened := (w.execs e).session.map fun σ => (e, σ.id) }
    some (w.nextHandle, { w.setHandle w.nextHandle t with nextHandle := w.nextHandle + 1 })
  | .moveHandle h, _, w =>
    some (w.nextHandle, { (w.setHandle w.nextHandle (w.handles h)).setHandle h
      { w.handles h with state := .kInValid, executor := none } with nextHandle := w.nextHandle + 1 })
  | .endHandle h, _, w =>
    let t := w.handles h
    let w := w.setHandle h { t with state := .kInValid, executor := none }
    some ((), t.executor.elim w w.release)
  | .crash, _, _ => none

/-- A step of the process, while it lives. -/
def worldExec (i : ℕ) (o : WorldOp) (a : Answer) (w : World) : Option (o.Reply × World) :=
  if w.aborted then none else worldStep i o a w

/-- Programs of the proxy. -/
abbrev WProg := Prog WorldOp WorldOp.Reply

end TrpcMysql
