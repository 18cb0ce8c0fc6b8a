import TrpcMysql.Pool.Divisors
import TrpcMysql.Proxy.Proxy

/-!
# A proxy that is configured anew

`SetMysqlConfig`, `Stop` and `Destroy` of `mysql_service_proxy.cc`, at any time beside the calls of the proxy: they
stop, destroy and delete the pools, and `SetMysqlConfig` puts a new pool manager in the place of the old one.

The world's `poolOption` and `executorPools` are the fields of the present manager. A call works on the manager that
it found when it looked its pool up, and a step on a manager or a pool that was deleted ends the run. What `Stop` and
`Join` of the thread pool do to the tasks is left open: tasks go on, so that there are more runs than the code has.

History that no code reads: `creator e` is the pool whose `CreateExecutor` made executor `e`, `oldest` is the first
pool made since the map was last emptied, `Track.making` is the pool in whose `CreateExecutor` a call is, and
`Track.held` is the executor that the call last read from a handle.
-/

namespace TrpcMysql

open Function Conc

/-- Where a call is: the manager that it works on, the pool that makes an executor for it, and the executor that it
read from a handle. -/
structure Track where
  manager : Option ℕ := none
  making : Option PoolId := none
  held : Option ExecId := none
  deriving DecidableEq

structure ServiceSt where
  world : World := {}
  option : ServiceProxyOption
  mysqlConf : MysqlClientConf := {}
  threadPool : Bool := true
  poolManager : Option ℕ := some 0
  nextManager : ℕ := 1
  poolsToDestroy : List PoolId := []
  deleted : PoolId → Bool := fun _ => false
  creator : ExecId → Option PoolId := fun _ => none
  oldest : PoolId := 0
  tracks : ℕ → Track := fun _ => {}

/-- The steps of a proxy with its manager and its thread pool. -/
inductive ServiceOp where
  | world (o : WorldOp)
  | setConf (conf : MysqlClientConf)
  | threadPoolStop
  | threadPoolJoin
  | threadPoolReset
  | initThreadPool
  | getAllItems
  | getPoolsToDestroy
  | deletePool (p : PoolId)
  | mapReclaim
  | clearPoolsToDestroy
  | managerReset
  | initManager

@[reducible] def ServiceOp.Reply : ServiceOp → Type
  | world o => o.Reply
  | getAllItems | getPoolsToDestroy => List PoolId
  | _ => Unit

/-- The pool that a step works on. -/
def WorldOp.pool : WorldOp → Option PoolId
  | poolOption p | poolTarget p | fetchAddShardId p | fetchAddExecutorId p | fetchAddExecutorNum p => some p
  | popBack p _ | pushBack p _ _ _ | copyShard p _ | swapShard p _ => some p
  | _ => none

namespace ServiceOp

def pool : ServiceOp → Option PoolId
  | world o => o.pool
  | deletePool p => some p
  | _ => none

/-- The step reads the pointer to the manager. -/
def entersManager : ServiceOp → Bool
  | world (.poolsGet _) | getAllItems | getPoolsToDestroy => true
  | _ => false

/-- The step goes on with the manager that the call found. -/
def inManager : ServiceOp → Bool
  | world .managerOption | world (.poolsGetOrInsert ..) | mapReclaim | clearPoolsToDestroy => true
  | _ => false

/-- The step reads the pointer to the thread pool. -/
def entersThreadPool : ServiceOp → Bool
  | world .addTask | threadPoolStop | threadPoolJoin => true
  | _ => false

end ServiceOp

/-- What a step of the world and its reply make of the call's track; `m` is the present manager. -/
def Track.after (t : Track) (m : Option ℕ) : (o : WorldOp) → o.Reply → Track
  | .poolsGet _, _ => { t with manager := m }
  | .fetchAddExecutorId p, _ => { t with making := some p }
  | .getExecutor _, e => { t with held := e }
  | _, _ => t

namespace ServiceSt

variable (s : ServiceSt)

/-- The items of the manager's map. -/
def items : List PoolId :=
  (List.range s.world.nextPool).filter fun p =>
    s.world.executorPools (endpoint (s.world.pools p).target) = some p

/-- The objects that the step of call `i` works on are there. -/
def permits (i : ℕ) (o : ServiceOp) : Bool :=
  (!o.entersManager || s.poolManager.isSome) &&
    (!o.inManager || (s.poolManager.isSome && s.poolManager = (s.tracks i).manager)) &&
    (!o.entersThreadPool || s.threadPool) && o.pool.all fun p => !s.deleted p

/-- Call `i` found the manager. -/
def entered (i : ℕ) : ServiceSt :=
  { s with tracks := update s.tracks i { s.tracks i with manager := s.poolManager } }

/-- Who made the executors, after a step of call `i`. -/
def creatorAfter (i : ℕ) : (o : WorldOp) → o.Reply → ExecId → Option PoolId
  | .newExecutor _, e => update s.creator e (s.tracks i).making
  | _, _ => s.creator

/-- The map is empty. -/
def emptied : ServiceSt :=
  { s with world := { s.world with executorPools := fun _ => none }, oldest := s.world.nextPool }

end ServiceSt

/-- What a step does when call `i` makes it, and its reply. -/
def serviceStep (i : ℕ) : (o : ServiceOp) → Answer → ServiceSt → Option (o.Reply × ServiceSt)
  | .world o, a, s => (worldExec i o a s.world).map fun x => (x.1, { s with
      world := x.2
      creator := s.creatorAfter i o x.1
      tracks := update s.tracks i ((s.tracks i).after s.poolManager o x.1) })
  | .setConf conf, _, s => some ((), { s with mysqlConf := conf })
  | .threadPoolStop, _, s => some ((), s)
  | .threadPoolJoin, _, s => some ((), s)
  | .threadPoolReset, _, s => some ((), { s with threadPool := false })
  | .initThreadPool, _, s => some ((), { s with threadPool := true })
  | .getAllItems, _, s => some (s.items, { s.entered i with poolsToDestroy := s.items })
  | .getPoolsToDestroy, _, s => some (s.poolsToDestroy, s.entered i)
  | .deletePool p, _, s => some ((), { s with deleted := update s.deleted p true })
  | .mapReclaim, _, s => some ((), s.emptied)
  | .clearPoolsToDestroy, _, s => some ((), { s with poolsToDestroy := [] })
  | .managerReset, _, s => some ((), { s.emptied with poolManager := none, poolsToDestroy := [] })
  | .initManager, _, s =>
    match s.poolManager with
    | some _ => some ((), s)
    | none => some ((), { s with
        world := { s.world with poolOption := (initManager s.option s.mysqlConf).option }
        poolManager := some s.nextManager
        nextManager := s.nextManager + 1 })

/-- A step of the process, while it lives. -/
def serviceExec (i : ℕ) (o : ServiceOp) (a : Answer) (s : ServiceSt) : Option (o.Reply × ServiceSt) :=
  if s.world.aborted then none else if s.permits i o then serviceStep i o a s else none

/-- Programs of the proxy with its manager and its thread pool. -/
abbrev ServiceProg := Prog ServiceOp ServiceOp.Reply

abbrev vop (o : ServiceOp) : ServiceProg o.Reply := Prog.op o

/-- A program of the proxy's calls. -/
def inWorld {α : Type} (p : WProg α) : ServiceProg α := p.lift .world fun _ r => r

namespace MysqlExecutorPoolManager

/-- The loop of `Stop`. -/
def stopPools : List PoolId → ServiceProg Unit
  | [] => return ()
  | p :: ps => do
    inWorld (MysqlExecutorPool.stop p)
    stopPools ps

def stop : ServiceProg Unit := do
  let pools ← vop .getAllItems
  stopPools pools

/-- The loop of `Destroy`. -/
def destroyPools : List PoolId → ServiceProg Unit
  | [] => return ()
  | p :: ps => do
    inWorld (MysqlExecutorPool.destroy p)
    vop (.deletePool p)
    destroyPools ps

def destroy : ServiceProg Unit := do
  let pools ← vop .getPoolsToDestroy
  destroyPools pools
  vop .mapReclaim
  vop .clearPoolsToDestroy

end MysqlExecutorPoolManager

namespace MysqlServiceProxy

def stop : ServiceProg Unit := do
  vop .threadPoolStop
  MysqlExecutorPoolManager.stop

def destroy : ServiceProg Unit := do
  vop .threadPoolJoin
  MysqlExecutorPoolManager.destroy

def setMysqlConfig (conf : MysqlClientConf) : ServiceProg Unit := do
  vop (.setConf conf)
  vop .threadPoolStop
  vop .threadPoolJoin
  vop .threadPoolReset
  MysqlExecutorPoolManager.stop
  MysqlExecutorPoolManager.destroy
  vop .managerReset
  vop .initThreadPool
  vop .initManager

end MysqlServiceProxy

/-- What the users of a proxy call. -/
inductive ServiceCall where
  | proxy (c : Call)
  | setMysqlConfig (conf : MysqlClientConf)
  | stop
  | destroy

def ServiceCall.prog : ServiceCall → ServiceProg Result
  | proxy c => inWorld c.prog
  | setMysqlConfig conf => do
    MysqlServiceProxy.setMysqlConfig conf
    return .unit
  | stop => do
    MysqlServiceProxy.stop
    return .unit
  | destroy => do
    MysqlServiceProxy.destroy
    return .unit

/-- A proxy with any number of calls in progress, `SetMysqlConfig` among them. -/
def serviceSystem : System ServiceSt ServiceOp Answer ServiceCall Result ServiceOp.Reply where
  exec := serviceExec
  prog := ServiceCall.prog

/-- A proxy that `SetServiceProxyOptionInner` has set up. -/
def ServiceSt.fresh (serviceName : String) (option : ServiceProxyOption) (conf : MysqlClientConf)
    (ctxs : CtxId → ClientContext) : ServiceSt where
  world := { serviceName := serviceName, poolOption := (initManager option conf).option, ctxs := ctxs }
  option := option
  mysqlConf := conf

abbrev ServiceConfig := Config ServiceSt ServiceOp ServiceCall Result ServiceOp.Reply

end TrpcMysql
