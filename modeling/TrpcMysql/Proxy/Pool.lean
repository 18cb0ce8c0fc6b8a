import TrpcMysql.Proxy.World

/-!
# `MysqlExecutorPool` and `MysqlExecutorPoolManager`

The functions of `mysql_executor_pool.cc` and `mysql_executor_pool_manager.cc`, as
programs over the steps of the world. `CheckAlive` of a popped executor is a step of its
own, after the pop, though the code makes both under the shard's lock.
-/

namespace TrpcMysql

open Conc

abbrev wop (o : WorldOp) : WProg o.Reply := Prog.op o

/-- A program of the executor `e`. -/
def onExecutor {α : Type} (e : ExecId) (p : XProg α) : WProg α := p.lift (.client e) fun _ r => r

/-- A null pointer is dereferenced. -/
def crashed {α : Type} : WProg α := .act .crash fun r => r.elim

namespace MysqlExecutorPool

def EXECUTOR_POOL_CONN_RETRY_NUM : ℕ := 3

def isIdleTimeout (p : PoolId) (e : ExecId) : WProg Bool := do
  let option ← wop (.poolOption p)
  if option.maxIdleTime = 0 then return false
  let alive ← onExecutor e MysqlExecutor.getAliveTime
  return !(alive < option.maxIdleTime)

def createExecutor (p : PoolId) (shardId : ℕ) : WProg ExecId := do
  let n ← wop (.fetchAddExecutorId p)
  let target ← wop (.poolTarget p)
  let option ← wop (.poolOption p)
  let e ← wop (.newExecutor {
    hostname := target.ip, port := target.port, username := option.username,
    database := option.dbname, password := option.password, charSet := option.charSet })
  onExecutor e MysqlExecutor.construct
  onExecutor e (xop (.setExecutorId (shardId * 2 ^ 32 + n)))
  return e

/-- The end of `GetOrCreate`: a new executor, connected or not. -/
def connectNew (p : PoolId) (shardId : ℕ) : WProg ExecId := do
  let e ← createExecutor p shardId
  if ← onExecutor e MysqlExecutor.connect then
    wop (.fetchAddExecutorNum p)
    wop (.noteConnected p)
  return e

/-- The loop of `GetOrCreate`: an executor of the shard that is alive and not idle for too
long, within `n` attempts. The others are closed; their last reference is `idle_executor`. -/
def popAlive (p : PoolId) (k : ℕ) : ℕ → WProg (Option ExecId)
  | 0 => return none
  | n + 1 => do
    match ← wop (.popBack p k) with
    | none => return none
    | some e =>
      if ← onExecutor e MysqlExecutor.checkAlive then
        if !(← isIdleTimeout p e) then return some e
      onExecutor e MysqlExecutor.close
      wop (.noteDiscarded p)
      wop (.release e)
      popAlive p k n

def getOrCreate (p : PoolId) : WProg ExecId := do
  let shardId ← wop (.fetchAddShardId p)
  let option ← wop (.poolOption p)
  -- a remainder by zero ends the process
  if option.numShardGroup = 0 then crashed
  else match ← popAlive p (shardId % option.numShardGroup) EXECUTOR_POOL_CONN_RETRY_NUM with
    | some e => return e
    | none => connectNew p shardId

def getExecutor (p : PoolId) : WProg ExecId := getOrCreate p

/-- `Reclaim(0, executor)`: the proxy passes no other `ret`, and what another one does is part of `Shards.reclaim`
only. The result tells whether the reference was moved into the pool. It comes from the handle `from?`, or from
a local variable. -/
def reclaim (p : PoolId) (e : ExecId) (from? : Option HandleId) : WProg Bool := do
  let this ← onExecutor e getThis
  let option ← wop (.poolOption p)
  if option.numShardGroup = 0 then crashed
  else
    let shardId := this.executorId / 2 ^ 32 % 2 ^ 32
    if ← wop (.pushBack p (shardId % option.numShardGroup) e from?) then return true
    wop (.fetchAddExecutorNum p)
    onExecutor e MysqlExecutor.close
    wop (.noteDiscarded p)
    return false

/-- One pass of `Stop`'s loop, over a copy of the shard's list. -/
def closeAll : List ExecId → WProg Unit
  | [] => return ()
  | e :: es => do
    onExecutor e MysqlExecutor.close
    closeAll es

/-- The end of the scope of a list of references. -/
def releaseAll : List ExecId → WProg Unit
  | [] => return ()
  | e :: es => do
    wop (.release e)
    releaseAll es

def stopShards (p : PoolId) : List ℕ → WProg Unit
  | [] => return ()
  | k :: ks => do
    let es ← wop (.copyShard p k)
    closeAll es
    releaseAll es
    stopShards p ks

def stop (p : PoolId) : WProg Unit := do
  let option ← wop (.poolOption p)
  stopShards p (List.range option.numShardGroup)

def destroyShards (p : PoolId) : List ℕ → WProg Unit
  | [] => return ()
  | k :: ks => do
    let es ← wop (.swapShard p k)
    releaseAll es
    destroyShards p ks

def destroy (p : PoolId) : WProg Unit := do
  let option ← wop (.poolOption p)
  destroyShards p (List.range option.numShardGroup)

end MysqlExecutorPool

namespace MysqlExecutorPoolManager

def get (addr : NodeAddr) : WProg PoolId := do
  let key := endpoint addr
  match ← wop (.poolsGet key) with
  | some p => return p
  | none =>
    let option ← wop .managerOption
    -- the constructor of the pool divides by the number of shards
    if option.numShardGroup = 0 then crashed
    -- the new pool stays, or it is deleted and the one that stands there is used
    else wop (.poolsGetOrInsert key (Pool.new option addr))

end MysqlExecutorPoolManager

end TrpcMysql
