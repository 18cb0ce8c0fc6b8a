import TrpcMysql.Conc.Interleave
import TrpcMysql.Proxy.World

/-!
# A pool, step by step

`MysqlExecutorPool` with every access to a shard's lock, a shard's list or an atomic counter as a step
of its own, so that the size test of `Reclaim` and its push are apart, `CheckAlive` runs under the lock,
and `Stop` closes what it copied after it has released the lock. Here an executor is what the pool sees
of it, and a function of the executor is one step; what the server does to it the answers decide.

A borrower gets an executor, uses it if it is connected, and gives it back or closes it. The shutdown is
`Stop` and then `Destroy`, with borrowers at work all the time.

History that no code reads: `increments` counts the increments of `executor_num_`, `lent` marks the
executors that borrowers have, `copied` is what `Stop` has copied and not yet closed, `snapped` marks the
shards it has copied; `cut` lists the executors that `Stop` closed while a borrower had them, and `lost`
those that `Destroy` dropped while they were connected.
-/

namespace TrpcMysql

open Function Conc

/-- An executor, as the pool sees it. -/
structure Conn where
  connected : Bool := false
  executorId : ℕ := 0
  aliveTime : ℕ := 0

structure ShardsSt where
  option : MysqlExecutorPoolOption := {}
  executorNum : ℕ := 0
  maxNumPerShard : ℕ := 0
  shards : ℕ → List ExecId := fun _ => []
  locked : ℕ → Bool := fun _ => false
  shardIdGen : ℕ := 0
  executorIdGen : ℕ := 0
  conns : ExecId → Conn := fun _ => {}
  nextExec : ℕ := 0
  increments : ℕ := 0
  lent : ExecId → Bool := fun _ => false
  stopBegun : Bool := false
  copied : List ExecId := []
  snapped : ℕ → Bool := fun _ => false
  cut : List ExecId := []
  lost : List ExecId := []

/-- A new pool. -/
def ShardsSt.new (option : MysqlExecutorPoolOption) : ShardsSt :=
  { option := option, maxNumPerShard := option.maxSize / option.numShardGroup }

/-- What the environment decides at a step: what the server makes of the connection, and the clock. -/
structure ShardsAnswer where
  alive : Bool := true
  now : ℕ := 0

/-- The steps of the pool and of its borrowers. -/
inductive ShardsOp where
  | getOption
  | fetchAddShardId
  | lock (k : ℕ)
  | unlock (k : ℕ)
  | popBack (k : ℕ)
  | checkAlive (e : ExecId)
  | getAliveTime (e : ExecId)
  | lend (e : ExecId)
  | close (e : ExecId)
  | fetchAddExecutorId
  | newExecutor (executorId : ℕ)
  | connect (e : ExecId)
  | fetchAddExecutorNum
  | isConnected (e : ExecId)
  | use (e : ExecId)
  | getExecutorId (e : ExecId)
  | listSize (k : ℕ)
  | getMaxNumPerShard
  | loadExecutorNum
  | refreshAliveTime (e : ExecId)
  | pushBack (k : ℕ) (e : ExecId)
  | beginStop
  | copyShard (k : ℕ)
  | closeCopied (e : ExecId)
  | swapShard (k : ℕ)
  | drop (e : ExecId)
  | crash

@[reducible] def ShardsOp.Reply : ShardsOp → Type
  | getOption => MysqlExecutorPoolOption
  | fetchAddShardId | getAliveTime _ | fetchAddExecutorId | getExecutorId _ | listSize _ | getMaxNumPerShard
  | loadExecutorNum => ℕ
  | popBack _ => Option ExecId
  | checkAlive _ | connect _ | isConnected _ => Bool
  | newExecutor _ => ExecId
  | copyShard _ | swapShard _ => List ExecId
  | crash => Empty
  | _ => Unit

namespace ShardsSt

variable (m : ShardsSt)

def setShard (k : ℕ) (es : List ExecId) : ShardsSt := { m with shards := update m.shards k es }

def setConn (e : ExecId) (c : Conn) : ShardsSt := { m with conns := update m.conns e c }

/-- The connection of `e` is open, or not. -/
def setConnected (e : ExecId) (b : Bool) : ShardsSt := m.setConn e { m.conns e with connected := b }

end ShardsSt

/-- What a step does, and its reply; `none` is a step that has to wait, or a crash. -/
def shardsExec (_ : ℕ) : (o : ShardsOp) → ShardsAnswer → ShardsSt → Option (o.Reply × ShardsSt)
  | .getOption, _, m => some (m.option, m)
  | .fetchAddShardId, _, m => some (m.shardIdGen, { m with shardIdGen := (m.shardIdGen + 1) % 2 ^ 32 })
  | .lock k, _, m => if m.locked k then none else some ((), { m with locked := update m.locked k true })
  | .unlock k, _, m => some ((), { m with locked := update m.locked k false })
  | .popBack k, _, m =>
    match (m.shards k).getLast? with
    | none => some (none, m)
    | some e => some (some e, m.setShard k (m.shards k).dropLast)
  | .checkAlive e, a, m =>
    let b := (m.conns e).connected && a.alive
    some (b, m.setConnected e b)
  | .getAliveTime e, a, m => some ((a.now + 2 ^ 64 - (m.conns e).aliveTime) % 2 ^ 64, m)
  | .lend e, _, m => some ((), { m with lent := update m.lent e true })
  | .close e, _, m => some ((), { m.setConnected e false with lent := update m.lent e false })
  | .fetchAddExecutorId, _, m =>
    some (m.executorIdGen, { m with executorIdGen := (m.executorIdGen + 1) % 2 ^ 32 })
  | .newExecutor executorId, _, m =>
    some (m.nextExec, { m.setConn m.nextExec { executorId := executorId } with nextExec := m.nextExec + 1 })
  | .connect e, a, m => some (a.alive, m.setConnected e a.alive)
  | .fetchAddExecutorNum, _, m =>
    some ((), { m with executorNum := (m.executorNum + 1) % 2 ^ 32, increments := m.increments + 1 })
  | .isConnected e, _, m => some ((m.conns e).connected, m)
  | .use e, a, m => some ((), m.setConnected e a.alive)
  | .getExecutorId e, _, m => some ((m.conns e).executorId, m)
  | .listSize k, _, m => some ((m.shards k).length, m)
  | .getMaxNumPerShard, _, m => some (m.maxNumPerShard, m)
  | .loadExecutorNum, _, m => some (m.executorNum, m)
  | .refreshAliveTime e, a, m => some ((), m.setConn e { m.conns e with aliveTime := a.now })
  | .pushBack k e, _, m => some ((), { m.setShard k (m.shards k ++ [e]) with lent := update m.lent e false })
  | .beginStop, _, m => some ((), { m with stopBegun := true })
  | .copyShard k, _, m =>
    some (m.shards k, { m with copied := m.copied ++ m.shards k, snapped := update m.snapped k true })
  | .closeCopied e, _, m =>
    some ((), { m.setConnected e false with
      copied := m.copied.erase e, cut := if m.lent e then e :: m.cut else m.cut })
  | .swapShard k, _, m => some (m.shards k, m.setShard k [])
  | .drop e, _, m => some ((), { m with lost := if (m.conns e).connected then e :: m.lost else m.lost })
  | .crash, _, _ => none

/-- Programs of the pool. -/
abbrev SProg := Prog ShardsOp ShardsOp.Reply

abbrev sop (o : ShardsOp) : SProg o.Reply := Prog.op o

namespace Shards

def crashed {α : Type} : SProg α := .act .crash fun r => r.elim

def isIdleTimeout (e : ExecId) : SProg Bool := do
  let option ← sop .getOption
  if option.maxIdleTime = 0 then return false
  return !((← sop (.getAliveTime e)) < option.maxIdleTime)

/-- The loop of `GetOrCreate`. -/
def popAlive (k : ℕ) : ℕ → SProg (Option ExecId)
  | 0 => return none
  | n + 1 => do
    sop (.lock k)
    match ← sop (.popBack k) with
    | none =>
      sop (.unlock k)
      return none
    | some e =>
      if ← sop (.checkAlive e) then
        if !(← isIdleTimeout e) then
          sop (.lend e)
          sop (.unlock k)
          return some e
      sop (.unlock k)
      sop (.close e)
      popAlive k n

def createExecutor (shardId : ℕ) : SProg ExecId := do
  let n ← sop .fetchAddExecutorId
  sop (.newExecutor (shardId * 2 ^ 32 + n))

/-- The end of `GetOrCreate`: a new executor, connected or not. -/
def connectNew (shardId : ℕ) : SProg ExecId := do
  let e ← createExecutor shardId
  if ← sop (.connect e) then
    sop .fetchAddExecutorNum
    sop (.lend e)
  return e

def getExecutor : SProg ExecId := do
  let shardId ← sop .fetchAddShardId
  let option ← sop .getOption
  -- a remainder by zero ends the process
  if option.numShardGroup = 0 then crashed
  else match ← popAlive (shardId % option.numShardGroup) 3 with
    | some e => return e
    | none => connectNew shardId

/-- `Reclaim` refuses the executor. -/
def refuse (e : ExecId) : SProg Unit := do
  sop .fetchAddExecutorNum
  sop (.close e)

/-- `Reclaim(ret, executor)`. -/
def reclaim (ret : ℤ) (e : ExecId) : SProg Unit := do
  if ret = 0 then
    let executorId ← sop (.getExecutorId e)
    let option ← sop .getOption
    if option.numShardGroup = 0 then crashed
    else
      let k := executorId / 2 ^ 32 % 2 ^ 32 % option.numShardGroup
      sop (.lock k)
      let size ← sop (.listSize k)
      let maxNumPerShard ← sop .getMaxNumPerShard
      if size ≤ maxNumPerShard then
        let executorNum ← sop .loadExecutorNum
        if executorNum ≤ option.maxSize then
          sop (.refreshAliveTime e)
          sop (.pushBack k e)
          sop (.unlock k)
        else
          sop (.unlock k)
          refuse e
      else
        sop (.unlock k)
        refuse e
  else refuse e

/-- The statements of a borrower. -/
def uses (e : ExecId) : ℕ → SProg Unit
  | 0 => return ()
  | n + 1 => do
    sop (.use e)
    uses e n

def closeAll : List ExecId → SProg Unit
  | [] => return ()
  | e :: es => do
    sop (.closeCopied e)
    closeAll es

def stopShards : List ℕ → SProg Unit
  | [] => return ()
  | k :: ks => do
    sop (.lock k)
    let es ← sop (.copyShard k)
    sop (.unlock k)
    closeAll es
    stopShards ks

def stop : SProg Unit := do
  sop .beginStop
  stopShards (List.range (← sop .getOption).numShardGroup)

def dropAll : List ExecId → SProg Unit
  | [] => return ()
  | e :: es => do
    sop (.drop e)
    dropAll es

def destroyShards : List ℕ → SProg Unit
  | [] => return ()
  | k :: ks => do
    sop (.lock k)
    let es ← sop (.swapShard k)
    sop (.unlock k)
    dropAll es
    destroyShards ks

def destroy : SProg Unit := do
  destroyShards (List.range (← sop .getOption).numShardGroup)

end Shards

/-- What is called on a pool: a borrower makes `n` statements and gives the executor back with `ret`, or
closes it (a transaction that is not ended); or the pool is shut down. -/
inductive ShardsCall where
  | borrow (n : ℕ) (ret : Option ℤ)
  | shutdown

open Shards in
def ShardsCall.prog : ShardsCall → SProg Unit
  | borrow n ret => do
    let e ← getExecutor
    if ← sop (.isConnected e) then
      uses e n
      match ret with
      | some ret => reclaim ret e
      | none => sop (.close e)
  | shutdown => do
    stop
    destroy

/-- A pool with any number of borrowers. -/
def shardsSystem : System ShardsSt ShardsOp ShardsAnswer ShardsCall Unit ShardsOp.Reply where
  exec := shardsExec
  prog := ShardsCall.prog

abbrev ShardsConfig := Config ShardsSt ShardsOp ShardsCall Unit ShardsOp.Reply

end TrpcMysql
