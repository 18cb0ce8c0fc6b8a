import TrpcMysql.Conc.Interleave
import TrpcMysql.Proxy.World

/-!
# The life of the pools

`MysqlExecutorPoolManager` step by step: `Get` looks a pool up, makes one and tries to insert it,
and deletes its own when another call was faster; `Stop` and `Destroy` work through the list of
pools that `Stop` took. What goes on inside a pool is not part of this module: here a pool is its
address and how often it was stopped, destroyed and deleted.

The map's operations are atomic. A proxy calls `Stop` and then `Destroy` (`ManagerCall.shutdown`)
while the tasks of its workers still call `Get`.

Two fields are history that no code reads: `inserted` marks the pools that came into the map, and
`ended` is the number of pools made when `Destroy` ended.
-/

namespace TrpcMysql

open Function Conc

structure ManagedPool where
  option : MysqlExecutorPoolOption := {}
  target : NodeAddr := {}
  inserted : Bool := false
  stopped : ℕ := 0
  destroyed : ℕ := 0
  deleted : ℕ := 0

structure ManagerSt where
  option : MysqlExecutorPoolOption := {}
  executorPools : List (Bytes × PoolId) := []
  poolsToDestroy : List (Bytes × PoolId) := []
  pools : PoolId → ManagedPool := fun _ => {}
  nextPool : ℕ := 0
  taken : Bool := false
  ended : Option ℕ := none

/-- The steps of the manager. -/
inductive ManagerOp where
  | getOption
  | mapGet (key : Bytes)
  | newPool (option : MysqlExecutorPoolOption) (addr : NodeAddr)
  | mapGetOrInsert (key : Bytes) (p : PoolId)
  | getAllItems
  | getPoolsToDestroy
  | poolStop (p : PoolId)
  | poolDestroy (p : PoolId)
  | deletePool (p : PoolId)
  | mapReclaim
  | clearPoolsToDestroy

@[reducible] def ManagerOp.Reply : ManagerOp → Type
  | getOption => MysqlExecutorPoolOption
  | mapGet _ | mapGetOrInsert .. => Option PoolId
  | newPool .. => PoolId
  | getAllItems | getPoolsToDestroy => List (Bytes × PoolId)
  | _ => Unit

namespace ManagerSt

variable (m : ManagerSt)

def setPool (p : PoolId) (q : ManagedPool) : ManagerSt := { m with pools := update m.pools p q }

/-- The pool of a key. -/
def find (key : Bytes) : Option PoolId := m.executorPools.lookup key

variable {m} {p p' : PoolId} {q : ManagedPool} {key key' : Bytes}

@[simp] theorem setPool_self : (m.setPool p q).pools p = q := update_self ..

@[simp] theorem setPool_of_ne (h : p' ≠ p) : (m.setPool p q).pools p' = m.pools p' := update_of_ne h ..

/-- A field that the new pool has from the old one is the same in every pool. -/
theorem setPool_field {β : Type} (f : ManagedPool → β) (hq : f q = f (m.pools p)) :
    f ((m.setPool p q).pools p') = f (m.pools p') := by
  by_cases h : p' = p
  · subst h; rw [setPool_self, hq]
  · rw [setPool_of_ne h]

/-- A lookup after an insertion. -/
theorem find_insert :
    ({ m.setPool p q with executorPools := (key, p) :: m.executorPools } : ManagerSt).find key' =
      if key' = key then some p else m.find key' := by
  by_cases h : key' = key
  · simp [find, h]
  · have : (key' == key) = false := beq_false_of_ne h
    simp [find, h, List.lookup_cons, this]

end ManagerSt

/-- What a step does, and its reply; the environment decides nothing. -/
def managerExec (_ : ℕ) : (o : ManagerOp) → Unit → ManagerSt → Option (o.Reply × ManagerSt)
  | .getOption, _, m => some (m.option, m)
  | .mapGet key, _, m => some (m.find key, m)
  | .newPool option addr, _, m =>
    -- the constructor divides by the number of shards
    if option.numShardGroup = 0 then none
    else some (m.nextPool, { m.setPool m.nextPool { option := option, target := addr } with
      nextPool := m.nextPool + 1 })
  | .mapGetOrInsert key p, _, m =>
    match m.find key with
    | some p' => some (some p', m)
    | none => some (none, { m.setPool p { m.pools p with inserted := true } with
        executorPools := (key, p) :: m.executorPools })
  | .getAllItems, _, m =>
    some (m.executorPools, { m with poolsToDestroy := m.executorPools, taken := true })
  | .getPoolsToDestroy, _, m => some (m.poolsToDestroy, m)
  | .poolStop p, _, m => some ((), m.setPool p { m.pools p with stopped := (m.pools p).stopped + 1 })
  | .poolDestroy p, _, m => some ((), m.setPool p { m.pools p with destroyed := (m.pools p).destroyed + 1 })
  | .deletePool p, _, m => some ((), m.setPool p { m.pools p with deleted := (m.pools p).deleted + 1 })
  | .mapReclaim, _, m => some ((), { m with executorPools := [] })
  | .clearPoolsToDestroy, _, m => some ((), { m with poolsToDestroy := [], ended := some m.nextPool })

/-- Programs of the manager. -/
abbrev MProg := Prog ManagerOp ManagerOp.Reply

abbrev mop (o : ManagerOp) : MProg o.Reply := Prog.op o

namespace Manager

def createExecutorPool (addr : NodeAddr) : MProg PoolId := do
  mop (.newPool (← mop .getOption) addr)

def get (addr : NodeAddr) : MProg PoolId := do
  let key := endpoint addr
  match ← mop (.mapGet key) with
  | some p => return p
  | none =>
    let pool ← createExecutorPool addr
    match ← mop (.mapGetOrInsert key pool) with
    | none => return pool
    | some p =>
      mop (.deletePool pool)
      return p

/-- The loop of `Stop`. -/
def stopAll : List PoolId → MProg Unit
  | [] => return ()
  | p :: ps => do
    mop (.poolStop p)
    stopAll ps

def stop : MProg Unit := do
  let items ← mop .getAllItems
  stopAll (items.map Prod.snd)

/-- The loop of `Destroy`. -/
def destroyAll : List PoolId → MProg Unit
  | [] => return ()
  | p :: ps => do
    mop (.poolDestroy p)
    mop (.deletePool p)
    destroyAll ps

def destroy : MProg Unit := do
  let items ← mop .getPoolsToDestroy
  destroyAll (items.map Prod.snd)
  mop .mapReclaim
  mop .clearPoolsToDestroy

end Manager

/-- What is called on a manager. -/
inductive ManagerCall where
  | get (addr : NodeAddr)
  | shutdown

def ManagerCall.prog : ManagerCall → MProg (Option PoolId)
  | get addr => return some (← Manager.get addr)
  | shutdown => do
    Manager.stop
    Manager.destroy
    return none

/-- A manager with any number of calls in progress. -/
def managerSystem : System ManagerSt ManagerOp Unit ManagerCall (Option PoolId) ManagerOp.Reply where
  exec := managerExec
  prog := ManagerCall.prog

abbrev ManagerConfig := Config ManagerSt ManagerOp ManagerCall (Option PoolId) ManagerOp.Reply

end TrpcMysql
