import TrpcMysql.Conc.Trace
import TrpcMysql.Executor.Sends
import TrpcMysql.Proxy.Proxy

/-!
# What the pools and the handles do

The pools, the handles and the executors do not know the contexts of the calls that use them: their
functions neither read a context nor write one, and they run no filters (`Aside`). Nor do the pools and the
handles send a statement (`Still`), and the pools know nothing of the handles, and no pool is made without shards
(`Pooled`).
-/

namespace TrpcMysql

open Conc MysqlExecutor MysqlExecutorPool MysqlServiceProxy

/-- A step that touches no context and asks neither the filters nor the selector. -/
def Aside : WorldOp → Prop
  | .getStatus _ | .setStatus .. | .getNodeAddr _ | .runFilters .. | .checkTimeout _ | .selectTarget => False
  | _ => True

/-- The step opens, prepares or sends a statement. -/
def WorldOp.speaks : WorldOp → Bool
  | client _ o => o.speaks
  | _ => false

/-- A step that touches no context and no statement. -/
def Still (o : WorldOp) : Prop := Aside o ∧ o.speaks = false

/-- A step of a pool, or of an executor that touches no statement. -/
def Pooled : WorldOp → Prop
  | .client _ o => o.speaks = false
  | .getStatus _ | .setStatus .. | .getNodeAddr _ | .runFilters .. | .checkTimeout _ | .selectTarget => False
  | .getState _ | .setState .. | .getExecutor _ | .newHandle _ | .moveHandle _ | .endHandle _ => False
  | .pushBack _ _ _ (some _) => False
  | .poolsGetOrInsert _ pool => pool.option.numShardGroup ≠ 0
  | _ => True

theorem Pooled.still {o : WorldOp} (ho : Pooled o) : Still o := by
  cases o with
  | client e o => exact ⟨trivial, ho⟩
  | pushBack p k e from? => exact ⟨trivial, rfl⟩
  | _ => first | exact ⟨trivial, rfl⟩ | exact ho.elim

section Programs

variable {α : Type} {p : PoolId} {e : ExecId} {h : HandleId}

theorem uses_wop {P : WorldOp → Prop} {o : WorldOp} (ho : P o) : (wop o).Uses P := ⟨ho, fun _ => trivial⟩

theorem uses_then {P : WorldOp → Prop} {o : WorldOp} {f : o.Reply → WProg α} (ho : P o) (hf : ∀ r, (f r).Uses P) :
    (wop o >>= f).Uses P := ⟨ho, hf⟩

theorem aside_onExecutor (q : XProg α) : (onExecutor e q).Uses Aside := Prog.uses_lift (fun _ => trivial) q

theorem still_aside {q : WProg α} (hq : q.Uses Still) : q.Uses Aside := hq.mono fun _ ho => ho.1

theorem pooled_still {q : WProg α} (hq : q.Uses Pooled) : q.Uses Still := hq.mono fun _ ho => ho.still

theorem pooled_onExecutor {q : XProg α} (hq : Silent q) : (onExecutor e q).Uses Pooled := hq.lift fun _ ho => ho

theorem pooled_crashed : (crashed : WProg α).Uses Pooled := ⟨trivial, fun r => r.elim⟩

theorem pooled_isConnected : (isConnected e).Uses Pooled := pooled_onExecutor (silent_op rfl fun _ => trivial)

theorem pooled_get (addr : NodeAddr) : (MysqlExecutorPoolManager.get addr).Uses Pooled := by
  refine uses_then trivial fun r => ?_
  cases r with
  | some p => trivial
  | none =>
    refine uses_then trivial fun option => ?_
    split
    · exact pooled_crashed
    · rename_i hn
      exact uses_wop hn

theorem pooled_isIdleTimeout : (isIdleTimeout p e).Uses Pooled := by
  refine uses_then trivial fun option => ?_
  split
  · trivial
  · exact (pooled_onExecutor (silent_single rfl)).bind fun _ => trivial

theorem pooled_connectNew (n : ℕ) : (connectNew p n).Uses Pooled := by
  refine Prog.Uses.bind ?_ fun e => (pooled_onExecutor silent_connect).bind fun conn => ?_
  · exact uses_then trivial fun _ => uses_then trivial fun _ => uses_then trivial fun _ =>
      uses_then trivial fun _ => (pooled_onExecutor silent_construct).bind fun _ =>
        (pooled_onExecutor (silent_single rfl)).bind fun _ => trivial
  · dsimp only
    split
    · exact uses_then trivial fun _ => uses_then trivial fun _ => trivial
    · trivial

theorem pooled_popAlive (k : ℕ) : ∀ n, (popAlive p k n).Uses Pooled := by
  intro n
  induction n with
  | zero => trivial
  | succ n ih =>
    refine uses_then trivial fun r => ?_
    cases r with
    | none => trivial
    | some e =>
      -- an executor that is dead or idle for too long is given up
      have hrest : (do
          onExecutor e MysqlExecutor.close
          wop (.noteDiscarded p)
          wop (.release e)
          popAlive p k n : WProg (Option ExecId)).Uses Pooled :=
        (pooled_onExecutor silent_close).bind fun _ => uses_then trivial fun _ => uses_then trivial fun _ => ih
      refine (pooled_onExecutor silent_checkAlive).bind fun alive => ?_
      dsimp only
      split
      · refine pooled_isIdleTimeout.bind fun idle => ?_
        split
        · trivial
        · exact hrest
      · exact hrest

theorem pooled_getExecutor : (getExecutor p).Uses Pooled := by
  refine uses_then trivial fun shardId => uses_then trivial fun option => ?_
  split
  · exact pooled_crashed
  · refine (pooled_popAlive _ _).bind fun r => ?_
    cases r with
    | none => exact pooled_connectNew shardId
    | some e => trivial

/-- `Reclaim`, from a handle or not. -/
theorem uses_reclaim {P : WorldOp → Prop} {from? : Option HandleId} (hP : ∀ o, Pooled o → P o)
    (hpush : ∀ k, P (.pushBack p k e from?)) : (reclaim p e from?).Uses P := by
  have hrest : (do
      wop (.fetchAddExecutorNum p)
      onExecutor e MysqlExecutor.close
      wop (.noteDiscarded p)
      return false : WProg Bool).Uses P :=
    uses_then (hP _ trivial) fun _ => ((pooled_onExecutor silent_close).mono hP).bind fun _ =>
      uses_then (hP _ trivial) fun _ => trivial
  refine ((pooled_onExecutor (silent_single rfl)).mono hP).bind fun this => uses_then (hP _ trivial) fun option => ?_
  split
  · exact pooled_crashed.mono hP
  · refine uses_then (hpush _) fun kept => ?_
    cases kept
    · exact hrest
    · trivial

theorem pooled_reclaim : (reclaim p e none).Uses Pooled := uses_reclaim (fun _ ho => ho) fun _ => trivial

theorem pooled_closeAll : ∀ es : List ExecId, (closeAll es).Uses Pooled
  | [] => trivial
  | _ :: es => (pooled_onExecutor silent_close).bind fun _ => pooled_closeAll es

theorem pooled_releaseAll : ∀ es : List ExecId, (releaseAll es).Uses Pooled
  | [] => trivial
  | _ :: es => uses_then trivial fun _ => pooled_releaseAll es

theorem pooled_stopShards : ∀ ks : List ℕ, (stopShards p ks).Uses Pooled
  | [] => trivial
  | _ :: ks => uses_then trivial fun es => (pooled_closeAll es).bind fun _ => (pooled_releaseAll es).bind fun _ =>
      pooled_stopShards ks

theorem pooled_destroyShards : ∀ ks : List ℕ, (destroyShards p ks).Uses Pooled
  | [] => trivial
  | _ :: ks => uses_then trivial fun es => (pooled_releaseAll es).bind fun _ => pooled_destroyShards ks

theorem pooled_stop : (MysqlExecutorPool.stop p).Uses Pooled := uses_then trivial fun _ => pooled_stopShards _

theorem pooled_destroy : (MysqlExecutorPool.destroy p).Uses Pooled := uses_then trivial fun _ => pooled_destroyShards _

theorem still_handleAlive : (handleAlive h).Uses Still := by
  refine uses_then ⟨trivial, rfl⟩ fun r => ?_
  cases r with
  | none => exact pooled_still pooled_crashed
  | some e =>
    exact pooled_still ((pooled_onExecutor silent_checkAlive).bind fun _ => uses_then trivial fun _ => trivial)

theorem still_endTransaction (rollback : Bool) : (endTransaction h rollback).Uses Still := by
  refine uses_then ⟨trivial, rfl⟩ fun _ => uses_then ⟨trivial, rfl⟩ fun r => ?_
  cases r with
  | none => trivial
  | some e =>
    exact (pooled_still (pooled_onExecutor (silent_single rfl))).bind fun this =>
      (pooled_still (pooled_get _)).bind fun p => (uses_reclaim (fun _ ho => ho.still) fun _ => ⟨trivial, rfl⟩).bind
        fun _ => pooled_still (uses_wop trivial)

end Programs

end TrpcMysql
