import TrpcMysql.Proxy.Proxy

/-!
# How a call handles an executor

Read off the programs alone, for every reply. A call uses an executor only after it got it
from a pool, made it, or read it from a handle, and what it got from a pool or made it gives
back on every path: into the pool, into a handle, or by releasing it. `Grip` is what the
call has in hand, and `Disc` says that a program keeps to this.

* `Call.disc`: every call but `Stop` and `Destroy` keeps to it;
* `Disc.willUse`: a program that comes to use an executor holds it already;
* `Disc.owes`: a program that owes an executor gives it back on every path.
-/

namespace TrpcMysql

open Conc

/-- What a call has in hand: the executor it may use, and the one it owes back. -/
structure Grip where
  held : Option ExecId := none
  mine : Option ExecId := none
  deriving DecidableEq

namespace Grip

/-- A grip on an executor of the call's own. -/
def own (e : ExecId) : Grip := ⟨some e, some e⟩

/-- What an operation and its reply make of the grip. -/
def after (t : Grip) : (o : WorldOp) → o.Reply → Grip
  | .popBack .., some e => own e
  | .newExecutor _, e => own e
  | .getExecutor _, r => { t with held := r }
  | .pushBack .., true => {}
  | .newHandle _, _ => {}
  | .release e, _ => ⟨none, if t.mine = some e then none else t.mine⟩
  | _, _ => t

/-- The operation goes with the grip. -/
def Allows (t : Grip) : WorldOp → Prop
  | .client e _ => t.held = some e
  | .popBack .. | .newExecutor _ => t.mine = none
  | .pushBack _ _ e from? => if from?.isNone then t.mine = some e else t.mine = none
  | .newHandle e => t.mine = some e
  | .copyShard .. | .swapShard .. => False
  | _ => True

end Grip

/-- Every operation of the program goes with the grip, on every path, and `Q` holds of the
grip and the result at the end. -/
def Disc {α : Type} : Grip → WProg α → (Grip → α → Prop) → Prop
  | t, .ret x, Q => Q t x
  | t, .act o k, Q => t.Allows o ∧ ∀ r, Disc (t.after o r) (k r) Q

namespace Disc

variable {α β : Type} {t : Grip} {Q : Grip → β → Prop}

theorem mono {p : WProg α} {Q Q' : Grip → α → Prop} (hQ : ∀ t x, Q t x → Q' t x) :
    ∀ {t}, Disc t p Q → Disc t p Q' := by
  induction p with
  | ret x => intro t h; exact hQ t x h
  | act o k ih => intro t h; exact ⟨h.1, fun r => ih r (h.2 r)⟩

theorem bind {p : WProg α} {f : α → WProg β} {R : Grip → α → Prop} (h : Disc t p R)
    (hf : ∀ t x, R t x → Disc t (f x) Q) : Disc t (p >>= f) Q := by
  induction p generalizing t with
  | ret x => exact hf t x h
  | act o k ih => exact ⟨h.1, fun r => ih r (h.2 r)⟩

/-- One operation. -/
theorem op {o : WorldOp} {f : o.Reply → WProg β} (ho : t.Allows o) (h : ∀ r, Disc (t.after o r) (f r) Q) :
    Disc t (wop o >>= f) Q := ⟨ho, h⟩

/-- A program of the executor in hand leaves the grip as it is. -/
theorem onExecutor {e : ExecId} {p : XProg α} {f : α → WProg β} (he : t.held = some e)
    (hf : ∀ x, Disc t (f x) Q) : Disc t (TrpcMysql.onExecutor e p >>= f) Q := by
  induction p with
  | ret x => exact hf x
  | act o k ih => exact ⟨he, fun r => ih r⟩

theorem crashed {Q : Grip → α → Prop} : Disc t (crashed : WProg α) Q :=
  ⟨trivial, fun r => r.elim⟩

end Disc

/-! ## Pools -/

namespace MysqlExecutorPool

variable {t : Grip} {p : PoolId} {e : ExecId}

theorem isIdleTimeout_disc (h : t.held = some e) : Disc t (isIdleTimeout p e) (fun t' _ => t' = t) := by
  refine .op trivial fun option => ?_
  split
  · exact rfl
  · exact .onExecutor h fun _ => rfl

theorem createExecutor_disc (h : t.mine = none) (k : ℕ) :
    Disc t (createExecutor p k) (fun t' e => t' = .own e) :=
  .op trivial fun _ => .op trivial fun _ => .op trivial fun _ => .op h fun _ =>
    .onExecutor rfl fun _ => .onExecutor rfl fun _ => rfl

theorem connectNew_disc (h : t.mine = none) (k : ℕ) : Disc t (connectNew p k) (fun t' e => t' = .own e) := by
  refine (createExecutor_disc h k).bind fun t' e ht => ?_
  subst ht
  refine .onExecutor rfl fun connected => ?_
  cases connected
  · exact rfl
  · exact .op trivial fun _ => .op trivial fun _ => rfl

theorem popAlive_disc (k : ℕ) : ∀ (n : ℕ) {t : Grip}, t.mine = none →
    Disc t (popAlive p k n) (fun t' r => match r with | none => t'.mine = none | some e => t' = .own e) := by
  intro n
  induction n with
  | zero => intro t h; exact h
  | succ n ih =>
    intro t h
    refine .op h fun r => ?_
    cases r with
    | none => exact h
    | some e =>
      -- an executor that is not used is closed and released
      have hdrop : Disc (.own e) (do
          onExecutor e MysqlExecutor.close
          wop (.noteDiscarded p)
          wop (.release e)
          popAlive p k n) (fun t' r => match r with | none => t'.mine = none | some e => t' = .own e) :=
        .onExecutor rfl fun _ => .op trivial fun _ => .op trivial fun _ => ih (by simp [Grip.after, Grip.own])
      refine .onExecutor rfl fun alive => ?_
      cases alive
      · exact hdrop
      · refine (isIdleTimeout_disc (t := .own e) rfl).bind fun t' idle ht => ?_
        subst ht
        cases idle
        · exact rfl
        · exact hdrop

theorem getExecutor_disc (h : t.mine = none) : Disc t (getExecutor p) (fun t' e => t' = .own e) := by
  refine .op trivial fun k => .op trivial fun option => ?_
  split
  · exact .crashed
  · refine (popAlive_disc _ _ h).bind fun t' r ht => ?_
    cases r with
    | none => exact connectNew_disc ht k
    | some e => exact ht

/-- An executor of the call's own goes back, or stays with the call. -/
theorem reclaim_disc : Disc (.own e) (reclaim p e none)
    (fun t' moved => t' = if moved then {} else .own e) := by
  refine .onExecutor rfl fun this => .op trivial fun option => ?_
  dsimp only
  split
  · exact .crashed
  · refine .op rfl fun moved => ?_
    cases moved
    · exact .op trivial fun _ => .onExecutor rfl fun _ => .op trivial fun _ => rfl
    · exact rfl

/-- The executor of a handle. -/
theorem reclaim_handle_disc (h : t.held = some e) (hm : t.mine = none) {hd : HandleId} :
    Disc t (reclaim p e (some hd)) (fun t' _ => t'.mine = none) := by
  refine .onExecutor h fun this => .op trivial fun option => ?_
  dsimp only
  split
  · exact .crashed
  · refine .op hm fun moved => ?_
    cases moved
    · exact .op trivial fun _ => .onExecutor h fun _ => .op trivial fun _ => hm
    · exact rfl

end MysqlExecutorPool

theorem MysqlExecutorPoolManager.get_disc {t : Grip} (addr : NodeAddr) : Disc t (get addr) (fun t' _ => t' = t) := by
  refine .op trivial fun r => ?_
  cases r with
  | some p => exact rfl
  | none =>
    refine .op trivial fun option => ?_
    split
    · exact .crashed
    · exact ⟨trivial, fun _ => rfl⟩

/-! ## The proxy -/

namespace MysqlServiceProxy

open MysqlExecutorPool

variable {t : Grip} {e : ExecId} {x : CtxId} {r : MysqlResults} {sql : Sql} {args : List InputArg}
  {mode : MysqlResultsMode} {h : HandleId} {I : Grip → Prop}

theorem connectionFailed_disc (he : t.held = some e) :
    Disc t (connectionFailed x e) (fun t' _ => t' = t) :=
  .op trivial fun _ => .onExecutor he fun _ => .onExecutor he fun _ => .op trivial fun _ => rfl

theorem ownTask_disc (he : t.held = some e) : Disc t (ownTask x e r sql args) (fun t' _ => t' = t) := by
  refine .onExecutor he fun connected => ?_
  cases connected
  · exact (connectionFailed_disc he).bind fun t' _ ht => ht
  · exact .onExecutor he fun _ => rfl

theorem borrowTask_disc (hm : t.mine = none) : Disc t (borrowTask x r sql args) (fun t' _ => t'.mine = none) := by
  refine .op trivial fun addr => (MysqlExecutorPoolManager.get_disc addr).bind fun t' p ht => ?_
  subst ht
  refine (getExecutor_disc hm).bind fun t' e ht => ?_
  subst ht
  have hrel : Grip.mine ((Grip.own e).after (.release e) ()) = none := by simp [Grip.after, Grip.own]
  refine .onExecutor rfl fun connected => ?_
  cases connected
  · refine (connectionFailed_disc (t := .own e) rfl).bind fun t' _ ht => ?_
    subst ht
    exact .op trivial fun _ => hrel
  · refine .onExecutor rfl fun out => reclaim_disc.bind fun t' moved ht => ?_
    subst ht
    cases moved
    · exact .op trivial fun _ => hrel
    · exact rfl

/-- What the task keeps of the grip, the whole invocation keeps. -/
theorem unaryInvoke_disc {ex : Option ExecId} (hI : I t)
    (htask : Disc t (task x ex r sql args) (fun t' _ => I t')) :
    Disc t (unaryInvoke x ex r sql args) (fun t' _ => I t') := by
  refine .op trivial fun late => ?_
  split
  · exact hI
  refine .op trivial fun pass => ?_
  split
  · exact .op trivial fun _ => hI
  refine .op trivial fun _ => htask.bind fun t' out ht => ?_
  dsimp only
  split
  · exact .op trivial fun _ => .op trivial fun _ => ht
  · exact .op trivial fun _ => ht

theorem asyncUnaryInvoke_disc {ex : Option ExecId} (hI : I t)
    (htask : Disc t (task x ex { mode := mode } sql args) (fun t' _ => I t')) :
    Disc t (asyncUnaryInvoke x ex mode sql args) (fun t' _ => I t') := by
  refine .op trivial fun late => ?_
  split
  · exact .op trivial fun _ => hI
  refine .op trivial fun pass => ?_
  split
  · exact .op trivial fun _ => .op trivial fun _ => .op trivial fun _ => hI
  refine .op trivial fun _ => htask.bind fun t' out ht => .op trivial fun _ => ?_
  cases out with
  | error m => exact ht
  | ok r => dsimp only; split <;> exact ht

theorem unaryInvoke_own (he : t.held = some e) :
    Disc t (unaryInvoke x (some e) r sql args) (fun t' _ => t' = t) :=
  unaryInvoke_disc (I := fun t' => t' = t) rfl (ownTask_disc he)

theorem unaryInvoke_none (hm : t.mine = none) :
    Disc t (unaryInvoke x none r sql args) (fun t' _ => t'.mine = none) :=
  unaryInvoke_disc (I := fun t => t.mine = none) hm (borrowTask_disc hm)

theorem asyncUnaryInvoke_own (he : t.held = some e) :
    Disc t (asyncUnaryInvoke x (some e) mode sql args) (fun t' _ => t' = t) :=
  asyncUnaryInvoke_disc (I := fun t' => t' = t) rfl (ownTask_disc he)

theorem asyncUnaryInvoke_none (hm : t.mine = none) :
    Disc t (asyncUnaryInvoke x none mode sql args) (fun t' _ => t'.mine = none) :=
  asyncUnaryInvoke_disc (I := fun t => t.mine = none) hm (borrowTask_disc hm)

theorem rejected_disc {α : Type} (hI : I t) : Disc t (rejected x (α := α)) (fun t' _ => I t') :=
  .op trivial fun _ => .op trivial fun _ => hI

theorem query_disc (hm : t.mine = none) : Disc t (query x r sql args) (fun t' _ => t'.mine = none) := by
  refine .op trivial fun pass => ?_
  dsimp only
  split
  · exact (unaryInvoke_none hm).bind fun t' r ht =>
      .op trivial fun _ => .op trivial fun _ => ht
  · exact .op trivial fun _ => .op trivial fun _ => hm

theorem asyncQuery_disc (hm : t.mine = none) :
    Disc t (asyncQuery x mode sql args) (fun t' _ => t'.mine = none) := by
  refine .op trivial fun pass => ?_
  split
  · exact (rejected_disc (I := fun t => t.mine = none) hm).bind fun t' _ ht => ht
  · exact (asyncUnaryInvoke_none hm).bind fun t' out ht => .op trivial fun _ => ht

/-- The invocation of a call on a handle; it owes nothing. -/
theorem unaryInvoke_handle {ex : Option ExecId} (hm : t.mine = none) :
    Disc (t.after (.getExecutor h) ex) (unaryInvoke x ex r sql args) (fun t' _ => t'.mine = none) := by
  cases ex with
  | none => exact unaryInvoke_none hm
  | some e =>
    refine Disc.mono (fun t' _ ht => ?_) (unaryInvoke_own (t := t.after (.getExecutor h) (some e)) rfl)
    rw [ht]; exact hm

theorem asyncUnaryInvoke_handle {ex : Option ExecId} (hm : t.mine = none) :
    Disc (t.after (.getExecutor h) ex) (asyncUnaryInvoke x ex mode sql args) (fun t' _ => t'.mine = none) := by
  cases ex with
  | none => exact asyncUnaryInvoke_none hm
  | some e =>
    refine Disc.mono (fun t' _ ht => ?_) (asyncUnaryInvoke_own (t := t.after (.getExecutor h) (some e)) rfl)
    rw [ht]; exact hm

theorem release_mine (hm : t.mine = none) : (t.after (.release e) ()).mine = none := by simp [Grip.after, hm]

theorem handleAlive_disc (hm : t.mine = none) : Disc t (handleAlive h) (fun t' _ => t'.mine = none) := by
  refine .op trivial fun r => ?_
  cases r with
  | none => exact .crashed
  | some e => exact .onExecutor rfl fun alive => .op trivial fun _ => release_mine hm

theorem handleInvoke_disc (hm : t.mine = none) :
    Disc t (handleInvoke x h r sql args) (fun t' _ => t'.mine = none) := by
  refine .op trivial fun st => ?_
  split
  · exact .op trivial fun _ => hm
  refine (handleAlive_disc hm).bind fun t' alive ht => ?_
  cases alive
  · exact .op trivial fun _ => .op trivial fun _ => ht
  refine .op trivial fun ex => (unaryInvoke_handle ht).bind fun t' r ht' => ?_
  cases ex with
  | none => exact ht'
  | some e => exact .op trivial fun _ => release_mine ht'

theorem queryTx_disc (hm : t.mine = none) : Disc t (queryTx x h r sql args) (fun t' _ => t'.mine = none) := by
  refine .op trivial fun pass => ?_
  dsimp only
  split
  · exact (handleInvoke_disc hm).bind fun t' r ht => .op trivial fun _ => .op trivial fun _ => ht
  · exact .op trivial fun _ => .op trivial fun _ => hm

theorem asyncQueryTx_disc (hm : t.mine = none) :
    Disc t (asyncQueryTx x h mode sql args) (fun t' _ => t'.mine = none) := by
  refine .op trivial fun pass => ?_
  split
  · exact (rejected_disc (I := fun t => t.mine = none) hm).bind fun t' _ ht => ht
  refine .op trivial fun st => ?_
  split
  · exact .op trivial fun _ => .op trivial fun _ => hm
  refine (handleAlive_disc hm).bind fun t' alive ht => ?_
  cases alive
  · exact .op trivial fun _ => .op trivial fun _ => .op trivial fun _ => ht
  refine .op trivial fun ex => (asyncUnaryInvoke_handle ht).bind fun t' out ht' => ?_
  refine .op trivial fun _ => ?_
  cases ex with
  | none => exact ht'
  | some e => exact .op trivial fun _ => release_mine ht'

theorem beginAddr_disc : Disc t (beginAddr x) (fun t' _ => t' = t) := by
  refine .op trivial fun addr => ?_
  split
  · refine .op trivial fun found => ?_
    cases found with
    | error text => exact .op trivial fun _ => rfl
    | ok addr => exact rfl
  · exact rfl

theorem beginOn_disc : Disc (.own e) (beginOn x e) (fun t' _ => t'.mine = none) := by
  have hrel : Grip.mine ((Grip.own e).after (.release e) ()) = none := by simp [Grip.after, Grip.own]
  -- once the handle is there the call owes nothing
  have hend : ∀ {t : Grip} (hd : Option HandleId), t = (if hd.isSome then {} else .own e) → Disc t (do
      let _ ← wop (.runFilters .postRpcInvoke x)
      let s ← wop (.getStatus x)
      if hd.isNone then wop (.release e)
      return (s, hd)) (fun t' _ => t'.mine = none) := by
    intro t hd ht
    subst ht
    refine .op trivial fun _ => .op trivial fun _ => ?_
    cases hd with
    | none => exact .op trivial fun _ => hrel
    | some hd => exact rfl
  have hhandle : Disc (.own e) (do
      let handle ← if (← wop (.getStatus x)).ok then
          pure (some (← wop (.newHandle e)))
        else pure none
      let _ ← wop (.runFilters .postRpcInvoke x)
      let s ← wop (.getStatus x)
      if handle.isNone then wop (.release e)
      return (s, handle)) (fun t' _ => t'.mine = none) := by
    refine .op trivial fun s => ?_
    dsimp only
    split
    · exact .op rfl fun hd => hend (some hd) rfl
    · exact hend none rfl
  refine .onExecutor rfl fun connected => ?_
  cases connected
  · exact (connectionFailed_disc (t := .own e) rfl).bind fun t' _ ht => by subst ht; exact hhandle
  · exact (unaryInvoke_own (t := .own e) rfl).bind
      fun t' _ ht => by subst ht; exact hhandle

theorem begin_disc (hm : t.mine = none) : Disc t (begin x) (fun t' _ => t'.mine = none) := by
  refine .op trivial fun pass => ?_
  split
  · exact .op trivial fun _ => .op trivial fun _ => hm
  refine beginAddr_disc.bind fun t' addr ht => ?_
  subst ht
  cases addr with
  | error text => exact .op trivial fun _ => hm
  | ok addr =>
    refine (MysqlExecutorPoolManager.get_disc addr).bind fun t' p ht => ?_
    subst ht
    exact (getExecutor_disc hm).bind fun t' e ht => by subst ht; exact beginOn_disc

theorem asyncBeginOn_disc : Disc (.own e) (asyncBeginOn x e) (fun t' _ => t'.mine = none) := by
  have hrel : Grip.mine ((Grip.own e).after (.release e) ()) = none := by simp [Grip.after, Grip.own]
  refine .onExecutor rfl fun connected => ?_
  cases connected
  · refine (connectionFailed_disc (t := .own e) rfl).bind fun t' _ ht => ?_
    subst ht
    exact .op trivial fun _ => hrel
  refine (asyncUnaryInvoke_own (t := .own e) rfl).bind fun t' out ht => ?_
  subst ht
  cases out with
  | error m => exact .op trivial fun _ => hrel
  | ok r => exact .op rfl fun _ => rfl

theorem asyncBegin_disc (hm : t.mine = none) : Disc t (asyncBegin x) (fun t' _ => t'.mine = none) := by
  refine .op trivial fun pass => ?_
  split
  · exact (rejected_disc (I := fun t => t.mine = none) hm).bind fun t' _ ht => ht
  refine beginAddr_disc.bind fun t' addr ht => ?_
  subst ht
  cases addr with
  | error text => exact hm
  | ok addr =>
    refine (MysqlExecutorPoolManager.get_disc addr).bind fun t' p ht => ?_
    subst ht
    exact (getExecutor_disc hm).bind fun t' e ht => by subst ht; exact asyncBeginOn_disc

theorem endTransaction_disc (hm : t.mine = none) {rb : Bool} :
    Disc t (endTransaction h rb) (fun t' _ => t'.mine = none) := by
  refine .op trivial fun _ => .op trivial fun ex => ?_
  cases ex with
  | none => exact hm
  | some e =>
    refine .onExecutor rfl fun this => (MysqlExecutorPoolManager.get_disc _).bind fun t' p ht => ?_
    subst ht
    refine (reclaim_handle_disc (t := t.after (.getExecutor h) (some e)) rfl hm).bind fun t' _ ht => ?_
    exact .op trivial fun _ => release_mine ht

theorem finish_disc (hm : t.mine = none) {rb : Bool} : Disc t (finish x h rb) (fun t' _ => t'.mine = none) := by
  refine (queryTx_disc hm).bind fun t' out ht => ?_
  dsimp only
  split
  · exact .op trivial fun _ => .op trivial fun _ => ht
  · exact (endTransaction_disc ht).bind fun t' _ ht => .op trivial fun _ => ht

theorem asyncCommit_disc (hm : t.mine = none) : Disc t (asyncCommit x h) (fun t' _ => t'.mine = none) := by
  refine (asyncQueryTx_disc hm).bind fun t' out ht => ?_
  cases out with
  | error m => exact ht
  | ok r => exact (endTransaction_disc ht).bind fun t' _ ht => ht

theorem asyncRollback_disc (hm : t.mine = none) : Disc t (asyncRollback x h) (fun t' _ => t'.mine = none) := by
  refine (asyncQueryTx_disc hm).bind fun t' out ht => ?_
  cases out with
  | error m => exact .crashed
  | ok r => exact (endTransaction_disc ht).bind fun t' _ ht => ht

theorem dropHandle_disc (hm : t.mine = none) : Disc t (dropHandle h) (fun t' _ => t'.mine = none) := by
  refine .op trivial fun r => ?_
  cases r with
  | none => exact ⟨trivial, fun _ => hm⟩
  | some e => exact .onExecutor rfl fun _ => .op trivial fun _ => ⟨trivial, fun _ => release_mine hm⟩

end MysqlServiceProxy

namespace Call

open MysqlServiceProxy

/-- The calls that empty or stop a pool. -/
def shutdown : Call → Bool
  | stop _ | destroy _ => true
  | _ => false

/-- **Every call keeps to the discipline, but `Stop` and `Destroy`.** -/
theorem disc : ∀ {c : Call}, c.shutdown = false → Disc {} c.prog (fun t _ => t.mine = none)
  | .query .., _ => (query_disc rfl).bind fun _ _ ht => ht
  | .asyncQuery .., _ => (asyncQuery_disc rfl).bind fun _ _ ht => ht
  | .queryTx .., _ => (queryTx_disc rfl).bind fun _ _ ht => ht
  | .asyncQueryTx .., _ => (asyncQueryTx_disc rfl).bind fun _ _ ht => ht
  | .begin _, _ => (begin_disc rfl).bind fun _ _ ht => ht
  | .asyncBegin _, _ => (asyncBegin_disc rfl).bind fun _ _ ht => ht
  | .finish _ _ false, _ => (finish_disc rfl).bind fun _ _ ht => ht
  | .finish _ _ true, _ => (finish_disc rfl).bind fun _ _ ht => ht
  | .asyncFinish _ _ false, _ => (asyncCommit_disc rfl).bind fun _ _ ht => ht
  | .asyncFinish _ _ true, _ => (asyncRollback_disc rfl).bind fun _ _ ht => ht
  | .moveHandle _, _ => ⟨trivial, fun _ => rfl⟩
  | .dropHandle _, _ => (dropHandle_disc rfl).bind fun _ _ ht => ht

end Call

/-! ## What the discipline says of what is left of a call -/

/-- The operation uses the executor. -/
def WorldOp.UsesExec (e : ExecId) : WorldOp → Prop
  | client e' _ => e' = e
  | _ => False

/-- The operation, with this reply, hands the executor to the call. -/
def WorldOp.Acquires (e : ExecId) : (o : WorldOp) → o.Reply → Prop
  | popBack .., r => r = some e
  | newExecutor _, r => r = e
  | getExecutor _, r => r = some e
  | _, _ => False

/-- The operation, with this reply, gives the executor back. -/
def WorldOp.Settles (e : ExecId) : (o : WorldOp) → o.Reply → Prop
  | pushBack _ _ e' none, r => e' = e ∧ r = true
  | newHandle e', _ => e' = e
  | release e', _ => e' = e
  | _, _ => False

/-- The program still uses the executor, without getting it anew before. -/
def WillUse {α : Type} (e : ExecId) (p : WProg α) : Prop :=
  p.Reaches (WorldOp.UsesExec e) fun o r => ¬ o.Acquires e r

/-- The program gives the executor back, on every path. -/
def Owes {α : Type} (e : ExecId) : WProg α → Prop
  | .ret _ => False
  | .act o k => ∀ r, o.Settles e r ∨ Owes e (k r)

namespace Disc

variable {α : Type} {t : Grip} {p : WProg α} {Q : Grip → α → Prop} {e : ExecId}

/-- **A program that comes to use an executor holds it already.** -/
theorem willUse (h : Disc t p Q) (hp : WillUse e p) : t.held = some e := by
  induction hp generalizing t with
  | @here o k ho =>
    cases o <;> simp only [WorldOp.UsesExec] at ho
    subst ho
    exact h.1
  | @later o k r hr _ ih =>
    have ht := ih (h.2 r)
    -- what did not hand the executor over was preceded by holding it
    cases o <;> simp only [Grip.after, WorldOp.Acquires] at ht hr <;>
      first | exact ht | skip
    case pushBack => cases r <;> simp_all
    case popBack =>
      cases r <;> simp_all [Grip.own]
    case newExecutor => simp_all [Grip.own]
    case newHandle => cases ht
    case release => cases ht
    case getExecutor => exact absurd ht hr

omit p Q in
/-- An executor that the call owes is given back, or the call still owes it. -/
theorem mine_after {o : WorldOp} (ho : t.Allows o) (he : t.mine = some e) (r : o.Reply) :
    o.Settles e r ∨ (t.after o r).mine = some e := by
  cases o
  case popBack => exact absurd (he.symm.trans ho) (by simp)
  case newExecutor => exact absurd (he.symm.trans ho) (by simp)
  case newHandle e' => exact .inl (Option.some.inj (ho.symm.trans he))
  case pushBack p k e' from? =>
    cases r with
    | false => exact .inr he
    | true =>
      cases from? with
      | none => exact .inl ⟨Option.some.inj (ho.symm.trans he), rfl⟩
      | some h => exact absurd (he.symm.trans ho) (by simp)
  case release e' =>
    by_cases hee : e' = e
    · exact .inl hee
    · refine .inr ?_
      simp only [Grip.after, he, Option.some.injEq]
      rw [if_neg (fun h => hee h.symm)]
  all_goals exact .inr he

/-- **A program that owes an executor gives it back.** -/
theorem owes (h : Disc t p fun t' _ => t'.mine = none) (he : t.mine = some e) : Owes e p := by
  induction p generalizing t with
  | ret x => exact absurd (h.symm.trans he) (by simp)
  | act o k ih => exact fun r => (mine_after h.1 he r).imp id fun hr => ih r (h.2 r) hr

end Disc

end TrpcMysql
