import TrpcMysql.Proxy.Aside
import TrpcMysql.Proxy.Runs

/-!
# What a call may do

A call reads and writes the context that it is made with and the handle that it is made on, and no other. It never
makes a handle started, and it takes the executor out of a handle only when it has ended the transaction. It makes no
pool without shards. And it sends one statement at most, its own, as it is or formatted: a lost connection is made anew
in the middle of a call, and pings, retries and fetches go on in loops, but nothing is sent a second time.

`Call.rule` says this as a typestate. `Call.obeys`: every call keeps to it, on every path, whatever is lost, refused
and rejected.
-/

namespace TrpcMysql

open Function Conc MysqlExecutor MysqlExecutorPool MysqlServiceProxy

/-! ## The rule -/

/-- What a call has done so far; `ended` tells that it gave its handle another state. -/
structure Doing where
  sent : Bool := false
  ended : Bool := false
  opened : ExecId → List StmtPtr := fun _ => []

namespace Doing

variable {d : Doing} {e : ExecId} {x y : Sending}

/-- What the call has done on executor `e`. -/
def sending (d : Doing) (e : ExecId) : Sending := ⟨d.sent, d.opened e⟩

def setSending (d : Doing) (e : ExecId) (x : Sending) : Doing :=
  { d with sent := x.sent, opened := update d.opened e x.opened }

@[simp] theorem sending_set : (d.setSending e x).sending e = x := by simp [sending, setSending]

@[simp] theorem set_sending : d.setSending e (d.sending e) = d := by simp [sending, setSending]

@[simp] theorem set_set : (d.setSending e x).setSending e y = d.setSending e y := by simp [setSending]

end Doing

/-- The steps that a call may take. -/
def Call.rule (c : Call) : Typestate WorldOp WorldOp.Reply Doing where
  allows d
    | .client e o => (sendsOnce c.sends).allows (d.sending e) o
    | .getStatus x | .setStatus x _ | .getNodeAddr x | .runFilters _ x | .checkTimeout x => c.ctx = some x
    | .getState h | .getExecutor h | .moveHandle h | .endHandle h => c.handle = some h
    | .setState h st => c.handle = some h ∧ st ≠ .kStarted
    | .pushBack _ _ _ from? => ∀ h, from? = some h → c.handle = some h ∧ d.ended = true
    | .poolsGetOrInsert _ pool => pool.option.numShardGroup ≠ 0
    | _ => True
  after d
    | .client e o, r => d.setSending e ((sendsOnce c.sends).after (d.sending e) o r)
    | .setState .., _ => { d with ended := true }
    | _, _ => d

/-- The call is one that sends the statement, into results of the mode. -/
abbrev Call.Runs (c : Call) (mode : MysqlResultsMode) (sql : Sql) (args : List InputArg) : Prop :=
  ∀ sent, Sql.Sent mode sql args sent → c.sends sent

/-- The program keeps to the rule, after what the call has done. -/
abbrev KeepsTo {α : Type} (c : Call) (d : Doing) (p : WProg α) : Prop := p.Obeys c.rule d fun _ _ => True

/-- The context that the step reads or writes. -/
def WorldOp.ctx? : WorldOp → Option CtxId
  | getStatus x | setStatus x _ | getNodeAddr x | runFilters _ x | checkTimeout x => some x
  | _ => none

section Functions

variable {α β : Type} {c : Call} {d : Doing} {x : CtxId} {e : ExecId} {h : HandleId} {r : MysqlResults}
  {mode : MysqlResultsMode} {sql : Sql} {args : List InputArg}

theorem idle_pooled {o : WorldOp} (ho : Pooled o) : c.rule.Idle d o := by
  cases o with
  | client e o =>
    refine ⟨(idle_silent ho).1, fun r => ?_⟩
    simp only [Call.rule, (idle_silent ho).2, Doing.set_sending]
  | pushBack p k e from? =>
    cases from? with
    | none => exact ⟨fun _ hf => (by cases hf), fun _ => rfl⟩
    | some h => exact ho.elim
  | _ => first | exact ⟨ho, fun _ => rfl⟩ | exact ho.elim

theorem idle_ctx {o : WorldOp} (hx : c.ctx = some x) (ho : o.ctx? = some x) : c.rule.Idle d o := by
  cases o <;> simp only [WorldOp.ctx?, reduceCtorEq, Option.some.injEq] at ho <;> subst ho <;>
    exact ⟨hx, fun _ => rfl⟩

theorem keeps_idle {p : WProg α} (hp : p.Uses (c.rule.Idle d)) : KeepsTo c d p := hp.idle.mono fun _ _ _ => trivial

theorem keeps_op {o : WorldOp} {f : o.Reply → WProg β} (ho : c.rule.allows d o)
    (hf : ∀ r, KeepsTo c (c.rule.after d o r) (f r)) : KeepsTo c d (wop o >>= f) := ⟨ho, hf⟩

theorem idle_of_pooled {p : WProg α} (hp : p.Uses Pooled) : p.Uses (c.rule.Idle d) := hp.mono fun _ ho => idle_pooled ho

theorem keeps_pooled {p : WProg α} {f : α → WProg β} (hp : p.Uses Pooled) (hf : ∀ x, KeepsTo c d (f x)) :
    KeepsTo c d (p >>= f) := (idle_of_pooled hp).idle_bind hf

/-- **The statement is sent once at most.** -/
theorem keeps_runStatement (hs : c.Runs r.mode sql args) (hd : d.sent = false) :
    KeepsTo c d (onExecutor e (MysqlExecutor.runStatement r sql args)) := by
  have hrun : (MysqlExecutor.runStatement r sql args).Obeys (sendsOnce c.sends) (d.sending e) fun _ _ => True :=
    runStatement_obeys hs hd
  have hup := hrun.lift (T := c.rule) (g := WorldOp.client e) (h := fun _ r => r) (u := d.setSending e)
    (fun s o ho => by simpa [Call.rule] using ho) (fun s o r => by simp [Call.rule])
  rw [Doing.set_sending] at hup
  exact hup.mono fun _ _ _ => trivial

/-! ## With a context -/

section Context

variable (hx : c.ctx = some x)
include hx

theorem idle_connectionFailed : (connectionFailed x e).Uses (c.rule.Idle d) :=
  uses_then (idle_pooled trivial) fun _ => (idle_of_pooled (pooled_onExecutor silent_getErrorMessage)).bind fun _ =>
    (idle_of_pooled (pooled_onExecutor silent_getErrorNumber)).bind fun _ =>
      uses_then (idle_ctx hx rfl) fun _ => trivial

theorem idle_rejected : (rejected x : WProg (Future α)).Uses (c.rule.Idle d) :=
  uses_then (idle_ctx hx rfl) fun _ => uses_then (idle_ctx hx rfl) fun _ => trivial

theorem idle_beginAddr : (beginAddr x).Uses (c.rule.Idle d) := by
  refine uses_then (idle_ctx hx rfl) fun addr => ?_
  split
  · refine uses_then ⟨trivial, fun _ => rfl⟩ fun target => ?_
    cases target with
    | error text => exact uses_then (idle_ctx hx rfl) fun _ => trivial
    | ok addr => trivial
  · trivial

section Statement

variable (hs : c.Runs r.mode sql args) (hd : d.sent = false)
include hs hd

theorem keeps_task (executor : Option ExecId) : KeepsTo c d (task x executor r sql args) := by
  cases executor with
  | none =>
    refine keeps_op hx fun addr => keeps_pooled (pooled_get addr) fun p =>
      keeps_pooled pooled_getExecutor fun conn => keeps_pooled pooled_isConnected fun connected => ?_
    cases connected
    · exact keeps_idle ((idle_connectionFailed hx).bind fun _ => uses_then (idle_pooled trivial) fun _ => trivial)
    · refine (keeps_runStatement hs hd).bind fun d' out _ => keeps_pooled pooled_reclaim fun kept => ?_
      cases kept
      · exact keeps_op trivial fun _ => trivial
      · trivial
  | some e =>
    refine keeps_pooled pooled_isConnected fun connected => ?_
    cases connected
    · exact keeps_idle ((idle_connectionFailed hx).bind fun _ => trivial)
    · refine (keeps_runStatement hs hd).bind fun d' out _ => ?_
      trivial

theorem keeps_unaryInvoke (executor : Option ExecId) : KeepsTo c d (unaryInvoke x executor r sql args) := by
  refine keeps_op hx fun timedOut => ?_
  cases timedOut
  · refine keeps_op hx fun pass => ?_
    cases pass
    · exact keeps_op hx fun _ => trivial
    · refine keeps_op trivial fun _ => (keeps_task hx hs hd executor).bind fun d' out _ => ?_
      dsimp only
      split
      · exact keeps_op hx fun _ => keeps_op hx fun _ => trivial
      · exact keeps_op hx fun _ => trivial
  · trivial

theorem keeps_query : KeepsTo c d (query x r sql args) := by
  have hend : ∀ (d : Doing) (r : MysqlResults), KeepsTo c d (wop (.runFilters .postRpcInvoke x) >>= fun _ =>
      wop (.getStatus x) >>= fun s => (return (s, r) : WProg (Status × MysqlResults))) := fun d r =>
    keeps_op hx fun _ => keeps_op hx fun _ => trivial
  refine keeps_op hx fun pass => ?_
  cases pass
  · exact hend d r
  · exact (keeps_unaryInvoke hx hs hd none).bind fun d' r _ => hend d' r

end Statement

section AsyncStatement

variable (hs : c.Runs mode sql args) (hd : d.sent = false)
include hs hd

theorem keeps_asyncUnaryInvoke (executor : Option ExecId) :
    KeepsTo c d (asyncUnaryInvoke x executor mode sql args) := by
  refine keeps_op hx fun timedOut => ?_
  cases timedOut
  · refine keeps_op hx fun pass => ?_
    cases pass
    · exact keeps_op hx fun _ => keeps_op hx fun _ => keeps_op hx fun _ => trivial
    · refine keeps_op trivial fun _ => (keeps_task (r := { mode := mode }) hx hs hd executor).bind fun d' out _ => ?_
      refine keeps_op hx fun _ => ?_
      cases out with
      | error message => trivial
      | ok r =>
        dsimp only
        split <;> trivial
  · exact keeps_op hx fun _ => trivial

theorem keeps_asyncQuery : KeepsTo c d (asyncQuery x mode sql args) := by
  refine keeps_op hx fun pass => ?_
  cases pass
  · exact keeps_idle (idle_rejected hx)
  · refine (keeps_asyncUnaryInvoke hx hs hd none).bind fun d' out _ => ?_
    exact keeps_op hx fun _ => trivial

end AsyncStatement

section Begin

variable (hs : c.Runs .onlyExec .begin []) (hd : d.sent = false)
include hs hd

theorem keeps_beginOn : KeepsTo c d (beginOn x e) := by
  -- the handle is made, or the executor is given up, after the statement
  have hlast : ∀ (d : Doing) (handle : Option HandleId), (do
      let _ ← wop (.runFilters .postRpcInvoke x)
      let s ← wop (.getStatus x)
      if handle.isNone then wop (.release e)
      return (s, handle) : WProg (Status × Option HandleId)).Uses (c.rule.Idle d) := by
    refine fun d handle => uses_then (idle_ctx hx rfl) fun _ => uses_then (idle_ctx hx rfl) fun s => ?_
    cases handle with
    | none => exact uses_then (idle_pooled trivial) fun _ => trivial
    | some h => trivial
  have hend : ∀ d : Doing, (do
      let handle ← if (← wop (.getStatus x)).ok then pure (some (← wop (.newHandle e))) else pure none
      let _ ← wop (.runFilters .postRpcInvoke x)
      let s ← wop (.getStatus x)
      if handle.isNone then wop (.release e)
      return (s, handle) : WProg (Status × Option HandleId)).Uses (c.rule.Idle d) := by
    refine fun d => uses_then (idle_ctx hx rfl) fun s => ?_
    dsimp only
    split
    · exact uses_then ⟨trivial, fun _ => rfl⟩ fun h => hlast d (some h)
    · exact hlast d none
  refine keeps_pooled pooled_isConnected fun connected => ?_
  cases connected
  · exact keeps_idle ((idle_connectionFailed hx).bind fun _ => hend d)
  · exact (keeps_unaryInvoke hx hs hd (some e)).bind fun d' r _ => keeps_idle (hend d')

theorem keeps_begin : KeepsTo c d (begin x) := by
  refine keeps_op hx fun pass => ?_
  cases pass
  · exact keeps_op hx fun _ => keeps_op hx fun _ => trivial
  refine (idle_beginAddr hx).idle_bind fun addr => ?_
  cases addr with
  | error text => exact keeps_op hx fun _ => trivial
  | ok addr =>
    exact keeps_pooled (pooled_get addr) fun p => keeps_pooled pooled_getExecutor fun e => keeps_beginOn hx hs hd

theorem keeps_asyncBeginOn : KeepsTo c d (asyncBeginOn x e) := by
  refine keeps_pooled pooled_isConnected fun connected => ?_
  cases connected
  · exact keeps_idle ((idle_connectionFailed hx).bind fun _ => uses_then (idle_pooled trivial) fun _ => trivial)
  refine (keeps_asyncUnaryInvoke hx hs hd (some e)).bind fun d' out _ => ?_
  cases out with
  | error message => exact keeps_op trivial fun _ => trivial
  | ok r => exact keeps_op trivial fun _ => trivial

theorem keeps_asyncBegin : KeepsTo c d (asyncBegin x) := by
  refine keeps_op hx fun pass => ?_
  cases pass
  · exact keeps_idle (idle_rejected hx)
  refine (idle_beginAddr hx).idle_bind fun addr => ?_
  cases addr with
  | error text => exact trivial
  | ok addr =>
    exact keeps_pooled (pooled_get addr) fun p => keeps_pooled pooled_getExecutor fun e => keeps_asyncBeginOn hx hs hd

end Begin

end Context

/-! ## On a handle -/

section Handle

variable (hh : c.handle = some h)
include hh

theorem idle_getExecutor : c.rule.Idle d (.getExecutor h) := ⟨hh, fun _ => rfl⟩

theorem idle_handleAlive : (handleAlive h).Uses (c.rule.Idle d) := by
  refine uses_then (idle_getExecutor hh) fun executor => ?_
  cases executor with
  | none => exact idle_of_pooled pooled_crashed
  | some e =>
    exact (idle_of_pooled (pooled_onExecutor silent_checkAlive)).bind fun _ =>
      uses_then (idle_pooled trivial) fun _ => trivial

theorem keeps_dropHandle : KeepsTo c d (dropHandle h) := by
  refine keeps_op hh fun executor => ?_
  cases executor with
  | none => exact keeps_op hh fun _ => trivial
  | some e =>
    exact keeps_pooled (pooled_onExecutor silent_close) fun _ => keeps_op trivial fun _ => keeps_op hh fun _ => trivial

/-- The state is set before the executor leaves the handle. -/
theorem keeps_endTransaction (rollback : Bool) : KeepsTo c d (endTransaction h rollback) := by
  refine keeps_op ⟨hh, by cases rollback <;> decide⟩ fun _ => keeps_op hh fun executor => ?_
  cases executor with
  | none => trivial
  | some e =>
    refine keeps_pooled (pooled_onExecutor (silent_single rfl)) fun this => keeps_pooled (pooled_get _) fun p => ?_
    have hpush : ∀ k, c.rule.Idle { d with ended := true } (.pushBack p k e (some h)) := fun _ =>
      ⟨fun h' hf => ⟨by rw [hh, hf], rfl⟩, fun _ => rfl⟩
    exact (uses_reclaim (fun _ ho => idle_pooled ho) hpush).idle_bind fun _ => keeps_op trivial fun _ => trivial

section Statement

variable (hx : c.ctx = some x) (hd : d.sent = false)
include hx hd

theorem keeps_handleInvoke (hs : c.Runs r.mode sql args) : KeepsTo c d (handleInvoke x h r sql args) := by
  refine keeps_op hh fun st => ?_
  split
  · exact keeps_op hx fun _ => trivial
  refine (idle_handleAlive hh).idle_bind fun alive => ?_
  cases alive
  · exact keeps_op ⟨hh, by decide⟩ fun _ => keeps_op hx fun _ => trivial
  refine keeps_op hh fun executor => (keeps_unaryInvoke hx hs hd executor).bind fun d' r _ => ?_
  cases executor with
  | none => trivial
  | some e => exact keeps_op trivial fun _ => trivial

theorem keeps_queryTx (hs : c.Runs r.mode sql args) : KeepsTo c d (queryTx x h r sql args) := by
  have hend : ∀ (d : Doing) (r : MysqlResults), KeepsTo c d (wop (.runFilters .postRpcInvoke x) >>= fun _ =>
      wop (.getStatus x) >>= fun s => (return (s, r) : WProg (Status × MysqlResults))) := fun d r =>
    keeps_op hx fun _ => keeps_op hx fun _ => trivial
  refine keeps_op hx fun pass => ?_
  cases pass
  · exact hend d r
  · exact (keeps_handleInvoke hh hx hd hs).bind fun d' r _ => hend d' r

theorem keeps_asyncQueryTx (hs : c.Runs mode sql args) : KeepsTo c d (asyncQueryTx x h mode sql args) := by
  refine keeps_op hx fun pass => ?_
  cases pass
  · exact keeps_idle (idle_rejected hx)
  refine keeps_op hh fun st => ?_
  split
  · exact keeps_op hx fun _ => keeps_op hx fun _ => trivial
  refine (idle_handleAlive hh).idle_bind fun alive => ?_
  cases alive
  · exact keeps_op ⟨hh, by decide⟩ fun _ => keeps_op hx fun _ => keeps_op hx fun _ => trivial
  refine keeps_op hh fun executor => (keeps_asyncUnaryInvoke hx hs hd executor).bind fun d' out _ => ?_
  refine keeps_op hx fun _ => ?_
  cases executor with
  | none => trivial
  | some e => exact keeps_op trivial fun _ => trivial

theorem keeps_finish {rollback : Bool} (hs : c.Runs .onlyExec (endingSql rollback) []) :
    KeepsTo c d (finish x h rollback) := by
  refine (keeps_queryTx hh hx hd hs).bind fun d' out _ => ?_
  dsimp only
  split
  · exact keeps_op hx fun _ => keeps_op hx fun _ => trivial
  · refine (keeps_endTransaction hh rollback).bind fun d'' _ _ => ?_
    exact keeps_op hx fun _ => trivial

theorem keeps_asyncCommit (hs : c.Runs .onlyExec .commit []) : KeepsTo c d (asyncCommit x h) := by
  refine (keeps_asyncQueryTx hh hx hd hs).bind fun d' out _ => ?_
  cases out with
  | error message => trivial
  | ok r =>
    refine (keeps_endTransaction hh false).bind fun d'' _ _ => ?_
    trivial

theorem keeps_asyncRollback (hs : c.Runs .onlyExec .rollback []) : KeepsTo c d (asyncRollback x h) := by
  refine (keeps_asyncQueryTx hh hx hd hs).bind fun d' out _ => ?_
  cases out with
  | error message => exact keeps_idle (idle_of_pooled pooled_crashed)
  | ok r =>
    refine (keeps_endTransaction hh true).bind fun d'' _ _ => ?_
    trivial

end Statement

end Handle

end Functions

/-- **Every call keeps to the rule.** -/
theorem Call.obeys (c : Call) : KeepsTo c {} c.prog := by
  have hret : ∀ {α : Type} {p : WProg α} {f : α → Result}, KeepsTo c {} p →
      KeepsTo c {} (p >>= fun x => (return f x : WProg Result)) := by
    intro α p f hp
    refine hp.bind fun d x _ => ?_
    trivial
  cases c with
  | query x r text args => exact hret (keeps_query rfl (fun _ h => h) rfl)
  | asyncQuery x mode text args => exact hret (keeps_asyncQuery rfl (fun _ h => h) rfl)
  | queryTx x h r text args => exact hret (keeps_queryTx rfl rfl rfl fun _ h => h)
  | asyncQueryTx x h mode text args => exact hret (keeps_asyncQueryTx rfl rfl rfl fun _ h => h)
  | begin x => exact hret (keeps_begin rfl (fun _ h => h) rfl)
  | asyncBegin x => exact hret (keeps_asyncBegin rfl (fun _ h => h) rfl)
  | finish x h rollback => cases rollback <;> exact hret (keeps_finish rfl rfl rfl fun _ h => h)
  | asyncFinish x h rollback =>
    cases rollback
    · exact hret (keeps_asyncCommit rfl rfl rfl fun _ h => h)
    · exact hret (keeps_asyncRollback rfl rfl rfl fun _ h => h)
  | moveHandle h => exact keeps_op rfl fun _ => trivial
  | dropHandle h => exact hret (keeps_dropHandle rfl)
  | stop p => exact keeps_pooled pooled_stop fun _ => trivial
  | destroy p => exact keeps_pooled pooled_destroy fun _ => trivial

end TrpcMysql
