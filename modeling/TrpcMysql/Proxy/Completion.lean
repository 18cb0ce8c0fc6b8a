import TrpcMysql.Conc.Counts
import TrpcMysql.Conc.Trace
import TrpcMysql.Proxy.Proxy

/-!
# The caller and its task

`UnaryInvoke` and `AsyncUnaryInvoke` hand a task to the thread pool and leave its completion to it: the caller of the
first waits for an event that the task sets, the second returns the future of a promise that the task fulfils. Here
both sides run on their own (`Invocation.Reach`), and `AddTask` tells whether it took the task; neither function asks.

* `unaryInvoke_eq`, `asyncUnaryInvoke_eq`: the two sides together are the functions of the proxy, where the task is taken.
* `kept_iff`: an invocation is completed exactly once, in every state of every run, exactly if the task is not refused.
-/

namespace TrpcMysql

open Conc

/-- What a task tells its caller. -/
inductive Completion where
  /-- `e.Set()` -/
  | set
  /-- `p.SetValue(res)` -/
  | value (r : MysqlResults)
  /-- `p.SetException(...)` -/
  | exception (message : String)

/-- What fulfils a promise with `out`. -/
def Completion.ofFuture : Future MysqlResults → Completion
  | .ok r => .value r
  | .error message => .exception message

/-- The operations of a caller and its task. -/
inductive InvokeOp where
  | world (o : WorldOp)
  | addTask
  | wait
  | complete (c : Completion)
  | putResults (r : MysqlResults)
  | getResults

@[reducible] def InvokeOp.Reply : InvokeOp → Type
  | world o => o.Reply
  | addTask => Bool
  | getResults => MysqlResults
  | _ => Unit

/-- What a caller and its task share. -/
structure InvokeSt where
  world : World
  /-- the caller's object, which a synchronous task fills -/
  results : MysqlResults
  /-- the reply of `AddTask` -/
  taken : Option Bool := none
  completions : List Completion := []

def invokeStep (i : ℕ) : (o : InvokeOp) → Answer → InvokeSt → Option (o.Reply × InvokeSt)
  | .world o, a, s => (worldStep i o a s.world).map fun x => (x.1, { s with world := x.2 })
  | .addTask, a, s => some (a.taken, { s with taken := some a.taken })
  | .wait, _, s => if s.completions.isEmpty then none else some ((), s)
  | .complete c, _, s => some ((), { s with completions := s.completions ++ [c] })
  | .putResults r, _, s => some ((), { s with results := r })
  | .getResults, _, s => some (s.results, s)

/-- A step of the process, while it lives. -/
def invokeExec (i : ℕ) (o : InvokeOp) (a : Answer) (s : InvokeSt) : Option (o.Reply × InvokeSt) :=
  if s.world.aborted then none else invokeStep i o a s

abbrev IProg := Prog InvokeOp InvokeOp.Reply

abbrev iop (o : InvokeOp) : IProg o.Reply := Prog.op o

/-- A program of the proxy. -/
def onWorld {α : Type} (p : WProg α) : IProg α := p.lift .world fun _ r => r

/-- What a caller returns. -/
inductive Returned where
  | results (r : MysqlResults)
  /-- an exception future in place of the promise's -/
  | exception (message : String)
  | future

namespace MysqlServiceProxy

/-! ## `UnaryInvoke` -/

/-- The part of `UnaryInvoke` before `AddTask`; the call goes on if the result is true. -/
def unaryBefore (x : CtxId) : WProg Bool := do
  if ← wop (.checkTimeout x) then return false
  if !(← wop (.runFilters .preSendMsg x)) then
    let _ ← wop (.runFilters .postRecvMsg x)
    return false
  return true

/-- The part after `e.Wait()`. -/
def unaryAfter (x : CtxId) (r : MysqlResults) : WProg MysqlResults := do
  if !r.ok then
    wop (.setStatus x { frameworkRetCode := r.errorNumber, errorMessage := r.errorMessage })
  let _ ← wop (.runFilters .postRecvMsg x)
  return r

def unaryCaller (x : CtxId) (r : MysqlResults) : IProg Returned := do
  if !(← onWorld (unaryBefore x)) then return .results r
  -- the reply is dropped
  let _ ← iop .addTask
  iop .wait
  return .results (← onWorld (unaryAfter x (← iop .getResults)))

def unaryTask (x : CtxId) (executor : Option ExecId) (r : MysqlResults) (sql : Sql) (args : List InputArg) :
    IProg Unit := do
  let out ← onWorld (task x executor r sql args)
  iop (.putResults (out.toOption.getD r))
  iop (.complete .set)

/-! ## `AsyncUnaryInvoke` -/

/-- The part of `AsyncUnaryInvoke` before `AddTask`, with the message of the exception future that it returns. -/
def asyncBefore (x : CtxId) : WProg (Option String) := do
  if ← wop (.checkTimeout x) then return some (← wop (.getStatus x)).errorMessage
  if !(← wop (.runFilters .preSendMsg x)) then
    let _ ← wop (.runFilters .postRecvMsg x)
    let _ ← wop (.runFilters .postRpcInvoke x)
    return some (← wop (.getStatus x)).errorMessage
  return none

/-- The continuation of the promise's future. -/
def asyncThen (x : CtxId) (out : Future MysqlResults) : WProg (Future MysqlResults) := do
  let _ ← wop (.runFilters .postRecvMsg x)
  return out

/-- What the promise gets. -/
def outcome : Except String MysqlResults → Future MysqlResults
  | .error message => .error message
  | .ok r => if r.ok then .ok r else .error r.errorMessage

def asyncCaller (x : CtxId) : IProg Returned := do
  match ← onWorld (asyncBefore x) with
  | some message => return .exception message
  | none =>
    -- the reply is dropped here too
    let _ ← iop .addTask
    return .future

/-- The task, and the continuation that runs when it has completed. -/
def asyncTask (x : CtxId) (executor : Option ExecId) (mode : MysqlResultsMode) (sql : Sql) (args : List InputArg) :
    IProg Unit := do
  let out := outcome (← onWorld (task x executor { mode := mode } sql args))
  iop (.complete (Completion.ofFuture out))
  let _ ← onWorld (asyncThen x out)

/-! ## The two sides together -/

theorem unaryInvoke_eq (x : CtxId) (executor : Option ExecId) (r : MysqlResults) (sql : Sql) (args : List InputArg) :
    unaryInvoke x executor r sql args = (do
      if !(← unaryBefore x) then return r
      wop .addTask
      let out ← task x executor r sql args
      unaryAfter x (out.toOption.getD r)) := by
  refine congrArg (Prog.act (WorldOp.checkTimeout x)) (funext fun late => ?_)
  cases late
  · refine congrArg (Prog.act (WorldOp.runFilters .preSendMsg x)) (funext fun pass => ?_)
    cases pass
    · rfl
    · rfl
  · rfl

theorem asyncUnaryInvoke_eq (x : CtxId) (executor : Option ExecId) (mode : MysqlResultsMode) (sql : Sql)
    (args : List InputArg) :
    asyncUnaryInvoke x executor mode sql args = (do
      match ← asyncBefore x with
      | some message => return .error message
      | none =>
        wop .addTask
        let out ← task x executor { mode := mode } sql args
        asyncThen x (outcome out)) := by
  refine congrArg (Prog.act (WorldOp.checkTimeout x)) (funext fun late => ?_)
  cases late
  · refine congrArg (Prog.act (WorldOp.runFilters .preSendMsg x)) (funext fun pass => ?_)
    cases pass
    · rfl
    · refine congrArg (Prog.act WorldOp.addTask) (funext fun _ => ?_)
      refine congrArg (Prog.bind (task x executor { mode := mode } sql args)) (funext fun out => ?_)
      refine congrArg (Prog.act (WorldOp.runFilters .postRecvMsg x)) (funext fun _ => ?_)
      cases out with
      | error message => rfl
      | ok r =>
        change (if r.ok then (pure (.ok r) : WProg (Future MysqlResults)) else pure (.error r.errorMessage)) =
          pure (if r.ok then .ok r else .error r.errorMessage)
        split
        · rfl
        · rfl
  · rfl

end MysqlServiceProxy

/-! ## Runs -/

/-- A call of `UnaryInvoke` or `AsyncUnaryInvoke`. -/
inductive Invocation where
  | unary (x : CtxId) (executor : Option ExecId) (r : MysqlResults) (sql : Sql) (args : List InputArg)
  | async (x : CtxId) (executor : Option ExecId) (mode : MysqlResultsMode) (sql : Sql) (args : List InputArg)

namespace Invocation

open MysqlServiceProxy

def results : Invocation → MysqlResults
  | unary _ _ r _ _ => r
  | async _ _ mode _ _ => { mode := mode }

def caller : Invocation → IProg Returned
  | unary x _ r _ _ => unaryCaller x r
  | async x _ _ _ _ => asyncCaller x

def task : Invocation → IProg Unit
  | unary x executor r sql args => unaryTask x executor r sql args
  | async x executor mode sql args => asyncTask x executor mode sql args

end Invocation

/-- What both sides have still to do. -/
structure InvokeConfig where
  state : InvokeSt
  caller : IProg Returned
  task : IProg Unit

/-- The states of the runs of an invocation. The thread pool runs a task that it took; other calls change the world at
any time. -/
inductive Invocation.Reach (i : ℕ) (v : Invocation) : InvokeConfig → Prop
  | start (w : World) : Reach i v ⟨{ world := w, results := v.results }, v.caller, v.task⟩
  | caller {s s' : InvokeSt} {o : InvokeOp} {k : o.Reply → IProg Returned} {t : IProg Unit} {a : Answer} {r : o.Reply}
      (h : Reach i v ⟨s, .act o k, t⟩) (he : invokeExec i o a s = some (r, s')) : Reach i v ⟨s', k r, t⟩
  | task {s s' : InvokeSt} {c : IProg Returned} {o : InvokeOp} {k : o.Reply → IProg Unit} {a : Answer} {r : o.Reply}
      (h : Reach i v ⟨s, c, .act o k⟩) (ht : s.taken = some true) (he : invokeExec i o a s = some (r, s')) :
      Reach i v ⟨s', c, k r⟩
  | others {s : InvokeSt} {c : IProg Returned} {t : IProg Unit} (w : World) (h : Reach i v ⟨s, c, t⟩) :
      Reach i v ⟨{ s with world := w }, c, t⟩

/-- `SetValue`, `SetException` or `Set`. -/
def InvokeOp.completes : InvokeOp → Bool
  | complete _ => true
  | _ => false

/-- The caller waits for its event, or has returned the promise's future. -/
def relies : IProg Returned → Bool
  | .act .wait _ => true
  | .ret .future => true
  | _ => false

/-- The invocation is completed once: a caller relies only on a task that was taken and that has completed once or will,
it comes back with results after the one completion of its task, and where it has returned an exception future there is
no task. -/
structure InvokeConfig.Kept (cf : InvokeConfig) : Prop where
  relied : relies cf.caller = true → cf.state.taken = some true ∧
    ∃ n, cf.task.Performs InvokeOp.completes n ∧ cf.state.completions.length + n = 1
  once : cf.state.completions.length ≤ 1
  back : ∀ r, cf.caller = .ret (.results r) → cf.state.taken = some true → cf.state.completions.length = 1
  instead : ∀ message, cf.caller = .ret (.exception message) → cf.state.taken ≠ some true ∧ cf.state.completions = []

/-! ## What both sides do -/

section Sides

open Prog

variable {α : Type} {n : ℕ}

theorem onWorld_performs (p : WProg α) : (onWorld p).Performs InvokeOp.completes 0 := performs_lift (fun _ => rfl) p

/-- **Every task completes once**, on every path. -/
theorem Invocation.task_performs (v : Invocation) : v.task.Performs InvokeOp.completes 1 := by
  cases v with
  | unary x executor r sql args =>
    have hend : ∀ r : MysqlResults, (do
        iop (.putResults r)
        iop (.complete .set) : IProg Unit).Performs InvokeOp.completes 1 := fun r =>
      ⟨1, rfl, fun _ => ⟨0, rfl, fun _ => rfl⟩⟩
    exact (onWorld_performs _).bind (m := 1) fun out => hend _
  | async x executor mode sql args =>
    have hend : ∀ out : Future MysqlResults, (do
        iop (.complete (Completion.ofFuture out))
        let _ ← onWorld (MysqlServiceProxy.asyncThen x out) : IProg Unit).Performs InvokeOp.completes 1 := by
      refine fun out => ⟨0, rfl, fun _ => ?_⟩
      exact (onWorld_performs _).bind (m := 0) fun _ => performs_pure ()
    exact (onWorld_performs _).bind (m := 1) fun out => hend _

/-- No task hands over another. -/
theorem Invocation.task_uses (v : Invocation) : v.task.Uses fun o => o ≠ .addTask := by
  have hworld : ∀ {α : Type} (p : WProg α), (onWorld p).Uses fun o => o ≠ .addTask := fun p =>
    uses_lift (fun o => by simp) p
  cases v with
  | unary x executor r sql args =>
    exact (hworld _).bind fun out => ⟨by simp, fun _ => ⟨by simp, fun _ => trivial⟩⟩
  | async x executor mode sql args =>
    exact (hworld _).bind fun out => ⟨by simp, fun _ => (hworld _).bind fun _ => trivial⟩

/-- After the wait, a caller looks at the results and runs filters, and returns results. -/
def Resumed : IProg Returned → Prop
  | .ret x => ∃ r, x = .results r
  | .act (.world _) k => ∀ r, Resumed (k r)
  | .act .getResults k => ∀ r, Resumed (k r)
  | .act _ _ => False

/-- Once it has handed over its task, a caller waits or returns the future. -/
def Relying : IProg Returned → Prop
  | .ret x => x = .future
  | .act .wait k => Resumed (k ())
  | .act _ _ => False

/-- Before that it runs filters, and it may return without a task. -/
def Asking : IProg Returned → Prop
  | .ret x => x ≠ .future
  | .act (.world _) k => ∀ r, Asking (k r)
  | .act .addTask k => ∀ taken, Relying (k taken)
  | .act _ _ => False

theorem resumed_bind {p : WProg α} {f : α → IProg Returned} (hf : ∀ a, Resumed (f a)) : Resumed (onWorld p >>= f) := by
  induction p with
  | ret a => exact hf a
  | act o k ih => exact fun r => ih r

theorem asking_bind {p : WProg α} {f : α → IProg Returned} (hf : ∀ a, Asking (f a)) : Asking (onWorld p >>= f) := by
  induction p with
  | ret a => exact hf a
  | act o k ih => exact fun r => ih r

theorem Invocation.caller_asking (v : Invocation) : Asking v.caller := by
  cases v with
  | unary x executor r sql args =>
    refine asking_bind fun go => ?_
    cases go
    · exact fun h => by cases h
    · exact fun taken r => resumed_bind fun r => ⟨r, rfl⟩
  | async x executor mode sql args =>
    refine asking_bind fun turned => ?_
    cases turned with
    | some message => exact fun h => by cases h
    | none => exact fun taken => rfl

end Sides

/-! ## Every state -/

/-- What holds of both sides in every state. -/
structure InvokeConfig.Sound (cf : InvokeConfig) : Prop where
  counted : ∃ n, cf.task.Performs InvokeOp.completes n ∧ cf.state.completions.length + n = 1
  idle : cf.state.taken ≠ some true → cf.state.completions = []
  asking : cf.state.taken = none → Asking cf.caller
  refused : cf.state.taken = some false → Relying cf.caller
  taken : cf.state.taken = some true → Relying cf.caller ∨ Resumed cf.caller ∧ 0 < cf.state.completions.length
  task : cf.task.Uses fun o => o ≠ .addTask

section Runs

variable {i : ℕ} {v : Invocation} {cf : InvokeConfig}

theorem Relying.relies {p : IProg Returned} (h : Relying p) : relies p = true := by
  cases p with
  | ret x =>
    obtain rfl : x = .future := h
    rfl
  | act o k => cases o <;> first | rfl | exact h.elim

/-- Before its task is handed over a caller does not rely on it. -/
theorem Asking.relies {p : IProg Returned} (h : Asking p) : relies p = false := by
  cases p with
  | ret x => cases x <;> first | rfl | exact absurd rfl h
  | act o k => cases o <;> first | rfl | exact h.elim

/-- What a step does to the completions, and to the reply of `AddTask`. -/
theorem invokeExec_completions {o : InvokeOp} {a : Answer} {s s' : InvokeSt} {r : o.Reply}
    (h : invokeExec i o a s = some (r, s')) :
    s'.completions.length = s.completions.length + o.completes.toNat ∧
      (o.completes = false → s'.completions = s.completions) ∧ (o ≠ .addTask → s'.taken = s.taken) := by
  unfold invokeExec at h
  split at h
  · cases h
  cases o with
  | world o =>
    simp only [invokeStep, Option.map_eq_some_iff] at h
    obtain ⟨x, -, hx⟩ := h
    cases hx
    exact ⟨rfl, fun _ => rfl, fun _ => rfl⟩
  | wait =>
    simp only [invokeStep] at h
    split at h
    · cases h
    · cases h
      exact ⟨rfl, fun _ => rfl, fun _ => rfl⟩
  | addTask =>
    cases h
    exact ⟨rfl, fun _ => rfl, fun h => absurd rfl h⟩
  | complete c =>
    cases h
    exact ⟨by simp [InvokeOp.completes], fun h => (by cases h), fun _ => rfl⟩
  | _ =>
    cases h
    exact ⟨rfl, fun _ => rfl, fun _ => rfl⟩

namespace InvokeConfig.Sound

variable {s s' : InvokeSt} {c : IProg Returned} {t : IProg Unit} {o : InvokeOp} {a : Answer} {r : o.Reply}

/-- A step of the task. -/
theorem task_step {k : o.Reply → IProg Unit} (h : Sound ⟨s, c, .act o k⟩) (ht : s.taken = some true)
    (he : invokeExec i o a s = some (r, s')) : Sound ⟨s', c, k r⟩ := by
  obtain ⟨hcount, -, htaken⟩ := invokeExec_completions he
  have htaken : s'.taken = some true := (htaken h.task.1).trans ht
  obtain ⟨n, ⟨m, rfl, hperf⟩, hn⟩ := h.counted
  have hside : Relying c ∨ Resumed c ∧ 0 < s'.completions.length :=
    (h.taken ht).imp_right fun hgo => ⟨hgo.1, hcount ▸ Nat.lt_add_right _ hgo.2⟩
  refine ⟨⟨m, hperf r, ?_⟩, fun h' => absurd htaken h', fun h' => ?_, fun h' => ?_, fun _ => hside, h.task.2 r⟩
  · dsimp only at hn ⊢
    omega
  · rw [htaken] at h'
    cases h'
  · rw [htaken] at h'
    cases h'

/-- A step of the caller before its task is handed over. -/
theorem asking_step {k : o.Reply → IProg Returned} (h : Sound ⟨s, .act o k, t⟩) (hnone : s.taken = none)
    (he : invokeExec i o a s = some (r, s')) : Sound ⟨s', k r, t⟩ := by
  have hask := h.asking hnone
  have hidle : s.completions = [] := h.idle (by simp [hnone])
  obtain ⟨hcount, hsame, htaken⟩ := invokeExec_completions he
  cases o with
  | world o =>
    have htaken : s'.taken = none := (htaken (by simp)).trans hnone
    have hlog : s'.completions = s.completions := hsame rfl
    refine ⟨?_, fun _ => hlog.trans hidle, fun _ => hask r, fun h' => ?_, fun h' => ?_, h.task⟩
    · simpa only [hlog] using h.counted
    · rw [htaken] at h'
      cases h'
    · rw [htaken] at h'
      cases h'
  | addTask =>
    have hlog : s'.completions = s.completions := hsame rfl
    have hgiven : s'.taken = some r := by
      unfold invokeExec at he
      split at he
      · cases he
      · cases he
        rfl
    refine ⟨?_, fun _ => hlog.trans hidle, fun h' => ?_, fun _ => hask r, fun _ => .inl (hask r), h.task⟩
    · simpa only [hlog] using h.counted
    · rw [hgiven] at h'
      cases h'
  | _ => exact hask.elim

/-- The caller comes back from its wait, and goes on. -/
theorem resumed_step {k : o.Reply → IProg Returned} (h : Sound ⟨s, .act o k, t⟩) (ht : s.taken = some true)
    (he : invokeExec i o a s = some (r, s')) : Sound ⟨s', k r, t⟩ := by
  obtain ⟨hcount, hsame, htaken⟩ := invokeExec_completions he
  have hon : o ≠ .addTask ∧ o.completes = false ∧ Resumed (k r) ∧ 0 < s.completions.length := by
    rcases h.taken ht with hwait | ⟨hgo, hset⟩
    · cases o with
      | wait =>
        refine ⟨by simp, rfl, hwait, ?_⟩
        simp only [invokeExec, invokeStep] at he
        split at he
        · cases he
        split at he
        · cases he
        · rename_i hset
          exact List.length_pos_iff.2 (by simpa using hset)
      | _ => exact hwait.elim
    · cases o with
      | world o => exact ⟨by simp, rfl, hgo r, hset⟩
      | getResults => exact ⟨by simp, rfl, hgo r, hset⟩
      | _ => exact hgo.elim
  have htaken : s'.taken = some true := (htaken hon.1).trans ht
  refine ⟨?_, fun h' => absurd htaken h', fun h' => ?_, fun h' => ?_,
    fun _ => .inr ⟨hon.2.2.1, ?_⟩, h.task⟩
  · simpa only [hsame hon.2.1] using h.counted
  · rw [htaken] at h'
    cases h'
  · rw [htaken] at h'
    cases h'
  · simpa only [hsame hon.2.1] using hon.2.2.2

end InvokeConfig.Sound

theorem Invocation.Reach.sound (h : v.Reach i cf) : cf.Sound := by
  induction h with
  | start w =>
    refine ⟨⟨1, v.task_performs, rfl⟩, fun _ => rfl, fun _ => v.caller_asking, fun h => ?_, fun h => ?_, v.task_uses⟩
    · cases h
    · cases h
  | others w h ih => exact ⟨ih.counted, ih.idle, ih.asking, ih.refused, ih.taken, ih.task⟩
  | task h ht he ih => exact ih.task_step ht he
  | @caller s s' o k t a r h he ih =>
    cases htaken : s.taken with
    | none => exact ih.asking_step htaken he
    | some b =>
      cases b
      · -- nothing wakes the caller of a task that was refused
        have hidle : s.completions = [] := ih.idle (by simp [htaken])
        have hwait := ih.refused htaken
        cases o with
        | wait => simp [invokeExec, invokeStep, hidle] at he
        | _ => exact hwait.elim
      · exact ih.resumed_step htaken he

/-- A caller that has returned results did so after its task, if that was taken. -/
theorem InvokeConfig.Sound.back (h : cf.Sound) {r : MysqlResults} (hret : cf.caller = .ret (.results r))
    (ht : cf.state.taken = some true) : cf.state.completions.length = 1 := by
  obtain ⟨n, -, hn⟩ := h.counted
  rcases h.taken ht with hrel | ⟨-, hset⟩
  · rw [hret] at hrel
    cases hrel
  · omega

/-- A caller that has returned an exception future has no task that was taken. -/
theorem InvokeConfig.Sound.instead (h : cf.Sound) {message : String} (hret : cf.caller = .ret (.exception message)) :
    cf.state.taken ≠ some true := by
  intro ht
  rcases h.taken ht with hrel | ⟨hgo, -⟩
  · rw [hret] at hrel
    cases hrel
  · rw [hret] at hgo
    obtain ⟨r, hr⟩ := hgo
    cases hr

/-- **Every invocation is completed exactly once, in every state of its runs, exactly if the thread pool does not refuse
its task.** -/
theorem kept_iff (h : v.Reach i cf) : cf.Kept ↔ cf.state.taken ≠ some false := by
  have hs := h.sound
  obtain ⟨n, hperf, hn⟩ := hs.counted
  constructor
  · intro hk hrefused
    have htaken := (hk.relied (hs.refused hrefused).relies).1
    rw [hrefused] at htaken
    cases htaken
  · intro hnot
    refine ⟨fun hrel => ⟨?_, n, hperf, hn⟩, by omega, fun r hret => hs.back hret, fun message hret => ?_⟩
    · cases htaken : cf.state.taken with
      | none =>
        rw [(hs.asking htaken).relies] at hrel
        cases hrel
      | some b =>
        cases b
        · exact absurd htaken hnot
        · rfl
    · exact ⟨hs.instead hret, hs.idle (hs.instead hret)⟩

end Runs

/-! ## The proxy's functions are such runs -/

section Inline

variable {i : ℕ} {v : Invocation} {s : InvokeSt} {α : Type} {w w' : World} {as rest : List Answer}

theorem alive_of_run {o : WorldOp} {k : o.Reply → WProg α} {x : α}
    (h : (Prog.act o k).run (worldExec i) w as = some (x, w', rest)) : w.aborted = false := by
  cases as with
  | nil => cases h
  | cons a as =>
    cases hw : w.aborted with
    | false => rfl
    | true => simp [Prog.run, worldExec, hw] at h

theorem invokeExec_alive {o : InvokeOp} {a : Answer} (h : s.world.aborted = false) :
    invokeExec i o a s = invokeStep i o a s := by simp [invokeExec, h]

theorem invokeExec_world {o : WorldOp} {a : Answer} {r : o.Reply} (h : worldExec i o a s.world = some (r, w')) :
    invokeExec i (.world o) a s = some (r, { s with world := w' }) := by
  unfold worldExec at h
  unfold invokeExec
  split at h
  · cases h
  · rename_i halive
    rw [if_neg halive]
    simp [invokeStep, h]

/-- The caller runs a part of its program. -/
theorem Invocation.Reach.caller_run {p : WProg α} {k : α → IProg Returned} {t : IProg Unit} {x : α} :
    ∀ {s as}, v.Reach i ⟨s, onWorld p >>= k, t⟩ → p.run (worldExec i) s.world as = some (x, w', rest) →
      v.Reach i ⟨{ s with world := w' }, k x, t⟩ := by
  induction p with
  | ret a =>
    intro s as h hr
    cases hr
    exact h
  | act o q ih =>
    intro s as h hr
    cases as with
    | nil => cases hr
    | cons a as =>
      simp only [Prog.run] at hr
      cases he : worldExec i o a s.world with
      | none => rw [he] at hr; cases hr
      | some y =>
        obtain ⟨r, w₁⟩ := y
        rw [he] at hr
        have h₁ : v.Reach i ⟨{ s with world := w₁ }, onWorld (q r) >>= k, t⟩ := h.caller (invokeExec_world he)
        have hend := ih r h₁ hr
        exact hend

/-- So does a task that was taken. -/
theorem Invocation.Reach.task_run {p : WProg α} {k : α → IProg Unit} {c : IProg Returned} {x : α} :
    ∀ {s as}, v.Reach i ⟨s, c, onWorld p >>= k⟩ → s.taken = some true →
      p.run (worldExec i) s.world as = some (x, w', rest) → v.Reach i ⟨{ s with world := w' }, c, k x⟩ := by
  induction p with
  | ret a =>
    intro s as h _ hr
    cases hr
    exact h
  | act o q ih =>
    intro s as h ht hr
    cases as with
    | nil => cases hr
    | cons a as =>
      simp only [Prog.run] at hr
      cases he : worldExec i o a s.world with
      | none => rw [he] at hr; cases hr
      | some y =>
        obtain ⟨r, w₁⟩ := y
        rw [he] at hr
        have h₁ : v.Reach i ⟨{ s with world := w₁ }, c, onWorld (q r) >>= k⟩ := h.task ht (invokeExec_world he)
        have hend := ih r h₁ ht hr
        exact hend

open MysqlServiceProxy

/-- The thread pool takes the task. -/
theorem Invocation.Reach.hand_over {c : IProg Returned} {p : WProg α} {x : α} {t : IProg Unit}
    (h : v.Reach i ⟨s, iop .addTask >>= fun _ => c, t⟩)
    (hr : (wop .addTask >>= fun _ => p).run (worldExec i) s.world as = some (x, w', rest)) :
    v.Reach i ⟨{ s with taken := some true }, c, t⟩ ∧ ∃ as', p.run (worldExec i) s.world as' = some (x, w', rest) := by
  have halive := alive_of_run hr
  cases as with
  | nil => cases hr
  | cons a as =>
    have he : invokeExec i .addTask {} s = some (true, { s with taken := some true }) := by
      simp [invokeExec, halive, invokeStep]
    refine ⟨h.caller he, as, ?_⟩
    cases ht : a.taken with
    | false => simp [Prog.run, worldExec, worldStep, halive, ht] at hr
    | true =>
      simp only [Prog.op_bind, Prog.run, worldExec, worldStep, halive, ht] at hr
      exact hr

/-- **An execution of `UnaryInvoke` is a run of its two sides.** -/
theorem unaryInvoke_reach {x : CtxId} {executor : Option ExecId} {r r' : MysqlResults} {sql : Sql} {args : List InputArg}
    (h : (unaryInvoke x executor r sql args).run (worldExec i) w as = some (r', w', rest)) :
    ∃ s t, (Invocation.unary x executor r sql args).Reach i ⟨s, .ret (.results r'), t⟩ ∧ s.world = w' := by
  rw [unaryInvoke_eq, Prog.run_bind, Option.bind_eq_some_iff] at h
  obtain ⟨⟨go, w₁, as₁⟩, hbefore, h⟩ := h
  have h₁ := (Invocation.Reach.start (v := .unary x executor r sql args) w).caller_run hbefore
  cases go
  · cases h
    exact ⟨_, _, h₁, rfl⟩
  obtain ⟨h₂, as₂, hrun⟩ := h₁.hand_over h
  rw [Prog.run_bind, Option.bind_eq_some_iff] at hrun
  obtain ⟨⟨out, w₂, as₃⟩, htask, hafter⟩ := hrun
  have h₃ := h₂.task_run rfl htask
  have halive : w₂.aborted = false := by
    cases hok : (out.toOption.getD r).ok
    · simp only [unaryAfter, hok] at hafter
      exact alive_of_run hafter
    · simp only [unaryAfter, hok] at hafter
      exact alive_of_run hafter
  -- the task fills the object and sets the event, and the caller comes back
  have h₄ := h₃.task rfl (invokeExec_alive (a := {}) halive)
  have h₅ := h₄.task rfl (invokeExec_alive (a := {}) halive)
  have h₆ := h₅.caller (invokeExec_alive (a := {}) halive)
  have h₇ := h₆.caller (invokeExec_alive (a := {}) halive)
  have h₈ := h₇.caller_run hafter
  exact ⟨_, _, h₈, rfl⟩

/-- **So is an execution of `AsyncUnaryInvoke`**: it ends with an exception future, or the promise has the outcome. -/
theorem asyncUnaryInvoke_reach {x : CtxId} {executor : Option ExecId} {mode : MysqlResultsMode} {sql : Sql}
    {args : List InputArg} {out : Future MysqlResults}
    (h : (asyncUnaryInvoke x executor mode sql args).run (worldExec i) w as = some (out, w', rest)) :
    ∃ s c t, (Invocation.async x executor mode sql args).Reach i ⟨s, .ret c, t⟩ ∧ s.world = w' ∧
      ((∃ message, c = .exception message ∧ out = .error message) ∨
        c = .future ∧ s.completions = [Completion.ofFuture out]) := by
  rw [asyncUnaryInvoke_eq, Prog.run_bind, Option.bind_eq_some_iff] at h
  obtain ⟨⟨turned, w₁, as₁⟩, hbefore, h⟩ := h
  have h₁ := (Invocation.Reach.start (v := .async x executor mode sql args) w).caller_run hbefore
  cases turned with
  | some message =>
    cases h
    exact ⟨_, _, _, h₁, rfl, .inl ⟨message, rfl, rfl⟩⟩
  | none =>
    obtain ⟨h₂, as₂, hrun⟩ := h₁.hand_over h
    rw [Prog.run_bind, Option.bind_eq_some_iff] at hrun
    obtain ⟨⟨out', w₂, as₃⟩, htask, hthen⟩ := hrun
    have h₃ := h₂.task_run rfl htask
    have halive : w₂.aborted = false := alive_of_run hthen
    have h₄ := h₃.task rfl (invokeExec_alive (a := {}) halive)
    have h₅ := h₄.task_run rfl hthen
    let same : Future MysqlResults → World → Prop := fun b _ => b = outcome out'
    have hsame : (asyncThen x (outcome out')).wp (worldExec i) same w₂ := fun _ _ _ _ => rfl
    have hout : same out w' := Prog.wp_run hsame hthen
    exact ⟨_, _, _, h₅, rfl, .inr ⟨rfl, by rw [show out = outcome out' from hout]; rfl⟩⟩

end Inline

/-- The task of a synchronous call, which the thread pool takes. -/
theorem kept_taken : ∃ cf, (Invocation.unary 0 none { mode := .onlyExec } (.user []) []).Reach 0 cf ∧
    relies cf.caller = true ∧ cf.Kept := by
  have h₀ : (Invocation.unary 0 none { mode := .onlyExec } (.user []) []).Reach 0 _ := .start {}
  have h₁ := h₀.caller (invokeExec_alive (a := {}) rfl)
  have h₂ := h₁.caller (invokeExec_alive (a := {}) rfl)
  have h₃ := h₂.caller (invokeExec_alive (a := {}) rfl)
  exact ⟨_, h₃, rfl, (kept_iff h₃).2 (by simp)⟩

/-- The thread pool refuses the task, and the caller waits for an event that nothing sets. -/
theorem refused_task : ¬ ∀ (i : ℕ) (v : Invocation) (cf : InvokeConfig), v.Reach i cf → cf.Kept := by
  intro h
  have h₀ : (Invocation.unary 0 none { mode := .onlyExec } (.user []) []).Reach 0 _ := .start {}
  have h₁ := h₀.caller (invokeExec_alive (a := {}) rfl)
  have h₂ := h₁.caller (invokeExec_alive (a := {}) rfl)
  have h₃ := h₂.caller (invokeExec_alive (a := { taken := false }) rfl)
  have hwait := ((h 0 _ _ h₃).relied rfl).1
  cases hwait

end TrpcMysql
