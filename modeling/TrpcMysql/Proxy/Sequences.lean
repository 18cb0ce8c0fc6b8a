import TrpcMysql.Conc.Twin
import TrpcMysql.Proxy.Aside

/-!
# Sequences of calls, by either interface

A user issues one request after the other, each with a fresh context and a fresh results object, and waits
for it. `runIssues` runs a sequence by the synchronous or by the asynchronous functions of the proxy; the
outcomes of the calls (filter verdicts, timeouts, the selector, lost connections and the answers of the
server) are given with the requests, so both runs get the same.

`Agree` compares the two runs: what the callers are told, and everything the calls share but the contexts and
the history. `Issue.Fits` says what the steps of a synchronous call must find so that the interfaces agree.
-/

namespace TrpcMysql

open Function Conc

/-! ## Outcomes -/

/-- What the environment decides during one call; `client` lists the answers to the operations on
executors. -/
structure CallOutcome where
  pass : FilterPoint → Bool := fun _ => true
  status : FilterPoint → Option Status := fun _ => none
  addr : FilterPoint → Option NodeAddr := fun _ => none
  timedOut : Bool := false
  target : Option NodeAddr := none
  client : ℕ → ClientAnswer := fun _ => {}

/-- The step takes the next answer from the list. -/
def WorldOp.asks : WorldOp → Bool
  | client .. | pushBack .. => true
  | _ => false

namespace CallOutcome

variable (u : CallOutcome)

def answer (n : ℕ) : WorldOp → Answer
  | .runFilters pt _ => { pass := u.pass pt, status := u.status pt, addr := u.addr pt }
  | .checkTimeout _ => { timedOut := u.timedOut }
  | .selectTarget => { addr := u.target }
  | .client .. | .pushBack .. => { toClientAnswer := u.client n }
  | _ => {}

/-- The world under an outcome, with the number of answers taken. -/
def machine : Machine WorldOp WorldOp.Reply (World × ℕ) where
  exec o s := (worldExec 0 o (u.answer s.2 o) s.1).map fun x => (x.1, x.2, if o.asks then s.2 + 1 else s.2)
  dead s := s.1.aborted
  stops o s h := by simp [worldExec, h]

end CallOutcome

/-! ## Requests -/

inductive Request where
  | query (mode : MysqlResultsMode) (text : Bytes) (args : List InputArg)
  | begin
  | queryTx (h : HandleId) (mode : MysqlResultsMode) (text : Bytes) (args : List InputArg)
  | finish (h : HandleId) (rollback : Bool)
  | moveHandle (h : HandleId)
  | dropHandle (h : HandleId)

namespace Request

def sync : Request → Call
  | query mode text args => .query 0 { mode := mode } text args
  | begin => .begin 0
  | queryTx h mode text args => .queryTx 0 h { mode := mode } text args
  | finish h rollback => .finish 0 h rollback
  | moveHandle h => .moveHandle h
  | dropHandle h => .dropHandle h

def async : Request → Call
  | query mode text args => .asyncQuery 0 mode text args
  | begin => .asyncBegin 0
  | queryTx h mode text args => .asyncQueryTx 0 h mode text args
  | finish h rollback => .asyncFinish 0 h rollback
  | moveHandle h => .moveHandle h
  | dropHandle h => .dropHandle h

end Request

/-- What the caller is told: whether the call failed, and the handle that it made. -/
structure CallReply where
  failed : Bool
  handle : Option HandleId := none
  deriving DecidableEq, Repr

/-- A call fails by its status, or by its future. -/
def Result.reply : Result → CallReply
  | .status s _ | .finished s => { failed := !s.ok }
  | .begun s h => { failed := !s.ok, handle := h }
  | .future out => { failed := !out.isOk }
  | .futureUnit out => { failed := !out.isOk }
  | .futureHandle out => { failed := !out.isOk, handle := out.toOption }
  | .handle h => { failed := false, handle := some h }
  | .unit => { failed := false }

namespace World

/-- The world without its contexts and its history. -/
def core (w : World) : World := { w with ctxs := fun _ => {}, log := [] }

/-- A call starts, with fresh contexts for `addr`. -/
def start (w : World) (addr : NodeAddr) : World := { w.core with ctxs := fun _ => { nodeAddr := addr } }

end World

/-- One request of a sequence: the address in its context, and the outcome of the call. -/
structure Issue where
  request : Request
  addr : NodeAddr := {}
  outcome : CallOutcome := {}

def Issue.run (api : Request → Call) (c : Issue) (w : World) : Option (CallReply × World) :=
  ((api c.request).prog.eval c.outcome.machine (w.start c.addr, 0)).map fun x => (x.1.reply, x.2.1)

/-- A sequence of calls, each after the one before has returned. There is no result where the process
ends. -/
def runIssues (api : Request → Call) : List Issue → World → Option (List CallReply × World)
  | [], w => some ([], w)
  | c :: cs, w => do
    let (r, w) ← c.run api w
    let (rs, w) ← runIssues api cs w
    return (r :: rs, w)

/-- The results of two runs agree. -/
def Agree (x y : Option (List CallReply × World)) : Prop :=
  x.map (fun x => (x.1, x.2.core)) = y.map fun y => (y.1, y.2.core)

/-! ## Outcomes on which the interfaces agree -/

/-- The connection of `p` is there when the step uses it. -/
def ExecSt.answers (s : ExecSt) (a : ClientAnswer) (p : MysqlPtr) : Bool := ((s.enter a p).ready p).isSome

/-- What the operations on an executor must find: the connection of a transaction that ends is alive, and
the server takes its ROLLBACK. -/
def ClientOp.fits (ends : Bool) : ClientOp → ClientAnswer → ExecSt → Bool
  | .mysqlPing (some p), a, s => !ends || s.answers a p
  | .mysqlRealQuery (some p) .rollback, a, s => s.answers a p && a.ok
  | _, _, _ => true

namespace Request

/-- The request ends a transaction. -/
def ends : Request → Bool
  | finish .. => true
  | _ => false

/-- The call may fail before its statement is sent. A `Commit` changes its handle all the same, unless
the handle is committed already. -/
def spared : Request → World → Bool
  | finish h rollback, w => !rollback && (w.handles h).state = .kCommitted && (w.handles h).executor.isNone
  | _, _ => true

/-- The statement that ends a transaction can be sent. -/
def ready : Request → World → Bool
  | finish h _, w => (w.handles h).state = .kStarted && (w.handles h).executor.all fun e =>
      (w.execs e).this.isConnected && (w.execs e).this.mysql.isSome
  | _, _ => true

/-- What a step of the synchronous call must find. The status tells of the verdict of the filters before the
call, and the filters after it leave the status as good as it was; no status that is set tells of
success; and the statement of a `Commit` or a `Rollback` is sent. -/
def fits (q : Request) (a : Answer) (w : World) : WorldOp → Bool
  | .runFilters .preRpcInvoke x => a.pass || (!(a.status.getD (w.ctxs x).status).ok && q.spared w)
  | .runFilters .preSendMsg x => (a.status.getD (w.ctxs x).status).ok = a.pass && (a.pass || !q.ends)
  | .runFilters _ x => (a.status.getD (w.ctxs x).status).ok = (w.ctxs x).status.ok
  | .checkTimeout _ => !a.timedOut || !q.ends
  | .getState _ => q.ready w || q.spared w
  | .setStatus _ s => !s.ok
  | .client e o => o.fits q.ends a.toClientAnswer (w.execs e)
  | _ => true

end Request

/-- A step of the synchronous call finds what it must. -/
def Issue.Fits (c : Issue) (o : WorldOp) (s : World × ℕ) : Prop :=
  c.request.fits (c.outcome.answer s.2 o) s.1 o = true

instance (c : Issue) (o : WorldOp) (s : World × ℕ) : Decidable (c.Fits o s) := inferInstanceAs (Decidable (_ = true))

/-- In the synchronous run every step finds what it must. -/
def AllFit : List Issue → World → Prop
  | [], _ => True
  | c :: cs, w => c.request.sync.prog.Meets c.outcome.machine c.Fits (w.start c.addr, 0) ∧
    match c.run Request.sync w with
    | none => True
    | some (_, w') => AllFit cs w'

instance decidableAllFit : ∀ (cs : List Issue) (w : World), Decidable (AllFit cs w)
  | [], _ => isTrue trivial
  | c :: cs, w =>
    match h : c.run Request.sync w with
    | none =>
      decidable_of_iff (c.request.sync.prog.Meets c.outcome.machine c.Fits (w.start c.addr, 0)) (by simp [AllFit, h])
    | some (_, w') =>
      have := decidableAllFit cs w'
      decidable_of_iff (c.request.sync.prog.Meets c.outcome.machine c.Fits (w.start c.addr, 0) ∧ AllFit cs w')
        (by simp [AllFit, h])

/-! ## Worlds that differ in contexts and history only -/

theorem World.eq_of_core {w w' : World} (h : w.core = w'.core) :
    w' = { w with ctxs := w'.ctxs, log := w'.log } := by
  cases w
  cases w'
  simp only [World.core, World.mk.injEq] at h ⊢
  simp [h]

/-- A step that touches no context does not tell the two worlds apart. -/
theorem worldStep_core {i : ℕ} {o : WorldOp} {a : Answer} {w w' : World} (ho : Aside o) (h : w.core = w'.core) :
    Option.Rel (fun x y => x.1 = y.1 ∧ x.2.core = y.2.core) (worldStep i o a w) (worldStep i o a w') := by
  rw [World.eq_of_core h]
  generalize w'.ctxs = c
  generalize w'.log = l
  cases o with
  | getStatus | setStatus | getNodeAddr | runFilters | checkTimeout | selectTarget => exact ho.elim
  | client e o =>
    simp only [worldStep]
    cases clientExec o a.toClientAnswer (w.execs e) with
    | none => exact .none
    | some x => exact .some ⟨rfl, rfl⟩
  | addTask =>
    simp only [worldStep]
    split
    · exact .some ⟨trivial, rfl⟩
    · exact .none
  | poolsGetOrInsert key pool =>
    simp only [worldStep]
    cases w.executorPools key with
    | none => exact .some ⟨rfl, rfl⟩
    | some p => exact .some ⟨rfl, rfl⟩
  | popBack p k =>
    simp only [worldStep]
    cases ((w.pools p).shards k).getLast? with
    | none => exact .some ⟨rfl, rfl⟩
    | some e => exact .some ⟨rfl, rfl⟩
  | pushBack p k e from? =>
    simp only [worldStep]
    split
    swap
    · exact .none
    split
    · cases from? with
      | none => exact .some ⟨rfl, rfl⟩
      | some h => exact .some ⟨rfl, rfl⟩
    · exact .some ⟨rfl, rfl⟩
  | endHandle h =>
    simp only [worldStep]
    cases (w.handles h).executor with
    | none => exact .some ⟨trivial, rfl⟩
    | some e => exact .some ⟨trivial, rfl⟩
  | crash => exact .none
  | _ => exact .some ⟨rfl, rfl⟩

theorem worldStep_ctxs {i : ℕ} {o : WorldOp} {a : Answer} {w w' : World} {r : o.Reply} (ho : Aside o)
    (h : worldStep i o a w = some (r, w')) : w'.ctxs = w.ctxs := by
  cases o with
  | getStatus | setStatus | getNodeAddr | runFilters | checkTimeout | selectTarget => exact ho.elim
  | client e o =>
    obtain ⟨y, -, hr⟩ := Option.map_eq_some_iff.1 h
    cases hr
    rfl
  | poolsGetOrInsert key pool =>
    simp only [worldStep] at h
    split at h <;> (cases h; rfl)
  | popBack p k =>
    simp only [worldStep] at h
    split at h <;> (cases h; rfl)
  | pushBack p k e from? =>
    simp only [worldStep] at h
    split at h
    swap
    · cases h
    split at h
    · cases from? with
      | none => cases h; rfl
      | some h' => cases h; rfl
    · cases h; rfl
  | addTask =>
    simp only [worldStep] at h
    split at h
    · cases h; rfl
    · cases h
  | endHandle h' =>
    cases h
    cases (w.handles h').executor with
    | none => rfl
    | some e => rfl
  | crash => cases h
  | _ => cases h; rfl

/-- The states differ in contexts and history only. -/
def Same (s t : World × ℕ) : Prop := s.1.core = t.1.core ∧ s.2 = t.2

namespace Same

variable {s t : World × ℕ}

theorem refl (s : World × ℕ) : Same s s := ⟨rfl, rfl⟩

theorem aborted (h : Same s t) : s.1.aborted = t.1.aborted := by
  have haborted := congrArg World.aborted h.1
  exact haborted

end Same

/-! ## Steps of a machine -/

section Steps

variable {c : Issue} {s t : World × ℕ} {e : ExecId} {α β : Type}

theorem exec_live {u : CallOutcome} {o : WorldOp} (hl : s.1.aborted = false) :
    u.machine.exec o s = (worldStep 0 o (u.answer s.2 o) s.1).map fun x =>
      (x.1, x.2, if o.asks then s.2 + 1 else s.2) := by
  simp only [CallOutcome.machine, worldExec, hl, Bool.false_eq_true, if_false]

/-- A step that is performed, is performed while the process lives. -/
theorem machine_exec {u : CallOutcome} {o : WorldOp} {r : o.Reply} {s' : World × ℕ}
    (he : u.machine.exec o s = some (r, s')) :
    s.1.aborted = false ∧ worldStep 0 o (u.answer s.2 o) s.1 = some (r, s'.1) := by
  cases ha : s.1.aborted with
  | true => simp [CallOutcome.machine, worldExec, ha] at he
  | false =>
    rw [exec_live ha] at he
    obtain ⟨y, hy, hr⟩ := Option.map_eq_some_iff.1 he
    cases hr
    exact ⟨rfl, hy⟩

/-! ## Rules -/

namespace Issue

variable (c)

abbrev Twin (R : α → World × ℕ → β → World × ℕ → Prop) (p : WProg α) (q : WProg β) (s t : World × ℕ) : Prop :=
  p.Twin c.outcome.machine c.Fits R q s t

abbrev Sure (Q : α → World × ℕ → Prop) (p : WProg α) (s : World × ℕ) : Prop :=
  p.Sure c.outcome.machine c.Fits Q s

end Issue

/-- `Q` holds at the end of every execution of an executor's program whose operations find what they must. -/
abbrev XFits (ends : Bool) (p : XProg α) (Q : α → ExecSt → Prop) (y : ExecSt) : Prop :=
  p.gwp clientExec (fun o a y => o.fits ends a y = true) (fun _ _ _ => True) Q y

variable {Q : α → World × ℕ → Prop} {R : α → World × ℕ → β → World × ℕ → Prop}

theorem sure_any (p : WProg α) : c.Sure (fun _ _ => True) p s := fun _ _ _ _ => trivial

/-- A program that touches no context. -/
theorem sure_aside {p : WProg α} (hp : p.Uses Aside) : c.Sure (fun _ s' => s'.1.ctxs = s.1.ctxs) p s :=
  hp.sure (fun _ _ _ _ ho _ hI he => (worldStep_ctxs ho (machine_exec he).2).trans hI) rfl

/-- A program of an executor. -/
theorem sure_executor {Q : α → ExecSt → Prop} {p : XProg α} :
    ∀ {s : World × ℕ}, XFits c.request.ends p Q (s.1.execs e) →
      c.Sure (fun a s' => Q a (s'.1.execs e) ∧ s'.1.ctxs = s.1.ctxs ∧ s'.1.handles = s.1.handles)
        (onExecutor e p) s := by
  induction p with
  | ret a => intro s hq; exact Prog.sure_ret ⟨hq, rfl, rfl⟩
  | act o k ih =>
    intro s hq
    refine Prog.sure_op fun r s' hfit he => ?_
    obtain ⟨y, hy, hr⟩ := Option.map_eq_some_iff.1 (machine_exec he).2
    obtain ⟨hr, hw⟩ := Prod.mk.inj hr
    subst hr
    have hexecs : s'.1.execs e = y.2 := by
      rw [← hw]
      exact update_self (f := s.1.execs) e y.2
    have hq' := (hq (c.outcome.client s.2) hfit).2 y.1 y.2 hy
    rw [← hexecs] at hq'
    refine (ih y.1 hq').mono fun a s'' h'' => ?_
    refine ⟨h''.1, h''.2.1.trans ?_, h''.2.2.trans ?_⟩ <;> rw [← hw] <;> rfl

/-- Nothing is performed after the end of the process. -/
theorem twin_live {p : WProg α} {q : WProg β} (hst : Same s t)
    (h : s.1.aborted = false → t.1.aborted = false → c.Twin R p q s t) : c.Twin R p q s t := by
  cases ha : s.1.aborted with
  | false => exact h ha (hst.aborted.symm.trans ha)
  | true => exact Prog.twin_dead ha (hst.aborted.symm.trans ha)

/-- A program that touches no context, from two states that differ in contexts only. -/
theorem Same.twin {p : WProg α} (hst : Same s t) (hp : p.Uses Aside) :
    c.Twin (fun a s' b t' => a = b ∧ Same s' t') p p s t := by
  refine hp.twin (fun _ _ h => h.aborted) (fun o s t ho h => ?_) hst
  cases ha : s.1.aborted with
  | true =>
    have hs : c.outcome.machine.exec o s = none := c.outcome.machine.stops o s ha
    have ht : c.outcome.machine.exec o t = none := c.outcome.machine.stops o t (h.aborted.symm.trans ha)
    rw [hs, ht]
    exact .none
  | false =>
    rw [exec_live ha, exec_live (h.aborted.symm.trans ha), ← h.2]
    have hstep := worldStep_core (i := 0) (a := c.outcome.answer s.2 o) ho h.1
    generalize worldStep 0 o (c.outcome.answer s.2 o) s.1 = y at hstep ⊢
    generalize worldStep 0 o (c.outcome.answer s.2 o) t.1 = z at hstep ⊢
    cases hstep with
    | none => exact .none
    | some hyz => exact .some ⟨hyz.1, hyz.2, rfl⟩

end Steps

end TrpcMysql
