import TrpcMysql.Executor.Outcome
import TrpcMysql.Proxy.Discipline

/-!
# Who owns an executor

Every executor has one owner: a place in a shard's list, a transaction handle, a call in
progress, or nobody (`Owner`). `Owned` says how the owners show in the world and in the
views of the calls. `Known` lists what is known of a run, `Terms` also what is to be kept in it, and
`Terms.outline` is the proof outline for the calls of the proxy.

A call on a handle owns the handle's executor while it runs: the calls on one handle follow
each other (`Follows`).
-/

namespace TrpcMysql

open Function Conc

/-- The handle that a call works on. -/
def Call.handle : Call → Option HandleId
  | queryTx _ h _ _ _ | asyncQueryTx _ h _ _ _ | finish _ h _ | asyncFinish _ h _ | moveHandle h
  | dropHandle h => some h
  | _ => none

/-- The context that a call is made with. -/
def Call.ctx : Call → Option CtxId
  | query x _ _ _ | asyncQuery x _ _ _ | queryTx x _ _ _ _ | asyncQueryTx x _ _ _ _ | begin x
  | asyncBegin x | finish x _ _ | asyncFinish x _ _ => some x
  | _ => none

abbrev ProxyConfig := Config World WorldOp Call Result WorldOp.Reply

/-- The calls on one handle follow each other, and no pool is stopped or destroyed. -/
def Follows (cf : ProxyConfig) (c : Call) : Prop :=
  c.shutdown = false ∧ ∀ h, c.handle = some h → h < cf.world.nextHandle ∧
    ∀ i c', cf.Running i c' → c'.handle ≠ some h

/-- No call in progress uses the context of `c`. -/
def Alone (cf : ProxyConfig) (c : Call) : Prop :=
  ∀ x, c.ctx = some x → ∀ i c', cf.Running i c' → c'.ctx ≠ some x

/-- Filters that pass leave the status as it was, and those that reject leave an error. -/
def FilterKeeps (s : Status) (a : Answer) : Prop :=
  if a.pass then a.status.getD s = s else (a.status.getD s).ok = false

instance (s : Status) (a : Answer) : Decidable (FilterKeeps s a) := by
  unfold FilterKeeps
  infer_instance

/-- What call `i` left in the history. -/
def World.ownLog (w : World) (i : ℕ) : List Note := w.log.filterMap fun n => if n.1 = i then some n.2 else none

/-! ## Terms -/

/-- What is known of a run. -/
structure Known where
  /-- what is known of the environment of a call's executor -/
  given : Call → Given := fun _ => {}
  /-- steps at which a call is not turned away -/
  smooth : Call → World → WorldOp → Prop := fun _ _ _ => False
  /-- how the world is when a call reads the state of its handle, or begins to send its statement -/
  fit : Call → World → WorldOp → Prop := fun _ _ _ => True
  /-- how a call starts -/
  start : World → Call → Prop := fun _ _ => True
  /-- one call at a time uses a context, and filters keep its status -/
  contexts : Prop := False

/-- The answer to a step of `c` agrees with what is known. -/
def Known.Allows (K : Known) (c : Call) (w : World) : WorldOp → Answer → Prop
  | .client e o, a => (K.given c).Allows o a.toClientAnswer (w.execs e)
  | .runFilters pt x, a =>
    (K.contexts → FilterKeeps (w.ctxs x).status a) ∧ (K.smooth c w (.runFilters pt x) → a.pass = true)
  | .checkTimeout x, a => K.fit c w (.checkTimeout x) ∧ (K.smooth c w (.checkTimeout x) → a.timedOut = false)
  | .getState h, _ => K.fit c w (.getState h)
  | _, _ => True

instance {K : Known} [Decidable K.contexts] [∀ c w o, Decidable (K.smooth c w o)] [∀ c w o, Decidable (K.fit c w o)]
    [∀ c o a s, Decidable ((K.given c).Allows o a s)] (c : Call) (w : World) (o : WorldOp) (a : Answer) :
    Decidable (K.Allows c w o a) := by
  induction o using WorldOp.casesOn <;> first
    | exact isTrue trivial
    | exact inferInstanceAs (Decidable ((K.given _).Allows _ _ _))
    | exact inferInstanceAs (Decidable (K.fit _ _ _))
    | exact inferInstanceAs (Decidable (_ ∧ _))

@[reducible] def Known.guard (K : Known) : Guard World WorldOp Answer Call Result WorldOp.Reply where
  start cf c := K.start cf.world c ∧ Follows cf c ∧ (K.contexts → Alone cf c)
  act _ c w o a := K.Allows c w o a

/-- A call may start when the calls before it have returned. -/
theorem Follows.of_done {cf : ProxyConfig} {c : Call} (hc : c.shutdown = false)
    (hh : ∀ h ∈ c.handle, h < cf.world.nextHandle) (hd : ∀ f ∈ cf.frames, f.prog.done = true) : Follows cf c := by
  refine ⟨hc, fun h hx => ⟨hh h hx, fun i c' hr => ?_⟩⟩
  obtain ⟨p, hf, hp⟩ := hr
  have := hd _ (List.mem_of_getElem? hf)
  rw [hp] at this
  cases this

theorem Known.start_of_done {K : Known} {cf : ProxyConfig} {c : Call} (hs : K.start cf.world c) (hc : c.shutdown = false)
    (hh : ∀ h ∈ c.handle, h < cf.world.nextHandle) (hd : ∀ f ∈ cf.frames, f.prog.done = true) : K.guard.start cf c := by
  refine ⟨hs, .of_done hc hh hd, fun _ x _ i c' hr => ?_⟩
  obtain ⟨p, hf, hp⟩ := hr
  have := hd _ (List.mem_of_getElem? hf)
  rw [hp] at this
  cases this

/-- What is known of a run, and what is to be kept in it. -/
structure Terms extends Known where
  /-- idle executors have no open transaction -/
  clean : Prop := False
  /-- a connected executor has an owner -/
  kept : Prop := False
  /-- the state of a handle tells the truth -/
  truth : Prop := False
  /-- the executor of a handle stays in its session -/
  session : Prop := False
  /-- what is true of a call that returned, in terms of its history and its handle's session -/
  done : Call → Result → List Note → Option (ExecId × ℕ) → Prop := fun _ _ _ _ => True

/-! ## Views -/

/-- What a call knows of the world while it runs: its executor, its handle, the reference it
copied, the pool it found, its context, and its history. -/
structure View where
  live : Bool := false
  exec : Option ExecId := none
  state : ExecSt := {}
  hand : Option HandleId := none
  data : TransactionHandle := {}
  copy : Option ExecId := none
  pool : Option PoolId := none
  grip : Grip := {}
  ctxId : Option CtxId := none
  ctx : ClientContext := {}
  log : List Note := []

namespace View

/-- What an operation and its reply make of the executor, the copy and the pool. -/
def move (v : View) : (o : WorldOp) → o.Reply → View
  | .popBack .., some e => { v with exec := some e }
  | .newExecutor _, e => { v with exec := some e }
  | .pushBack .., true => { v with exec := none }
  | .newHandle _, _ => { v with exec := none }
  | .moveHandle _, _ => { v with exec := none }
  | .endHandle _, _ => { v with exec := none }
  | .getExecutor _, r => { v with copy := r }
  | .poolsGet _, some p => { v with pool := some p }
  | .poolsGetOrInsert .., p => { v with pool := some p }
  | .release e, _ => if v.copy = some e then { v with copy := none } else { v with exec := none }
  | _, _ => v

open Classical in
/-- The view brought up to date; the context is followed where no other call uses it. -/
noncomputable def sync (T : Terms) (i : ℕ) (v : View) (w : World) : View :=
  { v with
    state := v.exec.elim v.state w.execs
    data := v.hand.elim v.data w.handles
    ctx := if T.contexts then v.ctxId.elim v.ctx w.ctxs else v.ctx
    log := w.ownLog i }

noncomputable def next (T : Terms) (i : ℕ) (v : View) (o : WorldOp) (r : o.Reply) (w : World) : View :=
  sync T i { v.move o r with grip := v.grip.after o r } w

/-- The view of a call that starts. -/
noncomputable def begin (T : Terms) (i : ℕ) (c : Call) (w : World) : View :=
  sync T i { live := true, exec := c.handle.bind fun h => (w.handles h).executor, hand := c.handle,
             ctxId := c.ctx } w

/-- The view is up to date. -/
structure Synced (T : Terms) (i : ℕ) (v : View) (w : World) : Prop where
  state : ∀ e, v.exec = some e → v.state = w.execs e
  data : ∀ h, v.hand = some h → v.data = w.handles h
  ctx : T.contexts → ∀ x, v.ctxId = some x → v.ctx = w.ctxs x
  log : v.live = true → v.log = w.ownLog i
  pool : ∀ p, v.pool = some p → p < w.nextPool
  held : ∀ e, v.grip.held = some e → v.exec = some e
  mine : v.grip.mine = if v.hand.isNone then v.exec else none

end View

/-! ## Owners -/

inductive Owner where
  | nobody
  | idle (p : PoolId) (k : ℕ)
  | handle (h : HandleId)
  | call (i : ℕ)
  deriving DecidableEq

/-- The executor of the handle is only connected in the session that the handle was made in. -/
def InSession (t : TransactionHandle) (s : ExecSt) : Prop :=
  ∀ e, t.executor = some e → ∀ id, s.HasSession id → t.opened = some (e, id)

/-- How the owners show in the world and in the views of the calls. -/
structure Owned (T : Terms) (w : World) (vs : ℕ → View) (owner : ExecId → Owner) : Prop where
  nodup : ∀ p k, ((w.pools p).shards k).Nodup
  idle : ∀ e p k, e ∈ (w.pools p).shards k ↔ owner e = .idle p k
  handle : ∀ e h, (h < w.nextHandle ∧ (w.handles h).executor = some e ∧ ∀ i, (vs i).hand ≠ some h) ↔
    owner e = .handle h
  call : ∀ e i, (vs i).exec = some e ↔ owner e = .call i
  hand : ∀ i h, (vs i).hand = some h → h < w.nextHandle ∧ (w.handles h).executor = (vs i).exec ∧
    ∀ j, (vs j).hand = some h → j = i
  synced : ∀ i, (vs i).Synced T i w
  alone : T.contexts → ∀ i j x, (vs i).ctxId = some x → (vs j).ctxId = some x → i = j
  freshExec : ∀ e, w.nextExec ≤ e → owner e = .nobody ∧ ∀ i, (vs i).copy ≠ some e
  map : ∀ key p, w.executorPools key = some p → p < w.nextPool
  freshPool : ∀ p, w.nextPool ≤ p → ∀ k, (w.pools p).shards k = []
  refs : ∀ e (L : List ℕ), L.Nodup → (∀ i ∈ L, (vs i).copy = some e) →
    (if owner e = .nobody then 0 else 1) + L.length ≤ w.refs e
  idleOk : ∀ e p k, owner e = .idle p k → (w.execs e).Ok ∧ (T.clean → ¬ (w.execs e).TxOpen)
  handleOk : ∀ e h, owner e = .handle h → (w.execs e).Ok ∧ (T.session → InSession (w.handles h) (w.execs e))
  free : T.kept → ∀ e, owner e = .nobody → (w.execs e).this.isConnected = false
  alive : T.kept → w.aborted = false

/-! ## The outline -/

/-- What a step of call `i` may do to the state of a handle: it becomes committed only when the call saw its 'commit'
acknowledged, and rolled back only when the call saw its 'rollback' acknowledged or its connection is lost; neither
becomes the other; and in any other state the handle has no executor. -/
def Truthful (i : ℕ) (w w' : World) : Prop :=
  ∀ h, h < w.nextHandle → (w'.handles h).state ≠ (w.handles h).state →
    ((w'.handles h).state = .kCommitted → (w.handles h).state ≠ .kRollBacked ∧
      ∃ e id, (w.handles h).executor = some e ∧ .sql e (.acked id .commit) ∈ w.ownLog i) ∧
    ((w'.handles h).state = .kRollBacked → (w.handles h).state ≠ .kCommitted ∧
      ∃ e, (w.handles h).executor = some e ∧ ((w.execs e).this.isConnected = false ∨
        ∃ id, .sql e (.acked id .rollback) ∈ w.ownLog i)) ∧
    ((w'.handles h).state = .kCommitted ∨ (w'.handles h).state = .kRollBacked ∨ (w'.handles h).executor = none)

/-- What is left of the view when the call returns. -/
structure View.Finished (T : Terms) (v : View) : Prop where
  copy : v.copy = none
  exec : v.hand = none → v.exec = none
  held : ∀ e, v.exec = some e → v.state.Ok ∧ (T.session → InSession v.data v.state)

/-- The session that the handle of a call was made in. -/
def Call.opened (c : Call) (w : World) : Option (ExecId × ℕ) := c.handle.bind fun h => (w.handles h).opened

@[reducible] noncomputable def Terms.outline (T : Terms) : Outline World WorldOp Answer Call Result WorldOp.Reply where
  V := View
  rest := {}
  begin := View.begin T
  next := View.next T
  Inv w vs := ∃ owner, Owned T w vs owner
  Fits c v := v.hand = c.handle ∧ v.ctxId = c.ctx
  Holds v p := Disc v.grip p fun t _ => t.mine = none
  Step i _ w w' := T.truth → Truthful i w w'
  Unborn i w := w.ownLog i = []
  Post _ c v r := v.Finished T ∧ v.live = true ∧ v.hand = c.handle ∧
    T.done c r v.log (v.hand.bind fun _ => v.data.opened)
  Done i c r w := (∀ h, c.handle = some h → h < w.nextHandle) ∧ T.done c r (w.ownLog i) (c.opened w)

end TrpcMysql
