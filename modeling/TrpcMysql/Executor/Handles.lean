import TrpcMysql.Conc.Lockstep
import TrpcMysql.Executor.Closed

/-!
# Every MYSQL object is closed once

How often each MYSQL object of an executor is closed, over all sequences of calls. `Handle` is the life of
the object as the calls and the outcomes of connecting and pinging tell it: it is connected after a connect,
it is idle when it was made or when a ping failed, a connect that failed has closed it, and so has a `Close`
while it was connected. `Close` leaves an idle object alone and the destructor adds nothing, so the
object is lost when the executor goes (`closed_once_iff`). That is what the pool does with an executor that
it finds dead: `CheckAlive` takes `is_connected` back, `Close` finds nothing to close, and the last reference
is dropped (`evicted_never_closed`).

`Accounted` is the invariant: all objects but the open one of `mysql_` were closed once. It lasts while
no attempt to connect follows a failed one, which has left its closed object in `mysql_`, and then the handle
is what the fields and the object say (`Minded`).
-/

namespace TrpcMysql

open Function Conc

/-- `mysql_` points to an open object. -/
def ExecSt.holdsOpen (s : ExecSt) : Bool := s.this.mysql.any fun p => !(s.mysqls p).closed

/-- Every object that `mysql_init` returned was closed once. -/
def ExecSt.OnceClosed (s : ExecSt) : Prop := ∀ p < s.nextMysql, (s.mysqls p).closes = 1

instance : ∀ s : ExecSt, Decidable s.OnceClosed := fun s =>
  inferInstanceAs (Decidable (∀ p < s.nextMysql, (s.mysqls p).closes = 1))

/-- All objects but the open one of `mysql_` were closed once. -/
structure ExecSt.Accounted (s : ExecSt) : Prop where
  closes : ∀ p < s.nextMysql,
    (s.mysqls p).closes = if s.this.mysql = some p ∧ (s.mysqls p).closed = false then 0 else 1
  known : ∀ p ∈ s.this.mysql, p < s.nextMysql
  conn : s.this.isConnected = true → s.holdsOpen = true

/-! ## The life of the object -/

/-- The MYSQL object of an executor. -/
inductive Handle where
  /-- there is no executor -/
  | absent
  /-- open, but not connected -/
  | idle
  | connected
  /-- `Close` closed it -/
  | gone
  /-- the attempt to connect failed and closed it -/
  | failed
  deriving DecidableEq

namespace Handle

/-- What an attempt to connect and a ping tell. -/
def told (h : Handle) : (o : ClientOp) → o.Reply → Handle
  | .mysqlRealConnect .., true => .connected
  | .mysqlRealConnect .., false => .failed
  | .mysqlPing _, false => .idle
  | _, _ => h

/-- `Close`. -/
def closed (h : Handle) : Handle := if h = .connected then .gone else h

/-- What a call leaves, with the outcomes of the attempts and pings that it makes. -/
def after (h : Handle) (c : ExecutorCall) (s : ExecSt) (as : List ClientAnswer) : Handle :=
  match c with
  | .construct => .idle
  | .close => h.closed
  | .destroy => .absent
  | c => c.prog.watch clientExec told h s as

end Handle

/-- The object of `mysql_`, as the fields have it. -/
def ExecSt.handle (s : ExecSt) : Handle :=
  if s.this.isConnected then .connected
  else if s.holdsOpen then .idle
  else if s.this.mysql.isSome then .failed
  else .gone

theorem handle_ne_absent {s : ExecSt} : s.handle ≠ .absent := by
  unfold ExecSt.handle
  split
  · simp
  · split
    · simp
    · split <;> simp

theorem handle_connected {s : ExecSt} (h : s.this.isConnected = true) : s.handle = .connected := by
  simp [ExecSt.handle, h]

theorem handle_idle {s : ExecSt} (h : s.this.isConnected = false) (hopen : s.holdsOpen = true) : s.handle = .idle := by
  simp [ExecSt.handle, h, hopen]

theorem handle_failed {s : ExecSt} {p : MysqlPtr} (h : s.this.isConnected = false) (hm : s.this.mysql = some p)
    (hopen : s.holdsOpen = false) : s.handle = .failed := by
  simp [ExecSt.handle, h, hopen, hm]

theorem handle_gone {s : ExecSt} (h : s.this.isConnected = false) (hm : s.this.mysql = none) : s.handle = .gone := by
  simp [ExecSt.handle, h, ExecSt.holdsOpen, hm]

theorem handle_off (s : ExecSt) : ExecSt.handle { s with this := { s.this with isConnected := false } } =
    if s.holdsOpen then .idle else if s.this.mysql.isSome then .failed else .gone := rfl

/-- Only an object that was closed, or not made, is not open. -/
theorem ExecSt.Accounted.closed_iff {s : ExecSt} (hs : s.Accounted) :
    s.handle = .gone ∨ s.handle = .failed ↔ s.holdsOpen = false := by
  cases hc : s.this.isConnected with
  | true => simp [handle_connected hc, hs.conn hc]
  | false => cases ho : s.holdsOpen <;> cases hm : s.this.mysql <;> simp [handle, hc, ho, hm]

/-- Where no attempt to connect has failed, `mysql_` points to an open object if to any. -/
theorem ExecSt.Accounted.open_of_not_failed {s : ExecSt} {p : MysqlPtr} (hs : s.Accounted) (hm : s.this.mysql = some p)
    (h : s.handle ≠ .failed) : (s.mysqls p).closed = false := by
  have hopen : s.holdsOpen = true := by
    cases hc : s.this.isConnected with
    | true => exact hs.conn hc
    | false =>
      by_contra hno
      exact h (handle_failed hc hm (by simpa using hno))
  simpa [ExecSt.holdsOpen, hm] using hopen

/-! ## Operations -/

/-- The operations that make, close or reopen an object, move `mysql_`, set the flag or ping. -/
def ClientOp.handles : ClientOp → Bool
  | initMysql | clearMysql | mysqlClose _ | mysqlRealConnect .. | setConnected _ | mysqlPing _ => true
  | _ => false

theorem told_eq {o : ClientOp} (ho : o.handles = false) (h : Handle) (r : o.Reply) : h.told o r = h := by
  cases o <;> first | rfl | cases ho

/-- The state is the same as far as the objects are concerned. -/
structure SameHandles (s s' : ExecSt) : Prop where
  isConnected : s'.this.isConnected = s.this.isConnected
  mysql : s'.this.mysql = s.this.mysql
  nextMysql : s'.nextMysql = s.nextMysql
  closed : ∀ p, (s'.mysqls p).closed = (s.mysqls p).closed
  closes : ∀ p, (s'.mysqls p).closes = (s.mysqls p).closes

theorem SameHandles.of_fades {s s' : ExecSt} (h : Fades s s') : SameHandles s s' :=
  ⟨by rw [h.this], by rw [h.this], h.nextMysql, h.closed, h.closes⟩

namespace ExecSt

variable {s : ExecSt} {a : ClientAnswer} {p q : MysqlPtr} {m : Mysql}

/-- An update of an object that leaves its life alone. -/
theorem sameHandles_setMysql (hclosed : m.closed = (s.mysqls p).closed) (hcloses : m.closes = (s.mysqls p).closes) :
    SameHandles s (s.setMysql p m) := by
  refine ⟨rfl, rfl, rfl, fun q => setMysql_closed hclosed, fun q => ?_⟩
  by_cases hq : q = p
  · subst hq
    rw [setMysql_self]
    exact hcloses
  · rw [setMysql_of_ne hq]

theorem sameHandles_acknowledge {σ : Session} {sql : Sql} : SameHandles s (s.acknowledge p σ sql a) := by
  have hset : SameHandles s (s.setMysql p { (s.mysqls p).clear with
      session := some (σ.after sql), pending := resultOf a sql, more := moreOf a sql }) := sameHandles_setMysql rfl rfl
  exact ⟨rfl, rfl, rfl, hset.closed, hset.closes⟩

end ExecSt

theorem SameHandles.trans {s s' s'' : ExecSt} (h : SameHandles s s') (h' : SameHandles s' s'') : SameHandles s s'' :=
  ⟨h'.isConnected.trans h.isConnected, h'.mysql.trans h.mysql, h'.nextMysql.trans h.nextMysql,
    fun p => (h'.closed p).trans (h.closed p),
    fun p => (h'.closes p).trans (h.closes p)⟩

/-- **Only a few operations matter to the objects.** -/
theorem sameHandles_exec {o : ClientOp} (ho : o.handles = false) {a : ClientAnswer} {s s' : ExecSt} {r : o.Reply}
    (h : clientExec o a s = some (r, s')) : SameHandles s s' := by
  by_cases hm : o.minor = true
  · exact .of_fades (fades_exec hm h)
  have enter : ∀ p, Fades s (s.enter a p) := fun p => (Fades.refl s).enter
  cases o <;> simp only [ClientOp.handles, ClientOp.minor, Bool.true_eq_false, not_true_eq_false] at ho hm
  case setAutoCommit | refreshAliveTime | setExecutorId =>
    cases h
    exact ⟨rfl, rfl, rfl, fun _ => rfl, fun _ => rfl⟩
  case mysqlRealQuery =>
    obtain ⟨p, -, ⟨-, σ, -, rfl⟩ | ⟨-, rfl⟩⟩ := realQuery_exec h
    · exact (SameHandles.of_fades (enter p)).trans ExecSt.sameHandles_acknowledge
    · exact .of_fades (enter p).failMysql
  case mysqlStmtPrepare =>
    obtain ⟨q, -, ⟨-, σ, rfl⟩ | ⟨-, rfl⟩⟩ := stmtPrepare_exec h
    · exact (SameHandles.of_fades (enter (s.stmts q).mysql)).trans ⟨rfl, rfl, rfl, fun _ => rfl, fun _ => rfl⟩
    · exact .of_fades (enter _).failStmt
  case mysqlStmtExecute =>
    obtain ⟨q, p, -, -, ⟨-, σ, -, -, rfl⟩ | ⟨-, rfl⟩⟩ := stmtExecute_exec h
    · exact (SameHandles.of_fades (enter p)).trans ExecSt.sameHandles_acknowledge
    · exact .of_fades (enter p).failStmt
  case crash why => cases h

theorem holdsOpen_congr {s s' : ExecSt} (h : SameHandles s s') : s'.holdsOpen = s.holdsOpen := by
  unfold ExecSt.holdsOpen
  rw [h.mysql]
  exact congrArg (Option.any · s.this.mysql) (funext fun p => by rw [h.closed])

theorem handle_congr {s s' : ExecSt} (h : SameHandles s s') : s'.handle = s.handle := by
  rw [ExecSt.handle, ExecSt.handle, holdsOpen_congr h, h.isConnected, h.mysql]

theorem ExecSt.Accounted.congr {s s' : ExecSt} (hs : s.Accounted) (h : SameHandles s s') : s'.Accounted where
  closes p hp := by
    rw [h.closes, h.closed, h.mysql]
    exact hs.closes p (by rwa [← h.nextMysql])
  known p hp := by
    rw [h.nextMysql]
    exact hs.known p (by rwa [← h.mysql])
  conn hc := by
    rw [holdsOpen_congr h]
    exact hs.conn (h.isConnected ▸ hc)

/-- The flag is taken back. -/
theorem ExecSt.Accounted.off {s : ExecSt} (hs : s.Accounted) :
    ExecSt.Accounted { s with this := { s.this with isConnected := false } } :=
  ⟨hs.closes, hs.known, fun hc => (by cases hc)⟩

/-- All objects but the open one were closed once, and the handle is the one of the fields. -/
def Minded (x : ExecSt × Handle) : Prop := x.1.Accounted ∧ x.2 = x.1.handle

/-! ## Programs -/

/-- The operations, with the handle beside the state. -/
abbrev handleExec := Prog.watched clientExec Handle.told

/-- No attempt to connect follows a failed one. -/
def NoSecondTry : ClientOp → ClientAnswer → ExecSt × Handle → Prop
  | .mysqlRealConnect .., _, x => x.2 ≠ .failed
  | _, _, _ => True

instance : ∀ o a x, Decidable (NoSecondTry o a x) := fun o a x => by
  unfold NoSecondTry
  split <;> infer_instance

section Accounts

/-- While no attempt to connect follows a failed one, the program keeps the account. -/
abbrev Accounts {α : Type} (p : XProg α) : Prop :=
  Keeps handleExec NoSecondTry (fun _ _ _ => True) Minded p

variable {α β : Type} {s : ExecSt} {h : Handle}

/-- The executions from one state. -/
abbrev AccountsFrom (p : XProg α) (x : ExecSt × Handle) : Prop :=
  p.gwp handleExec NoSecondTry (fun _ _ _ => True) (fun _ => Minded) x

theorem minded_exec {o : ClientOp} (ho : o.handles = false) {a : ClientAnswer} {x x' : ExecSt × Handle} {r : o.Reply}
    (hx : Minded x) (he : handleExec o a x = some (r, x')) : Minded x' := by
  obtain ⟨he, htold⟩ := Prog.watched_eq_some.1 he
  have hsame := sameHandles_exec ho he
  exact ⟨hx.1.congr hsame, htold.trans ((told_eq ho x.2 r).trans (hx.2.trans (handle_congr hsame).symm))⟩

theorem accounts_op {o : ClientOp} (ho : o.handles = false) : Accounts (xop o) := fun _ hx _ _ =>
  ⟨trivial, fun _ _ he => minded_exec ho hx he⟩

theorem accounts_then {o : ClientOp} (ho : o.handles = false) {k : o.Reply → XProg α} (hk : ∀ r, Accounts (k r)) :
    Accounts (xop o >>= k) := (accounts_op ho).bind hk

/-- One operation, from one state. -/
theorem accountsFrom_op {o : ClientOp} {k : o.Reply → XProg α} (hk : ∀ a r s', NoSecondTry o a (s, h) →
    clientExec o a s = some (r, s') → AccountsFrom (k r) (s', h.told o r)) : AccountsFrom (xop o >>= k) (s, h) := by
  refine fun a ha => ⟨trivial, fun r x' he => ?_⟩
  obtain ⟨s', h'⟩ := x'
  obtain ⟨he, htold⟩ := Prog.watched_eq_some.1 he
  cases htold
  exact hk a r s' ha he

/-- The fields that the program reads are those of the state. -/
theorem accountsFrom_getThis {f : ExecutorFields → XProg α} (hf : AccountsFrom (f s.this) (s, h)) :
    AccountsFrom (getThis >>= f) (s, h) :=
  accountsFrom_op fun a t s' _ he => by cases he; exact hf

theorem accounts_getThis {f : ExecutorFields → XProg α}
    (hf : ∀ s : ExecSt, s.Accounted → AccountsFrom (f s.this) (s, s.handle)) :
    Accounts (getThis >>= f) := by
  rintro ⟨s, h⟩ ⟨hs, hh⟩
  obtain rfl : h = s.handle := hh
  exact accountsFrom_getThis (hf s hs)

/-- `mysql_init` where `mysql_` holds no open object. -/
theorem accounted_init (hs : s.Accounted) (hopen : s.holdsOpen = false) (hconn : s.this.isConnected = false) :
    ExecSt.Accounted { s.setMysql s.nextMysql {} with
      this := { s.this with mysql := some s.nextMysql }, nextMysql := s.nextMysql + 1 } := by
  refine ⟨fun p hp => ?_, fun p hp => ?_, fun hc => ?_⟩
  · by_cases hpn : p = s.nextMysql
    · subst hpn
      simp
    · -- the objects before it were closed once
      have hlt : p < s.nextMysql := by
        have : p < s.nextMysql + 1 := hp
        omega
      have hold := hs.closes p hlt
      have hne : ¬ (s.this.mysql = some p ∧ (s.mysqls p).closed = false) := by
        rintro ⟨hm, hcl⟩
        simp [ExecSt.holdsOpen, hm, hcl] at hopen
      rw [if_neg hne] at hold
      rw [show ((s.setMysql s.nextMysql {}).mysqls p) = s.mysqls p from ExecSt.setMysql_of_ne hpn, if_neg]
      · exact hold
      · exact fun h => hpn (Option.some.inj h.1).symm
  · obtain rfl : s.nextMysql = p := by simpa using hp
    exact Nat.lt_succ_self _
  · simp [hconn] at hc

/-- `mysql_close` on the open object of `mysql_`, which is taken for connected no more. -/
theorem accounted_close {p : MysqlPtr} (hs : s.Accounted) (hm : s.this.mysql = some p)
    (hopen : (s.mysqls p).closed = false) :
    ∀ q < s.nextMysql, ((s.setMysql p (s.mysqls p).close).mysqls q).closes = 1 := by
  intro q hq
  have hold := hs.closes q hq
  by_cases hqp : q = p
  · subst hqp
    rw [if_pos ⟨hm, hopen⟩] at hold
    simp [Mysql.close, Mysql.lose, hold]
  · rw [ExecSt.setMysql_of_ne hqp, hold, if_neg]
    rintro ⟨h, -⟩
    exact hqp (Option.some.inj (h.symm.trans hm))

/-- What follows `mysql_close`: the pointer goes or the flag does. -/
theorem accounted_closed {s' : ExecSt} (h : ∀ q < s'.nextMysql, (s'.mysqls q).closes = 1)
    (hopen : s'.holdsOpen = false) (hknown : ∀ p ∈ s'.this.mysql, p < s'.nextMysql)
    (hconn : s'.this.isConnected = false) : s'.Accounted := by
  refine ⟨fun q hq => ?_, hknown, fun hc => by simp [hconn] at hc⟩
  rw [h q hq, if_neg]
  rintro ⟨hm, hcl⟩
  simp [ExecSt.holdsOpen, hm, hcl] at hopen

namespace MysqlExecutor

/-- An attempt to connect tells what becomes of the object, if it is open where the handle has not failed. -/
theorem accounts_realConnect (hs : s.Accounted)
    (hopen : ∀ p, s.this.mysql = some p → h ≠ .failed → (s.mysqls p).closed = false) :
    AccountsFrom realConnect (s, h) := by
  refine accountsFrom_getThis (accountsFrom_op fun a r s₁ ha he => ?_)
  have ha : h ≠ .failed := ha
  obtain ⟨p, hp, ⟨rfl, -, -, rfl⟩ | ⟨rfl, rfl⟩⟩ := realConnect_exec he
  · -- the object stays open, and now it is connected
    have hs₁ : (s.enter a p).Accounted := hs.congr (.of_fades (Fades.refl s).enter)
    have hm : (s.enter a p).this.mysql = some p := by rw [ExecSt.enter_this]; exact hp
    have hclosed : ((s.enter a p).mysqls p).closed = false := by
      rw [ExecSt.enter_closed]
      exact hopen p hp ha
    have hsame : SameHandles (s.enter a p) ((s.enter a p).connected p) := by
      refine ⟨rfl, rfl, rfl, fun q => ?_, fun q => ?_⟩ <;> by_cases hq : q = p
      · subst hq; simp [ExecSt.connected, ExecSt.setMysql, hclosed]
      · simp [ExecSt.connected, ExecSt.setMysql, update_of_ne hq]
      · subst hq; simp [ExecSt.connected, ExecSt.setMysql, Mysql.clear]
      · simp [ExecSt.connected, ExecSt.setMysql, update_of_ne hq]
    have hs₂ := hs₁.congr hsame
    refine accountsFrom_op fun b u s₂ _ he => ?_
    cases he
    refine ⟨⟨hs₂.closes, hs₂.known, fun _ => ?_⟩, (handle_connected rfl).symm⟩
    have hopen : ((s.enter a p).connected p).holdsOpen = true := by
      rw [holdsOpen_congr hsame, ExecSt.holdsOpen, hm, Option.any_some, hclosed]
      rfl
    exact hopen
  · -- the object is closed, and the pointer stays
    set s₁ := (s.enter a p).setMysql p (((s.enter a p).mysqls p).fail a.error) with hs₁
    have hfade : Fades s s₁ := (Fades.refl s).enter.fail
    refine accountsFrom_op fun b u s₂ _ he => ?_
    rw [hp] at he
    cases he
    have hfade₂ : Fades s (s₁.enter b p) := hfade.enter
    have hs₂ := hs.congr (.of_fades hfade₂)
    have hm : (s₁.enter b p).this.mysql = some p := by rw [hfade₂.this]; exact hp
    have hgone : ((s₁.enter b p).setMysql p ((s₁.enter b p).mysqls p).close).holdsOpen = false := by
      rw [ExecSt.holdsOpen, ExecSt.setMysql_this, hm, Option.any_some, ExecSt.setMysql_self]
      rfl
    have hall := accounted_close hs₂ hm (by rw [hfade₂.closed]; exact hopen p hp ha)
    refine accountsFrom_op (k := fun _ => pure false) fun d u s₃ _ he => ?_
    cases he
    refine ⟨accounted_closed hall hgone hs₂.known rfl, ((handle_off _).trans ?_).symm⟩
    rw [hgone, ExecSt.setMysql_this, hm]
    rfl

theorem accounts_connect : Accounts connect := by
  refine accounts_getThis fun s hs => ?_
  split
  · exact ⟨hs, rfl⟩
  rename_i hconn
  rw [Bool.not_eq_true] at hconn
  cases hm : s.this.mysql with
  | some p => exact accounts_realConnect hs fun _ hp hf => hs.open_of_not_failed hp hf
  | none =>
    -- the attempt is made with a new object
    simp only [Option.isNone_none, if_true]
    refine accountsFrom_op fun a u s₁ _ he => ?_
    cases he
    refine accounts_realConnect (accounted_init hs (by simp [ExecSt.holdsOpen, hm]) hconn) fun p hp _ => ?_
    obtain rfl : s.nextMysql = p := by simpa using hp
    simp

theorem accounts_checkAlive : Accounts checkAlive := by
  refine accounts_getThis fun s hs => ?_
  cases hconn : s.this.isConnected with
  | false => exact ⟨hs, rfl⟩
  | true =>
    have hopen := hs.conn hconn
    obtain ⟨p, hm⟩ : ∃ p, s.this.mysql = some p := by
      cases hm : s.this.mysql with
      | none => simp [ExecSt.holdsOpen, hm] at hopen
      | some p => exact ⟨p, rfl⟩
    simp only [hm, Option.isSome_some, Bool.not_true, Bool.false_eq_true, if_false, if_true]
    refine accountsFrom_op fun a alive s₁ _ he => ?_
    have hsame : SameHandles s s₁ := .of_fades (fades_exec rfl he)
    cases alive with
    | true => exact ⟨hs.congr hsame, (handle_congr hsame).symm⟩
    | false =>
      refine accountsFrom_op (k := fun _ => pure false) fun b u s₂ _ he₂ => ?_
      cases he₂
      exact ⟨(hs.congr hsame).off, ((handle_off _).trans (if_pos ((holdsOpen_congr hsame).trans hopen))).symm⟩

theorem accounts_walk : Walk handleExec (fun x => x.1.this) NoSecondTry (fun _ _ _ => True) Minded fun _ => True where
  getThis {a x t x'} he := by
    obtain ⟨s', h'⟩ := x'
    obtain ⟨he, htold⟩ := Prog.watched_eq_some.1 he
    cases he
    cases htold
    exact ⟨rfl, rfl⟩
  op {o a x} ho _ hx _ := by
    have hh : o.handles = false := by
      cases o <;> first | rfl | simp [ClientOp.OfStatement, ClientOp.ofStatement, ClientOp.text?] at ho
    exact ⟨trivial, fun r x' he => minded_exec hh hx he⟩
  checkAlive := accounts_checkAlive
  connect := accounts_connect

end MysqlExecutor

end Accounts

section Close

open MysqlExecutor ExecutorCall

variable {s : ExecSt}

/-- `Close` closes the object of a connected executor. -/
theorem close_handle (hs : s.Accounted) :
    xwp close (fun _ s' => s'.Accounted ∧ s'.handle = s.handle.closed) s := by
  intro a t s₀ he
  cases he
  show (if (s.this.mysql.isSome && s.this.isConnected) = true then _ else _ : XProg Unit).wp clientExec _ s
  split
  · rename_i hc
    simp only [Bool.and_eq_true] at hc
    obtain ⟨p, hm⟩ := Option.isSome_iff_exists.1 hc.1
    rw [hm]
    intro a u s₁ he
    cases he
    have hfade : Fades s (s.enter a p) := (Fades.refl s).enter
    have hs₁ := hs.congr (.of_fades hfade)
    have hm₁ : (s.enter a p).this.mysql = some p := by rw [hfade.this]; exact hm
    have hopen := hs.conn hc.2
    rw [ExecSt.holdsOpen, hm, Option.any_some, Bool.not_eq_true'] at hopen
    have hall := accounted_close hs₁ hm₁ (by rw [hfade.closed]; exact hopen)
    intro b u s₂ he
    cases he
    intro d u s₃ he
    cases he
    refine ⟨accounted_closed hall rfl (fun q hq => by cases hq) rfl, ?_⟩
    rw [handle_connected hc.2]
    exact handle_gone rfl rfl
  · rename_i hc
    -- there is no object, or it is not connected: only the flag is set
    have hconn : s.this.isConnected = false := by
      by_contra hconn
      rw [Bool.not_eq_false] at hconn
      have hopen := hs.conn hconn
      cases hm : s.this.mysql with
      | none => simp [ExecSt.holdsOpen, hm] at hopen
      | some p => simp [hm, hconn] at hc
    intro a u s₁ he
    cases he
    have hsame : SameHandles s { s with this := { s.this with isConnected := false } } :=
      ⟨hconn.symm, rfl, rfl, fun _ => rfl, fun _ => rfl⟩
    refine ⟨hs.congr hsame, (handle_congr hsame).trans ?_⟩
    cases hm : s.this.mysql <;> cases ho : s.holdsOpen <;> simp [Handle.closed, ExecSt.handle, hconn, hm, ho]

/-- The constructor makes an object. -/
theorem construct_handle (hs : s.Accounted) (hopen : s.holdsOpen = false) :
    xwp construct (fun _ s' => s'.Accounted ∧ s'.handle = .idle) s := by
  have hconn : s.this.isConnected = false := by
    by_contra hconn
    rw [Bool.not_eq_false] at hconn
    simp [hs.conn hconn] at hopen
  intro a u s₁ he
  cases he
  intro a t s₂ he
  cases he
  have hinit := accounted_init hs hopen hconn
  have hopts : ∀ {m : Option MysqlPtr} {cs : String}, Prog.Uses (fun o : ClientOp => o.handles = false) (do
      xop (.mysqlSetCharacterSet m cs)
      xop (.mysqlOptions m .connectTimeout TRPC_MYSQL_API_TIMEOUT)
      xop (.mysqlOptions m .readTimeout TRPC_MYSQL_API_TIMEOUT)
      xop (.mysqlOptions m .writeTimeout TRPC_MYSQL_API_TIMEOUT)) := by
    intro m cs
    exact uses_op rfl fun _ => uses_op rfl fun _ => uses_op rfl fun _ => ⟨rfl, fun _ => trivial⟩
  refine hopts.keeps (I := fun s' : ExecSt => s'.Accounted ∧ s'.handle = .idle) (fun o a s₁ r s₂ ho hs₁ he => ?_)
    ⟨hinit, handle_idle hconn (by simp [ExecSt.holdsOpen, ExecSt.setMysql])⟩
  have hsame := sameHandles_exec ho he
  exact ⟨hs₁.1.congr hsame, (handle_congr hsame).trans hs₁.2⟩

end Close

/-! ## Whole lives -/

namespace ExecutorCall

open MysqlExecutor

def isConstruct : ExecutorCall → Bool
  | construct => true
  | _ => false

def isDestroy : ExecutorCall → Bool
  | destroy => true
  | _ => false

/-- The calls that neither make the object nor close it. -/
theorem accounts_prog {c : ExecutorCall} (hc : c.isConstruct = false) (hcl : c ≠ close) (hd : c.isDestroy = false) :
    Accounts c.prog := by
  cases c with
  | construct => cases hc
  | connect => exact accounts_connect.bind fun _ => .pure _
  | reconnect => exact accounts_connect.bind fun _ => .pure _
  | startReconnect => exact (keeps_startReconnect accounts_walk).bind fun _ => .pure _
  | checkAlive => exact accounts_checkAlive.bind fun _ => .pure _
  | isConnected => exact (accounts_getThis fun _ h => ⟨h, rfl⟩ : Accounts MysqlExecutor.isConnected).bind fun _ => .pure _
  | queryAll r sql args => exact (keeps_queryAll accounts_walk r args fun _ _ => trivial).bind fun _ => .pure _
  | execute r sql args => exact (keeps_execute accounts_walk r args trivial).bind fun _ => .pure _
  | autoCommit mode =>
    refine Keeps.bind ?_ fun _ => .pure _
    refine accounts_getThis fun s hs => (accounts_then rfl fun ok => ?_ : Accounts _) _ ⟨hs, rfl⟩
    cases ok
    · exact .pure _
    · exact accounts_then rfl fun _ => .pure _
  | getErrorNumber => exact (keeps_getErrorNumber accounts_walk).bind fun _ => .pure _
  | getErrorMessage => exact (keeps_getErrorMessage accounts_walk).bind fun _ => .pure _
  | close => exact absurd rfl hcl
  | destroy => cases hd

/-- `P` holds of every call of the sequence, with the handle that the calls before it tell. -/
def EachTold (P : Handle → ExecutorCall → ExecSt → List ClientAnswer → Prop) :
    Handle → List (ExecutorCall × List ClientAnswer) → ExecSt → Prop
  | _, [], _ => True
  | h, (c, as) :: cs, s => P h c s as ∧
    match c.prog.run clientExec s as with
    | none => True
    | some (_, s', _) => EachTold P (h.after c s as) cs s'

instance EachTold.decidable {P : Handle → ExecutorCall → ExecSt → List ClientAnswer → Prop}
    [∀ h c s as, Decidable (P h c s as)] :
    ∀ (h : Handle) (cs : List (ExecutorCall × List ClientAnswer)) (s : ExecSt), Decidable (EachTold P h cs s)
  | _, [], _ => isTrue trivial
  | h, (c, as) :: cs, s =>
    match hr : c.prog.run clientExec s as with
    | none => decidable_of_iff (P h c s as) (by simp [EachTold, hr])
    | some (_, s', _) =>
      have : Decidable (EachTold P (h.after c s as) cs s') := EachTold.decidable (h.after c s as) cs s'
      decidable_of_iff (P h c s as ∧ EachTold P (h.after c s as) cs s') (by simp [EachTold, hr])

/-- An executor is constructed where there is none, and no attempt to connect follows a failed one. -/
def Sound (h : Handle) (c : ExecutorCall) (s : ExecSt) (as : List ClientAnswer) : Prop :=
  (c.isConstruct = true ↔ h = .absent) ∧ c.prog.Along handleExec NoSecondTry (s, h) as

instance : ∀ h c s as, Decidable (Sound h c s as) := fun h c s as =>
  inferInstanceAs (Decidable ((c.isConstruct = true ↔ h = .absent) ∧ c.prog.Along handleExec NoSecondTry (s, h) as))

/-- When the executor is destroyed, every MYSQL object was closed once. -/
def ClosesOnce (c : ExecutorCall) (s : ExecSt) (as : List ClientAnswer) : Prop :=
  c.isDestroy = true → match c.prog.run clientExec s as with
    | none => True
    | some (_, s', _) => s'.OnceClosed

instance : ∀ c s as, Decidable (ClosesOnce c s as) := fun c s as => by
  unfold ClosesOnce
  cases c.prog.run clientExec s as <;> infer_instance

/-- The executor that is destroyed had a `Close` while it was connected, or its last attempt to connect failed. -/
def LetsGo (h : Handle) (c : ExecutorCall) (s : ExecSt) (as : List ClientAnswer) : Prop :=
  c.isDestroy = true → (c.prog.run clientExec s as).isSome = true → h = .gone ∨ h = .failed

instance : ∀ h c s as, Decidable (LetsGo h c s as) := fun h c s as =>
  inferInstanceAs (Decidable (c.isDestroy = true → (c.prog.run clientExec s as).isSome = true →
    h = .gone ∨ h = .failed))

end ExecutorCall

/-- Every object was closed once exactly if none is open in `mysql_`. -/
theorem ExecSt.Accounted.onceClosed_iff {s : ExecSt} (hs : s.Accounted) : s.OnceClosed ↔ s.holdsOpen = false := by
  constructor
  · intro h
    cases hm : s.this.mysql with
    | none => simp [holdsOpen, hm]
    | some p =>
      have hp := hs.known p hm
      have hone := (hs.closes p hp).symm.trans (h p hp)
      cases hcl : (s.mysqls p).closed with
      | true => simp [holdsOpen, hm, hcl]
      | false => rw [if_pos ⟨hm, hcl⟩] at hone; cases hone
  · intro h p hp
    rw [hs.closes p hp, if_neg]
    rintro ⟨hm, hcl⟩
    simp [holdsOpen, hm, hcl] at h

namespace ExecutorCall

open MysqlExecutor

/-- The destructor only comes to its end when the executor is not connected. -/
theorem destroy_not_connected {s : ExecSt} {as : List ClientAnswer} {x : Unit × ExecSt × List ClientAnswer}
    (hr : destroy.prog.run clientExec s as = some x) : s.this.isConnected = false := by
  cases as with
  | nil => cases hr
  | cons a as =>
    cases hc : s.this.isConnected with
    | false => rfl
    | true =>
      have hcrash : destroy.prog.run clientExec s (a :: as) =
          (if s.this.isConnected = true then crash .assertion
            else MysqlExecutor.close : XProg Unit).run clientExec s as := rfl
      rw [hcrash, if_pos hc] at hr
      cases as <;> cases hr

/-- What the calls tell fits the fields, and where there is no executor no object is left open. -/
def Fits (h : Handle) (s : ExecSt) : Prop := if h = .absent then s.holdsOpen = false else h = s.handle

theorem fits_handle {s : ExecSt} : Fits s.handle s := by
  rw [Fits, if_neg handle_ne_absent]

/-- **A call other than the destructor leaves the object as it is told.** -/
theorem handle_call {h : Handle} {c : ExecutorCall} {s s' : ExecSt} {as rest : List ClientAnswer} {u : Unit}
    (hs : s.Accounted) (hf : Fits h s) (hc : Sound h c s as) (hd : c.isDestroy = false)
    (hr : c.prog.run clientExec s as = some (u, s', rest)) : s'.Accounted ∧ Fits (h.after c s as) s' := by
  cases hcon : c.isConstruct with
  | true =>
    -- no object is left open by an executor before
    rw [Fits, if_pos (hc.1.1 hcon)] at hf
    obtain rfl : c = construct := by cases c <;> first | rfl | cases hcon
    obtain ⟨hs', hh⟩ := Prog.wp_run (Q := fun _ s' => s'.Accounted ∧ s'.handle = .idle) (construct_handle hs hf) hr
    refine ⟨hs', ?_⟩
    show Fits .idle s'
    rw [← hh]
    exact fits_handle
  | false =>
    have hne : h ≠ .absent := fun hh => by simp [hc.1.2 hh] at hcon
    rw [Fits, if_neg hne] at hf
    subst hf
    by_cases hcl : c = close
    · subst hcl
      obtain ⟨hs', hh⟩ := Prog.wp_run (Q := fun _ s' => s'.Accounted ∧ s'.handle = s.handle.closed) (close_handle hs) hr
      refine ⟨hs', ?_⟩
      show Fits s.handle.closed s'
      rw [← hh]
      exact fits_handle
    · obtain ⟨hs', hh⟩ := Prog.gwp_run (accounts_prog hcon hcl hd (s, s.handle) ⟨hs, rfl⟩) hc.2 (Prog.run_watched hr)
      have hafter : s.handle.after c s as = s'.handle := by
        refine Eq.trans ?_ hh
        cases c with
        | construct => cases hcon
        | destroy => cases hd
        | close => exact absurd rfl hcl
        | _ => rfl
      rw [hafter]
      exact ⟨hs', fits_handle⟩

/-- The destructor closes nothing: where it comes to its end, the executor is not connected. -/
theorem destroy_call {s s' : ExecSt} {as rest : List ClientAnswer} {u : Unit} (hs : s.Accounted)
    (hr : destroy.prog.run clientExec s as = some (u, s', rest)) : s'.Accounted ∧ s'.handle = s.handle := by
  have hconn := destroy_not_connected hr
  have hclosed : s.handle.closed = s.handle := if_neg fun h => by
    cases ho : s.holdsOpen <;> cases hm : s.this.mysql <;> simp [ExecSt.handle, hconn, ho, hm] at h
  rw [← hclosed]
  refine Prog.wp_run (Q := fun _ s' => s'.Accounted ∧ s'.handle = s.handle.closed) ?_ hr
  intro a t s₁ he
  cases he
  show (if s.this.isConnected = true then crash .assertion else MysqlExecutor.close : XProg Unit).wp clientExec _ s
  rw [if_neg (by simp [hconn])]
  exact close_handle hs

/-- **One call.** -/
theorem sound_call {h : Handle} {c : ExecutorCall} {s : ExecSt} {as : List ClientAnswer} (hs : s.Accounted)
    (hf : Fits h s) (hc : Sound h c s as) :
    (ClosesOnce c s as ↔ LetsGo h c s as) ∧ (LetsGo h c s as → ∀ u s' rest,
      c.prog.run clientExec s as = some (u, s', rest) → s'.Accounted ∧ Fits (h.after c s as) s') := by
  cases hd : c.isDestroy with
  | false =>
    refine ⟨?_, fun _ u s' rest hr => handle_call hs hf hc hd hr⟩
    simp [ClosesOnce, LetsGo, hd]
  | true =>
    obtain rfl : c = destroy := by cases c <;> first | rfl | cases hd
    have hne : h ≠ .absent := fun hh => by cases hc.1.2 hh
    rw [Fits, if_neg hne] at hf
    subst hf
    unfold ClosesOnce LetsGo
    cases hr : destroy.prog.run clientExec s as with
    | none => simp
    | some y =>
      obtain ⟨u, s', rest⟩ := y
      obtain ⟨hs', hh⟩ := destroy_call hs hr
      refine ⟨?_, fun hgo u₁ s₁ rest₁ he => ?_⟩
      · dsimp only
        rw [hs'.onceClosed_iff, ← hs'.closed_iff, hh]
        simp
      · cases he
        exact ⟨hs', (hs'.closed_iff.1 (hh ▸ hgo rfl rfl) : Fits .absent s')⟩

/-- **Every MYSQL object is closed once when its executor is destroyed, exactly if at each destruction** `Close` was
called while the executor was connected, or its last attempt to connect failed, in every sequence of calls
in which no attempt to connect follows a failed one. -/
theorem closed_once_iff (as : List ClientAnswer) (cs : List (ExecutorCall × List ClientAnswer))
    (h : EachTold Sound .absent ((construct, as) :: cs) {}) :
    Each ClosesOnce ((construct, as) :: cs) {} ↔ EachTold LetsGo .absent ((construct, as) :: cs) {} := by
  have key : ∀ (cs : List (ExecutorCall × List ClientAnswer)) (h : Handle) (s : ExecSt), s.Accounted → Fits h s →
      EachTold Sound h cs s → (Each ClosesOnce cs s ↔ EachTold LetsGo h cs s) := by
    intro cs
    induction cs with
    | nil => intro h s _ _ _; exact Iff.rfl
    | cons x cs ih =>
      obtain ⟨c, as⟩ := x
      intro h s hs hf hc
      obtain ⟨h1, h2⟩ := sound_call hs hf hc.1
      simp only [Each, EachTold, h1]
      -- after an executor that lost its object both sides are false
      refine and_congr_right fun hgo => ?_
      have h3 := hc.2
      cases hr : c.prog.run clientExec s as with
      | none => exact Iff.rfl
      | some y =>
        rw [hr] at h3
        obtain ⟨hs', hf'⟩ := h2 hgo _ _ _ hr
        exact ih _ _ hs' hf' h3
  exact key _ _ _ ⟨fun p hp => (by cases hp), fun p hp => (by cases hp), fun h => (by cases h)⟩ rfl h

/-- An executor that loses its connection, connects again with the same object, and is closed and destroyed. -/
theorem closed_once_iff_reconnect :
    Each ClosesOnce [(construct, List.replicate 6 {}), (connect, List.replicate 5 {}),
      (checkAlive, [{}, { lost := true }, {}]), (startReconnect, List.replicate 5 {}), (close, List.replicate 5 {}),
      (destroy, List.replicate 5 {})] {} :=
  (closed_once_iff (List.replicate 6 {}) [(connect, List.replicate 5 {}), (checkAlive, [{}, { lost := true }, {}]),
    (startReconnect, List.replicate 5 {}), (close, List.replicate 5 {}), (destroy, List.replicate 5 {})]
    (by decide +kernel)).2 (by decide +kernel)

/-- The pool's way with an executor that it finds dead: after the failed ping, `Close` does not close the object,
and the destructor does not either. -/
theorem evicted_never_closed : ¬ ∀ (as : List ClientAnswer) (cs : List (ExecutorCall × List ClientAnswer)),
    Each ClosesOnce ((construct, as) :: cs) {} := fun h =>
  absurd (h (List.replicate 6 {}) [(connect, List.replicate 5 {}), (checkAlive, [{}, { lost := true }, {}]),
    (close, List.replicate 5 {}), (destroy, List.replicate 5 {})]) (by decide +kernel)

end ExecutorCall

end TrpcMysql
