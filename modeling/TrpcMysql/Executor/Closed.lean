import TrpcMysql.Executor.Walk

/-!
# No use of a closed MYSQL object

A sequence of calls on one executor, each with the environment's answers to its
operations, and whether every libmysqlclient call in it is made with a MYSQL object that
is still open (`OnOpen`).

`mysql_` and `is_connected` together encode the object's life. `Connect` closes the object
when `mysql_real_connect` fails and keeps the pointer (`ExecSt.dangling`), so the next
attempt of `StartReconnect`, and every error query, is made with freed memory
(`connect_error_query`).

`closed_never_used`: while no attempt of `StartReconnect` fails, and after a failed
`Connect` only calls follow that leave `mysql_` alone, **no call is made with a closed
object**, whatever the other outcomes.
-/

namespace TrpcMysql

open Function Conc

/-! ## Sequences of calls -/

/-- What the users of an executor call. -/
inductive ExecutorCall where
  | construct
  | connect
  | reconnect
  | startReconnect
  | checkAlive
  | isConnected
  | queryAll (r : MysqlResults) (sql : Sql) (args : List InputArg)
  | execute (r : MysqlResults) (sql : Sql) (args : List InputArg)
  | autoCommit (mode : Bool)
  | getErrorNumber
  | getErrorMessage
  | close
  | destroy

namespace ExecutorCall

def prog : ExecutorCall → XProg Unit
  | construct => MysqlExecutor.construct
  | connect => do let _ ← MysqlExecutor.connect
  | reconnect => do let _ ← MysqlExecutor.reconnect
  | startReconnect => do let _ ← MysqlExecutor.startReconnect
  | checkAlive => do let _ ← MysqlExecutor.checkAlive
  | isConnected => do let _ ← MysqlExecutor.isConnected
  | queryAll r sql args => do let _ ← MysqlExecutor.queryAll r sql args
  | execute r sql args => do let _ ← MysqlExecutor.execute r sql args
  | autoCommit mode => do let _ ← MysqlExecutor.autoCommit mode
  | getErrorNumber => do let _ ← MysqlExecutor.getErrorNumber
  | getErrorMessage => do let _ ← MysqlExecutor.getErrorMessage
  | close => MysqlExecutor.close
  | destroy => MysqlExecutor.destroy

/-- `P` holds of every call of the sequence, in the state it starts from. -/
def Each (P : ExecutorCall → ExecSt → List ClientAnswer → Prop) :
    List (ExecutorCall × List ClientAnswer) → ExecSt → Prop
  | [], _ => True
  | (c, as) :: cs, s => P c s as ∧
    match c.prog.run clientExec s as with
    | none => True
    | some (_, s', _) => Each P cs s'

instance Each.decidable {P : ExecutorCall → ExecSt → List ClientAnswer → Prop}
    [∀ c s as, Decidable (P c s as)] :
    ∀ (cs : List (ExecutorCall × List ClientAnswer)) (s : ExecSt), Decidable (Each P cs s)
  | [], _ => isTrue trivial
  | (c, as) :: cs, s =>
    match hr : c.prog.run clientExec s as with
    | none => decidable_of_iff (P c s as) (by simp [Each, hr])
    | some (_, s', _) =>
      have : Decidable (Each P cs s') := Each.decidable cs s'
      decidable_of_iff (P c s as ∧ Each P cs s') (by simp [Each, hr])

/-- The MYSQL object that the call is made with was not closed before. -/
def OnOpen (o : ClientOp) (_ : ClientAnswer) (s : ExecSt) : Prop :=
  ∀ p ∈ o.mysqlArg, (s.mysqls p).closed = false

instance : ∀ o a s, Decidable (OnOpen o a s) :=
  fun o _ s => inferInstanceAs (Decidable (∀ p ∈ o.mysqlArg, (s.mysqls p).closed = false))

/-- Every libmysqlclient call that `c` makes is made with an open object. -/
def UsesOpen (c : ExecutorCall) (s : ExecSt) (as : List ClientAnswer) : Prop :=
  c.prog.Along clientExec OnOpen s as

instance : ∀ c s as, Decidable (UsesOpen c s as) :=
  fun c s as => inferInstanceAs (Decidable (c.prog.Along clientExec OnOpen s as))

end ExecutorCall

/-- `mysql_` points to an object that was closed. -/
def ExecSt.dangling (s : ExecSt) : Bool := s.this.mysql.any fun p => (s.mysqls p).closed

namespace ExecutorCall

/-- The calls that leave a `mysql_` alone that is not connected. -/
def leavesMysql : ExecutorCall → Bool
  | checkAlive | isConnected | close | destroy => true
  | _ => false

/-- `Connect` and `Reconnect`: one attempt, and it may fail. -/
def oneAttempt : ExecutorCall → Bool
  | connect | reconnect => true
  | _ => false

/-- The MYSQL object that `mysql_real_connect` is called with. -/
def connectArg : ClientOp → Option MysqlPtr
  | .mysqlRealConnect m _ => m
  | _ => none

/-- An attempt to connect succeeds. -/
def Connects (o : ClientOp) (a : ClientAnswer) (s : ExecSt) : Prop :=
  ∀ p ∈ connectArg o, ((s.enter a p).mysqls p).session.isNone = true ∧ a.ok = true

instance : ∀ o a s, Decidable (Connects o a s) := fun o a s => inferInstanceAs
  (Decidable (∀ p ∈ connectArg o, ((s.enter a p).mysqls p).session.isNone = true ∧ a.ok = true))

/-- The condition on a call: it leaves a closed object alone, and unless it is a single
attempt, its attempts to connect succeed. -/
def Careful (c : ExecutorCall) (s : ExecSt) (as : List ClientAnswer) : Prop :=
  if s.dangling then c.leavesMysql = true
  else c.oneAttempt = true ∨ c.prog.Along clientExec Connects s as

instance : ∀ c s as, Decidable (Careful c s as) := fun c s as =>
  inferInstanceAs (Decidable (if s.dangling then c.leavesMysql = true
    else c.oneAttempt = true ∨ c.prog.Along clientExec Connects s as))

end ExecutorCall

/-! ## Operations -/

/-- The operation does not change `mysql_` and closes nothing. -/
def ClientOp.keepsMysql : ClientOp → Bool
  | initMysql | clearMysql | mysqlClose _ => false
  | _ => true

namespace ExecSt

variable {s : ExecSt} {a : ClientAnswer} {p q : MysqlPtr} {m : Mysql}

theorem connected_closed (h : (s.mysqls q).closed = false) : ((s.connected p).mysqls q).closed = false := by
  by_cases hq : q = p
  · subst hq; simp [connected, setMysql]
  · simpa [connected, setMysql, update_of_ne hq] using h

end ExecSt

open ExecSt in
/-- **Only three operations touch `mysql_` or close an object.** -/
theorem keepsMysql_exec {o : ClientOp} (ho : o.keepsMysql = true) {a : ClientAnswer} {s s' : ExecSt}
    {r : o.Reply} (h : clientExec o a s = some (r, s')) :
    s'.this.mysql = s.this.mysql ∧ ∀ q, (s.mysqls q).closed = false → (s'.mysqls q).closed = false := by
  -- what only fades closes nothing
  have fades : Fades s s' → s'.this.mysql = s.this.mysql ∧
      ∀ q, (s.mysqls q).closed = false → (s'.mysqls q).closed = false := fun hf =>
    ⟨by rw [hf.this], fun q hq => (hf.closed q).trans hq⟩
  by_cases hm : o.minor = true
  · exact fades (fades_exec hm h)
  have enter : ∀ p, Fades s (s.enter a p) := fun p => (Fades.refl s).enter
  cases o <;> simp only [ClientOp.keepsMysql, ClientOp.minor, Bool.false_eq_true, not_true_eq_false] at ho hm
  case setConnected | setAutoCommit | refreshAliveTime | setExecutorId =>
    cases h; exact ⟨rfl, fun _ hq => hq⟩
  case mysqlRealConnect =>
    obtain ⟨p, -, ⟨-, -, -, rfl⟩ | ⟨-, rfl⟩⟩ := realConnect_exec h
    · exact ⟨congrArg _ enter_this, fun q hq => connected_closed (enter_closed.trans hq)⟩
    · exact fades (enter p).fail
  case mysqlRealQuery =>
    obtain ⟨p, -, ⟨-, σ, -, rfl⟩ | ⟨-, rfl⟩⟩ := realQuery_exec h
    · exact ⟨congrArg _ enter_this, fun q hq => (acknowledge_closed.trans enter_closed).trans hq⟩
    · exact fades (enter p).failMysql
  case mysqlStmtPrepare =>
    obtain ⟨q, -, ⟨-, σ, rfl⟩ | ⟨-, rfl⟩⟩ := stmtPrepare_exec h
    · exact ⟨congrArg _ enter_this, fun p hp => enter_closed.trans hp⟩
    · exact fades (enter _).failStmt
  case mysqlStmtExecute =>
    obtain ⟨q, p, -, -, ⟨-, σ, -, -, rfl⟩ | ⟨-, rfl⟩⟩ := stmtExecute_exec h
    · exact ⟨congrArg _ enter_this, fun q hq => (acknowledge_closed.trans enter_closed).trans hq⟩
    · exact fades (enter p).failStmt
  case crash why => cases h

/-! ## Programs that use `mysql_` while it is open -/

section Calm

open ExecutorCall (OnOpen Connects)

theorem open_of_not_dangling {s : ExecSt} (h : s.dangling = false) :
    ∀ p ∈ s.this.mysql, (s.mysqls p).closed = false := by
  intro p hp
  simp only [ExecSt.dangling, Option.mem_def.1 hp, Option.any_some] at h
  exact h

theorem not_dangling {s s' : ExecSt} (hm : s'.this.mysql = s.this.mysql)
    (hc : ∀ q, (s.mysqls q).closed = false → (s'.mysqls q).closed = false) (h : s.dangling = false) :
    s'.dangling = false := by
  unfold ExecSt.dangling
  rw [hm]
  cases hp : s.this.mysql with
  | none => rfl
  | some p => exact hc p (open_of_not_dangling h p hp)

/-- While its attempts to connect succeed, the program only uses open objects, and it
leaves `mysql_` open. -/
abbrev Calm {α : Type} (p : XProg α) : Prop := Keeps clientExec Connects OnOpen (fun s => s.dangling = false) p

variable {α β : Type}

/-- An operation that is not made with `mysql_`. -/
theorem calm_op {o : ClientOp} (ho : o.keepsMysql = true) (hm : o.mysqlArg = none) : Calm (xop o) := by
  intro s h a _
  refine ⟨fun p hp => (by rw [hm] at hp; cases hp), fun r s' he => ?_⟩
  obtain ⟨h1, h2⟩ := keepsMysql_exec ho he
  exact not_dangling h1 h2 h

/-- The same while `mysql_` is `m`. -/
def CalmWith (m : Option MysqlPtr) (p : XProg α) : Prop :=
  ∀ s : ExecSt, s.dangling = false → s.this.mysql = m →
    p.gwp clientExec Connects OnOpen (fun _ s' => s'.dangling = false) s

theorem CalmWith.pure (m : Option MysqlPtr) (a : α) : CalmWith m (pure a : XProg α) := fun _ h _ => h

/-- An operation made with `mysql_`. -/
theorem CalmWith.op {m : Option MysqlPtr} {o : ClientOp} (ho : o.keepsMysql = true) (hm : o.mysqlArg = m)
    {k : o.Reply → XProg α} (hk : ∀ r, CalmWith m (k r)) : CalmWith m (xop o >>= k) := by
  intro s h hs a _
  refine ⟨fun p hp => open_of_not_dangling h p (by rwa [hs, ← hm]), fun r s' he => ?_⟩
  obtain ⟨h1, h2⟩ := keepsMysql_exec ho he
  exact hk r s' (not_dangling h1 h2 h) (h1.trans hs)

theorem calm_self {s : ExecSt} (h : s.dangling = false) {o : ClientOp} (ho : o.keepsMysql = true)
    (hm : o.mysqlArg = s.this.mysql) {k : o.Reply → XProg α} (hk : ∀ r, Calm (k r)) :
    (xop o >>= k).gwp clientExec Connects OnOpen (fun _ s' => s'.dangling = false) s :=
  CalmWith.op ho hm (fun r s h _ => hk r s h) s h rfl

theorem calm_getThis {f : ExecutorFields → XProg α} (hf : ∀ s : ExecSt, s.dangling = false →
      (f s.this).gwp clientExec Connects OnOpen (fun _ s' => s'.dangling = false) s) :
    Calm (getThis >>= f) := by
  intro s h a _
  refine ⟨fun p hp => (by cases hp), fun t s' he => ?_⟩
  cases he
  exact hf s h

namespace MysqlExecutor

/-- An attempt that succeeds closes nothing. -/
theorem calm_realConnect : Calm realConnect := by
  refine calm_getThis fun s h => ?_
  intro a ha
  refine ⟨fun p hp => open_of_not_dangling h p hp, fun r s' he => ?_⟩
  have hc := keepsMysql_exec (o := .mysqlRealConnect ..) rfl he
  have h' : s'.dangling = false := not_dangling hc.1 hc.2 h
  obtain ⟨p, hp, ⟨rfl, -⟩ | ⟨-, hs'⟩⟩ := realConnect_exec he
  · exact ((calm_op rfl rfl).bind fun _ => .pure true) s' h'
  · -- the guard rules a failure out
    rw [hp] at ha he
    obtain ⟨h1, h2⟩ := ha p (by rw [ExecutorCall.connectArg, Option.mem_def])
    simp only [clientExec, h1, h2, Bool.and_self, if_true] at he
    cases he
    exact ((calm_op rfl rfl).bind fun _ => .pure true) _ h'

theorem calm_connect : Calm connect := by
  refine calm_getThis fun s h => ?_
  split
  · exact h
  split
  · intro a _
    refine ⟨fun p hp => (by cases hp), fun r s' he => ?_⟩
    cases he
    exact calm_realConnect _ (by simp [ExecSt.dangling, ExecSt.setMysql])
  · exact calm_realConnect s h

theorem calm_walk : Walk clientExec ExecSt.this Connects OnOpen (fun s => s.dangling = false) fun _ => True := by
  refine .ofOps (fun {o a s} ho hm h _ => ?_) calm_connect
  have hk : o.keepsMysql = true := by
    cases o <;> first
      | rfl
      | simp [ClientOp.OfStatement, ClientOp.ofStatement, ClientOp.text?, ClientOp.ofCheck] at ho
  refine ⟨fun p hp => ?_, fun r s' he => ?_⟩
  · rcases hm with hm | hm
    · rw [hm] at hp; cases hp
    · exact open_of_not_dangling h p (by rwa [← hm])
  · obtain ⟨h1, h2⟩ := keepsMysql_exec hk he
    exact not_dangling h1 h2 h

theorem calm_autoCommit (mode : Bool) : Calm (autoCommit mode) :=
  calm_getThis fun s h => calm_self h rfl rfl fun ok => by
    cases ok
    exacts [.pure _, (calm_op rfl rfl).bind fun _ => .pure _]

/-- `Close` takes the closed object away. -/
theorem calm_close : Calm close := by
  refine calm_getThis fun s h => ?_
  split
  · intro a _
    refine ⟨fun p hp => open_of_not_dangling h p hp, fun r s' _ => ?_⟩
    intro b _
    refine ⟨fun p hp => (by cases hp), fun r s'' he => ?_⟩
    cases he
    exact ((calm_op rfl rfl).bind fun _ => .pure _) _ rfl
  · exact ((calm_op rfl rfl).bind fun _ => .pure _) s h

/-- The constructor is calm from any state: it makes the object it uses. -/
theorem calm_construct (s : ExecSt) :
    construct.gwp clientExec Connects OnOpen (fun _ s' => s'.dangling = false) s := by
  intro a _
  refine ⟨fun p hp => (by cases hp), fun r s' he => ?_⟩
  cases he
  have hopt : ∀ m cs, CalmWith m (do
      xop (.mysqlSetCharacterSet m cs)
      xop (.mysqlOptions m .connectTimeout TRPC_MYSQL_API_TIMEOUT)
      xop (.mysqlOptions m .readTimeout TRPC_MYSQL_API_TIMEOUT)
      xop (.mysqlOptions m .writeTimeout TRPC_MYSQL_API_TIMEOUT)
      return ()) := by
    intro m cs
    have hopts : ∀ o v {k : XProg Unit}, CalmWith m k → CalmWith m (do xop (.mysqlOptions m o v); k) :=
      fun o v _ hk => CalmWith.op (o := .mysqlOptions m o v) rfl rfl fun _ => hk
    exact CalmWith.op (o := .mysqlSetCharacterSet m cs) rfl rfl fun _ =>
      hopts _ _ (hopts _ _ (hopts _ _ (CalmWith.pure m ())))
  exact calm_getThis (fun s h => hopt s.this.mysql s.this.option.charSet s h rfl) _
    (by simp [ExecSt.dangling, ExecSt.setMysql])

end MysqlExecutor

end Calm

/-! ## Whole lives -/

namespace ExecutorCall

open MysqlExecutor

theorem calm_prog : ∀ c : ExecutorCall, Calm c.prog
  | construct => fun s _ => calm_construct s
  | connect => calm_connect.bind fun _ => .pure _
  | reconnect => calm_connect.bind fun _ => .pure _
  | startReconnect => (keeps_startReconnect calm_walk).bind fun _ => .pure _
  | checkAlive => calm_walk.checkAlive.bind fun _ => .pure _
  | isConnected => (calm_getThis fun _ h => h : Calm MysqlExecutor.isConnected).bind fun _ => .pure _
  | queryAll r sql args => (keeps_queryAll calm_walk r args fun _ _ => trivial).bind fun _ => .pure _
  | execute r sql args => (keeps_execute calm_walk r args trivial).bind fun _ => .pure _
  | autoCommit mode => (calm_autoCommit mode).bind fun _ => .pure _
  | getErrorNumber => (keeps_getErrorNumber calm_walk).bind fun _ => .pure _
  | getErrorMessage => (keeps_getErrorMessage calm_walk).bind fun _ => .pure _
  | close => calm_close
  | destroy => (calm_getThis fun _ h => h : Calm MysqlExecutor.isConnected).bind fun b => by
      cases b; exacts [calm_close, calm_walk.crash]

/-- A closed object in `mysql_` is not taken for a connected one. -/
def Tidy (s : ExecSt) : Prop := s.dangling = true → s.this.isConnected = false

theorem tidy_of_not_dangling {s : ExecSt} (h : s.dangling = false) : Tidy s := fun hd => by simp [h] at hd

section Any

/-- Whatever the answers, the program only uses open objects, and it leaves `mysql_` tidy. -/
abbrev TidyFrom {α : Type} (p : XProg α) (s : ExecSt) : Prop :=
  p.gwp clientExec (fun _ _ _ => True) OnOpen (fun _ => Tidy) s

variable {α β : Type} {s : ExecSt}

theorem TidyFrom.getThis {f : ExecutorFields → XProg α} (h : TidyFrom (f s.this) s) :
    TidyFrom (getThis >>= f) s := by
  intro a _
  refine ⟨fun p hp => (by cases hp), fun r s' he => ?_⟩
  cases he
  exact h

theorem TidyFrom.forget {p : XProg α} (h : TidyFrom p s) : TidyFrom (p >>= fun _ => pure ()) s := by
  rw [TidyFrom, Prog.gwp_bind]
  exact Prog.gwp_mono (fun _ _ h => h) h

theorem TidyFrom.off {k : XProg α} (h : TidyFrom k { s with this := { s.this with isConnected := false } }) :
    TidyFrom (setConnected false >>= fun _ => k) s := by
  intro a _
  refine ⟨fun p hp => (by cases hp), fun r s' he => ?_⟩
  cases he
  exact h

/-- Without a connection, `Close`, `CheckAlive` and the destructor leave `mysql_` alone. -/
theorem leavesMysql_tidy {c : ExecutorCall} (hc : c.leavesMysql = true)
    (hs : s.this.isConnected = false) : TidyFrom c.prog s := by
  have ht : Tidy s := fun _ => hs
  have hclose : TidyFrom MysqlExecutor.close s := by
    refine .getThis ?_
    simp only [hs, Bool.and_false, Bool.false_eq_true, if_false]
    exact TidyFrom.off (k := pure ()) fun _ => rfl
  cases c
  all_goals simp only [leavesMysql, Bool.false_eq_true] at hc
  case checkAlive => exact .forget (.getThis (by simp only [hs]; exact ht))
  case isConnected => exact .forget (.getThis ht)
  case close => exact hclose
  case destroy =>
    refine TidyFrom.getThis (f := fun t => if t.isConnected = true then crash .assertion else MysqlExecutor.close) ?_
    rw [hs]
    exact hclose

/-- A single attempt, whatever its outcome. -/
theorem oneAttempt_tidy {c : ExecutorCall} (hc : c.oneAttempt = true) (hs : s.dangling = false) :
    TidyFrom c.prog s := by
  have hreal : ∀ s : ExecSt, s.dangling = false → TidyFrom realConnect s := by
    intro s hs
    refine .getThis fun a _ => ⟨fun p hp => open_of_not_dangling hs p hp, fun r s' he => ?_⟩
    have hc := keepsMysql_exec (o := .mysqlRealConnect ..) rfl he
    have h' : s'.dangling = false := not_dangling hc.1 hc.2 hs
    cases r
    · refine fun b _ => ⟨fun p hp => open_of_not_dangling h' p (by rwa [hc.1]), fun r s'' _ => ?_⟩
      exact TidyFrom.off (k := pure false) fun _ => rfl
    · refine fun b _ => ⟨fun p hp => (by cases hp), fun r s'' he => ?_⟩
      cases he
      exact tidy_of_not_dangling h'
  have hconn : TidyFrom MysqlExecutor.connect s := by
    refine .getThis ?_
    split
    · exact tidy_of_not_dangling hs
    split
    · refine fun a _ => ⟨fun p hp => (by cases hp), fun r s' he => ?_⟩
      cases he
      exact hreal _ (by simp [ExecSt.dangling, ExecSt.setMysql])
    · exact hreal s hs
  cases c
  all_goals simp only [oneAttempt, Bool.false_eq_true] at hc
  all_goals exact hconn.forget

end Any

/-- **One call.** -/
theorem careful_usesOpen {c : ExecutorCall} {s : ExecSt} {as : List ClientAnswer} (ht : Tidy s)
    (hc : Careful c s as) :
    UsesOpen c s as ∧ ∀ x s' rest, c.prog.run clientExec s as = some (x, s', rest) → Tidy s' := by
  unfold Careful at hc
  split at hc
  · rename_i hd
    have h := leavesMysql_tidy hc (ht hd)
    exact ⟨Prog.gwp_along h Prog.along_true, fun x s' rest hr => Prog.gwp_run h Prog.along_true hr⟩
  · rename_i hd
    rw [Bool.not_eq_true] at hd
    rcases hc with hc | hc
    · have h := oneAttempt_tidy hc hd
      exact ⟨Prog.gwp_along h Prog.along_true, fun x s' rest hr => Prog.gwp_run h Prog.along_true hr⟩
    · have h := calm_prog c s hd
      refine ⟨Prog.gwp_along h hc, fun x s' rest hr => ?_⟩
      have := Prog.gwp_run h hc hr
      exact tidy_of_not_dangling this

/-- **No libmysqlclient call is made with a closed object**, from the construction of the
executor on, in every sequence of calls that are careful: an attempt to connect only fails
in `Connect` or `Reconnect`, and then only calls follow that leave `mysql_` alone. -/
theorem closed_never_used (as : List ClientAnswer) (cs : List (ExecutorCall × List ClientAnswer))
    (h : Each Careful ((construct, as) :: cs) {}) : Each UsesOpen ((construct, as) :: cs) {} := by
  have key : ∀ (cs : List (ExecutorCall × List ClientAnswer)) (s : ExecSt), Tidy s →
      Each Careful cs s → Each UsesOpen cs s := by
    intro cs
    induction cs with
    | nil => intro s _ _; trivial
    | cons x cs ih =>
      obtain ⟨c, as⟩ := x
      intro s ht h
      obtain ⟨h1, h2⟩ := careful_usesOpen ht h.1
      refine ⟨h1, ?_⟩
      have h3 := h.2
      cases hr : c.prog.run clientExec s as with
      | none => trivial
      | some x => rw [hr] at h3; exact ih _ (h2 _ _ _ hr) h3
  exact key _ _ (tidy_of_not_dangling rfl) h

/-- A life with a lost connection, a reconnect and a failed attempt at the end. -/
theorem closed_never_used_reconnect :
    Each UsesOpen [(construct, List.replicate 6 {}), (connect, List.replicate 5 {}),
      (checkAlive, [{}, { lost := true }, {}]), (startReconnect, List.replicate 5 {}),
      (close, List.replicate 5 {}), (connect, [{}, {}, {}, { ok := false }, {}, {}]),
      (checkAlive, [{}]), (destroy, List.replicate 5 {})] {} :=
  closed_never_used _ _ (by decide +kernel)

/-- The error query of a caller whose `Connect` failed is made with the closed object. -/
theorem connect_error_query : ¬ ∀ (as : List ClientAnswer) (cs : List (ExecutorCall × List ClientAnswer)),
    Each UsesOpen ((construct, as) :: cs) {} := fun h =>
  absurd (h (List.replicate 6 {})
    [(connect, [{}, {}, { ok := false }, {}, {}]), (getErrorMessage, [{}, {}])]) (by decide +kernel)

end ExecutorCall

end TrpcMysql
