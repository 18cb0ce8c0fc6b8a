import TrpcMysql.Conc.Ending
import TrpcMysql.Executor.Closed
import TrpcMysql.Executor.Spec

/-!
# The settings of a MYSQL object

The constructor gives its MYSQL object the character set and three timeouts. `Connect` makes an object of its own
where `Close` has let the old one go, and gives it nothing.

* `Life`: the states of an executor between calls of `Connect`, `Close`, `CheckAlive`, `Reconnect` and
  `StartReconnect`, with what was called on its MYSQL objects by then.
* `configured_iff`: a connected executor's object had its settings, all through a life, exactly if no attempt to
  connect succeeded on an object that `Connect` made.
-/

namespace TrpcMysql

open Function Conc

/-- A call that sets up a MYSQL object. -/
inductive ConfigCall where
  | setCharacterSet (p : MysqlPtr) (charSet : String)
  | options (p : MysqlPtr) (opt : MysqlOpt) (value : ℕ)
  | realConnect (p : MysqlPtr) (ok : Bool)
  deriving DecidableEq

/-- `mysql_real_connect` on `p`. -/
def ConfigCall.connects (p : MysqlPtr) : ConfigCall → Bool
  | realConnect q _ => q = p
  | _ => false

def configCalls : (o : ClientOp) → o.Reply → List ConfigCall
  | .mysqlSetCharacterSet (some p) charSet, _ => [.setCharacterSet p charSet]
  | .mysqlOptions (some p) opt value, _ => [.options p opt value]
  | .mysqlRealConnect (some p) _, ok => [.realConnect p ok]
  | _, _ => []

/-- The option's character set, and the timeouts. -/
def settings (option : MysqlConnOption) (p : MysqlPtr) : List ConfigCall :=
  [.setCharacterSet p option.charSet, .options p .connectTimeout TRPC_MYSQL_API_TIMEOUT,
    .options p .readTimeout TRPC_MYSQL_API_TIMEOUT, .options p .writeTimeout TRPC_MYSQL_API_TIMEOUT]

/-- The calls before the first `mysql_real_connect` on `p`. -/
def beforeConnect (p : MysqlPtr) (tr : List ConfigCall) : List ConfigCall := tr.takeWhile fun c => !c.connects p

/-- While the executor is connected, its MYSQL object was given all settings before `mysql_real_connect` was called
on it. -/
def ExecSt.Configured (s : ExecSt) (tr : List ConfigCall) : Prop :=
  s.this.isConnected = true → ∃ p, s.this.mysql = some p ∧ .realConnect p true ∈ tr ∧
    ∀ c ∈ settings s.this.option p, c ∈ beforeConnect p tr

namespace ExecutorCall

/-- The calls that are about the connection. -/
def ofConnection : ExecutorCall → Bool
  | connect | close | checkAlive | reconnect | startReconnect => true
  | _ => false

end ExecutorCall

/-- The states of an executor between its calls, with the calls on its MYSQL objects. -/
inductive Life (option : MysqlConnOption) : ExecSt → List ConfigCall → Prop
  | made (as : List ClientAnswer) {s : ExecSt} {rest : List ClientAnswer}
      (h : MysqlExecutor.construct.run clientExec { this := { option := option } } as = some ((), s, rest)) :
      Life option s (MysqlExecutor.construct.seen clientExec configCalls { this := { option := option } } as)
  | called (c : ExecutorCall) (as : List ClientAnswer) {s s' : ExecSt} {tr : List ConfigCall} {rest : List ClientAnswer}
      (hl : Life option s tr) (hc : c.ofConnection = true) (h : c.prog.run clientExec s as = some ((), s', rest)) :
      Life option s' (tr ++ c.prog.seen clientExec configCalls s as)

/-! ## What a call leaves -/

/-- The constructor's object 0 has its settings, another has none, and a connected executor's object was connected. -/
structure Lived (option : MysqlConnOption) (s : ExecSt) (tr : List ConfigCall) : Prop where
  same : s.this.option = option
  next : 0 < s.nextMysql
  given : ∀ c ∈ settings option 0, c ∈ beforeConnect 0 tr
  alone : ∀ p charSet, .setCharacterSet p charSet ∈ tr → p = 0
  conn : s.this.isConnected = true → ∃ p, s.this.mysql = some p ∧ .realConnect p true ∈ tr

/-- The object of the last attempt that succeeded is the executor's. -/
def Latest (tr tr' : List ConfigCall) (s : ExecSt) : Prop :=
  ∀ p, .realConnect p true ∈ tr' → .realConnect p true ∈ tr ∨ s.this.isConnected = true ∧ s.this.mysql = some p

/-- What is logged and left at the end of the program. -/
abbrev Logs {α : Type} (p : XProg α) (Q : List ConfigCall → α → ExecSt → Prop) (tr : List ConfigCall)
    (s : ExecSt) : Prop :=
  p.Tells clientExec configCalls (fun _ _ => True) Q tr s

section Steps

variable {option : MysqlConnOption} {s s' : ExecSt} {tr tr' tr'' : List ConfigCall} {α β : Type}
  {Q : List ConfigCall → β → ExecSt → Prop}

theorem logs_op {o : ClientOp} {f : o.Reply → XProg β}
    (hf : ∀ a r s', clientExec o a s = some (r, s') → Logs (f r) Q (tr ++ configCalls o r) s') :
    Logs (xop o >>= f) Q tr s := Prog.tells_op (fun _ _ => trivial) hf

theorem logs_getThis {f : ExecutorFields → XProg β} (hf : Logs (f s.this) Q tr s) : Logs (getThis >>= f) Q tr s := by
  refine logs_op fun a r s' he => ?_
  cases he
  simpa [configCalls] using hf

theorem logs_run {p : XProg α} {Q : List ConfigCall → α → ExecSt → Prop} {x : α} {as rest : List ClientAnswer}
    (h : Logs p Q tr s) (hrun : p.run clientExec s as = some (x, s', rest)) :
    Q (tr ++ p.seen clientExec configCalls s as) x s' := h.ending (Prog.ending_of_run hrun)

theorem beforeConnect_append {p : MysqlPtr} {c : ConfigCall} (hc : c ∈ beforeConnect p tr) :
    c ∈ beforeConnect p (tr ++ tr') := by
  unfold beforeConnect at *
  rw [List.takeWhile_append]
  split
  · exact List.mem_append_left _ ((List.takeWhile_subset _) hc)
  · exact hc

theorem Latest.refl : Latest tr tr s := fun _ hp => .inl hp

/-- After an attempt that failed, all that succeeded did so before. -/
theorem Latest.trans (h : Latest tr tr' s) (hs : s.this.isConnected = false) (h' : Latest tr' tr'' s') :
    Latest tr tr'' s' := by
  intro p hp
  rcases h' p hp with hp | hp
  · rcases h p hp with hp | ⟨hc, -⟩
    · exact .inl hp
    · rw [hs] at hc
      cases hc
  · exact .inr hp

/-- The executor's fields may change as long as it is not taken for connected. -/
theorem Lived.off (h : Lived option s tr) (ho : s'.this.option = s.this.option) (hn : s.nextMysql ≤ s'.nextMysql)
    (hc : s'.this.isConnected = false) : Lived option s' tr :=
  ⟨ho.trans h.same, h.next.trans_le hn, h.given, h.alone, fun h => by rw [hc] at h; cases h⟩

/-- An attempt to connect on `p`; the flag tells its outcome. -/
theorem Lived.attempt {p : MysqlPtr} {ok : Bool} (h : Lived option s tr) (ho : s'.this.option = s.this.option)
    (hn : s'.nextMysql = s.nextMysql) (hc : s'.this.isConnected = ok) (hm : s'.this.mysql = some p) :
    Lived option s' (tr ++ [.realConnect p ok]) := by
  refine ⟨ho.trans h.same, hn ▸ h.next, fun c hcall => beforeConnect_append (h.given c hcall), fun q charSet hq => ?_,
    fun hconn => ?_⟩
  · rw [List.mem_append, List.mem_singleton] at hq
    rcases hq with hq | hq
    · exact h.alone q charSet hq
    · cases hq
  · obtain rfl : ok = true := hc.symm.trans hconn
    exact ⟨p, hm, by simp⟩

@[simp] theorem ExecSt.enter_nextMysql {a : ClientAnswer} {p : MysqlPtr} : (s.enter a p).nextMysql = s.nextMysql :=
  (Fades.refl s).enter.nextMysql

/-- What every call ends in. -/
def CallEnds (option : MysqlConnOption) (tr tr' : List ConfigCall) (s : ExecSt) : Prop :=
  Lived option s tr' ∧ Latest tr tr' s

namespace MysqlExecutor

/-- The constructor's calls. -/
theorem construct_logs (option : MysqlConnOption) :
    Logs construct (fun tr' _ s' => Lived option s' tr' ∧ s'.this.isConnected = false ∧
    ∀ p, .realConnect p true ∉ tr') [] { this := { option := option } } := by
  refine logs_op fun a r s₁ he => ?_
  cases he
  refine logs_getThis (logs_op fun b r s₂ h₂ => logs_op fun c r s₃ h₃ => logs_op fun d r s₄ h₄ => ?_)
  refine fun e => ⟨fun _ => trivial, fun r s₅ h₅ => ?_⟩
  cases h₂
  cases h₃
  cases h₄
  cases h₅
  refine ⟨⟨by simp, by simp, ?_, ?_, ?_⟩, by simp, ?_⟩
  · simp [settings, beforeConnect, configCalls, ConfigCall.connects]
  · simp [configCalls]
  · simp
  · simp [configCalls]

theorem realConnect_logs {p : MysqlPtr} (h : Lived option s tr) (hm : s.this.mysql = some p) :
    Logs realConnect (fun tr' ok s' => CallEnds option tr tr' s' ∧ s'.this.isConnected = ok) tr s := by
  refine logs_getThis ?_
  rw [hm]
  refine logs_op fun a ok s₁ he => ?_
  obtain ⟨p', hp', ⟨rfl, -, -, rfl⟩ | ⟨rfl, rfl⟩⟩ := realConnect_exec he
  · obtain rfl : p = p' := Option.some.inj hp'
    refine logs_op fun b r s₂ he => ?_
    cases he
    simp only [configCalls, List.append_nil]
    have hm' : (((s.enter a p).connected p).this.mysql) = some p := by simpa [ExecSt.connected] using hm
    refine Prog.tells_pure ⟨⟨h.attempt ?_ ?_ rfl hm', fun q hq => ?_⟩, rfl⟩
    · simp [ExecSt.connected]
    · simp [ExecSt.connected, ExecSt.setMysql]
    · rw [List.mem_append, List.mem_singleton] at hq
      rcases hq with hq | hq
      · exact .inl hq
      · cases hq
        exact .inr ⟨rfl, hm'⟩
  · obtain rfl : p = p' := Option.some.inj hp'
    refine logs_op fun b r s₂ he => logs_op fun c r' s₃ he' => ?_
    cases he
    cases he'
    simp only [configCalls, List.append_nil]
    refine Prog.tells_pure ⟨⟨h.attempt ?_ ?_ rfl ?_, fun q hq => ?_⟩, rfl⟩
    · simp
    · simp [ExecSt.setMysql]
    · simpa using hm
    · rw [List.mem_append, List.mem_singleton] at hq
      rcases hq with hq | hq
      · exact .inl hq
      · cases hq

theorem connect_logs (h : Lived option s tr) :
    Logs connect (fun tr' ok s' => CallEnds option tr tr' s' ∧ s'.this.isConnected = ok) tr s := by
  refine logs_getThis ?_
  by_cases hc : s.this.isConnected = true
  · rw [if_pos hc]
    exact Prog.tells_pure ⟨⟨h, .refl⟩, hc⟩
  rw [if_neg hc]
  rw [Bool.not_eq_true] at hc
  cases hm : s.this.mysql with
  | some p => exact realConnect_logs h hm
  | none =>
    refine logs_op fun a r s₁ he => ?_
    cases he
    have h₁ : Lived option { s.setMysql s.nextMysql {} with
        this := { s.this with mysql := some s.nextMysql }, nextMysql := s.nextMysql + 1 } tr :=
      h.off rfl (Nat.le_succ _) hc
    simpa [configCalls] using realConnect_logs h₁ rfl

theorem retry_logs (n : ℕ) : ∀ {tr s}, Lived option s tr →
    Logs (retry n) (fun tr' _ s' => CallEnds option tr tr' s') tr s := by
  induction n with
  | zero => exact fun h => Prog.tells_pure ⟨h, .refl⟩
  | succ n ih =>
    intro tr s h
    refine Prog.tells_call ?_ (connect_logs h)
    rintro tr₁ ok s₁ ⟨⟨h₁, hlatest⟩, hok⟩
    cases ok
    · refine Prog.Tells.mono ?_ (ih h₁)
      rintro tr₂ done s₂ ⟨h₂, hlatest'⟩
      exact ⟨h₂, hlatest.trans hok hlatest'⟩
    · exact Prog.tells_pure ⟨h₁, hlatest⟩

/-- What is logged stays, and the executor is not connected. -/
theorem off_logs (h : Lived option s tr) (ho : s'.this.option = s.this.option) (hn : s'.nextMysql = s.nextMysql) {x : α} :
    Logs (do setConnected false; return x) (fun tr' _ s' => CallEnds option tr tr' s') tr s' := by
  refine logs_op fun a r s₂ he => ?_
  cases he
  simp only [configCalls, List.append_nil]
  exact Prog.tells_pure ⟨h.off ho hn.ge rfl, .refl⟩

theorem checkAlive_logs (h : Lived option s tr) :
    Logs checkAlive (fun tr' _ s' => CallEnds option tr tr' s') tr s := by
  refine logs_getThis ?_
  by_cases hc : s.this.isConnected = true
  · obtain ⟨p, hm, hp⟩ := h.conn hc
    simp only [hc, hm, Option.isSome_some, Bool.not_true, Bool.false_eq_true, if_false, if_true]
    refine logs_op fun a alive s₁ he => ?_
    simp only [configCalls, List.append_nil]
    obtain ⟨p', hp', ⟨rfl, -, rfl⟩ | ⟨rfl, -, rfl⟩⟩ := ping_exec he
    · refine Prog.tells_pure ⟨⟨?_, ?_, h.given, h.alone, fun _ => ⟨p, by simpa using hm, hp⟩⟩, .refl⟩
      · simpa using h.same
      · simpa [ExecSt.setMysql] using h.next
    · exact off_logs h (by simp) (by simp [ExecSt.setMysql])
  · simp only [hc, Bool.not_false, if_true]
    exact Prog.tells_pure ⟨h, .refl⟩

theorem close_logs (h : Lived option s tr) : Logs close (fun tr' _ s' => CallEnds option tr tr' s') tr s := by
  have hend : ∀ s₁ : ExecSt, s₁.this.option = s.this.option → s₁.nextMysql = s.nextMysql →
      Logs (setConnected false) (fun tr' _ s' => CallEnds option tr tr' s') tr s₁ := by
    intro s₁ ho hn
    have := off_logs (x := ()) h ho hn
    exact this
  refine logs_getThis ?_
  by_cases hc : (s.this.mysql.isSome && s.this.isConnected) = true
  · rw [if_pos hc]
    cases hm : s.this.mysql with
    | none => rw [hm] at hc; cases hc
    | some p =>
      refine logs_op fun a r s₁ he => logs_op fun b r' s₂ he' => ?_
      cases he
      cases he'
      simp only [configCalls, List.append_nil]
      exact hend _ (by simp) (by simp [ExecSt.setMysql])
  · rw [if_neg hc]
    exact hend s rfl rfl

end MysqlExecutor

open MysqlExecutor in
theorem call_logs {c : ExecutorCall} (hc : c.ofConnection = true) (h : Lived option s tr) :
    Logs c.prog (fun tr' _ s' => CallEnds option tr tr' s') tr s := by
  cases c with
  | connect => exact Prog.tells_call (fun _ _ _ h => h.1) (connect_logs h)
  | reconnect => exact Prog.tells_call (fun _ _ _ h => h.1) (connect_logs h)
  | startReconnect => exact Prog.tells_call (fun _ _ _ h => h) (retry_logs RECONNECT_MAX_RETRY h)
  | checkAlive => exact Prog.tells_call (fun _ _ _ h => h) (checkAlive_logs h)
  | close => exact close_logs h
  | _ => cases hc

end Steps

/-! ## Whole lives -/

section Lives

variable {option : MysqlConnOption} {s : ExecSt} {tr : List ConfigCall}

theorem Life.lived (h : Life option s tr) : Lived option s tr := by
  induction h with
  | made as h => exact (logs_run (MysqlExecutor.construct_logs option) h).1
  | called c as hl hc h ih => exact (logs_run (call_logs hc ih) h).1

/-- Where an attempt succeeded on `p`, there was a time when `p` was the connected executor's object. -/
theorem Life.attempt (h : Life option s tr) {p : MysqlPtr} (hp : .realConnect p true ∈ tr) :
    ∃ s₁ tr₁, Life option s₁ tr₁ ∧ tr₁ <+: tr ∧ s₁.this.isConnected = true ∧ s₁.this.mysql = some p := by
  induction h with
  | made as h => exact absurd hp ((logs_run (MysqlExecutor.construct_logs option) h).2.2 p)
  | called c as hl hc h ih =>
    rcases (logs_run (call_logs hc hl.lived) h).2 p hp with hold | ⟨hconn, hm⟩
    · obtain ⟨s₁, tr₁, h₁, hpre, hs₁⟩ := ih hold
      exact ⟨s₁, tr₁, h₁, hpre.trans (List.prefix_append _ _), hs₁⟩
    · exact ⟨_, _, .called c as hl hc h, List.prefix_rfl, hconn, hm⟩

/-- A connected executor's object has its settings if it is the one that the constructor made. -/
theorem Lived.configured_first (h : Lived option s tr) :
    s.Configured tr ↔ (s.this.isConnected = true → s.this.mysql = some 0) := by
  constructor
  · intro hconf hc
    obtain ⟨p, hm, -, hset⟩ := hconf hc
    have hmem : ConfigCall.setCharacterSet p s.this.option.charSet ∈ tr :=
      List.takeWhile_subset _ (hset _ List.mem_cons_self)
    rw [hm, h.alone p _ hmem]
  · intro hfirst hc
    obtain ⟨p, hm, hp⟩ := h.conn hc
    obtain rfl : p = 0 := Option.some.inj (hm.symm.trans (hfirst hc))
    refine ⟨0, hm, hp, ?_⟩
    rw [h.same]
    exact h.given

/-- **When the settings survive.** In a life of an executor, a connected executor's object has had its settings at
every time between two calls, exactly if no attempt to connect succeeded on another object than the constructor's. -/
theorem configured_iff (h : Life option s tr) :
    (∀ s₁ tr₁, Life option s₁ tr₁ → tr₁ <+: tr → s₁.Configured tr₁) ↔ ∀ p, .realConnect p true ∈ tr → p = 0 := by
  constructor
  · intro hall p hp
    obtain ⟨s₁, tr₁, h₁, hpre, hconn, hm⟩ := h.attempt hp
    have hfirst := h₁.lived.configured_first.1 (hall s₁ tr₁ h₁ hpre) hconn
    exact Option.some.inj (hm.symm.trans hfirst)
  · intro hfirst s₁ tr₁ h₁ hpre
    refine h₁.lived.configured_first.2 fun hconn => ?_
    obtain ⟨p, hm, hp⟩ := h₁.lived.conn hconn
    rw [hm, hfirst p (hpre.subset hp)]

end Lives

/-- Connected twice with the constructor's object, which a ping found lost in between. -/
theorem life_reconnect : ∃ s tr, Life {} s tr ∧ tr = settings {} 0 ++ [.realConnect 0 true, .realConnect 0 true] :=
  ⟨_, _, .called .startReconnect (List.replicate 5 {}) (.called .checkAlive [{}, { lost := true }, {}]
    (.called .connect (List.replicate 5 {}) (.made (List.replicate 6 {}) rfl) rfl rfl) rfl rfl) rfl rfl, rfl⟩

theorem configured_reconnect : ∃ s tr, Life {} s tr ∧ .realConnect 0 true ∈ tr ∧
    ∀ s₁ tr₁, Life {} s₁ tr₁ → tr₁ <+: tr → s₁.Configured tr₁ := by
  obtain ⟨s, tr, h, htr⟩ := life_reconnect
  refine ⟨s, tr, h, by simp [htr], (configured_iff h).2 fun p hp => ?_⟩
  simpa [htr, settings] using hp

/-- `Connect`, `Close` and `Connect` again: the second connection is made with an object that was given nothing. -/
theorem bare_object : ¬ ∀ (option : MysqlConnOption) (s : ExecSt) (tr : List ConfigCall), Life option s tr →
    s.Configured tr := by
  intro h
  have hlife : ∃ s tr, Life {} s tr ∧ s.this.isConnected = true ∧ s.this.mysql = some 1 :=
    ⟨_, _, .called .connect (List.replicate 6 {}) (.called .close (List.replicate 4 {})
      (.called .connect (List.replicate 5 {}) (.made (List.replicate 6 {}) rfl) rfl rfl) rfl rfl) rfl rfl, rfl, rfl⟩
  obtain ⟨s, tr, hlife, hconn, hm⟩ := hlife
  have hfirst := hlife.lived.configured_first.1 (h {} s tr hlife) hconn
  rw [hm] at hfirst
  cases hfirst

end TrpcMysql
