import TrpcMysql.Conc.Follow
import TrpcMysql.Manager.Manager
import TrpcMysql.Pool.Sequence
import TrpcMysql.Pool.Shards

/-!
# The pool of a proxy and the pool step by step

The functions of `MysqlExecutorPool` stand here twice: among everything that a proxy shares, with the programs of
the executors themselves and with a critical section as one step (`Proxy.Pool`), and alone, with the locks as steps
and of an executor only what the pool sees of it (`Pool.Shards`). `Sees` relates the two states, and each function
of the first kind is followed by the one of the second.

`poolRun_followed`: whatever calls are made on a pool of the first kind one after the other, a pool of the second
kind can make them too, and is left with the same lists, counters and connections. `get_followed` says the same of
`MysqlExecutorPoolManager::Get`, which `Manager.Manager` has with the new pool and its insertion as two steps.
-/

namespace TrpcMysql

open Function Conc

/-! ## What a pool sees of an executor -/

def ExecSt.conn (s : ExecSt) : Conn :=
  { connected := s.this.isConnected, executorId := s.this.executorId, aliveTime := s.this.aliveTime }

/-- The pool sees nothing of the operation. -/
def ClientOp.hidden : ClientOp → Bool
  | setConnected _ | refreshAliveTime | setExecutorId _ => false
  | _ => true

theorem conn_exec {o : ClientOp} {a : ClientAnswer} {s s' : ExecSt} {r : o.Reply} (ho : o.hidden = true)
    (h : clientExec o a s = some (r, s')) : s'.conn = s.conn := by
  by_cases hm : o.minor = true
  · rw [ExecSt.conn, (fades_exec hm h).this]
    rfl
  cases o <;> simp only [ClientOp.minor, not_true_eq_false] at hm
  case mysqlRealConnect =>
    obtain ⟨p, -, ⟨-, -, -, rfl⟩ | ⟨-, rfl⟩⟩ := realConnect_exec h <;> simp [ExecSt.conn, ExecSt.connected]
  case mysqlRealQuery =>
    obtain ⟨p, -, ⟨-, σ, -, rfl⟩ | ⟨-, rfl⟩⟩ := realQuery_exec h <;> simp [ExecSt.conn, ExecSt.failMysql, ExecSt.note]
  case mysqlStmtPrepare =>
    obtain ⟨q, -, ⟨-, id, rfl⟩ | ⟨-, rfl⟩⟩ := stmtPrepare_exec h <;>
      simp [ExecSt.conn, ExecSt.failStmt, ExecSt.note, ExecSt.setStmt]
  case mysqlStmtExecute =>
    obtain ⟨q, p, -, -, ⟨-, σ, -, -, rfl⟩ | ⟨-, rfl⟩⟩ := stmtExecute_exec h <;>
      simp [ExecSt.conn, ExecSt.failStmt, ExecSt.note, ExecSt.setStmt]
  case mysqlClose m => cases m <;> cases h <;> simp [ExecSt.conn]
  case initMysql | clearMysql | setAutoCommit => cases h; rfl
  case crash why => cases h
  all_goals cases ho

namespace MysqlExecutor

variable {s : ExecSt} {α : Type}

theorem wp_getThis {f : ExecutorFields → XProg α} {Q : α → ExecSt → Prop} (h : (f s.this).wp clientExec Q s) :
    (getThis >>= f).wp clientExec Q s := fun a this s' he => by cases he; exact h

theorem hidden_conn {p : XProg α} (hp : p.Uses fun o => o.hidden = true) :
    p.wp clientExec (fun _ s' => s'.conn = s.conn) s :=
  hp.keeps (I := fun s' => s'.conn = s.conn) (fun _ _ _ _ _ ho hs he => (conn_exec ho he).trans hs) rfl

theorem hidden_construct : construct.Uses fun o => o.hidden = true :=
  uses_op rfl fun _ => uses_op rfl fun _ => uses_op rfl fun _ => uses_op rfl fun _ => uses_op rfl fun _ =>
    ⟨rfl, fun _ => trivial⟩

theorem setExecutorId_conn {n : ℕ} :
    (xop (.setExecutorId n)).wp clientExec (fun _ s' => s'.conn = { s.conn with executorId := n }) s :=
  fun a u s' he => by
  cases he
  rfl

theorem checkAlive_conn : checkAlive.wp clientExec (fun b s' => s'.conn = { s.conn with connected := b } ∧
    (b = true → s.conn.connected = true)) s := by
  refine wp_getThis ?_
  have hoff : ∀ {s' : ExecSt}, s'.conn = s.conn →
      (setConnected false >>= fun _ => (pure false : XProg Bool)).wp clientExec (fun b s' =>
        s'.conn = { s.conn with connected := b } ∧ (b = true → s.conn.connected = true)) s' := by
    intro s' hs a u s₂ he
    cases he
    exact ⟨by rw [← hs]; rfl, fun h => by cases h⟩
  cases hc : s.this.isConnected with
  | false => exact ⟨by rw [ExecSt.conn, hc], fun h => by cases h⟩
  | true =>
    cases hm : s.this.mysql with
    | none => exact hoff rfl
    | some p =>
      intro a pong s₂ he
      have hs := conn_exec rfl he
      cases pong with
      | false => exact hoff hs
      | true => exact ⟨by rw [hs, ExecSt.conn, hc], fun _ => hc⟩

theorem close_conn : close.wp clientExec (fun _ s' => s'.conn = { s.conn with connected := false }) s := by
  refine wp_getThis ?_
  have hoff : ∀ {s' : ExecSt}, s'.conn = s.conn →
      (setConnected false).wp clientExec (fun _ s' => s'.conn = { s.conn with connected := false }) s' := by
    intro s' hs a u s₂ he
    cases he
    rw [← hs]
    rfl
  dsimp only
  split
  · exact fun a u s₂ he a' u' s₃ he' => hoff ((conn_exec rfl he').trans (conn_exec rfl he))
  · exact hoff rfl

theorem realConnect_conn {s' : ExecSt} (hs : s'.conn = s.conn) :
    realConnect.wp clientExec (fun b s' => s'.conn = { s.conn with connected := b }) s' := by
  refine wp_getThis ?_
  intro a ok s₂ he
  have hs₂ := (conn_exec rfl he).trans hs
  cases ok with
  | false =>
    intro a u s₃ he a' u' s₄ he'
    have hs₃ := (conn_exec rfl he).trans hs₂
    cases he'
    rw [← hs₃]
    rfl
  | true =>
    intro a u s₃ he
    cases he
    rw [← hs₂]
    rfl

theorem connect_conn : connect.wp clientExec (fun b s' => s'.conn = { s.conn with connected := b }) s := by
  refine wp_getThis ?_
  cases hc : s.this.isConnected with
  | true => exact show s.conn = _ by rw [ExecSt.conn, hc]
  | false =>
    cases hm : s.this.mysql with
    | none => exact fun a u s₂ he => realConnect_conn (conn_exec (o := .initMysql) rfl he)
    | some p => exact realConnect_conn rfl

/-- A statement leaves the connection open or not, and the pool sees no more of it. -/
theorem runStatement_conn (r : MysqlResults) (sql : Sql) (args : List InputArg) :
    (runStatement r sql args).wp clientExec (fun _ s' => ∃ b, s'.conn = { s.conn with connected := b }) s := by
  have hw : Walk clientExec ExecSt.this (fun _ _ _ => True) (fun _ _ _ => True)
      (fun s' => ∃ b, s'.conn = { s.conn with connected := b }) fun _ => True := by
    refine .ofOps (fun {o a s'} ho _ hs _ => ⟨trivial, fun r s'' he => ?_⟩) fun s' ⟨b, hs⟩ => ?_
    · obtain ⟨b, hs⟩ := hs
      by_cases hh : o.hidden = true
      · exact ⟨b, (conn_exec hh he).trans hs⟩
      · cases o <;> simp [ClientOp.OfStatement, ClientOp.ofStatement, ClientOp.text?, ClientOp.ofCheck,
          ClientOp.hidden] at ho hh
        cases he
        exact ⟨_, show ({ s'.conn with connected := _ } : Conn) = _ by rw [hs]⟩
    · exact Prog.gwp_of_wp (Prog.wp_mono (fun b' s'' h => ⟨b', by rw [h, hs]⟩) connect_conn)
  exact Prog.wp_of_gwp (keeps_runStatement hw r args (fun _ _ => trivial) s ⟨s.conn.connected, rfl⟩)

theorem getAliveTime_conn : getAliveTime.wp clientExec (fun t s' => s'.conn = s.conn ∧
    ∃ now, t = (now + 2 ^ 64 - s.conn.aliveTime) % 2 ^ 64) s := fun a t s' he => by
  cases he
  exact ⟨rfl, a.now, rfl⟩

end MysqlExecutor

/-! ## The two states -/

/-- The pool alone has the options, the counters and the lists of `q`. -/
structure PoolSeen (q : Pool) (m : ShardsSt) : Prop where
  option : m.option = q.option
  executorNum : m.executorNum = q.executorNum
  maxNumPerShard : m.maxNumPerShard = q.maxNumPerShard
  shards : m.shards = q.shards
  shardIdGen : m.shardIdGen = q.shardIdGen
  executorIdGen : m.executorIdGen = q.executorIdGen

/-- The pool alone is what pool `p` of the world is, and has the same executors; its locks are as `locked` says. -/
structure Sees (p : PoolId) (locked : ℕ → Bool) (w : World) (m : ShardsSt) : Prop where
  pool : PoolSeen (w.pools p) m
  nextExec : m.nextExec = w.nextExec
  conns : ∀ e, m.conns e = (w.execs e).conn
  locks : m.locked = locked

section Functions

variable {p : PoolId} {l : ℕ → Bool} {w w' : World} {m : ShardsSt} {e : ExecId} {k : ℕ} {α β γ : Type}
  {R : α → World → β → ShardsSt → Prop}

theorem Sees.setPool (h : Sees p l w m) {q : Pool} {m' : ShardsSt} (hq : PoolSeen q m') (hn : m'.nextExec = m.nextExec)
    (hc : m'.conns = m.conns) (hl : m'.locked = m.locked) : Sees p l (w.setPool p q) m' :=
  ⟨by simpa [World.setPool] using hq, hn.trans h.nextExec, fun e => by rw [hc]; exact h.conns e, hl.trans h.locks⟩

theorem Sees.became (h : Sees p l w m) {s : ExecSt} (hw : w.Became e s w') : Sees p l w' (m.setConn e s.conn) := by
  obtain ⟨log, rfl⟩ := hw
  refine ⟨⟨h.pool.option, h.pool.executorNum, h.pool.maxNumPerShard, h.pool.shards, h.pool.shardIdGen,
    h.pool.executorIdGen⟩, h.nextExec, fun e' => ?_, h.locks⟩
  by_cases he : e' = e
  · subst he
    simp [ShardsSt.setConn, World.setExec]
  · simpa [ShardsSt.setConn, World.setExec, he] using h.conns e'

/-- An executor of which the pool sees nothing new. -/
theorem Sees.same (h : Sees p l w m) {s : ExecSt} (hw : w.Became e s w') (hs : s.conn = (w.execs e).conn) :
    Sees p l w' m := by
  have hm : m.setConn e s.conn = m := by rw [hs, ← h.conns e, ShardsSt.setConn, update_eq_self]
  rw [← hm]
  exact h.became hw

/-- An executor whose connection is open now, or not. -/
theorem Sees.connected (h : Sees p l w m) {s : ExecSt} {b : Bool} (hw : w.Became e s w')
    (hs : s.conn = { (w.execs e).conn with connected := b }) : Sees p l w' (m.setConnected e b) := by
  rw [ShardsSt.setConnected, h.conns e, ← hs]
  exact h.became hw

/-- Whatever the function of the proxy's pool does, the one of the pool alone can do. -/
abbrev Followed (R : α → World → β → ShardsSt → Prop) : WProg α → SProg β → World → ShardsSt → Prop :=
  Prog.Follows (worldExec 0) (shardsExec 0) R

theorem followed_wop {o : WorldOp} {f : o.Reply → WProg α} {q : SProg β}
    (h : ∀ a r w', worldStep 0 o a w = some (r, w') → Followed R (f r) q w' m) :
    Followed R (wop o >>= f) q w m :=
  Prog.follows_left fun a r w' he => h a r w' (worldExec_step he)

theorem followed_executor {c : XProg γ} {f : γ → WProg α} {q : SProg β} {Q : γ → ExecSt → Prop}
    (hc : c.wp clientExec Q (w.execs e))
    (h : ∀ x s w', Q x s → w.Became e s w' → Followed R (f x) q w' m) :
    Followed R (onExecutor e c >>= f) q w m := by
  have hends : (onExecutor e c).wp (worldExec 0) (fun x w' => ∃ s, Q x s ∧ w.Became e s w') w :=
    wp_onExecutor (Prog.wp_mono (fun x s hs w' hw => ⟨s, hs, hw⟩) hc)
  exact Prog.follows_call hends fun x w' ⟨s, hs, hw⟩ => h x s w' hs hw

theorem followed_sop {o : ShardsOp} {g : o.Reply → SProg β} {q : WProg α} (b : ShardsAnswer) {r : o.Reply}
    {m' : ShardsSt} (he : shardsExec 0 o b m = some (r, m')) (h : Followed R q (g r) w m') :
    Followed R q (sop o >>= g) w m := Prog.follows_right he h

theorem followed_last {o : ShardsOp} {q : WProg α} {R : α → World → o.Reply → ShardsSt → Prop} (b : ShardsAnswer)
    {r : o.Reply} {m' : ShardsSt} (he : shardsExec 0 o b m = some (r, m')) (h : Followed R q (pure r) w m') :
    Followed R q (sop o) w m := Prog.follows_right (g := pure) he h

/-- The results are the same, and so are the states. -/
def Alike (p : PoolId) (l : ℕ → Bool) (a : α) (w : World) (b : α) (m : ShardsSt) : Prop := a = b ∧ Sees p l w m

theorem isIdleTimeout_followed (h : Sees p l w m) :
    Followed (fun a w' b m' => Alike p l a w' b m') (MysqlExecutorPool.isIdleTimeout p e)
      (Shards.isIdleTimeout e) w m := by
  refine followed_wop fun a option w₁ he => followed_sop {} rfl ?_
  cases he
  rw [h.pool.option]
  split
  · exact Prog.follows_ret ⟨rfl, h⟩
  refine followed_executor MysqlExecutor.getAliveTime_conn fun t s w₂ ⟨hs, now, ht⟩ hw => ?_
  refine followed_sop { now := now } rfl (Prog.follows_ret ⟨?_, h.same hw hs⟩)
  rw [h.conns e, ht]

/-! ### Steps on both sides -/

theorem Sees.setShard (h : Sees p l w m) (es : List ExecId) : Sees p l (w.setShard p k es) (m.setShard k es) :=
  h.setPool { h.pool with shards := show update m.shards k es = _ by rw [h.pool.shards] } rfl rfl rfl

theorem Sees.nextShard (h : Sees p l w m) :
    Sees p l (w.setPool p { w.pools p with shardIdGen := ((w.pools p).shardIdGen + 1) % 2 ^ 32 })
      { m with shardIdGen := (m.shardIdGen + 1) % 2 ^ 32 } :=
  h.setPool { h.pool with shardIdGen := by rw [h.pool.shardIdGen] } rfl rfl rfl

theorem Sees.nextId (h : Sees p l w m) :
    Sees p l (w.setPool p { w.pools p with executorIdGen := ((w.pools p).executorIdGen + 1) % 2 ^ 32 })
      { m with executorIdGen := (m.executorIdGen + 1) % 2 ^ 32 } :=
  h.setPool { h.pool with executorIdGen := by rw [h.pool.executorIdGen] } rfl rfl rfl

theorem Sees.counted (h : Sees p l w m) (n : ℕ) :
    Sees p l (w.setPool p { w.pools p with executorNum := ((w.pools p).executorNum + 1) % 2 ^ 32 })
      { m with executorNum := (m.executorNum + 1) % 2 ^ 32, increments := n } :=
  h.setPool { h.pool with executorNum := by rw [h.pool.executorNum] } rfl rfl rfl

/-- A new executor, without its number. -/
theorem Sees.made (h : Sees p l w m) {option : MysqlConnOption} {a : Answer}
    (he : worldStep 0 (.newExecutor option) a w = some (e, w')) :
    m.nextExec = e ∧ Sees p l w' { m.setConn e {} with nextExec := m.nextExec + 1 } := by
  cases he
  refine ⟨h.nextExec, { h.pool with }, congrArg (· + 1) h.nextExec, fun e => ?_, h.locks⟩
  by_cases he : e = w.nextExec
  · subst he
    simp [ShardsSt.setConn, World.setExec, ExecSt.conn]
  · simpa [ShardsSt.setConn, World.setExec, he] using h.conns e

/-! ### Steps on one side -/

/-- The pool alone keeps no such history. -/
theorem Sees.noted (h : Sees p l w m) (c d : ℕ) :
    Sees p l (w.setPool p { w.pools p with connected := c, discarded := d }) m := h.setPool { h.pool with } rfl rfl rfl

theorem Sees.released (h : Sees p l w m) : Sees p l (w.release e) m := ⟨h.pool, h.nextExec, h.conns, h.locks⟩

/-- And the world keeps none of what borrowers have. -/
theorem Sees.lend (h : Sees p l w m) (lent : ExecId → Bool) : Sees p l w { m with lent := lent } :=
  ⟨{ h.pool with }, h.nextExec, h.conns, h.locks⟩

/-! ## `GetExecutor` -/

/-- No shard is locked. -/
def unlocked : ℕ → Bool := fun _ => false

theorem Sees.relock (h : Sees p l w m) (l' : ℕ → Bool) : Sees p l' w { m with locked := l' } :=
  ⟨{ h.pool with }, h.nextExec, h.conns, rfl⟩

theorem followed_lock {q : WProg α} {g : Unit → SProg β} (h : Sees p unlocked w m)
    (hg : ∀ m', Sees p (update unlocked k true) w m' → Followed R q (g ()) w m') :
    Followed R q (sop (.lock k) >>= g) w m := by
  refine followed_sop {} ?_ (hg _ (h.relock _))
  simp [shardsExec, h.locks, unlocked]

theorem followed_unlock {q : WProg α} {g : Unit → SProg β} (h : Sees p (update unlocked k true) w m)
    (hg : ∀ m', Sees p unlocked w m' → Followed R q (g ()) w m') :
    Followed R q (sop (.unlock k) >>= g) w m := by
  refine followed_sop {} ?_ (hg _ (h.relock _))
  have hl : update (update unlocked k true) k false = unlocked := by
    rw [update_idem, show false = unlocked k from rfl, update_eq_self]
  simp only [shardsExec, h.locks, hl]

theorem popAlive_followed : ∀ (n : ℕ) {w : World} {m : ShardsSt}, Sees p unlocked w m →
    Followed (Alike p unlocked) (MysqlExecutorPool.popAlive p k n) (Shards.popAlive k n) w m := by
  intro n
  induction n with
  | zero => exact fun h => Prog.follows_ret ⟨rfl, h⟩
  | succ n ih =>
    intro w m h
    refine followed_lock h fun m₁ h₁ => followed_wop fun a r w₂ he => ?_
    simp only [worldStep] at he
    split at he
    · rename_i hnone
      cases he
      have hpop : shardsExec 0 (.popBack k) {} m₁ = some (none, m₁) := by
        simp only [shardsExec, h₁.pool.shards, hnone]
      refine followed_sop {} hpop ?_
      exact followed_unlock h₁ fun m₂ h₂ => Prog.follows_ret ⟨rfl, h₂⟩
    · rename_i e hsome
      cases he
      have hpop : shardsExec 0 (.popBack k) {} m₁ = some (some e, m₁.setShard k ((w.pools p).shards k).dropLast) := by
        simp only [shardsExec, h₁.pool.shards, hsome]
      refine followed_sop {} hpop ?_
      have h₂ := h₁.setShard (k := k) ((w.pools p).shards k).dropLast
      -- what is not fit is closed
      have hdrop : ∀ {w₃ : World} {m₃ : ShardsSt}, Sees p (update unlocked k true) w₃ m₃ →
          Followed (Alike p unlocked) (do
              onExecutor e MysqlExecutor.close
              wop (.noteDiscarded p)
              wop (.release e)
              MysqlExecutorPool.popAlive p k n)
            (do
              sop (.unlock k)
              sop (.close e)
              Shards.popAlive k n) w₃ m₃ := by
        intro w₃ m₃ h₃
        refine followed_unlock h₃ fun m₄ h₄ => ?_
        refine followed_executor MysqlExecutor.close_conn fun _ s w₅ hs hw => ?_
        refine followed_wop fun a₆ _ w₆ h₆ => followed_wop fun a₇ _ w₇ h₇ => followed_sop {} rfl ?_
        cases h₆
        cases h₇
        exact ih (((h₄.connected hw hs).noted _ _).released.lend _)
      refine followed_executor MysqlExecutor.checkAlive_conn fun alive s w₃ hconn hw => ?_
      obtain ⟨hs, hlive⟩ := hconn
      have hcheck : ∀ m', Sees p (update unlocked k true) (w.setShard p k ((w.pools p).shards k).dropLast) m' →
          shardsExec 0 (.checkAlive e) { alive := alive } m' = some (alive, m'.setConnected e alive) := by
        intro m' h'
        have hb : ((m'.conns e).connected && alive) = alive := by
          rw [h'.conns e]
          cases alive with
          | false => exact Bool.and_false _
          | true => rw [Bool.and_true, hlive rfl]
        simp only [shardsExec, hb]
      refine followed_sop { alive := alive } (hcheck _ h₂) ?_
      have h₃ := h₂.connected hw hs
      cases alive with
      | false => exact hdrop h₃
      | true =>
        refine (isIdleTimeout_followed h₃).bind fun idle w₄ idle' m₄ h₄ => ?_
        obtain ⟨rfl, h₄⟩ := h₄
        cases idle with
        | true => exact hdrop h₄
        | false =>
          refine followed_sop {} rfl ?_
          exact followed_unlock (h₄.lend _) fun m₅ h₅ => Prog.follows_ret ⟨rfl, h₅⟩

theorem connectNew_followed (h : Sees p unlocked w m) :
    Followed (Alike p unlocked) (MysqlExecutorPool.connectNew p k) (Shards.connectNew k) w m := by
  have hcreate : Followed (Alike p unlocked) (MysqlExecutorPool.createExecutor p k) (Shards.createExecutor k) w m := by
    refine followed_wop fun a n w₁ h₁ => followed_wop fun a target w₂ h₂ => followed_wop fun a option w₃ h₃ =>
      followed_wop fun a e w₄ h₄ => ?_
    cases h₁; cases h₂; cases h₃
    obtain ⟨rfl, h₅⟩ := h.nextId.made h₄
    refine followed_executor (MysqlExecutor.hidden_conn MysqlExecutor.hidden_construct) fun _ s w₅ hs hw => ?_
    have h₆ := h₅.same hw hs
    refine followed_executor MysqlExecutor.setExecutorId_conn fun _ s' w₆ hs' hw' => ?_
    refine followed_sop {} rfl (followed_last {} rfl (Prog.follows_ret ⟨rfl, ?_⟩))
    have h₇ := h₆.became hw'
    rw [hs', ← h₆.conns] at h₇
    simpa [ShardsSt.setConn, h.pool.executorIdGen] using h₇
  refine hcreate.bind fun e w₁ e' m₁ h₁ => ?_
  obtain ⟨rfl, h₁⟩ := h₁
  refine followed_executor MysqlExecutor.connect_conn fun b s w₂ hs hw => followed_sop { alive := b } rfl ?_
  have h₂ := h₁.connected hw hs
  cases b with
  | false => exact Prog.follows_ret ⟨rfl, h₂⟩
  | true =>
    refine followed_wop fun a _ w₃ h₃ => followed_wop fun a _ w₄ h₄ => ?_
    cases h₃; cases h₄
    exact followed_sop {} rfl (followed_sop {} rfl (Prog.follows_ret ⟨rfl, ((h₂.counted _).noted _ _).lend _⟩))

theorem getExecutor_followed (h : Sees p unlocked w m) :
    Followed (Alike p unlocked) (MysqlExecutorPool.getExecutor p) Shards.getExecutor w m := by
  refine followed_wop fun a shardId w₁ h₁ => followed_wop fun a option w₂ h₂ => ?_
  cases h₁; cases h₂
  refine followed_sop {} rfl (followed_sop {} rfl ?_)
  have h₁ := h.nextShard
  have hshard : m.shardIdGen = (w.pools p).shardIdGen := h.pool.shardIdGen
  have hoption : ((w.setPool p { w.pools p with shardIdGen := ((w.pools p).shardIdGen + 1) % 2 ^ 32 }).pools
    p).option = m.option := h₁.pool.option.symm
  rw [hshard] at h₁
  rw [hoption, hshard]
  dsimp only
  split
  · exact fun a r => r.elim
  refine (popAlive_followed _ h₁).bind fun r w₃ r' m₃ h₃ => ?_
  obtain ⟨rfl, h₃⟩ := h₃
  cases r with
  | some e => exact Prog.follows_ret ⟨rfl, h₃⟩
  | none => exact connectNew_followed h₃

/-! ## `Reclaim` -/

/-- An executor comes into a list, or there is no room for it. -/
theorem Sees.pushBack (h : Sees p l w m) {from? : Option HandleId} {a : Answer} {moved : Bool}
    (he : worldStep 0 (.pushBack p k e from?) a w = some (moved, w')) :
    (moved = true ∧ ((w.pools p).shards k).length ≤ (w.pools p).maxNumPerShard ∧
        (w.pools p).executorNum ≤ (w.pools p).option.maxSize ∧
        Sees p l w' ((m.setConn e { m.conns e with aliveTime := a.now }).setShard k (m.shards k ++ [e]))) ∨
      (moved = false ∧ w' = w ∧ (((w.pools p).shards k).length ≤ (w.pools p).maxNumPerShard →
        ¬ (w.pools p).executorNum ≤ (w.pools p).option.maxSize)) := by
  simp only [worldStep] at he
  split at he
  swap
  · cases he
  split at he
  · rename_i hroom
    simp only [Pool.hasRoom, Bool.and_eq_true, decide_eq_true_eq] at hroom
    refine .inl ?_
    set s : ExecSt := { w.execs e with this := { (w.execs e).this with aliveTime := a.now } } with hs
    have hconn : s.conn = { m.conns e with aliveTime := a.now } := by rw [h.conns e, hs]; rfl
    have hset : w.Became e s (w.setExec e s) := ⟨w.log, rfl⟩
    have hpushed := (h.became hset).setShard (k := k) ((w.pools p).shards k ++ [e])
    rw [hconn, ← h.pool.shards] at hpushed
    rw [← h.pool.shards] at he
    cases from? with
    | none =>
      cases he
      exact ⟨rfl, hroom.1, hroom.2, hpushed⟩
    | some h =>
      cases he
      exact ⟨rfl, hroom.1, hroom.2, hpushed.pool, hpushed.nextExec, hpushed.conns, hpushed.locks⟩
  · rename_i hroom
    cases he
    simp only [Pool.hasRoom, Bool.and_eq_true, decide_eq_true_eq, not_and] at hroom
    exact .inr ⟨rfl, rfl, hroom⟩

/-- `Reclaim` gives the executor up. -/
theorem refuse_followed (h : Sees p unlocked w m) :
    Followed (fun _ w' _ m' => Sees p unlocked w' m') (do
        wop (.fetchAddExecutorNum p)
        onExecutor e MysqlExecutor.close
        wop (.noteDiscarded p)
        return false)
      (Shards.refuse e) w m := by
  refine followed_wop fun a _ w₁ h₁ => followed_sop {} rfl ?_
  cases h₁
  refine followed_executor MysqlExecutor.close_conn fun _ s w₂ hs hw => followed_wop fun a _ w₃ h₃ => ?_
  cases h₃
  have h₂ := ((h.counted (m.increments + 1)).connected hw hs).noted (w₂.pools p).connected ((w₂.pools p).discarded + 1)
  exact followed_last {} rfl (Prog.follows_ret (h₂.lend _))

theorem reclaim_followed (h : Sees p unlocked w m) (from? : Option HandleId) :
    Followed (fun _ w' _ m' => Sees p unlocked w' m') (MysqlExecutorPool.reclaim p e from?) (Shards.reclaim 0 e)
      w m := by
  have hthis : getThis.wp clientExec (fun this s => this = (w.execs e).this ∧ s = w.execs e) (w.execs e) :=
    fun a r s' he => by cases he; exact ⟨rfl, rfl⟩
  refine followed_executor hthis fun this s w₁ ⟨hthis, hs⟩ hw => followed_wop fun a option w₂ h₂ => ?_
  cases h₂
  have h₁ := h.same hw (by rw [hs])
  rw [Shards.reclaim, if_pos rfl]
  refine followed_sop {} rfl (followed_sop {} rfl ?_)
  have hid : (m.conns e).executorId = this.executorId := by rw [h.conns e, hthis]; rfl
  rw [hid, h₁.pool.option]
  dsimp only
  split
  · exact fun a r => r.elim
  generalize this.executorId / 2 ^ 32 % 2 ^ 32 % (w₁.pools p).option.numShardGroup = k
  refine followed_lock h₁ fun m₁ h₁ => followed_wop fun a moved w₂ h₂ => ?_
  refine followed_sop {} rfl (followed_sop {} rfl ?_)
  rw [h₁.pool.shards, h₁.pool.maxNumPerShard]
  rcases h₁.pushBack h₂ with ⟨rfl, hlen, hnum, h₃⟩ | ⟨rfl, rfl, hfull⟩
  · rw [if_pos hlen]
    refine followed_sop {} rfl ?_
    rw [h₁.pool.executorNum, if_pos hnum]
    refine followed_sop { now := a.now } rfl (followed_sop {} rfl ?_)
    show Followed _ _ (sop (.unlock k) >>= pure) _ _
    exact followed_unlock (h₃.lend _) fun m₂ h₂ => Prog.follows_ret h₂
  · by_cases hlen : ((w₂.pools p).shards k).length ≤ (w₂.pools p).maxNumPerShard
    · rw [if_pos hlen]
      refine followed_sop {} rfl ?_
      rw [h₁.pool.executorNum, if_neg (hfull hlen)]
      exact followed_unlock h₁ fun m₂ h₂ => refuse_followed h₂
    · rw [if_neg hlen]
      exact followed_unlock h₁ fun m₂ h₂ => refuse_followed h₂

theorem reclaimCall_followed (h : Sees p unlocked w m) :
    Followed (Alike p unlocked) (reclaimCall p e) (Shards.reclaim 0 e) w m := by
  rw [← Prog.bind_ret (Shards.reclaim 0 e)]
  refine (reclaim_followed h none).bind fun moved w₁ _ m₁ h₁ => ?_
  cases moved with
  | true => exact Prog.follows_ret ⟨rfl, h₁⟩
  | false =>
    refine Prog.follows_left fun a u w₂ he => ?_
    cases worldExec_step he
    exact Prog.follows_ret ⟨rfl, h₁.released⟩

/-! ## `Stop` and `Destroy` -/

theorem releaseAll_stay {Q : Unit → World → Prop} (hQ : ∀ {w : World} {e : ExecId}, Q () w → Q () (w.release e)) :
    ∀ (es : List ExecId) {w : World}, Q () w → (MysqlExecutorPool.releaseAll es).wp (worldExec 0) Q w := by
  intro es
  induction es with
  | nil => exact fun h => h
  | cons e es ih =>
    intro w h
    refine wp_wop fun a u w₁ he => ?_
    cases he
    exact ih (hQ h)

theorem closeAll_followed : ∀ (es : List ExecId) {w : World} {m : ShardsSt}, Sees p unlocked w m →
    Followed (Alike p unlocked) (MysqlExecutorPool.closeAll es) (Shards.closeAll es) w m := by
  intro es
  induction es with
  | nil => exact fun h => Prog.follows_ret ⟨rfl, h⟩
  | cons e es ih =>
    intro w m h
    refine followed_executor MysqlExecutor.close_conn fun _ s w₁ hs hw => followed_sop {} rfl (ih ?_)
    have h₁ := h.connected hw hs
    exact ⟨{ h₁.pool with }, h₁.nextExec, h₁.conns, h₁.locks⟩

theorem stopShards_followed : ∀ (ks : List ℕ) {w : World} {m : ShardsSt}, Sees p unlocked w m →
    Followed (Alike p unlocked) (MysqlExecutorPool.stopShards p ks) (Shards.stopShards ks) w m := by
  intro ks
  induction ks with
  | nil => exact fun h => Prog.follows_ret ⟨rfl, h⟩
  | cons k ks ih =>
    intro w m h
    refine followed_lock h fun m₁ h₁ => followed_wop fun a es w₂ he => followed_sop {} rfl ?_
    cases he
    rw [show m₁.shards k = (w.pools p).shards k from congrFun h₁.pool.shards k]
    have h₂ : Sees p (update unlocked k true) (w.retain ((w.pools p).shards k)) { m₁ with
        copied := m₁.copied ++ (w.pools p).shards k, snapped := update m₁.snapped k true } :=
      ⟨{ h₁.pool with }, h₁.nextExec, h₁.conns, h₁.locks⟩
    refine followed_unlock h₂ fun m₃ h₃ => (closeAll_followed _ h₃).bind fun _ w₄ _ m₄ h₄ => ?_
    refine Prog.follows_call (Q := fun _ w' => Sees p unlocked w' m₄) ?_ fun _ w₅ h₅ => ih h₅
    exact releaseAll_stay (Q := fun _ w' => Sees p unlocked w' m₄) Sees.released _ h₄.2

theorem stop_followed (h : Sees p unlocked w m) :
    Followed (Alike p unlocked) (MysqlExecutorPool.stop p) Shards.stop w m := by
  refine followed_wop fun a option w₁ he => followed_sop {} rfl (followed_sop {} rfl ?_)
  cases he
  rw [← h.pool.option]
  exact stopShards_followed _ ⟨{ h.pool with }, h.nextExec, h.conns, h.locks⟩

theorem dropAll_followed : ∀ (es : List ExecId) {w : World} {m : ShardsSt}, Sees p unlocked w m →
    Followed (Alike p unlocked) (MysqlExecutorPool.releaseAll es) (Shards.dropAll es) w m := by
  intro es
  induction es with
  | nil => exact fun h => Prog.follows_ret ⟨rfl, h⟩
  | cons e es ih =>
    intro w m h
    refine followed_wop fun a u w₁ he => followed_sop {} rfl (ih ?_)
    cases he
    exact ⟨{ h.pool with }, h.nextExec, h.conns, h.locks⟩

theorem destroyShards_followed : ∀ (ks : List ℕ) {w : World} {m : ShardsSt}, Sees p unlocked w m →
    Followed (Alike p unlocked) (MysqlExecutorPool.destroyShards p ks) (Shards.destroyShards ks) w m := by
  intro ks
  induction ks with
  | nil => exact fun h => Prog.follows_ret ⟨rfl, h⟩
  | cons k ks ih =>
    intro w m h
    refine followed_lock h fun m₁ h₁ => followed_wop fun a es w₂ he => followed_sop {} rfl ?_
    cases he
    rw [h₁.pool.shards]
    refine followed_unlock (h₁.setShard []) fun m₃ h₃ => ?_
    exact (dropAll_followed _ h₃).bind fun _ w₄ _ m₄ h₄ => ih h₄.2

theorem destroy_followed (h : Sees p unlocked w m) :
    Followed (Alike p unlocked) (MysqlExecutorPool.destroy p) Shards.destroy w m := by
  refine followed_wop fun a option w₁ he => followed_sop {} rfl ?_
  cases he
  rw [← h.pool.option]
  exact destroyShards_followed _ h

/-! ## Runs -/

/-- The same call on the pool alone. -/
def PoolCall.alone : PoolCall → SProg Unit
  | getExecutor => do let _ ← Shards.getExecutor
  | statement e .. => sop (.use e)
  | reclaim e => Shards.reclaim 0 e

theorem PoolCall.followed (h : Sees p unlocked w m) (c : PoolCall) :
    Followed (Alike p unlocked) (c.prog p) c.alone w m := by
  cases c with
  | getExecutor => exact (getExecutor_followed h).bind fun _ w' _ m' h' => Prog.follows_ret ⟨rfl, h'.2⟩
  | statement e r sql args =>
    refine followed_executor (MysqlExecutor.runStatement_conn r sql args) fun x s w' hs hw => ?_
    obtain ⟨b, hs⟩ := hs
    exact followed_last { alive := b } rfl (Prog.follows_ret ⟨rfl, h.connected hw hs⟩)
  | reclaim e => exact reclaimCall_followed h

end Functions

/-- Calls on the pool alone, one after the other. -/
inductive ShardsRun (m₀ : ShardsSt) : List (SProg Unit) → ShardsSt → Prop
  | init : ShardsRun m₀ [] m₀
  | call {qs : List (SProg Unit)} {q : SProg Unit} {m m' : ShardsSt} (as : List ShardsAnswer) (h : ShardsRun m₀ qs m)
      (hr : q.run (shardsExec 0) m as = some ((), m', [])) : ShardsRun m₀ (qs ++ [q]) m'

/-- A new pool is seen as a new one. -/
theorem sees_new (option : MysqlExecutorPoolOption) (addr : NodeAddr) :
    Sees 0 unlocked (.ofPool option addr) (.new option) :=
  ⟨⟨rfl, rfl, rfl, rfl, rfl, rfl⟩, rfl, fun _ => rfl, rfl⟩

/-- **Every run of calls on a pool of the proxy is one on the pool alone**, and leaves it alike. -/
theorem poolRun_followed {p : PoolId} {w₀ w : World} {m₀ : ShardsSt} {steps : List (World × PoolCall)}
    (h : PoolRun p w₀ steps w) (h₀ : Sees p unlocked w₀ m₀) :
    ∃ m, ShardsRun m₀ (steps.map fun x => x.2.alone) m ∧ Sees p unlocked w m := by
  induction h with
  | init => exact ⟨m₀, .init, h₀⟩
  | @call steps w w' c as rest h he hr ih =>
    obtain ⟨m, hrun, hsees⟩ := ih
    obtain ⟨bs, u, m', hm, -, h'⟩ := (PoolCall.followed hsees c).run hr
    refine ⟨m', ?_, h'⟩
    rw [List.map_append]
    exact .call bs hrun hm

/-! ## The manager -/

/-- The manager alone finds the pools that are found in the world, and its next pool has the same number. -/
structure Manages (w : World) (m : ManagerSt) : Prop where
  option : m.option = w.poolOption
  found : ∀ key, m.find key = w.executorPools key
  nextPool : m.nextPool = w.nextPool
  pools : ∀ p < w.nextPool, (m.pools p).option = (w.pools p).option ∧ (m.pools p).target = (w.pools p).target

/-- A new pool comes into the map. -/
theorem Manages.insert {w : World} {m : ManagerSt} (h : Manages w m) (key : Bytes) (addr : NodeAddr) :
    Manages { w.setPool w.nextPool (Pool.new w.poolOption addr) with
        nextPool := w.nextPool + 1, executorPools := update w.executorPools key (some w.nextPool) }
      { m.setPool w.nextPool { option := w.poolOption, target := addr, inserted := true } with
        nextPool := w.nextPool + 1, executorPools := (key, w.nextPool) :: m.executorPools } := by
  refine ⟨h.option, fun key' => ?_, rfl, fun p hp => ?_⟩
  · have hfind : ({ m.setPool w.nextPool {} with
        executorPools := (key, w.nextPool) :: m.executorPools } : ManagerSt).find key' =
          if key' = key then some w.nextPool else m.find key' := ManagerSt.find_insert
    refine Eq.trans hfind ?_
    by_cases hk : key' = key
    · subst hk
      simp
    · simpa [hk] using h.found key'
  · have hp : p < w.nextPool + 1 := hp
    by_cases hpn : p = w.nextPool
    · subst hpn
      simp [ManagerSt.setPool, World.setPool, Pool.new]
    · simpa [ManagerSt.setPool, World.setPool, hpn] using h.pools p (by omega)

theorem get_followed {w : World} {m : ManagerSt} (h : Manages w m) (addr : NodeAddr) :
    Prog.Follows (worldExec 0) (managerExec 0) (fun p w' p' m' => p = p' ∧ Manages w' m')
      (MysqlExecutorPoolManager.get addr) (Manager.get addr) w m := by
  refine Prog.follows_left fun a found w₁ he => Prog.follows_right (b := ()) rfl ?_
  cases worldExec_step he
  rw [h.found]
  cases hkey : w.executorPools (endpoint addr) with
  | some p => exact Prog.follows_ret ⟨rfl, h⟩
  | none =>
    refine Prog.follows_left fun a option w₂ he => ?_
    cases worldExec_step he
    dsimp only
    split
    · exact fun a r => r.elim
    rename_i hshards
    have hnew : managerExec 0 (.newPool w.poolOption addr) () m = some (w.nextPool,
        { m.setPool w.nextPool { option := w.poolOption, target := addr } with nextPool := w.nextPool + 1 }) := by
      simp only [managerExec, if_neg hshards, h.nextPool]
    refine Prog.follows_left fun a p w₃ he => Prog.follows_right (b := ()) rfl ?_
    rw [h.option]
    refine Prog.follows_right hnew ?_
    have hmiss : m.find (endpoint addr) = none := (h.found _).trans hkey
    have hinsert : managerExec 0 (.mapGetOrInsert (endpoint addr) w.nextPool) () { m.setPool w.nextPool
          { option := w.poolOption, target := addr } with nextPool := w.nextPool + 1 } =
        some (none, { m.setPool w.nextPool { option := w.poolOption, target := addr, inserted := true } with
          nextPool := w.nextPool + 1, executorPools := (endpoint addr, w.nextPool) :: m.executorPools }) := by
      have hmiss' : ({ m.setPool w.nextPool { option := w.poolOption, target := addr } with
          nextPool := w.nextPool + 1 } : ManagerSt).find (endpoint addr) = none := hmiss
      simp only [managerExec, hmiss']
      simp [ManagerSt.setPool]
    refine Prog.follows_right hinsert ?_
    have he := worldExec_step he
    simp only [worldStep, hkey, Option.some.injEq, Prod.mk.injEq] at he
    obtain ⟨rfl, rfl⟩ := he
    exact Prog.follows_ret ⟨rfl, h.insert _ _⟩

end TrpcMysql
