import TrpcMysql.Executor.Walk
import TrpcMysql.Proxy.Pool

/-!
# One pool, call by call

Runs of `GetExecutor`, `Reclaim` and the statements of the borrowers on one pool, each call
from its start to its end (`PoolRun`). What a call does to the lists, the counters and the
executors' numbers is one lemma for each function (`getExecutor_got`, `reclaimCall_reclaimed`);
the executors' own programs touch none of these (`PoolsStay`).
-/

namespace TrpcMysql

open Function Conc MysqlExecutorPool

/-- What the users of one pool call. -/
inductive PoolCall where
  | getExecutor
  | statement (e : ExecId) (r : MysqlResults) (sql : Sql) (args : List InputArg)
  | reclaim (e : ExecId)

/-- `pool->Reclaim(0, std::move(executor))`, and the end of the executor's scope. -/
def reclaimCall (p : PoolId) (e : ExecId) : WProg Unit := do
  if !(← reclaim p e none) then wop (.release e)

def PoolCall.prog (p : PoolId) : PoolCall → WProg Unit
  | getExecutor => do let _ ← MysqlExecutorPool.getExecutor p
  | statement e r sql args => do let _ ← onExecutor e (MysqlExecutor.runStatement r sql args)
  | reclaim e => reclaimCall p e

/-- The executor that the call is made with. -/
def PoolCall.executor : PoolCall → Option ExecId
  | getExecutor => none
  | statement e .. | reclaim e => some e

/-- A run on the pool `p`: the calls made, each with the state before it, and the last state. A
call is made with an executor that exists. -/
inductive PoolRun (p : PoolId) (w₀ : World) : List (World × PoolCall) → World → Prop
  | init : PoolRun p w₀ [] w₀
  | call {steps : List (World × PoolCall)} {w w' : World} {c : PoolCall} (as : List Answer)
      {rest : List Answer} (h : PoolRun p w₀ steps w) (he : ∀ e ∈ c.executor, e < w.nextExec)
      (hr : (c.prog p).run (worldExec 0) w as = some ((), w', rest)) : PoolRun p w₀ (steps ++ [(w, c)]) w'

/-- A new pool, and no executors. -/
def World.ofPool (option : MysqlExecutorPoolOption) (addr : NodeAddr) : World :=
  { pools := fun _ => Pool.new option addr, nextPool := 1 }

/-! ## Programs of one executor -/

/-- From `w` to `w'` neither the pools nor the numbers of the executors changed. -/
structure PoolsStay (w w' : World) : Prop where
  pools : w'.pools = w.pools
  nextExec : w'.nextExec = w.nextExec
  ids : ∀ e, (w'.execs e).this.executorId = (w.execs e).this.executorId

namespace PoolsStay

theorem refl (w : World) : PoolsStay w w := ⟨rfl, rfl, fun _ => rfl⟩

theorem trans {w w' w'' : World} (h : PoolsStay w w') (h' : PoolsStay w' w'') : PoolsStay w w'' :=
  ⟨h'.pools.trans h.pools, h'.nextExec.trans h.nextExec, fun e => (h'.ids e).trans (h.ids e)⟩

end PoolsStay

section Programs

variable {w w' : World} {e : ExecId} {α β : Type} {i : ℕ}

/-- One step of the process. -/
theorem worldExec_step {o : WorldOp} {a : Answer} {r : o.Reply} (h : worldExec i o a w = some (r, w')) :
    worldStep i o a w = some (r, w') := by
  unfold worldExec at h
  split at h
  · cases h
  · exact h

/-- The rule for one operation. -/
theorem wp_wop {o : WorldOp} {k : o.Reply → WProg β} {Q : β → World → Prop}
    (h : ∀ a r w', worldStep i o a w = some (r, w') → (k r).wp (worldExec i) Q w') :
    (wop o >>= k).wp (worldExec i) Q w := fun a r w' he => h a r w' (worldExec_step he)

theorem wp_seq {p : WProg α} {f : α → WProg β} {Q : β → World → Prop} {R : α → World → Prop}
    (h : p.wp (worldExec i) R w) (hf : ∀ x w', R x w' → (f x).wp (worldExec i) Q w') :
    (p >>= f).wp (worldExec i) Q w := Prog.wp_bind.2 (Prog.wp_mono hf h)

/-- The executor keeps its number. -/
def KeepsId (p : XProg α) : Prop := ∀ s, p.wp clientExec (fun _ s' => s'.this.executorId = s.this.executorId) s

theorem KeepsId.of_uses {p : XProg α} (hp : p.Uses fun o => o.numbers = false) : KeepsId p := fun s =>
  hp.keeps (I := fun s' => s'.this.executorId = s.this.executorId)
    (fun _ _ _ _ _ ho hs he => ((identity_exec he).2 ho).trans hs) rfl

/-- From `w` to `w'` the executor `e` became `s`, and the history may have grown. -/
def World.Became (e : ExecId) (s : ExecSt) (w w' : World) : Prop := ∃ log, w' = { w.setExec e s with log := log }

/-- **A program of one executor changes that executor only.** -/
theorem wp_onExecutor {p : XProg α} {Q : α → World → Prop} : ∀ {w : World},
    p.wp clientExec (fun a s => ∀ w', w.Became e s w' → Q a w') (w.execs e) →
      (onExecutor e p).wp (worldExec i) Q w := by
  induction p with
  | ret x =>
    intro w h
    exact h w ⟨w.log, by simp [World.setExec]⟩
  | act o k ih =>
    intro w h a r w₁ he
    have hstep := worldExec_step he
    simp only [worldStep, Option.map_eq_some_iff] at hstep
    obtain ⟨⟨r, s⟩, hc, heq⟩ := hstep
    cases heq
    refine ih r ?_
    have hrest := h a.toClientAnswer r s hc
    simp only [World.record, World.setExec, update_self]
    refine Prog.wp_mono (fun b s' hb w' hw' => hb w' ?_) hrest
    obtain ⟨log, rfl⟩ := hw'
    exact ⟨log, by simp [World.setExec]⟩

theorem onExecutor_stay {p : XProg α} (hp : KeepsId p) :
    (onExecutor e p).wp (worldExec i) (fun _ => PoolsStay w) w := by
  refine wp_onExecutor (Prog.wp_mono (fun x s hs w' hw' => ?_) (hp (w.execs e)))
  obtain ⟨log, rfl⟩ := hw'
  refine ⟨rfl, rfl, fun e' => ?_⟩
  by_cases hee : e' = e
  · subst hee
    simpa [World.setExec] using hs
  · simp [World.setExec, hee]

end Programs

namespace MysqlExecutor

theorem checkAlive_keepsId : KeepsId checkAlive :=
  .of_uses (uses_checkAlive fun o ho => by cases o <;> first | rfl | cases ho)

theorem close_keepsId : KeepsId close := by
  refine .of_uses (uses_op rfl fun this => ?_)
  dsimp only
  split
  · exact uses_op rfl fun _ => uses_op rfl fun _ => ⟨rfl, fun _ => trivial⟩
  · exact ⟨rfl, fun _ => trivial⟩

theorem connect_keepsId : KeepsId connect :=
  .of_uses (uses_connect fun o ho => by cases o <;> first | rfl | cases ho)

theorem construct_keepsId : KeepsId construct :=
  .of_uses (uses_op rfl fun _ => uses_op rfl fun _ => uses_op rfl fun _ => uses_op rfl fun _ =>
    uses_op rfl fun _ => ⟨rfl, fun _ => trivial⟩)

theorem runStatement_keepsId (r : MysqlResults) (sql : Sql) (args : List InputArg) :
    KeepsId (runStatement r sql args) := by
  intro s
  have hw : Walk clientExec ExecSt.this (fun _ _ _ => True) (fun _ _ _ => True)
      (fun s' => s'.this.executorId = s.this.executorId) fun _ => True := by
    refine .ofOps (fun {o a s'} ho _ hs _ => ⟨trivial, fun r s'' he => ((identity_exec he).2 ?_).trans hs⟩)
      fun s' hs => ?_
    · cases o <;> simp [ClientOp.OfStatement, ClientOp.ofStatement, ClientOp.text?, ClientOp.ofCheck,
        ClientOp.numbers] at ho ⊢
    · exact Prog.gwp_of_wp (Prog.wp_mono (fun _ _ h => h.trans hs) (connect_keepsId s'))
  exact Prog.wp_of_gwp (keeps_runStatement hw r args (fun _ _ => trivial) s rfl)

end MysqlExecutor

/-! ## `GetExecutor` -/

/-- What the loop of `GetOrCreate` does: executors leave the back of one list, and at most `n` of
them are discarded. -/
structure Popped (p : PoolId) (n : ℕ) (w w' : World) : Prop where
  shards : ∀ k, (w'.pools p).shards k <+: (w.pools p).shards k
  rest : ∃ m ≤ n, w'.pools p =
    { w.pools p with shards := (w'.pools p).shards, discarded := (w.pools p).discarded + m }
  nextExec : w'.nextExec = w.nextExec
  ids : ∀ e, (w'.execs e).this.executorId = (w.execs e).this.executorId

/-- What a new executor changes. -/
structure Made (p : PoolId) (shardId : ℕ) (w w' : World) : Prop where
  rest : ∃ b : Bool, w'.pools p = { w.pools p with
    executorIdGen := ((w.pools p).executorIdGen + 1) % 2 ^ 32
    executorNum := if b then ((w.pools p).executorNum + 1) % 2 ^ 32 else (w.pools p).executorNum
    connected := (w.pools p).connected + b.toNat }
  nextExec : w'.nextExec = w.nextExec + 1
  ids : ∀ e, e ≠ w.nextExec → (w'.execs e).this.executorId = (w.execs e).this.executorId
  id : (w'.execs w.nextExec).this.executorId = shardId * 2 ^ 32 + (w.pools p).executorIdGen

section GetExecutor

variable {p : PoolId} {w w' w'' : World} {e : ExecId} {i n k : ℕ}

theorem Popped.of_stay (h : PoolsStay w w') : Popped p n w w' :=
  ⟨fun k => ⟨[], by rw [h.pools, List.append_nil]⟩, ⟨0, Nat.zero_le _, by simp [h.pools]⟩, h.nextExec, h.ids⟩

theorem Popped.trans {m : ℕ} (h : Popped p m w w') (h' : Popped p n w' w'') : Popped p (m + n) w w'' := by
  obtain ⟨a, ha, hr⟩ := h.rest
  obtain ⟨b, hb, hr'⟩ := h'.rest
  refine ⟨fun k => (h'.shards k).trans (h.shards k), ⟨a + b, Nat.add_le_add ha hb, ?_⟩,
    h'.nextExec.trans h.nextExec, fun e => (h'.ids e).trans (h.ids e)⟩
  rw [hr', hr]
  simp [Nat.add_assoc]

theorem isIdleTimeout_stay : (isIdleTimeout p e).wp (worldExec i) (fun _ => PoolsStay w) w := by
  refine wp_wop fun a option w₁ he => ?_
  cases he
  split
  · exact .refl w
  · exact wp_seq (onExecutor_stay (.of_uses ⟨rfl, fun _ => trivial⟩)) fun x w' h => h

/-- An executor leaves the back of a list. -/
theorem popBack_popped {a : Answer} {r : Option ExecId} (h : worldStep i (.popBack p k) a w = some (r, w')) :
    Popped p n w w' := by
  simp only [worldStep] at h
  split at h
  · cases h; exact .of_stay (.refl w)
  · cases h
    refine ⟨fun k' => ?_, ⟨0, Nat.zero_le _, by simp [World.setShard, World.setPool]⟩, rfl, fun _ => rfl⟩
    simp only [World.setShard, World.setPool, update_self]
    by_cases hk : k' = k
    · subst hk; rw [update_self]; exact List.dropLast_prefix _
    · exact ⟨[], by rw [update_of_ne hk, List.append_nil]⟩

theorem popAlive_popped : ∀ (n : ℕ) {w : World},
    (popAlive p k n).wp (worldExec i) (fun _ => Popped p n w) w := by
  intro n
  induction n with
  | zero => intro w; exact .of_stay (.refl w)
  | succ n ih =>
    intro w
    refine wp_wop fun a r w₁ he => ?_
    have h₁ : Popped p 0 w w₁ := popBack_popped he
    cases r with
    | none => exact popBack_popped he
    | some e =>
      -- what is evicted is counted once
      have hdrop : ∀ {w₂}, Popped p 0 w w₂ → Prog.wp (worldExec i) (do
          onExecutor e MysqlExecutor.close
          wop (.noteDiscarded p)
          wop (.release e)
          popAlive p k n) (fun _ => Popped p (n + 1) w) w₂ := by
        intro w₂ h₂
        refine wp_seq (onExecutor_stay MysqlExecutor.close_keepsId) fun _ w₃ h₃ =>
          wp_wop fun a₄ _ w₄ h₄ => wp_wop fun a₅ _ w₅ h₅ => ?_
        have h : Popped p 1 w w₅ := by
          rw [← Nat.zero_add 1]
          refine (h₂.trans (n := 0) (.of_stay h₃)).trans ?_
          cases h₄
          cases h₅
          exact ⟨fun k => by simp [World.release, World.setPool],
            ⟨1, Nat.le_refl _, by simp [World.release, World.setPool]⟩,
            rfl, fun _ => rfl⟩
        exact Prog.wp_mono (fun _ _ h' => by rw [Nat.add_comm n 1]; exact h.trans h') (ih (w := w₅))
      refine wp_seq (onExecutor_stay MysqlExecutor.checkAlive_keepsId) fun alive w₂ h₂ => ?_
      have h₂ : Popped p 0 w w₂ := h₁.trans (n := 0) (.of_stay h₂)
      cases alive with
      | false => exact hdrop h₂
      | true =>
        refine wp_seq isIdleTimeout_stay fun idle w₃ h₃ => ?_
        have h₃ : Popped p 0 w w₃ := h₂.trans (n := 0) (.of_stay h₃)
        cases idle with
        | true => exact hdrop h₃
        | false =>
          have h : Popped p (0 + (n + 1)) w w₃ := h₃.trans (.of_stay (.refl w₃))
          rwa [Nat.zero_add] at h

theorem connectNew_made : (connectNew p k).wp (worldExec i) (fun _ => Made p k w) w := by
  -- a new executor, with its number but not connected
  have hcreate : (createExecutor p k).wp (worldExec i) (fun _ w' =>
      w'.pools p = { w.pools p with executorIdGen := ((w.pools p).executorIdGen + 1) % 2 ^ 32 } ∧
      w'.nextExec = w.nextExec + 1 ∧
      (∀ e, e ≠ w.nextExec → (w'.execs e).this.executorId = (w.execs e).this.executorId) ∧
      (w'.execs w.nextExec).this.executorId = k * 2 ^ 32 + (w.pools p).executorIdGen) w := by
    refine wp_wop fun a n w₁ h₁ => wp_wop fun a target w₂ h₂ => wp_wop fun a option w₃ h₃ =>
      wp_wop fun a e w₄ h₄ => ?_
    cases h₁; cases h₂; cases h₃; cases h₄
    refine wp_seq (onExecutor_stay MysqlExecutor.construct_keepsId) fun _ w₅ h₅ => ?_
    refine fun a u w₆ h₆ => ?_
    cases worldExec_step h₆
    refine ⟨?_, ?_, fun e he => ?_, ?_⟩
    · simp [World.record, World.setExec, h₅.pools, World.setPool]
    · simp [World.record, World.setExec, h₅.nextExec, World.setPool]
    · have := h₅.ids e
      simp only [World.setExec, World.setPool, update_of_ne he] at this
      simpa [World.record, World.setExec, World.setPool, he] using this
    · simp [World.record, World.setExec, World.setPool]
  refine wp_seq hcreate fun e w₁ ⟨hpool, hnext, hids, hid⟩ => ?_
  refine wp_seq (onExecutor_stay MysqlExecutor.connect_keepsId) fun b w₂ h₂ => ?_
  have hids₂ : ∀ e, e ≠ w.nextExec → (w₂.execs e).this.executorId = (w.execs e).this.executorId :=
    fun e he => (h₂.ids e).trans (hids e he)
  cases b with
  | false =>
    refine ⟨⟨false, ?_⟩, h₂.nextExec.trans hnext, hids₂, (h₂.ids _).trans hid⟩
    simp [h₂.pools, hpool]
  | true =>
    refine wp_wop fun a _ w₃ h₃ => wp_wop fun a _ w₄ h₄ => ?_
    cases h₃; cases h₄
    refine ⟨⟨true, ?_⟩, h₂.nextExec.trans hnext, hids₂, (h₂.ids _).trans hid⟩
    simp [World.setPool, h₂.pools, hpool]

/-- What `GetExecutor` does: executors leave a list, and if none of them is fit, one is made. -/
def Got (p : PoolId) (w w' : World) : Prop :=
  ∃ w₁, w₁ = w.setPool p { w.pools p with shardIdGen := ((w.pools p).shardIdGen + 1) % 2 ^ 32 } ∧
    ∃ w₂, Popped p EXECUTOR_POOL_CONN_RETRY_NUM w₁ w₂ ∧
      (w₂ = w' ∨ Made p (w.pools p).shardIdGen w₂ w')

theorem getExecutor_got : (getExecutor p).wp (worldExec i) (fun _ => Got p w) w := by
  refine wp_wop fun a shardId w₁ h₁ => wp_wop fun a option w₂ h₂ => ?_
  cases h₁; cases h₂
  split
  · exact fun a r => r.elim
  refine wp_seq (popAlive_popped _) fun r w₃ h₃ => ?_
  cases r with
  | some e => exact ⟨_, rfl, w₃, h₃, .inl rfl⟩
  | none => exact Prog.wp_mono (fun _ w₄ h₄ => ⟨_, rfl, w₃, h₃, .inr h₄⟩) connectNew_made

end GetExecutor

/-! ## `Reclaim` -/

/-- The shard that an executor goes back to. -/
def World.home (w : World) (p : PoolId) (e : ExecId) : ℕ :=
  (w.execs e).this.executorId / 2 ^ 32 % 2 ^ 32 % (w.pools p).option.numShardGroup

/-- What `Reclaim` does: the executor goes to the back of its shard's list, or it is discarded. -/
inductive Reclaimed (p : PoolId) (e : ExecId) (w w' : World) : Prop where
  | pushed (room : (w.pools p).hasRoom (w.home p e) = true)
      (pool : w'.pools p = { w.pools p with
        shards := update (w.pools p).shards (w.home p e) ((w.pools p).shards (w.home p e) ++ [e]) })
      (nextExec : w'.nextExec = w.nextExec)
      (ids : ∀ e, (w'.execs e).this.executorId = (w.execs e).this.executorId)
  | refused (full : (w.pools p).hasRoom (w.home p e) = false)
      (pool : w'.pools p = { w.pools p with
        executorNum := ((w.pools p).executorNum + 1) % 2 ^ 32, discarded := (w.pools p).discarded + 1 })
      (nextExec : w'.nextExec = w.nextExec)
      (ids : ∀ e, (w'.execs e).this.executorId = (w.execs e).this.executorId)

theorem Reclaimed.calm {p : PoolId} {e : ExecId} {w w' w'' : World} (h : Reclaimed p e w w') (h' : PoolsStay w' w'') :
    Reclaimed p e w w'' := by
  cases h with
  | pushed room pool next ids =>
    exact .pushed room (by rw [h'.pools, pool]) (h'.nextExec.trans next) fun e => (h'.ids e).trans (ids e)
  | refused full pool next ids =>
    exact .refused full (by rw [h'.pools, pool]) (h'.nextExec.trans next) fun e => (h'.ids e).trans (ids e)

theorem reclaimCall_reclaimed {p : PoolId} {e : ExecId} {w : World} {i : ℕ} :
    (reclaimCall p e).wp (worldExec i) (fun _ => Reclaimed p e w) w := by
  have hreclaim : (reclaim p e none).wp (worldExec i) (fun _ => Reclaimed p e w) w := by
    refine wp_wop fun a this w₁ h₁ => wp_wop fun a option w₂ h₂ => ?_
    have hthis : this = (w.execs e).this ∧ PoolsStay w w₁ := by
      simp only [worldStep, Option.map_eq_some_iff] at h₁
      obtain ⟨⟨r, s'⟩, hc, heq⟩ := h₁
      cases hc
      cases heq
      refine ⟨rfl, rfl, rfl, fun e' => ?_⟩
      by_cases hee : e' = e
      · subst hee; simp [World.record, World.setExec]
      · simp [World.record, World.setExec]
    obtain ⟨rfl, hcalm⟩ := hthis
    cases h₂
    dsimp only
    split
    · exact fun a r => r.elim
    rw [hcalm.pools]
    change Prog.wp _ (wop (.pushBack p (w.home p e) e none) >>= _) _ _
    refine wp_wop fun a moved w₃ h₃ => ?_
    simp only [worldStep] at h₃
    split at h₃
    swap
    · cases h₃
    split at h₃
    · rename_i hroom
      cases h₃
      rw [hcalm.pools] at hroom
      refine .pushed hroom ?_ hcalm.nextExec fun e' => ?_
      · simp [World.setShard, World.setPool, World.setExec, hcalm.pools]
      · have := hcalm.ids e'
        by_cases hee : e' = e
        · subst hee; simpa [World.setShard, World.setPool, World.setExec] using this
        · simpa [World.setShard, World.setPool, World.setExec, hee] using this
    · rename_i hroom
      cases h₃
      rw [hcalm.pools, Bool.not_eq_true] at hroom
      refine wp_wop fun a _ w₄ h₄ => wp_seq (onExecutor_stay MysqlExecutor.close_keepsId) fun _ w₅ h₅ =>
        wp_wop fun a _ w₆ h₆ => ?_
      cases h₄; cases h₆
      refine .refused hroom ?_ (h₅.nextExec.trans hcalm.nextExec) fun e' => (h₅.ids e').trans (hcalm.ids e')
      simp [World.setPool, h₅.pools, hcalm.pools]
  refine wp_seq hreclaim fun moved w₁ h => ?_
  cases moved with
  | true => exact h
  | false =>
    refine fun a u w₂ he => h.calm ?_
    cases worldExec_step he
    exact ⟨rfl, rfl, fun _ => rfl⟩

/-! ## One call -/

/-- What a call does. -/
inductive PoolCall.Did (p : PoolId) (w : World) : PoolCall → World → Prop
  | got {w' : World} (h : Got p w w') : Did p w .getExecutor w'
  | ran {w' : World} {e : ExecId} {r : MysqlResults} {sql : Sql} {args : List InputArg} (h : PoolsStay w w') :
    Did p w (.statement e r sql args) w'
  | reclaimed {w' : World} {e : ExecId} (h : Reclaimed p e w w') : Did p w (.reclaim e) w'

/-- **Every call does what its lemma says.** -/
theorem PoolCall.did {p : PoolId} {w w' : World} {c : PoolCall} {as rest : List Answer}
    (hr : (c.prog p).run (worldExec 0) w as = some ((), w', rest)) : c.Did p w w' := by
  refine Prog.wp_run (Q := fun _ w' => c.Did p w w') ?_ hr
  cases c with
  | getExecutor => exact wp_seq getExecutor_got fun _ _ h => .got h
  | statement e r sql args =>
    exact wp_seq (onExecutor_stay (MysqlExecutor.runStatement_keepsId r sql args)) fun _ _ h => .ran h
  | reclaim e => exact Prog.wp_mono (fun _ _ h => .reclaimed h) reclaimCall_reclaimed

end TrpcMysql
