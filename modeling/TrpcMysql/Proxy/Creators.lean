import TrpcMysql.Conc.Rely
import TrpcMysql.Conc.Trace
import TrpcMysql.Executor.Effects
import TrpcMysql.Proxy.Service

/-!
# Executors go back to the pool that created them

`EndTransaction` finds the pool of its executor by the executor's address, in the manager of that moment
(`mysql_service_proxy.cc`). `own_pools`: while no transaction ends after the manager that it began under has given
its pools away, every executor that is passed to `Reclaim` was created by the same pool, and the idle executors of a
pool are its own. `begin_configure_commit` is a transaction that ends too late.

The pools of the present manager are those from `oldest` on (`Housed`), and an executor remembers its pool's address
and credentials for good (`Grew`); what a call knows of its executor is not undone by the others.
-/

namespace TrpcMysql

open Function Conc

/-- The address and the credentials that the executors of the pool connect with. -/
def Pool.connOption (q : Pool) : MysqlConnOption where
  hostname := q.target.ip
  port := q.target.port
  username := q.option.username
  database := q.option.dbname
  password := q.option.password
  charSet := q.option.charSet

/-- Some call has passed `e` to `Reclaim` on the pool `p`. -/
def Reclaims (cf : ServiceConfig) (p : PoolId) (e : ExecId) : Prop :=
  ∃ f ∈ cf.frames, ∃ k from?, f.prog.next = some (.world (.pushBack p k e from?))

/-- Executors go back to the pools that created them, and idle executors connect as their pools do. -/
structure OwnPools (cf : ServiceConfig) : Prop where
  reclaimed : ∀ p e, Reclaims cf p e → cf.world.creator e = some p
  idle : ∀ p k e, e ∈ (cf.world.world.pools p).shards k → cf.world.creator e = some p ∧
    (cf.world.world.execs e).this.option = (cf.world.world.pools p).connOption

/-- A transaction ends while the manager that it began under still has its pools: where a call looks up a pool for the
executor that it read from a handle, that executor's pool was made since the map was last emptied. -/
def EndsInTime : Guard ServiceSt ServiceOp Answer ServiceCall Result ServiceOp.Reply where
  start _ _ := True
  act i _ s o _ :=
    match o with
    | .world (.poolsGet _) => ∀ e ∈ (s.tracks i).held, ∀ p ∈ s.creator e, s.oldest ≤ p
    | _ => True

/-! ## Pools and their executors -/

/-- The map has the pools of the manager, executors are as their pools made them, and idle executors are at home. -/
structure Housed (s : ServiceSt) : Prop where
  map : ∀ key p, s.world.executorPools key = some p →
    s.oldest ≤ p ∧ p < s.world.nextPool ∧ endpoint (s.world.pools p).target = key
  pool : ∀ p, s.oldest ≤ p → p < s.world.nextPool →
    s.world.executorPools (endpoint (s.world.pools p).target) = some p
  oldest : s.oldest ≤ s.world.nextPool
  exec : ∀ e p, s.creator e = some p → e < s.world.nextExec ∧ p < s.world.nextPool ∧
    (s.world.execs e).this.option = (s.world.pools p).connOption
  idle : ∀ p k e, e ∈ (s.world.pools p).shards k → s.creator e = some p
  handle : ∀ h e, (s.world.handles h).executor = some e → ∃ p, s.creator e = some p

/-- What the steps leave: pools keep their address and their option, and executors their creators. -/
structure Grew (s s' : ServiceSt) : Prop where
  creator : ∀ e p, s.creator e = some p → s'.creator e = some p
  nextPool : s.world.nextPool ≤ s'.world.nextPool
  target : ∀ p, p < s.world.nextPool → (s'.world.pools p).target = (s.world.pools p).target
  option : ∀ p, p < s.world.nextPool → (s'.world.pools p).option = (s.world.pools p).option

namespace Grew

variable {s s' s'' : ServiceSt}

theorem refl (s : ServiceSt) : Grew s s := ⟨fun _ _ h => h, Nat.le_refl _, fun _ _ => rfl, fun _ _ => rfl⟩

theorem trans (h : Grew s s') (h' : Grew s' s'') : Grew s s'' where
  creator e p he := h'.creator e p (h.creator e p he)
  nextPool := Nat.le_trans h.nextPool h'.nextPool
  target p hp := (h'.target p (Nat.lt_of_lt_of_le hp h.nextPool)).trans (h.target p hp)
  option p hp := (h'.option p (Nat.lt_of_lt_of_le hp h.nextPool)).trans (h.option p hp)

theorem connOption (h : Grew s s') {p : PoolId} (hp : p < s.world.nextPool) :
    (s'.world.pools p).connOption = (s.world.pools p).connOption := by
  unfold Pool.connOption
  rw [h.target p hp, h.option p hp]

end Grew

/-- What a step needs: an executor is made as its pool says, and it goes back to that pool or into a handle. -/
def Needs (i : ℕ) (s : ServiceSt) : ServiceOp → Prop
  | .world (.newExecutor option) => ∃ p, (s.tracks i).making = some p ∧ p < s.world.nextPool ∧
      option = (s.world.pools p).connOption
  | .world (.pushBack p _ e _) => s.creator e = some p
  | .world (.poolsGetOrInsert key pool) => endpoint pool.target = key ∧ pool.shards = fun _ => []
  | .world (.newHandle e) => ∃ p, s.creator e = some p
  | _ => True

/-! ## Steps -/

section Steps

variable {i : ℕ} {a : Answer} {w w' : World} {s s' : ServiceSt}

/-- The step makes no pool and no executor. -/
def WorldOp.moves : WorldOp → Bool
  | newExecutor _ | poolsGetOrInsert .. => false
  | _ => true

/-- The step gives the executor to the pool. -/
def WorldOp.gives : WorldOp → PoolId → ExecId → Prop
  | pushBack p _ e _, p', e' => p' = p ∧ e' = e
  | _, _, _ => False

/-- The step gives the executor to a handle. -/
def WorldOp.lends : WorldOp → ExecId → Prop
  | newHandle e, e' => e' = e
  | _, _ => False

/-- What a step that makes no pool and no executor leaves of the world. -/
structure World.Moved (o : WorldOp) (w w' : World) : Prop where
  map : w'.executorPools = w.executorPools
  nextPool : w'.nextPool = w.nextPool
  nextExec : w'.nextExec = w.nextExec
  target : ∀ p, (w'.pools p).target = (w.pools p).target
  option : ∀ p, (w'.pools p).option = (w.pools p).option
  shards : ∀ p k e, e ∈ (w'.pools p).shards k → e ∈ (w.pools p).shards k ∨ o.gives p e
  execs : ∀ e, (w'.execs e).this.option = (w.execs e).this.option
  handles : ∀ h e, (w'.handles h).executor = some e → (∃ h', (w.handles h').executor = some e) ∨ o.lends e

namespace World

variable {o : WorldOp} {p : PoolId} {k : ℕ}

theorem Moved.refl (o : WorldOp) (w : World) : Moved o w w :=
  ⟨rfl, rfl, rfl, fun _ => rfl, fun _ => rfl, fun _ _ _ he => .inl he, fun _ => rfl, fun h _ he => .inl ⟨h, he⟩⟩

/-- A pool keeps its address and its option. -/
theorem moved_setPool {q : Pool} (ht : q.target = (w.pools p).target) (ho : q.option = (w.pools p).option)
    (hs : ∀ k, ∀ e ∈ q.shards k, e ∈ (w.pools p).shards k ∨ o.gives p e) : Moved o w (w.setPool p q) := by
  have hcases : ∀ p', ((w.setPool p q).pools p' = q ∧ p' = p) ∨ (w.setPool p q).pools p' = w.pools p' := by
    intro p'
    by_cases hp : p' = p
    · subst hp
      exact .inl ⟨update_self .., rfl⟩
    · exact .inr (update_of_ne hp ..)
  refine { Moved.refl o w with
    target := fun p' => ?_, option := fun p' => ?_, shards := fun p' k e he => ?_ }
  · rcases hcases p' with ⟨h, rfl⟩ | h
    · rw [h, ht]
    · rw [h]
  · rcases hcases p' with ⟨h, rfl⟩ | h
    · rw [h, ho]
    · rw [h]
  · rcases hcases p' with ⟨h, rfl⟩ | h
    · rw [h] at he
      exact hs k e he
    · rw [h] at he
      exact .inl he

theorem moved_setShard {es : List ExecId} (hs : ∀ e ∈ es, e ∈ (w.pools p).shards k ∨ o.gives p e) :
    Moved o w (w.setShard p k es) := by
  refine moved_setPool rfl rfl fun k' e he => ?_
  change e ∈ update (w.pools p).shards k es k' at he
  by_cases hk : k' = k
  · subst hk
    rw [update_self] at he
    exact hs e he
  · rw [update_of_ne hk] at he
    exact .inl he

/-- A handle gets an executor that a handle had, or that the step gives to it, or none. -/
theorem moved_setHandle {hd : HandleId} {t : TransactionHandle}
    (ht : ∀ e, t.executor = some e → (∃ h, (w.handles h).executor = some e) ∨ o.lends e) :
    Moved o w (w.setHandle hd t) := by
  refine { Moved.refl o w with handles := fun h e he => ?_ }
  change (update w.handles hd t h).executor = some e at he
  by_cases hh : h = hd
  · subst hh
    rw [update_self] at he
    exact ht e he
  · rw [update_of_ne hh] at he
    exact .inl ⟨h, he⟩

end World

theorem moved_exec {o : WorldOp} {r : o.Reply} (ho : o.moves = true) (h : worldStep i o a w = some (r, w')) :
    World.Moved o w w' := by
  -- operation by operation: no option is another, and what a list or a handle gets is `o`'s executor
  cases o with
  | client e o =>
    simp only [worldStep, Option.map_eq_some_iff] at h
    obtain ⟨⟨r', s⟩, hc, heq⟩ := h
    cases heq
    refine { World.Moved.refl _ w with execs := fun e' => ?_ }
    change (update w.execs e s e').this.option = _
    by_cases he : e' = e
    · subst he
      rw [update_self]
      exact (identity_exec hc).1
    · rw [update_of_ne he]
  | checkTimeout x =>
    simp only [worldStep] at h
    split at h <;> cases h
    · exact { World.Moved.refl _ w with }
    · exact World.Moved.refl _ w
  | addTask =>
    simp only [worldStep] at h
    split at h <;> cases h
    exact World.Moved.refl _ w
  | popBack p k =>
    simp only [worldStep] at h
    split at h <;> cases h
    · exact World.Moved.refl _ w
    · exact World.moved_setShard fun e he => .inl (List.dropLast_subset _ he)
  | pushBack p k e from? =>
    have hpush : World.Moved (.pushBack p k e from?) w (w.setShard p k ((w.pools p).shards k ++ [e])) := by
      refine World.moved_setShard fun e' he' => ?_
      rcases List.mem_append.1 he' with he' | he'
      · exact .inl he'
      · exact .inr ⟨rfl, List.mem_singleton.1 he'⟩
    -- the time of the executor is refreshed, its option is as before
    have hexecs : ∀ e', (update w.execs e { w.execs e with this := { (w.execs e).this with aliveTime := a.now } }
        e').this.option = (w.execs e').this.option := by
      intro e'
      by_cases he : e' = e
      · subst he
        rw [update_self]
      · rw [update_of_ne he]
    simp only [worldStep] at h
    split at h
    swap
    · cases h
    split at h
    · cases from? with
      | none =>
        cases h
        exact { hpush with execs := hexecs }
      | some hd =>
        have hgive : World.Moved (.pushBack p k e (some hd)) w
            (w.setHandle hd { w.handles hd with executor := none }) :=
          World.moved_setHandle fun e' he' => (by cases he')
        cases h
        exact { hpush with execs := hexecs, handles := hgive.handles }
    · cases h
      exact World.Moved.refl _ w
  | swapShard p k =>
    cases h
    exact World.moved_setShard fun e he => (by cases he)
  | fetchAddShardId p | fetchAddExecutorId p | fetchAddExecutorNum p | noteConnected p | noteDiscarded p =>
    cases h
    exact World.moved_setPool rfl rfl fun _ _ he => .inl he
  | setState hd st =>
    cases h
    exact World.moved_setHandle fun e he => .inl ⟨hd, he⟩
  | newHandle e =>
    cases h
    have hnew : World.Moved (.newHandle e) w (w.setHandle w.nextHandle
        { state := .kStarted, executor := some e, opened := (w.execs e).session.map fun σ => (e, σ.id) }) :=
      World.moved_setHandle fun e' he' => .inr (Option.some.inj he').symm
    exact { hnew with }
  | moveHandle hd =>
    cases h
    have hnew : World.Moved (.moveHandle hd) w (w.setHandle w.nextHandle (w.handles hd)) :=
      World.moved_setHandle fun e he => .inl ⟨hd, he⟩
    refine { hnew with handles := fun h e he => ?_ }
    change (update (update w.handles w.nextHandle (w.handles hd)) hd _ h).executor = some e at he
    by_cases hh : h = hd
    · subst hh
      rw [update_self] at he
      cases he
    · rw [update_of_ne hh] at he
      exact hnew.handles h e he
  | endHandle hd =>
    cases h
    have hw : World.Moved (.endHandle hd) w
        (w.setHandle hd { w.handles hd with state := .kInValid, executor := none }) :=
      World.moved_setHandle fun e he => (by cases he)
    cases (w.handles hd).executor with
    | none => exact hw
    | some e => exact { hw with }
  | newExecutor _ | poolsGetOrInsert => cases ho
  | crash => cases h
  | _ =>
    cases h
    exact { World.Moved.refl _ w with }

theorem serviceExec_step {o : ServiceOp} {r : o.Reply} (he : serviceExec i o a s = some (r, s')) :
    serviceStep i o a s = some (r, s') := by
  unfold serviceExec at he
  split at he
  · cases he
  split at he
  · exact he
  · cases he

/-- A step of the world, taken apart. -/
theorem serviceExec_world {o : WorldOp} {r : o.Reply} (he : serviceExec i (.world o) a s = some (r, s')) :
    ∃ w', worldStep i o a s.world = some (r, w') ∧ s' = { s with
      world := w'
      creator := s.creatorAfter i o r
      tracks := update s.tracks i ((s.tracks i).after s.poolManager o r) } := by
  have he := serviceExec_step he
  simp only [serviceStep, Option.map_eq_some_iff] at he
  obtain ⟨⟨r', w'⟩, hw, heq⟩ := he
  cases heq
  unfold worldExec at hw
  split at hw
  · cases hw
  · exact ⟨w', hw, rfl⟩

theorem creatorAfter_moves {o : WorldOp} {r : o.Reply} (ho : o.moves = true) : s.creatorAfter i o r = s.creator := by
  cases o <;> first | rfl | cases ho

theorem Housed.moved (h : Housed s) {o : WorldOp} (hw : World.Moved o s.world s'.world) (hc : s'.creator = s.creator)
    (hold : s'.oldest = s.oldest) (hgives : ∀ p e, o.gives p e → s.creator e = some p)
    (hlends : ∀ e, o.lends e → ∃ p, s.creator e = some p) : Housed s' ∧ Grew s s' := by
  have hconn : ∀ p, (s'.world.pools p).connOption = (s.world.pools p).connOption := by
    intro p
    unfold Pool.connOption
    rw [hw.target p, hw.option p]
  refine ⟨⟨fun key p hp => ?_, fun p hlo hlt => ?_, ?_, fun e p he => ?_, fun p k e he => ?_, fun hd e he => ?_⟩,
    ⟨fun e p he => by rwa [hc], Nat.le_of_eq hw.nextPool.symm, fun p _ => hw.target p, fun p _ => hw.option p⟩⟩
  · rw [hw.map] at hp
    rw [hold, hw.nextPool, hw.target p]
    exact h.map key p hp
  · rw [hold] at hlo
    rw [hw.nextPool] at hlt
    rw [hw.map, hw.target p]
    exact h.pool p hlo hlt
  · rw [hold, hw.nextPool]
    exact h.oldest
  · rw [hc] at he
    rw [hw.nextExec, hw.nextPool, hw.execs e, hconn p]
    exact h.exec e p he
  · rw [hc]
    rcases hw.shards p k e he with he' | he'
    · exact h.idle p k e he'
    · exact hgives p e he'
  · rw [hc]
    rcases hw.handles hd e he with ⟨hd', he'⟩ | he'
    · exact h.handle hd' e he'
    · exact hlends e he'

/-- An executor is made by the pool that the call works in. -/
theorem Housed.newExecutor (h : Housed s) {p : PoolId} {option : MysqlConnOption} (hp : p < s.world.nextPool)
    (ho : option = (s.world.pools p).connOption)
    (hw : s'.world = { s.world.setExec s.world.nextExec { this := { option := option } } with
      nextExec := s.world.nextExec + 1, refs := update s.world.refs s.world.nextExec 1 })
    (hc : s'.creator = update s.creator s.world.nextExec (some p)) (hold : s'.oldest = s.oldest) :
    Housed s' ∧ Grew s s' := by
  -- the new executor had no creator
  have hkeep : ∀ e q, s.creator e = some q → s'.creator e = some q := by
    intro e q he
    rw [hc, update_of_ne (Nat.ne_of_lt (h.exec e q he).1)]
    exact he
  refine ⟨⟨fun key q hq => ?_, fun q hlo hlt => ?_, ?_, fun e q he => ?_, fun q k e he => ?_, fun hd e he => ?_⟩,
    ⟨hkeep, ?_, fun q _ => ?_, fun q _ => ?_⟩⟩
  · rw [hw] at hq ⊢
    rw [hold]
    exact h.map key q hq
  · rw [hw] at hlt ⊢
    rw [hold] at hlo
    exact h.pool q hlo hlt
  · rw [hw, hold]
    exact h.oldest
  · -- the new executor has the option of its pool
    rw [hc] at he
    rw [hw]
    by_cases hee : e = s.world.nextExec
    · subst hee
      rw [update_self] at he
      cases he
      refine ⟨Nat.lt_succ_self _, hp, ?_⟩
      change (update s.world.execs s.world.nextExec _ s.world.nextExec).this.option = _
      rw [update_self]
      exact ho
    · rw [update_of_ne hee] at he
      obtain ⟨hlt, hq, hopt⟩ := h.exec e q he
      refine ⟨Nat.lt_succ_of_lt hlt, hq, ?_⟩
      change (update s.world.execs s.world.nextExec _ e).this.option = _
      rw [update_of_ne hee]
      exact hopt
  · rw [hw] at he
    exact hkeep e q (h.idle q k e he)
  · rw [hw] at he
    obtain ⟨q, hq⟩ := h.handle hd e he
    exact ⟨q, hkeep e q hq⟩
  · rw [hw]
    exact Nat.le_refl _
  · rw [hw]
    rfl
  · rw [hw]
    rfl

/-- A pool is made for a key that has none. -/
theorem Housed.newPool (h : Housed s) {key : Bytes} {pool : Pool} (hkey : endpoint pool.target = key)
    (hempty : pool.shards = fun _ => []) (hnone : s.world.executorPools key = none)
    (hw : s'.world = { s.world.setPool s.world.nextPool pool with
      nextPool := s.world.nextPool + 1
      executorPools := update s.world.executorPools key (some s.world.nextPool) })
    (hc : s'.creator = s.creator) (hold : s'.oldest = s.oldest) : Housed s' ∧ Grew s s' := by
  have hpools : s'.world.pools = update s.world.pools s.world.nextPool pool := by rw [hw]; rfl
  have hmap : s'.world.executorPools = update s.world.executorPools key (some s.world.nextPool) := by rw [hw]
  have hnext : s'.world.nextPool = s.world.nextPool + 1 := by rw [hw]
  have hself : s'.world.pools s.world.nextPool = pool := by rw [hpools, update_self]
  -- the pools that were there stay
  have hother : ∀ p, p < s.world.nextPool → s'.world.pools p = s.world.pools p := by
    intro p hp
    rw [hpools, update_of_ne (Nat.ne_of_lt hp)]
  refine ⟨⟨fun key' p hp => ?_, fun p hlo hlt => ?_, ?_, fun e p he => ?_, fun p k e he => ?_, fun hd e he => ?_⟩,
    ⟨fun e p he => by rwa [hc], hnext ▸ Nat.le_succ _, fun p hp => by rw [hother p hp],
      fun p hp => by rw [hother p hp]⟩⟩
  · -- the map: the key of the new pool, or an old key
    rw [hmap] at hp
    rw [hold, hnext]
    have hle := h.oldest
    by_cases hk : key' = key
    · subst hk
      rw [update_self] at hp
      cases hp
      rw [hself]
      exact ⟨hle, Nat.lt_succ_self _, hkey⟩
    · rw [update_of_ne hk] at hp
      obtain ⟨hlo, hlt, hkey'⟩ := h.map key' p hp
      rw [hother p hlt]
      exact ⟨hlo, Nat.lt_succ_of_lt hlt, hkey'⟩
  · -- each pool is found under its key, as no pool had the key of the new one
    rw [hold] at hlo
    rw [hnext] at hlt
    rw [hmap]
    by_cases hp : p = s.world.nextPool
    · subst hp
      rw [hself, hkey, update_self]
    · have hlt' : p < s.world.nextPool := Nat.lt_of_le_of_ne (Nat.le_of_lt_succ hlt) hp
      have hold' := h.pool p hlo hlt'
      rw [hother p hlt', update_of_ne, hold']
      intro heq
      rw [heq, hnone] at hold'
      cases hold'
  · rw [hold, hnext]
    exact Nat.le_succ_of_le h.oldest
  · rw [hc] at he
    obtain ⟨hlt, hp, hopt⟩ := h.exec e p he
    rw [hnext, hother p hp]
    refine ⟨by rwa [hw], Nat.lt_succ_of_lt hp, ?_⟩
    rw [hw]
    exact hopt
  · rw [hc]
    by_cases hp : p = s.world.nextPool
    · subst hp
      rw [hself, hempty] at he
      cases he
    · rw [hpools, update_of_ne hp] at he
      exact h.idle p k e he
  · rw [hc]
    rw [hw] at he
    exact h.handle hd e he

/-- When the map is emptied, no pool is left to the manager. -/
theorem Housed.emptied (h : Housed s) : Housed s.emptied where
  map key p hp := by cases hp
  pool p hlo hlt := absurd hlo (Nat.not_le.2 hlt)
  oldest := Nat.le_refl _
  exec := h.exec
  idle := h.idle
  handle := h.handle

/-- A step that finds what it needs keeps the pools and their executors. -/
theorem housed_step {o : ServiceOp} {r : o.Reply} (h : Housed s) (hp : Needs i s o)
    (he : serviceExec i o a s = some (r, s')) : Housed s' ∧ Grew s s' := by
  cases o with
  | world o =>
    obtain ⟨w', hw, rfl⟩ := serviceExec_world he
    -- but for two operations the world only moves executors
    by_cases hm : o.moves = true
    · refine h.moved (moved_exec hm hw) (creatorAfter_moves hm) rfl (fun p e hg => ?_) fun e hl => ?_
      · cases o with
        | pushBack p' k e' from? =>
          obtain ⟨rfl, rfl⟩ := hg
          exact hp
        | _ => exact hg.elim
      · cases o with
        | newHandle e' =>
          obtain rfl := hl
          exact hp
        | _ => exact hl.elim
    cases o with
    | newExecutor option =>
      obtain ⟨p, hmaking, hlt, hopt⟩ := hp
      cases hw
      exact h.newExecutor hlt hopt rfl (by simp only [ServiceSt.creatorAfter, hmaking]) rfl
    | poolsGetOrInsert key pool =>
      simp only [worldStep] at hw
      split at hw
      · cases hw
        exact h.moved (World.Moved.refl .getServiceName _) rfl rfl (fun _ _ hg => hg.elim) fun _ hl => hl.elim
      · rename_i hnone
        cases hw
        exact h.newPool hp.1 hp.2 hnone rfl rfl rfl
    | _ => exact absurd rfl hm
  | mapReclaim | managerReset =>
    cases serviceExec_step he
    exact ⟨{ h.emptied with }, { Grew.refl s with }⟩
  | initManager =>
    have he := serviceExec_step he
    simp only [serviceStep] at he
    split at he <;> cases he
    · exact ⟨h, .refl s⟩
    · exact ⟨{ h with }, { Grew.refl s with }⟩
  | _ =>
    cases serviceExec_step he
    exact ⟨{ h with }, { Grew.refl s with }⟩

/-- The tracks of the other calls stay. -/
theorem track_step {o : ServiceOp} {r : o.Reply} {j : ℕ} (hj : j ≠ i) (he : serviceExec i o a s = some (r, s')) :
    s'.tracks j = s.tracks j := by
  cases o with
  | world o =>
    obtain ⟨w', -, rfl⟩ := serviceExec_world he
    exact update_of_ne hj ..
  | getAllItems | getPoolsToDestroy =>
    cases serviceExec_step he
    exact update_of_ne hj ..
  | initManager =>
    have he := serviceExec_step he
    simp only [serviceStep] at he
    split at he <;> cases he <;> rfl
  | _ =>
    cases serviceExec_step he
    rfl

end Steps

/-! ## The contract -/

/-- What the steps of the others leave for call `i`. -/
def Rests (i : ℕ) (s s' : ServiceSt) : Prop := Grew s s' ∧ s'.tracks i = s.tracks i

/-- Pools and executors are kept, and no call loses its place. -/
def keeping : Contract ServiceSt ServiceOp where
  Inv := Housed
  Rely := Rests
  Meets := Needs

/-- A program of call `i` is sure, in a run in which transactions end in time. -/
abbrev Sure {α : Type} (i : ℕ) (c : ServiceCall) (p : ServiceProg α) (s : ServiceSt) (Q : α → ServiceSt → Prop) :
    Prop :=
  keeping.Sure serviceSystem EndsInTime i c p s Q

section Rules

variable {i : ℕ} {c : ServiceCall} {s : ServiceSt} {α β : Type} {Q : β → ServiceSt → Prop}

theorem Rests.refl (i : ℕ) (s : ServiceSt) : Rests i s s := ⟨.refl s, rfl⟩

theorem Rests.trans {s' s'' : ServiceSt} (h : Rests i s s') (h' : Rests i s' s'') : Rests i s s'' :=
  ⟨h.1.trans h'.1, h'.2.trans h.2⟩

theorem sure_bind {p : WProg α} {f : α → WProg β}
    (h : Sure i c (inWorld p) s fun x s' => Sure i c (inWorld (f x)) s' Q) : Sure i c (inWorld (p >>= f)) s Q := by
  unfold inWorld
  rw [Prog.lift_bind]
  exact Contract.sure_bind h

/-- One step of the world, from wherever the others left the state. -/
theorem sure_wop {o : WorldOp} {f : o.Reply → WProg β}
    (h : ∀ s₁, Rests i s s₁ → Housed s₁ → Needs i s₁ (.world o) ∧ ∀ a r s₂, EndsInTime.act i c s₁ (.world o) a →
      serviceExec i (.world o) a s₁ = some (r, s₂) → Housed s₂ → Grew s₁ s₂ → Sure i c (inWorld (f r)) s₂ Q) :
    Sure i c (inWorld (wop o >>= f)) s Q := by
  intro s₁ hrest hs₁
  obtain ⟨hp, hk⟩ := h s₁ hrest hs₁
  exact ⟨hp, fun a r s₂ hg he hs₂ => hk a r s₂ hg he hs₂ (housed_step hs₁ hp he).2⟩

/-- Whatever a sure program does, pools and executors are kept. -/
theorem sure_grew {p : ServiceProg α} {Q : α → ServiceSt → Prop} : ∀ {s : ServiceSt}, Sure i c p s Q →
    Sure i c p s fun x s' => Grew s s' ∧ Q x s' := by
  induction p with
  | ret x =>
    intro s h
    exact ⟨.refl s, h⟩
  | act o k ih =>
    intro s h s₁ hrest hs₁
    obtain ⟨hp, hk⟩ := h s₁ hrest hs₁
    refine ⟨hp, fun a r s₂ hg he hs₂ => Contract.sure_mono (fun x s' h' => ?_) (ih r (hk a r s₂ hg he hs₂))⟩
    exact ⟨(hrest.1.trans (housed_step hs₁ hp he).2).trans h'.1, h'.2⟩

theorem sure_seq {p : WProg α} {f : α → WProg β} {R : α → ServiceSt → Prop} (hp : Sure i c (inWorld p) s R)
    (hf : ∀ x s', Grew s s' → R x s' → Sure i c (inWorld (f x)) s' Q) : Sure i c (inWorld (p >>= f)) s Q :=
  sure_bind (Contract.sure_mono (fun x s' h => hf x s' h.1 h.2) (sure_grew hp))

/-- The step needs nothing, and the call stays where it is. -/
def WorldOp.quiet : WorldOp → Bool
  | .newExecutor _ | .pushBack .. | .poolsGetOrInsert .. | .newHandle _ => false
  | .poolsGet _ | .fetchAddExecutorId _ | .getExecutor _ => false
  | _ => true

theorem needs_quiet {o : WorldOp} (ho : o.quiet = true) : Needs i s (.world o) := by
  cases o <;> trivial

theorem rests_quiet {o : WorldOp} {a : Answer} {r : o.Reply} {s' : ServiceSt} (ho : o.quiet = true) (hs : Housed s)
    (he : serviceExec i (.world o) a s = some (r, s')) : Rests i s s' := by
  refine ⟨(housed_step hs (needs_quiet ho) he).2, ?_⟩
  obtain ⟨w', -, rfl⟩ := serviceExec_world he
  dsimp only
  rw [update_self]
  cases o <;> first | rfl | cases ho

theorem sure_quiet {o : WorldOp} {f : o.Reply → WProg β} (ho : o.quiet = true)
    (h : ∀ r s', Rests i s s' → Housed s' → Sure i c (inWorld (f r)) s' Q) : Sure i c (inWorld (wop o >>= f)) s Q := by
  refine sure_wop fun s₁ hrest hs₁ => ⟨needs_quiet ho, fun a r s₂ _ he hs₂ _ => ?_⟩
  exact h r s₂ (hrest.trans (rests_quiet ho hs₁ he)) hs₂

/-- A program of quiet steps. -/
theorem sure_keeps {p : WProg α} (hp : p.Uses fun o => o.quiet = true) :
    Sure i c (inWorld p) s fun _ s' => Rests i s s' := by
  have huses : (inWorld p).Uses fun o => ∃ o', o = .world o' ∧ o'.quiet = true := by
    unfold inWorld
    induction p with
    | ret x => exact trivial
    | act o k ih => exact ⟨⟨o, rfl, hp.1⟩, fun r => ih r (hp.2 r)⟩
  refine Contract.sure_uses (F := Rests i s) huses ?_ (fun _ _ hrest hs => hs.trans hrest) ?_ (.refl i s)
  · rintro _ s₁ ⟨o, rfl, ho⟩
    exact needs_quiet ho
  · rintro _ a s₁ r s₂ ⟨o, rfl, ho⟩ hs₁ hrest he
    exact hrest.trans (rests_quiet ho hs₁ he)

theorem onExecutor_quiet {e : ExecId} {p : XProg α} : (onExecutor e p).Uses fun o => o.quiet = true :=
  Prog.uses_lift (P := fun o : WorldOp => o.quiet = true) (fun _ => rfl) p

theorem sure_onExecutor {e : ExecId} {p : XProg α} {f : α → WProg β}
    (h : ∀ x s', Rests i s s' → Sure i c (inWorld (f x)) s' Q) : Sure i c (inWorld (onExecutor e p >>= f)) s Q :=
  sure_seq (sure_keeps onExecutor_quiet) fun x s' _ hrest => h x s' hrest

theorem sure_crashed {Q : α → ServiceSt → Prop} : Sure i c (inWorld crashed) s Q :=
  fun _ _ _ => ⟨trivial, fun _ r => r.elim⟩

end Rules

/-! ## The functions -/

section Functions

variable {i : ℕ} {c : ServiceCall} {s : ServiceSt} {α : Type} {p : PoolId} {e : ExecId}

/-- A pool of the manager; the constructor makes it without executors. -/
theorem MysqlExecutorPoolManager.get_sure (addr : NodeAddr) :
    Sure i c (inWorld (get addr)) s fun p s' => p < s'.world.nextPool := by
  refine sure_wop fun s₁ _ hs₁ => ⟨trivial, fun _ r s₂ _ he _ _ => ?_⟩
  cases r with
  | some p =>
    obtain ⟨w', hw, rfl⟩ := serviceExec_world he
    simp only [worldStep, Option.some.injEq, Prod.mk.injEq] at hw
    obtain ⟨hmap, rfl⟩ := hw
    exact (hs₁.map _ p hmap).2.1
  | none =>
    refine sure_quiet rfl fun option s₃ _ _ => ?_
    split
    · exact sure_crashed
    refine sure_wop (f := .ret) fun s₄ _ hs₄ => ⟨⟨rfl, rfl⟩, fun _ p s₅ _ he₅ _ _ => ?_⟩
    obtain ⟨w', hw, rfl⟩ := serviceExec_world he₅
    simp only [worldStep] at hw
    split at hw
    · rename_i hmap
      cases hw
      exact (hs₄.map _ p hmap).2.1
    · cases hw
      exact Nat.lt_succ_self _

/-- **A transaction that ends in time finds the pool that created its executor.** -/
theorem MysqlExecutorPoolManager.get_own (hown : s.creator e = some p) (hp : p < s.world.nextPool)
    (hheld : (s.tracks i).held = some e) : Sure i c (inWorld (get (s.world.pools p).target)) s fun p' _ => p' = p := by
  refine sure_wop fun s₁ hrest hs₁ => ⟨trivial, fun _ r s₂ hg he _ _ => ?_⟩
  have hold : s₁.oldest ≤ p := hg e (by rw [hrest.2, hheld]; rfl) p (hrest.1.creator _ _ hown)
  have hmap := hs₁.pool p hold (Nat.lt_of_lt_of_le hp hrest.1.nextPool)
  rw [hrest.1.target p hp] at hmap
  obtain ⟨w', hw, rfl⟩ := serviceExec_world he
  simp only [worldStep, hmap, Option.some.injEq, Prod.mk.injEq] at hw
  obtain ⟨rfl, -⟩ := hw
  exact rfl

namespace MysqlExecutorPool

theorem isIdleTimeout_quiet : (isIdleTimeout p e).Uses fun o => o.quiet = true := by
  refine ⟨rfl, fun option => ?_⟩
  change Prog.Uses _ (if option.maxIdleTime = 0 then pure false else _)
  split
  · exact trivial
  · exact onExecutor_quiet.bind fun _ => trivial

/-- What is popped is the pool's own. -/
theorem popAlive_sure (k : ℕ) : ∀ (n : ℕ) {s : ServiceSt}, Sure i c (inWorld (popAlive p k n)) s fun r s' =>
    ∀ e ∈ r, s'.creator e = some p := by
  intro n
  induction n with
  | zero =>
    intro s e he
    cases he
  | succ n ih =>
    intro s
    refine sure_wop fun s₁ _ hs₁ => ⟨trivial, fun _ r s₂ _ he _ _ => ?_⟩
    cases r with
    | none =>
      intro e he
      cases he
    | some e =>
      have hown : s₂.creator e = some p := by
        obtain ⟨w', hw, rfl⟩ := serviceExec_world he
        simp only [worldStep] at hw
        split at hw
        · cases hw
        · rename_i e' hlast
          cases hw
          exact hs₁.idle p k e (List.mem_of_getLast? hlast)
      -- an executor that is not used is closed and released
      have hdrop : ∀ {s₃ : ServiceSt}, Sure i c (inWorld (do
          onExecutor e MysqlExecutor.close
          wop (.noteDiscarded p)
          wop (.release e)
          popAlive p k n)) s₃ fun r s' => ∀ e ∈ r, s'.creator e = some p :=
        sure_onExecutor fun _ _ _ => sure_quiet rfl fun _ _ _ _ => sure_quiet rfl fun _ _ _ _ => ih
      refine sure_onExecutor fun alive s₃ hrest₃ => ?_
      cases alive with
      | false => exact hdrop
      | true =>
        refine sure_seq (sure_keeps isIdleTimeout_quiet) fun idle s₄ hgrew₄ _ => ?_
        cases idle with
        | true => exact hdrop
        | false =>
          intro e' he'
          obtain rfl := Option.some.inj he'
          exact hgrew₄.creator _ _ (hrest₃.1.creator _ _ hown)

/-- The pool makes an executor that connects as the pool says. -/
theorem createExecutor_sure (hp : p < s.world.nextPool) (k : ℕ) :
    Sure i c (inWorld (createExecutor p k)) s fun e s' => s'.creator e = some p := by
  refine sure_wop fun s₁ hrest hs₁ => ⟨trivial, fun _ n s₂ _ he hs₂ hgrew => ?_⟩
  have hp₂ : p < s₂.world.nextPool := Nat.lt_of_lt_of_le hp (hrest.1.trans hgrew).nextPool
  have hmaking : (s₂.tracks i).making = some p := by
    obtain ⟨w', -, rfl⟩ := serviceExec_world he
    dsimp only
    rw [update_self]
    rfl
  refine sure_wop fun s₃ hrest₃ hs₃ => ⟨trivial, fun _ target s₄ _ he₄ hs₄ _ => ?_⟩
  have hrest₄ : Rests i s₂ s₄ := hrest₃.trans (rests_quiet rfl hs₃ he₄)
  have htarget : target = (s₄.world.pools p).target := by
    obtain ⟨w', hw, rfl⟩ := serviceExec_world he₄
    cases hw
    rfl
  refine sure_wop fun s₅ hrest₅ hs₅ => ⟨trivial, fun _ option s₆ _ he₆ hs₆ _ => ?_⟩
  have hrest₆ : Rests i s₄ s₆ := hrest₅.trans (rests_quiet rfl hs₅ he₆)
  have hoption : option = (s₆.world.pools p).option := by
    obtain ⟨w', hw, rfl⟩ := serviceExec_world he₆
    cases hw
    rfl
  have hp₄ : p < s₄.world.nextPool := Nat.lt_of_lt_of_le hp₂ hrest₄.1.nextPool
  have hp₆ : p < s₆.world.nextPool := Nat.lt_of_lt_of_le hp₄ hrest₆.1.nextPool
  refine sure_wop fun s₇ hrest₇ hs₇ => ⟨⟨p, ?_, ?_, ?_⟩, fun _ e s₈ _ he₈ hs₈ _ => ?_⟩
  · rw [hrest₇.2, hrest₆.2, hrest₄.2, hmaking]
  · exact Nat.lt_of_lt_of_le hp₆ hrest₇.1.nextPool
  · rw [hrest₇.1.connOption hp₆]
    unfold Pool.connOption
    rw [hrest₆.1.target p hp₄, ← htarget, ← hoption]
  have hown : s₈.creator e = some p := by
    obtain ⟨w', hw, rfl⟩ := serviceExec_world he₈
    cases hw
    change update s₇.creator s₇.world.nextExec (s₇.tracks i).making s₇.world.nextExec = some p
    rw [update_self, hrest₇.2, hrest₆.2, hrest₄.2, hmaking]
  refine sure_onExecutor fun _ s₉ hrest₉ => sure_onExecutor fun _ s' hrest' => ?_
  exact hrest'.1.creator _ _ (hrest₉.1.creator _ _ hown)

theorem connectNew_sure (hp : p < s.world.nextPool) (k : ℕ) :
    Sure i c (inWorld (connectNew p k)) s fun e s' => s'.creator e = some p := by
  refine sure_seq (createExecutor_sure hp k) fun e s₁ _ hown => ?_
  refine sure_onExecutor fun connected s₂ hrest₂ => ?_
  have hown₂ : s₂.creator e = some p := hrest₂.1.creator _ _ hown
  cases connected with
  | false => exact hown₂
  | true =>
    refine sure_quiet rfl fun _ s₃ hrest₃ _ => sure_quiet rfl fun _ s₄ hrest₄ _ => ?_
    exact hrest₄.1.creator _ _ (hrest₃.1.creator _ _ hown₂)

/-- **What a pool hands out, it created.** -/
theorem getExecutor_sure (hp : p < s.world.nextPool) :
    Sure i c (inWorld (getExecutor p)) s fun e s' => s'.creator e = some p := by
  refine sure_quiet rfl fun shardId s₁ hrest₁ _ => sure_quiet rfl fun option s₂ hrest₂ _ => ?_
  have hp₂ : p < s₂.world.nextPool := Nat.lt_of_lt_of_le hp (hrest₁.1.trans hrest₂.1).nextPool
  split
  · exact sure_crashed
  refine sure_seq (popAlive_sure _ _) fun r s₃ hgrew₃ hr => ?_
  cases r with
  | some e => exact hr e rfl
  | none => exact connectNew_sure (Nat.lt_of_lt_of_le hp₂ hgrew₃.nextPool) _

/-- An executor goes back to the pool that created it. -/
theorem reclaim_sure (hown : s.creator e = some p) (from? : Option HandleId) :
    Sure i c (inWorld (reclaim p e from?)) s fun _ _ => True := by
  refine sure_onExecutor fun this s₁ hrest₁ => sure_quiet rfl fun option s₂ hrest₂ _ => ?_
  split
  · exact sure_crashed
  have hgrew₂ : Grew s s₂ := hrest₁.1.trans hrest₂.1
  refine sure_wop fun s₃ hrest₃ _ => ⟨(hgrew₂.trans hrest₃.1).creator _ _ hown, fun _ moved s₄ _ _ _ _ => ?_⟩
  cases moved with
  | true => exact trivial
  | false => exact sure_quiet rfl fun _ _ _ _ => sure_onExecutor fun _ _ _ => sure_quiet rfl fun _ _ _ _ => trivial

theorem releaseAll_quiet : ∀ es : List ExecId, (releaseAll es).Uses fun o => o.quiet = true
  | [] => trivial
  | _ :: es => ⟨rfl, fun _ => releaseAll_quiet es⟩

theorem closeAll_quiet : ∀ es : List ExecId, (closeAll es).Uses fun o => o.quiet = true
  | [] => trivial
  | _ :: es => onExecutor_quiet.bind fun _ => closeAll_quiet es

theorem stopShards_quiet : ∀ ks : List ℕ, (stopShards p ks).Uses fun o => o.quiet = true
  | [] => trivial
  | _ :: ks =>
    ⟨rfl, fun es => (closeAll_quiet es).bind fun _ => (releaseAll_quiet es).bind fun _ => stopShards_quiet ks⟩

theorem destroyShards_quiet : ∀ ks : List ℕ, (destroyShards p ks).Uses fun o => o.quiet = true
  | [] => trivial
  | _ :: ks => ⟨rfl, fun es => (releaseAll_quiet es).bind fun _ => destroyShards_quiet ks⟩

theorem stop_quiet : (stop p).Uses fun o => o.quiet = true := ⟨rfl, fun _ => stopShards_quiet _⟩

theorem destroy_quiet : (destroy p).Uses fun o => o.quiet = true := ⟨rfl, fun _ => destroyShards_quiet _⟩

end MysqlExecutorPool

namespace MysqlServiceProxy

variable {x : CtxId} {r : MysqlResults} {q : Sql} {args : List InputArg} {mode : MysqlResultsMode} {h : HandleId}

theorem connectionFailed_quiet : (connectionFailed x e).Uses fun o => o.quiet = true :=
  ⟨rfl, fun _ => onExecutor_quiet.bind fun _ => onExecutor_quiet.bind fun _ => ⟨rfl, fun _ => trivial⟩⟩

/-- An executor that is borrowed goes back to its pool, or is given up. -/
theorem borrowTask_sure : Sure i c (inWorld (borrowTask x r q args)) s fun _ _ => True := by
  refine sure_quiet rfl fun addr s₁ _ _ => sure_seq (MysqlExecutorPoolManager.get_sure addr) fun p s₂ _ hp => ?_
  refine sure_seq (MysqlExecutorPool.getExecutor_sure hp) fun e s₃ _ hown => ?_
  refine sure_onExecutor fun connected s₄ hrest₄ => ?_
  cases connected with
  | false =>
    exact sure_seq (sure_keeps connectionFailed_quiet) fun _ _ _ _ => sure_quiet rfl fun _ _ _ _ => trivial
  | true =>
    refine sure_onExecutor fun out s₅ hrest₅ => ?_
    have hown₅ : s₅.creator e = some p := hrest₅.1.creator _ _ (hrest₄.1.creator _ _ hown)
    refine sure_seq (MysqlExecutorPool.reclaim_sure hown₅ none) fun moved s₆ _ _ => ?_
    cases moved with
    | true => exact trivial
    | false => exact sure_quiet rfl fun _ _ _ _ => trivial

theorem ownTask_sure : Sure i c (inWorld (ownTask x e r q args)) s fun _ _ => True := by
  refine sure_onExecutor fun connected s₁ _ => ?_
  cases connected with
  | false => exact sure_seq (sure_keeps connectionFailed_quiet) fun _ _ _ _ => trivial
  | true => exact sure_onExecutor fun _ _ _ => trivial

theorem task_sure (executor : Option ExecId) : Sure i c (inWorld (task x executor r q args)) s fun _ _ => True := by
  cases executor with
  | none => exact borrowTask_sure
  | some e => exact ownTask_sure

theorem unaryInvoke_sure (executor : Option ExecId) :
    Sure i c (inWorld (unaryInvoke x executor r q args)) s fun _ _ => True := by
  refine sure_quiet rfl fun late s₁ _ _ => ?_
  split
  · exact trivial
  refine sure_quiet rfl fun pass s₂ _ _ => ?_
  split
  · exact sure_quiet rfl fun _ _ _ _ => trivial
  refine sure_quiet rfl fun _ s₃ _ _ => sure_seq (task_sure executor) fun out s₄ _ _ => ?_
  dsimp only
  split
  · exact sure_quiet rfl fun _ _ _ _ => sure_quiet rfl fun _ _ _ _ => trivial
  · exact sure_quiet rfl fun _ _ _ _ => trivial

theorem asyncUnaryInvoke_sure (executor : Option ExecId) :
    Sure i c (inWorld (asyncUnaryInvoke x executor mode q args)) s fun _ _ => True := by
  refine sure_quiet rfl fun late s₁ _ _ => ?_
  split
  · exact sure_quiet rfl fun _ _ _ _ => trivial
  refine sure_quiet rfl fun pass s₂ _ _ => ?_
  split
  · exact sure_quiet rfl fun _ _ _ _ => sure_quiet rfl fun _ _ _ _ => sure_quiet rfl fun _ _ _ _ => trivial
  refine sure_quiet rfl fun _ s₃ _ _ => sure_seq (task_sure executor) fun out s₄ _ _ => ?_
  refine sure_quiet rfl fun _ s₅ _ _ => ?_
  cases out with
  | error message => exact trivial
  | ok r =>
    dsimp only
    split <;> exact trivial

theorem query_sure : Sure i c (inWorld (query x r q args)) s fun _ _ => True := by
  refine sure_quiet rfl fun pass s₁ _ _ => ?_
  dsimp only
  split
  · refine sure_seq (unaryInvoke_sure none) fun r' s₂ _ _ => ?_
    exact sure_quiet rfl fun _ _ _ _ => sure_quiet rfl fun _ _ _ _ => trivial
  · exact sure_quiet rfl fun _ _ _ _ => sure_quiet rfl fun _ _ _ _ => trivial

theorem rejected_sure : Sure i c (inWorld (rejected x (α := α))) s fun _ _ => True :=
  sure_quiet rfl fun _ _ _ _ => sure_quiet rfl fun _ _ _ _ => trivial

theorem asyncQuery_sure : Sure i c (inWorld (asyncQuery x mode q args)) s fun _ _ => True := by
  refine sure_quiet rfl fun pass s₁ _ _ => ?_
  split
  · exact rejected_sure
  · exact sure_seq (asyncUnaryInvoke_sure none) fun _ _ _ _ => sure_quiet rfl fun _ _ _ _ => trivial

/-- The executor of a handle was made by a pool. -/
theorem sure_getExecutor {β : Type} {f : Option ExecId → WProg β} {Q : β → ServiceSt → Prop}
    (hf : ∀ r s', (s'.tracks i).held = r → (∀ e ∈ r, ∃ p, s'.creator e = some p) → Sure i c (inWorld (f r)) s' Q) :
    Sure i c (inWorld (wop (.getExecutor h) >>= f)) s Q := by
  refine sure_wop fun s₁ _ hs₁ => ⟨trivial, fun _ r s₂ _ he _ hgrew => hf r s₂ ?_ fun e hr => ?_⟩
  · obtain ⟨w', -, rfl⟩ := serviceExec_world he
    dsimp only
    rw [update_self]
    rfl
  · obtain ⟨w', hw, rfl⟩ := serviceExec_world he
    simp only [worldStep, Option.some.injEq, Prod.mk.injEq] at hw
    obtain ⟨rfl, rfl⟩ := hw
    obtain ⟨p, hp⟩ := hs₁.handle h e hr
    exact ⟨p, hgrew.creator e p hp⟩

theorem handleAlive_sure : Sure i c (inWorld (handleAlive h)) s fun _ _ => True := by
  refine sure_getExecutor fun executor s₁ _ _ => ?_
  cases executor with
  | none => exact sure_crashed
  | some e => exact sure_onExecutor fun _ _ _ => sure_quiet rfl fun _ _ _ _ => trivial

/-- A statement on the executor of the handle, and the end of the copy. -/
theorem invoke_sure {α : Type} {p : Option ExecId → WProg α}
    (hp : ∀ executor s', Sure i c (inWorld (p executor)) s' fun _ _ => True) :
    Sure i c (inWorld (do
      let executor ← wop (.getExecutor h)
      let out ← p executor
      match executor with
      | none => return out
      | some e =>
        wop (.release e)
        return out)) s fun _ _ => True := by
  refine sure_getExecutor fun executor s₁ _ _ => sure_seq (hp executor s₁) fun out s₂ _ _ => ?_
  cases executor with
  | none => exact trivial
  | some e => exact sure_quiet rfl fun _ _ _ _ => trivial

theorem handleInvoke_sure : Sure i c (inWorld (handleInvoke x h r q args)) s fun _ _ => True := by
  refine sure_quiet rfl fun st s₁ _ _ => ?_
  split
  · exact sure_quiet rfl fun _ _ _ _ => trivial
  refine sure_seq handleAlive_sure fun alive s₂ _ _ => ?_
  split
  · exact sure_quiet rfl fun _ _ _ _ => sure_quiet rfl fun _ _ _ _ => trivial
  · exact invoke_sure fun executor s' => unaryInvoke_sure executor

theorem queryTx_sure : Sure i c (inWorld (queryTx x h r q args)) s fun _ _ => True := by
  refine sure_quiet rfl fun pass s₁ _ _ => ?_
  dsimp only
  split
  · refine sure_seq handleInvoke_sure fun r' s₂ _ _ => ?_
    exact sure_quiet rfl fun _ _ _ _ => sure_quiet rfl fun _ _ _ _ => trivial
  · exact sure_quiet rfl fun _ _ _ _ => sure_quiet rfl fun _ _ _ _ => trivial

theorem asyncQueryTx_sure : Sure i c (inWorld (asyncQueryTx x h mode q args)) s fun _ _ => True := by
  refine sure_quiet rfl fun pass s₁ _ _ => ?_
  split
  · exact rejected_sure
  refine sure_quiet rfl fun st s₂ _ _ => ?_
  split
  · exact sure_quiet rfl fun _ _ _ _ => sure_quiet rfl fun _ _ _ _ => trivial
  refine sure_seq handleAlive_sure fun alive s₃ _ _ => ?_
  split
  · exact sure_quiet rfl fun _ _ _ _ => sure_quiet rfl fun _ _ _ _ => sure_quiet rfl fun _ _ _ _ => trivial
  refine sure_getExecutor fun executor s₄ _ _ => sure_seq (asyncUnaryInvoke_sure executor) fun out s₅ _ _ => ?_
  refine sure_quiet rfl fun _ s₆ _ _ => ?_
  cases executor with
  | none => exact trivial
  | some e => exact sure_quiet rfl fun _ _ _ _ => trivial

theorem beginAddr_sure : Sure i c (inWorld (beginAddr x)) s fun _ _ => True := by
  refine sure_quiet rfl fun addr s₁ _ _ => ?_
  split
  · refine sure_quiet rfl fun found s₂ _ _ => ?_
    cases found with
    | error text => exact sure_quiet rfl fun _ _ _ _ => trivial
    | ok addr => exact trivial
  · exact trivial

/-- The handle gets an executor that a pool made. -/
theorem beginOn_sure (hown : s.creator e = some p) : Sure i c (inWorld (beginOn x e)) s fun _ _ => True := by
  refine sure_onExecutor fun connected s₁ hrest₁ => ?_
  have hown₁ : s₁.creator e = some p := hrest₁.1.creator _ _ hown
  -- what follows the statement
  have hrest : ∀ {s₂ : ServiceSt}, s₂.creator e = some p → Sure i c (inWorld (do
      let handle ← if (← wop (.getStatus x)).ok then pure (some (← wop (.newHandle e))) else pure none
      let _ ← wop (.runFilters .postRpcInvoke x)
      let s ← wop (.getStatus x)
      if handle.isNone then wop (.release e)
      return (s, handle))) s₂ fun _ _ => True := by
    intro s₂ hown₂
    have hend : ∀ (handle : Option HandleId) {s₃ : ServiceSt}, Sure i c (inWorld (do
        let _ ← wop (.runFilters .postRpcInvoke x)
        let s ← wop (.getStatus x)
        if handle.isNone then wop (.release e)
        return (s, handle))) s₃ fun _ _ => True := by
      intro handle s₃
      refine sure_quiet rfl fun _ _ _ _ => sure_quiet rfl fun st s₄ _ _ => ?_
      split
      · exact sure_quiet rfl fun _ _ _ _ => trivial
      · exact trivial
    refine sure_quiet rfl fun st s₃ hrest₃ _ => ?_
    split
    · have hown₃ : s₃.creator e = some p := hrest₃.1.creator _ _ hown₂
      refine sure_wop fun s₄ hrest₄ _ => ⟨⟨p, hrest₄.1.creator _ _ hown₃⟩, fun _ hd s₅ _ _ _ _ => ?_⟩
      exact hend (some hd)
    · exact hend none
  cases connected with
  | false => exact sure_seq (sure_keeps connectionFailed_quiet) fun _ s₂ hgrew₂ _ => hrest (hgrew₂.creator _ _ hown₁)
  | true => exact sure_seq (unaryInvoke_sure (some e)) fun _ s₂ hgrew₂ _ => hrest (hgrew₂.creator _ _ hown₁)

theorem begin_sure : Sure i c (inWorld (begin x)) s fun _ _ => True := by
  refine sure_quiet rfl fun pass s₁ _ _ => ?_
  split
  · exact sure_quiet rfl fun _ _ _ _ => sure_quiet rfl fun _ _ _ _ => trivial
  refine sure_seq beginAddr_sure fun addr s₂ _ _ => ?_
  cases addr with
  | error text => exact sure_quiet rfl fun _ _ _ _ => trivial
  | ok addr =>
    refine sure_seq (MysqlExecutorPoolManager.get_sure addr) fun p s₃ _ hp => ?_
    exact sure_seq (MysqlExecutorPool.getExecutor_sure hp) fun e s₄ _ hown => beginOn_sure hown

theorem asyncBeginOn_sure (hown : s.creator e = some p) : Sure i c (inWorld (asyncBeginOn x e)) s fun _ _ => True := by
  refine sure_onExecutor fun connected s₁ hrest₁ => ?_
  split
  · exact sure_seq (sure_keeps connectionFailed_quiet) fun _ _ _ _ => sure_quiet rfl fun _ _ _ _ => trivial
  refine sure_seq (asyncUnaryInvoke_sure (some e)) fun out s₂ hgrew₂ _ => ?_
  cases out with
  | error message => exact sure_quiet rfl fun _ _ _ _ => trivial
  | ok r =>
    refine sure_wop fun s₃ hrest₃ _ => ⟨⟨p, ?_⟩, fun _ _ _ _ _ _ _ => trivial⟩
    exact hrest₃.1.creator _ _ (hgrew₂.creator _ _ (hrest₁.1.creator _ _ hown))

theorem asyncBegin_sure : Sure i c (inWorld (asyncBegin x)) s fun _ _ => True := by
  refine sure_quiet rfl fun pass s₁ _ _ => ?_
  split
  · exact rejected_sure
  refine sure_seq beginAddr_sure fun addr s₂ _ _ => ?_
  cases addr with
  | error text => exact trivial
  | ok addr =>
    refine sure_seq (MysqlExecutorPoolManager.get_sure addr) fun p s₃ _ hp => ?_
    exact sure_seq (MysqlExecutorPool.getExecutor_sure hp) fun e s₄ _ hown => asyncBeginOn_sure hown

/-- **The executor of a transaction that ends in time goes back to the pool that created it.** -/
theorem endTransaction_sure (rollback : Bool) : Sure i c (inWorld (endTransaction h rollback)) s fun _ _ => True := by
  refine sure_quiet rfl fun _ s₁ _ _ => sure_getExecutor fun executor s₂ hheld hmade => ?_
  cases executor with
  | none => exact trivial
  | some e =>
    obtain ⟨p, hown⟩ := hmade e rfl
    -- the executor's address is that of its pool
    refine sure_wop fun s₃ hrest₃ hs₃ => ⟨trivial, fun _ this s₄ _ he hs₄ hgrew₄ => ?_⟩
    have hrest₄ : Rests i s₂ s₄ := hrest₃.trans (rests_quiet rfl hs₃ he)
    have hown₄ : s₄.creator e = some p := hrest₄.1.creator _ _ hown
    obtain ⟨-, hp, hopt⟩ := hs₄.exec e p hown₄
    have haddr : ({ ip := this.option.hostname, port := this.option.port } : NodeAddr) = (s₄.world.pools p).target := by
      have hthis : this.option = (s₄.world.execs e).this.option := by
        obtain ⟨w', hw, rfl⟩ := serviceExec_world he
        simp only [worldStep, clientExec, Option.map_some, Option.some.injEq, Prod.mk.injEq] at hw
        obtain ⟨rfl, rfl⟩ := hw
        simp [World.setExec, World.record]
      rw [hthis, hopt]
      rfl
    have hheld₄ : (s₄.tracks i).held = some e := by rw [hrest₄.2, hheld]
    have hget := MysqlExecutorPoolManager.get_own (c := c) hown₄ hp hheld₄
    rw [← haddr] at hget
    refine sure_seq hget fun p' s₅ hgrew₅ hp' => ?_
    subst hp'
    refine sure_seq (MysqlExecutorPool.reclaim_sure (hgrew₅.creator _ _ hown₄) (some h)) fun _ s₆ _ _ => ?_
    exact sure_quiet (f := .ret) rfl fun _ _ _ _ => trivial

theorem finish_sure (rollback : Bool) : Sure i c (inWorld (finish x h rollback)) s fun _ _ => True := by
  refine sure_seq queryTx_sure fun out s₁ _ _ => ?_
  dsimp only
  split
  · exact sure_quiet rfl fun _ _ _ _ => sure_quiet (f := .ret) rfl fun _ _ _ _ => trivial
  · exact sure_seq (endTransaction_sure rollback) fun _ _ _ _ => sure_quiet (f := .ret) rfl fun _ _ _ _ => trivial

theorem asyncCommit_sure : Sure i c (inWorld (asyncCommit x h)) s fun _ _ => True := by
  refine sure_seq asyncQueryTx_sure fun out s₁ _ _ => ?_
  cases out with
  | error message => exact trivial
  | ok r => exact sure_seq (endTransaction_sure false) fun _ _ _ _ => trivial

theorem asyncRollback_sure : Sure i c (inWorld (asyncRollback x h)) s fun _ _ => True := by
  refine sure_seq asyncQueryTx_sure fun out s₁ _ _ => ?_
  cases out with
  | error message => exact sure_crashed
  | ok r => exact sure_seq (endTransaction_sure true) fun _ _ _ _ => trivial

theorem dropHandle_sure : Sure i c (inWorld (dropHandle h)) s fun _ _ => True := by
  refine sure_getExecutor fun executor s₁ _ _ => ?_
  cases executor with
  | none => exact sure_quiet (f := .ret) rfl fun _ _ _ _ => trivial
  | some e =>
    refine sure_onExecutor fun _ s₂ _ => sure_quiet rfl fun _ s₃ _ _ => ?_
    exact sure_quiet (f := .ret) rfl fun _ _ _ _ => trivial

end MysqlServiceProxy

open MysqlServiceProxy in
theorem call_sure : ∀ c' : Call, Sure i c (inWorld c'.prog) s fun _ _ => True
  | .query .. => sure_seq query_sure fun _ _ _ _ => trivial
  | .asyncQuery .. => sure_seq asyncQuery_sure fun _ _ _ _ => trivial
  | .queryTx .. => sure_seq queryTx_sure fun _ _ _ _ => trivial
  | .asyncQueryTx .. => sure_seq asyncQueryTx_sure fun _ _ _ _ => trivial
  | .begin _ => sure_seq begin_sure fun _ _ _ _ => trivial
  | .asyncBegin _ => sure_seq asyncBegin_sure fun _ _ _ _ => trivial
  | .finish _ _ false => sure_seq (finish_sure false) fun _ _ _ _ => trivial
  | .finish _ _ true => sure_seq (finish_sure true) fun _ _ _ _ => trivial
  | .asyncFinish _ _ false => sure_seq asyncCommit_sure fun _ _ _ _ => trivial
  | .asyncFinish _ _ true => sure_seq asyncRollback_sure fun _ _ _ _ => trivial
  | .moveHandle _ => sure_quiet rfl fun _ _ _ _ => trivial
  | .dropHandle _ => sure_seq dropHandle_sure fun _ _ _ _ => trivial
  | .stop _ => sure_seq (sure_keeps MysqlExecutorPool.stop_quiet) fun _ _ _ _ => trivial
  | .destroy _ => sure_seq (sure_keeps MysqlExecutorPool.destroy_quiet) fun _ _ _ _ => trivial

/-- A step outside the world needs nothing. -/
theorem sure_vop {β : Type} {o : ServiceOp} {f : o.Reply → ServiceProg β} {Q : β → ServiceSt → Prop}
    (ho : ∀ s, Needs i s o) (hf : ∀ r s', Sure i c (f r) s' Q) : Sure i c (vop o >>= f) s Q :=
  fun s₁ _ _ => ⟨ho s₁, fun _ r s₂ _ _ _ => hf r s₂⟩

theorem sure_then {β : Type} {p : ServiceProg α} {f : α → ServiceProg β} (hp : Sure i c p s fun _ _ => True)
    (hf : ∀ x s', Sure i c (f x) s' fun _ _ => True) : Sure i c (p >>= f) s fun _ _ => True :=
  Contract.sure_bind (Contract.sure_mono (fun x s' _ => hf x s') hp)

namespace MysqlExecutorPoolManager

theorem stopPools_sure : ∀ (ps : List PoolId) {s : ServiceSt}, Sure i c (stopPools ps) s fun _ _ => True
  | [], _ => trivial
  | _ :: ps, _ => sure_then (Contract.sure_mono (fun _ _ _ => trivial) (sure_keeps MysqlExecutorPool.stop_quiet))
    fun _ _ => stopPools_sure ps

theorem stop_sure : Sure i c stop s fun _ _ => True :=
  sure_vop (fun _ => trivial) fun ps _ => stopPools_sure ps

theorem destroyPools_sure : ∀ (ps : List PoolId) {s : ServiceSt}, Sure i c (destroyPools ps) s fun _ _ => True
  | [], _ => trivial
  | _ :: ps, _ => sure_then (Contract.sure_mono (fun _ _ _ => trivial) (sure_keeps MysqlExecutorPool.destroy_quiet))
    fun _ _ => sure_vop (fun _ => trivial) fun _ _ => destroyPools_sure ps

theorem destroy_sure : Sure i c destroy s fun _ _ => True :=
  sure_vop (fun _ => trivial) fun ps _ => sure_then (destroyPools_sure ps) fun _ _ =>
    sure_vop (fun _ => trivial) fun _ _ => sure_vop (f := .ret) (fun _ => trivial) fun _ _ => trivial

end MysqlExecutorPoolManager

open MysqlExecutorPoolManager in
theorem setMysqlConfig_sure (conf : MysqlClientConf) :
    Sure i c (MysqlServiceProxy.setMysqlConfig conf) s fun _ _ => True := by
  refine sure_vop (fun _ => trivial) fun _ _ => sure_vop (fun _ => trivial) fun _ _ => ?_
  refine sure_vop (fun _ => trivial) fun _ _ => sure_vop (fun _ => trivial) fun _ _ => ?_
  refine sure_then stop_sure fun _ _ => sure_then destroy_sure fun _ _ => ?_
  refine sure_vop (fun _ => trivial) fun _ _ => sure_vop (fun _ => trivial) fun _ _ => ?_
  exact sure_vop (f := .ret) (fun _ => trivial) fun _ _ => trivial

theorem serviceCall_sure : ∀ c' : ServiceCall, Sure i c c'.prog s fun _ _ => True
  | .proxy c' => call_sure c'
  | .setMysqlConfig conf => sure_then (setMysqlConfig_sure conf) fun _ _ => trivial
  | .stop => sure_then (sure_vop (fun _ => trivial) fun _ _ => MysqlExecutorPoolManager.stop_sure) fun _ _ => trivial
  | .destroy =>
    sure_then (sure_vop (fun _ => trivial) fun _ _ => MysqlExecutorPoolManager.destroy_sure) fun _ _ => trivial

end Functions

/-! ## Runs -/

/-- A proxy without pools. -/
theorem housed_fresh (serviceName : String) (option : ServiceProxyOption) (conf : MysqlClientConf)
    (ctxs : CtxId → ClientContext) : Housed (.fresh serviceName option conf ctxs) where
  map key p hp := by cases hp
  pool p hlo hlt := absurd hlt (Nat.not_lt_zero p)
  oldest := Nat.le_refl 0
  exec e p he := by cases he
  idle p k e he := by cases he
  handle h e he := by cases he

theorem keeping_sound (serviceName : String) (option : ServiceProxyOption) (conf : MysqlClientConf)
    (ctxs : CtxId → ClientContext) : keeping.Sound serviceSystem EndsInTime (.fresh serviceName option conf ctxs) where
  init := housed_fresh serviceName option conf ctxs
  refl := Rests.refl
  trans h h' := h.trans h'
  step := by
    intro i o a s r s' hs hp he
    obtain ⟨hs', hgrew⟩ := housed_step hs hp he
    exact ⟨hs', fun j hj => ⟨hgrew, track_step hj he⟩⟩
  start _ _ := serviceCall_sure _

/-- **Executors go back to the pools that created them, in every run in which transactions end while the manager that
they began under still has its pools.** -/
theorem own_pools (serviceName : String) (option : ServiceProxyOption) (conf : MysqlClientConf)
    (ctxs : CtxId → ClientContext) {cf : ServiceConfig}
    (hr : serviceSystem.Reach EndsInTime (.fresh serviceName option conf ctxs) cf) : OwnPools cf := by
  have hsound := keeping_sound serviceName option conf ctxs
  obtain ⟨hs, -⟩ := hsound.reach hr
  refine ⟨fun p e hrec => ?_, fun p k e he => ?_⟩
  · obtain ⟨⟨c, q⟩, hf, k, from?, hnext⟩ := hrec
    obtain ⟨j, hj⟩ := List.mem_iff_getElem?.1 hf
    cases q with
    | ret x => cases hnext
    | act o q =>
      cases hnext
      exact hsound.meets hr hj
  · have hown := hs.idle p k e he
    exact ⟨hown, (hs.exec e p hown).2.2⟩

/-- A pool that was made before the map was last emptied is not found again. -/
theorem late_lookup {s s' : ServiceSt} {i : ℕ} {a : Answer} {key : Bytes} {p : PoolId} {r : Option PoolId}
    (hs : Housed s) (hlate : p < s.oldest) (he : serviceExec i (.world (.poolsGet key)) a s = some (r, s')) :
    r ≠ some p := by
  intro hr
  obtain ⟨w', hw, -⟩ := serviceExec_world he
  simp only [worldStep, Option.some.injEq, Prod.mk.injEq] at hw
  have hlo := (hs.map key p (hw.1.trans hr)).1
  exact absurd hlo (Nat.not_le.2 hlate)

instance (i : ℕ) (c : ServiceCall) (s : ServiceSt) (o : ServiceOp) (a : Answer) :
    Decidable (EndsInTime.act i c s o a) := by
  induction o using ServiceOp.casesOn with
  | world o =>
    induction o using WorldOp.casesOn with
    | poolsGet _ => exact inferInstanceAs (Decidable (∀ e ∈ (s.tracks i).held, ∀ p ∈ s.creator e, s.oldest ≤ p))
    | _ => exact isTrue trivial
  | _ => exact isTrue trivial

/-- A proxy without pools, whose contexts name an address. -/
def newService : ServiceSt :=
  .fresh "db" { maxConnNum := 8, idleTime := 0 } {} fun _ => { nodeAddr := { ip := ascii "localhost", port := 3306 } }

/-- A transaction is committed, a new manager takes over, and another transaction is committed. -/
theorem own_pools_configured : ∃ cf, serviceSystem.Reach EndsInTime newService cf ∧
    1 ∈ (cf.world.world.pools 1).shards 0 ∧ OwnPools cf := by
  have h₁ : serviceSystem.Reach EndsInTime newService _ :=
    System.Reach.init.call_get (c := .proxy (.begin 0)) (List.replicate 60 {}) trivial (by decide +kernel)
      (by decide +kernel)
  have h₂ := h₁.call_get (c := .proxy (.finish 1 0 false)) (List.replicate 60 {}) trivial (by decide +kernel)
    (by decide +kernel)
  have h₃ := h₂.call_get (c := .setMysqlConfig { userName := "root" }) (List.replicate 60 {}) trivial
    (by decide +kernel) (by decide +kernel)
  have h₄ := h₃.call_get (c := .proxy (.begin 2)) (List.replicate 60 {}) trivial (by decide +kernel) (by decide +kernel)
  have h₅ := h₄.call_get (c := .proxy (.finish 3 1 false)) (List.replicate 60 {}) trivial (by decide +kernel)
    (by decide +kernel)
  exact ⟨_, h₅, by decide +kernel, own_pools "db" { maxConnNum := 8, idleTime := 0 } {} _ h₅⟩

/-- `SetMysqlConfig` between `Begin` and `Commit`: the executor goes into a pool of the new manager. -/
theorem begin_configure_commit : ¬ ∀ (serviceName : String) (option : ServiceProxyOption) (conf : MysqlClientConf)
    (ctxs : CtxId → ClientContext) (cf : ServiceConfig),
    serviceSystem.Reach anyCalls (.fresh serviceName option conf ctxs) cf → OwnPools cf := by
  intro h
  have h₁ : serviceSystem.Reach anyCalls newService _ :=
    System.Reach.init.call_get (c := .proxy (.begin 0)) (List.replicate 60 {}) trivial Prog.along_true
      (by decide +kernel)
  have h₂ := h₁.call_get (c := .setMysqlConfig { userName := "root" }) (List.replicate 60 {}) trivial Prog.along_true
    (by decide +kernel)
  have h₃ := h₂.call_get (c := .proxy (.finish 1 0 false)) (List.replicate 60 {}) trivial Prog.along_true
    (by decide +kernel)
  have hidle := ((h "db" { maxConnNum := 8, idleTime := 0 } {} _ _ h₃).idle 1 0 0 (by decide +kernel)).1
  exact absurd hidle (by decide +kernel)

end TrpcMysql
