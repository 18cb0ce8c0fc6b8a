import Mathlib.Tactic.Ring
import TrpcMysql.Pool.Sequence

/-!
# Counters, lists and numbers of a pool

What holds between the calls of a run on one pool, for every run:

* `accounting_iff`: when `executor_num_` counts the executors of the pool;
* `shard_capacity_iff`: when no list is longer than `max_num_per_shard_`, and that bound is
  `max_size` over the number of shards, rounded up;
* `home_shard`: an executor is only ever listed in its home shard, and numbers are not given twice.
-/

namespace TrpcMysql

open Function Conc MysqlExecutorPool

section Got

variable {p : PoolId} {w w' : World}

/-- What `GetExecutor` leaves of the pool. -/
theorem Got.pool (h : Got p w w') : ∃ m, ∃ b : Bool,
    (w'.pools p).option = (w.pools p).option ∧
    (w'.pools p).maxNumPerShard = (w.pools p).maxNumPerShard ∧
    (∀ k, (w'.pools p).shards k <+: (w.pools p).shards k) ∧ m ≤ EXECUTOR_POOL_CONN_RETRY_NUM ∧
    (w'.pools p).discarded = (w.pools p).discarded + m ∧
    (w'.pools p).connected = (w.pools p).connected + b.toNat ∧
    (w'.pools p).executorNum = if b then ((w.pools p).executorNum + 1) % 2 ^ 32 else (w.pools p).executorNum := by
  obtain ⟨w₁, rfl, w₂, hpop, hend⟩ := h
  obtain ⟨m, hm, hrest⟩ := hpop.rest
  have hpre := hpop.shards
  simp only [World.setPool, update_self] at hrest hpre
  rcases hend with rfl | hmade
  · exact ⟨m, false, by rw [hrest], by rw [hrest], hpre, hm, by rw [hrest], by rw [hrest]; rfl, by rw [hrest]; rfl⟩
  · obtain ⟨b, hb⟩ := hmade.rest
    refine ⟨m, b, ?_, ?_, fun k => ?_, hm, ?_, ?_, ?_⟩
    all_goals rw [hb]
    case refine_3 => exact hpre k
    all_goals rw [hrest]

end Got

section Runs

variable {option : MysqlExecutorPoolOption} {addr : NodeAddr} {steps : List (World × PoolCall)} {w w' : World}
  {c : PoolCall}

/-- The states of a run. -/
def PoolRun.States (steps : List (World × PoolCall)) (w : World) : List World := steps.map Prod.fst ++ [w]

/-- What the options fix stays. -/
theorem PoolRun.fixed (h : PoolRun 0 (.ofPool option addr) steps w) :
    (w.pools 0).option = option ∧ (w.pools 0).maxNumPerShard = option.maxSize / option.numShardGroup := by
  induction h with
  | init => exact ⟨rfl, rfl⟩
  | call as _ _ hr ih =>
    cases PoolCall.did hr with
    | got h => obtain ⟨m, b, ho, hm, -⟩ := h.pool; exact ⟨ho.trans ih.1, hm.trans ih.2⟩
    | ran h => rwa [h.pools]
    | reclaimed h => cases h with
      | pushed _ hp => rw [hp]; exact ih
      | refused _ hp => rw [hp]; exact ih

theorem PoolRun.prefix_of_mem (h : PoolRun 0 (.ofPool option addr) steps w) (hw : w' ∈ States steps w) :
    ∃ steps', PoolRun 0 (.ofPool option addr) steps' w' := by
  induction h with
  | init => simp only [States, List.map_nil, List.nil_append, List.mem_singleton] at hw; exact ⟨[], hw ▸ .init⟩
  | @call steps w w₁ c as rest h he hr ih =>
    simp only [States, List.map_append, List.map_cons, List.map_nil, List.append_assoc, List.mem_append,
      List.mem_singleton] at hw ih
    rcases hw with hw | hw | rfl
    · exact ih (.inl hw)
    · exact ih (.inr hw)
    · exact ⟨_, .call as h he hr⟩

theorem PoolRun.fixed_of_mem (h : PoolRun 0 (.ofPool option addr) steps w) (hw : w' ∈ States steps w) :
    (w'.pools 0).option = option ∧ (w'.pools 0).maxNumPerShard = option.maxSize / option.numShardGroup := by
  obtain ⟨steps', h'⟩ := h.prefix_of_mem hw
  exact h'.fixed

/-! ## The counter -/

/-- The counter is what it should be. -/
def LedgerAgrees (q : Pool) : Prop := (q.executorNum : ℤ) = q.connected - q.discarded

/-- `Reclaim` is about to refuse the executor on account of `max_size`. -/
def OverSize (w : World) (c : PoolCall) : Prop :=
  ∃ e, c = .reclaim e ∧ ((w.pools 0).shards (w.home 0 e)).length ≤ (w.pools 0).maxNumPerShard ∧
    (w.pools 0).option.maxSize < (w.pools 0).executorNum

/-- One call: while nothing is discarded the counter follows the connections, and a call that discards
something spoils it. -/
theorem PoolCall.Did.counter (h : c.Did 0 w w') (hnum : (w.pools 0).executorNum < 2 ^ 32)
    (hzero : (w.pools 0).discarded = 0) (hbal : (w.pools 0).executorNum = (w.pools 0).connected % 2 ^ 32) :
    (w'.pools 0).executorNum < 2 ^ 32 ∧ (w.pools 0).connected ≤ (w'.pools 0).connected ∧
      ((w'.pools 0).discarded = 0 → (w'.pools 0).executorNum = (w'.pools 0).connected % 2 ^ 32) ∧
      ((w'.pools 0).discarded ≠ 0 → ¬ LedgerAgrees (w'.pools 0)) := by
  cases h with
  | ran h => rw [h.pools]; exact ⟨hnum, Nat.le_refl _, fun _ => hbal, fun hne => absurd hzero hne⟩
  | got h =>
    obtain ⟨m, b, -, -, -, hm, hd, hc, hn⟩ := h.pool
    unfold EXECUTOR_POOL_CONN_RETRY_NUM at hm
    cases b <;> simp only [Bool.toNat_true, Bool.toNat_false, if_true, if_false, Bool.false_eq_true] at hc hn <;>
      refine ⟨by omega, by omega, by omega, fun hne hb => ?_⟩ <;> unfold LedgerAgrees at hb <;> omega
  | reclaimed h =>
    cases h with
    | pushed _ hp => rw [hp]; exact ⟨hnum, Nat.le_refl _, fun _ => hbal, fun hne => absurd hzero hne⟩
    | refused _ hp =>
      rw [hp]
      refine ⟨Nat.mod_lt _ (by decide), Nat.le_refl _, fun h0 => (by simp at h0), fun _ hb => ?_⟩
      simp only [LedgerAgrees] at hb
      omega

theorem PoolCall.Did.discarded (h : c.Did 0 w w') : (w.pools 0).discarded ≤ (w'.pools 0).discarded := by
  cases h with
  | ran h => rw [h.pools]
  | got h => obtain ⟨m, b, -, -, -, -, hd, -⟩ := h.pool; omega
  | reclaimed h => cases h with
    | pushed _ hp => rw [hp]
    | refused _ hp => rw [hp]; exact Nat.le_succ _

theorem PoolRun.counter (h : PoolRun 0 (.ofPool option addr) steps w) (hzero : (w.pools 0).discarded = 0) :
    (w.pools 0).executorNum < 2 ^ 32 ∧ (w.pools 0).executorNum = (w.pools 0).connected % 2 ^ 32 ∧
      ∀ w' ∈ PoolRun.States steps w, (w'.pools 0).connected ≤ (w.pools 0).connected ∧
        (w'.pools 0).discarded = 0 ∧ (w'.pools 0).executorNum = (w'.pools 0).connected % 2 ^ 32 := by
  induction h with
  | init => simp [States, World.ofPool, Pool.new]
  | @call steps w w' c as rest _ _ hr ih =>
    have hdid := PoolCall.did hr
    have h0 : (w.pools 0).discarded = 0 := by have := hdid.discarded; omega
    obtain ⟨hlt, hbal, hall⟩ := ih h0
    obtain ⟨hlt', hle, hbal', -⟩ := hdid.counter hlt h0 hbal
    refine ⟨hlt', hbal' hzero, fun w₁ hw => ?_⟩
    simp only [States, List.map_append, List.map_cons, List.map_nil, List.append_assoc, List.mem_append,
      List.mem_singleton] at hw
    rcases hw with hw | hw | rfl
    · obtain ⟨h1, h2⟩ := hall w₁ (by simp [States, hw]); exact ⟨Nat.le_trans h1 hle, h2⟩
    · obtain ⟨h1, h2⟩ := hall w₁ (by simp [States, hw]); exact ⟨Nat.le_trans h1 hle, h2⟩
    · exact ⟨Nat.le_refl _, hzero, hbal' hzero⟩

theorem PoolRun.balanced_zero (h : PoolRun 0 (.ofPool option addr) steps w)
    (hb : ∀ w' ∈ PoolRun.States steps w, LedgerAgrees (w'.pools 0)) :
    (w.pools 0).discarded = 0 ∧ (w.pools 0).connected < 2 ^ 32 := by
  induction h with
  | init => simp [World.ofPool, Pool.new]
  | @call steps w w' c as rest h _ hr ih =>
    have hmem : ∀ w₁, w₁ ∈ States steps w ∨ w₁ = w' → w₁ ∈ States (steps ++ [(w, c)]) w' := by
      intro w₁ hw
      rcases hw with hw | rfl
      · simp only [States, List.mem_append, List.mem_singleton] at hw ⊢
        rcases hw with hw | rfl
        · left; rw [List.map_append]; exact List.mem_append_left _ hw
        · left; simp
      · simp [States]
    obtain ⟨h0, -⟩ := ih fun w₁ hw => hb w₁ (hmem w₁ (.inl hw))
    obtain ⟨hlt, hbal, -⟩ := h.counter h0
    obtain ⟨hlt', -, hkeep, hspoil⟩ := (PoolCall.did hr).counter hlt h0 hbal
    have hb' := hb w' (hmem w' (.inr rfl))
    have h0' : (w'.pools 0).discarded = 0 := by
      by_contra hne
      exact hspoil hne hb'
    have := hkeep h0'
    unfold LedgerAgrees at hb'
    exact ⟨h0', by omega⟩

/-- **The accounting.** In a run on a new pool the counter is the number of executors connected minus the
number discarded in every state, and `Reclaim` refuses for `max_size` only when so many exist, if and
only if the run discards none and connects fewer than `2 ^ 32`. -/
theorem accounting_iff (h : PoolRun 0 (.ofPool option addr) steps w) :
    ((∀ w' ∈ PoolRun.States steps w, LedgerAgrees (w'.pools 0)) ∧ ∀ x ∈ steps, OverSize x.1 x.2 →
      (option.maxSize : ℤ) < (x.1.pools 0).connected - (x.1.pools 0).discarded) ↔
    (w.pools 0).discarded = 0 ∧ (w.pools 0).connected < 2 ^ 32 := by
  constructor
  · exact fun hb => h.balanced_zero hb.1
  · rintro ⟨h0, hlt⟩
    obtain ⟨-, -, hall⟩ := h.counter h0
    have hbal : ∀ w' ∈ PoolRun.States steps w, LedgerAgrees (w'.pools 0) := by
      intro w' hw
      obtain ⟨hle, hd, hn⟩ := hall w' hw
      unfold LedgerAgrees
      omega
    refine ⟨hbal, ?_⟩
    rintro ⟨w', c⟩ hx ⟨e, -, -, hover⟩
    have hmem : w' ∈ PoolRun.States steps w := by
      simp only [PoolRun.States, List.mem_append, List.mem_map]
      exact .inl ⟨_, hx, rfl⟩
    have hb := hbal w' hmem
    have ho := (h.fixed_of_mem hmem).1
    unfold LedgerAgrees at hb
    rw [ho] at hover
    dsimp only at hover ⊢
    omega

/-- One executor, connected and given back: the counter is right. -/
theorem accounting_first : ∃ steps w, PoolRun 0 (.ofPool { maxSize := 1, numShardGroup := 1 } {}) steps w ∧
    (w.pools 0).shards 0 = [0] ∧ (∀ w' ∈ PoolRun.States steps w, LedgerAgrees (w'.pools 0)) ∧
    ∀ x ∈ steps, OverSize x.1 x.2 → ((1 : ℕ) : ℤ) < (x.1.pools 0).connected - (x.1.pools 0).discarded := by
  have h : ∃ steps w, PoolRun 0 (.ofPool { maxSize := 1, numShardGroup := 1 } {}) steps w ∧
      (w.pools 0).shards 0 = [0] ∧ (w.pools 0).discarded = 0 ∧ (w.pools 0).connected = 1 :=
    ⟨_, _, .call (c := .reclaim 0) (List.replicate 3 {})
      (.call (c := .getExecutor) (List.replicate 20 {}) .init (by simp [PoolCall.executor]) rfl)
      (by simp [PoolCall.executor]; decide) rfl, rfl, rfl, rfl⟩
  obtain ⟨steps, w, h, hs, hd, hc⟩ := h
  exact ⟨steps, w, h, hs, (accounting_iff h).2 ⟨hd, by omega⟩⟩

/-- The executor's connection is lost while it is idle: the next `GetExecutor` discards it and
connects another one, and the counter is 2 while one executor exists. -/
theorem accounting_evicted : ¬ ∀ (option : MysqlExecutorPoolOption) (addr : NodeAddr)
    (steps : List (World × PoolCall)) (w : World), PoolRun 0 (.ofPool option addr) steps w →
      LedgerAgrees (w.pools 0) := by
  have h : ∃ steps w, PoolRun 0 (.ofPool { maxSize := 1, numShardGroup := 1 } {}) steps w ∧
      (w.pools 0).executorNum = 2 ∧ (w.pools 0).connected = 2 ∧ (w.pools 0).discarded = 1 :=
    ⟨_, _, .call (c := .getExecutor)
        (List.replicate 4 ({} : Answer) ++ { lost := true } :: List.replicate 40 ({} : Answer))
      (.call (c := .reclaim 0) (List.replicate 3 {})
      (.call (c := .getExecutor) (List.replicate 20 {}) .init (by simp [PoolCall.executor]) rfl)
      (by simp [PoolCall.executor]; decide) rfl) (by simp [PoolCall.executor]) rfl, rfl, rfl, rfl⟩
  obtain ⟨steps, w, h, hn, hc, hd⟩ := h
  intro hall
  have := hall _ _ steps w h
  simp [LedgerAgrees, hn, hc, hd] at this

/-! ## The lists -/

/-- `Reclaim` is about to put an executor into a list that has `max_num_per_shard_` already. -/
def Crowds (w : World) (c : PoolCall) : Prop :=
  ∃ e, c = .reclaim e ∧ ((w.pools 0).shards (w.home 0 e)).length = (w.pools 0).maxNumPerShard ∧
    (w.pools 0).executorNum ≤ (w.pools 0).option.maxSize

/-- No list is longer than `max_num_per_shard_`. -/
def WithinCapacity (q : Pool) : Prop := ∀ k, (q.shards k).length ≤ q.maxNumPerShard

/-- One call: the lists stay within their bound exactly when the call does not crowd one. -/
theorem PoolCall.Did.capacity (h : c.Did 0 w w') (hcap : WithinCapacity (w.pools 0)) :
    WithinCapacity (w'.pools 0) ↔ ¬ Crowds w c := by
  have hkeep : (∀ k, ((w'.pools 0).shards k).length ≤ ((w.pools 0).shards k).length) →
      (w'.pools 0).maxNumPerShard = (w.pools 0).maxNumPerShard → WithinCapacity (w'.pools 0) := by
    intro hle hmax k
    rw [hmax]
    exact Nat.le_trans (hle k) (hcap k)
  cases h with
  | ran h =>
    refine iff_of_true (hkeep (fun k => by rw [h.pools]) (by rw [h.pools])) ?_
    rintro ⟨e, he, -⟩; cases he
  | got h =>
    obtain ⟨m, b, -, hm, hs, -⟩ := h.pool
    refine iff_of_true (hkeep (fun k => (hs k).length_le) hm) ?_
    rintro ⟨e, he, -⟩; cases he
  | reclaimed h =>
    rename_i e
    cases h with
    | refused full hp =>
      refine iff_of_true (hkeep (fun k => by rw [hp]) (by rw [hp])) ?_
      rintro ⟨e', he, hlen, hle⟩
      cases he
      simp only [Pool.hasRoom, hlen, hle, decide_true, Nat.le_refl, Bool.and_self, reduceCtorEq] at full
    | pushed room hp =>
      simp only [Pool.hasRoom, Bool.and_eq_true, decide_eq_true_eq] at room
      have hself : ((w'.pools 0).shards (w.home 0 e)).length = ((w.pools 0).shards (w.home 0 e)).length + 1 := by
        rw [hp]; simp
      have hmax : (w'.pools 0).maxNumPerShard = (w.pools 0).maxNumPerShard := by rw [hp]
      constructor
      · rintro hcap' ⟨e', he, hlen, -⟩
        cases he
        have := hcap' (w.home 0 e)
        omega
      · intro hno k
        by_cases hk : k = w.home 0 e
        · have : ((w.pools 0).shards (w.home 0 e)).length ≠ (w.pools 0).maxNumPerShard := fun heq =>
            hno ⟨e, rfl, heq, room.2⟩
          rw [hmax, hk]
          omega
        · rw [hmax, hp]
          simpa [hk] using hcap k

theorem PoolRun.capacity (h : PoolRun 0 (.ofPool option addr) steps w) :
    (∀ w' ∈ PoolRun.States steps w, WithinCapacity (w'.pools 0)) ↔ ∀ x ∈ steps, ¬ Crowds x.1 x.2 := by
  induction h with
  | init => simp [States, World.ofPool, Pool.new, WithinCapacity]
  | @call steps w w' c as rest h _ hr ih =>
    have hsplit : (∀ w₁ ∈ States (steps ++ [(w, c)]) w', WithinCapacity (w₁.pools 0)) ↔
        (∀ w₁ ∈ States steps w, WithinCapacity (w₁.pools 0)) ∧ WithinCapacity (w'.pools 0) := by
      simp only [States, List.map_append, List.map_cons, List.map_nil, List.mem_append, List.mem_singleton]
      constructor
      · exact fun hall => ⟨fun w₁ hw => hall w₁ (.inl hw), hall w' (.inr rfl)⟩
      · rintro ⟨hall, hlast⟩ w₁ (hw | rfl)
        exacts [hall w₁ hw, hlast]
    have hlast : WithinCapacity (w.pools 0) → (WithinCapacity (w'.pools 0) ↔ ¬ Crowds w c) :=
      (PoolCall.did hr).capacity
    have hmem : w ∈ States steps w := by simp [States]
    rw [hsplit, ih, List.forall_mem_append, List.forall_mem_singleton]
    refine and_congr_right fun hno => hlast ?_
    exact ih.2 hno w hmem

/-- `max_num_per_shard_` is the quotient rounded up only where nothing has to be rounded. -/
theorem ceil_iff (h0 : 0 < option.numShardGroup) :
    option.maxSize / option.numShardGroup =
      (option.maxSize + option.numShardGroup - 1) / option.numShardGroup ↔
    option.numShardGroup ∣ option.maxSize := by
  generalize option.numShardGroup = n at h0 ⊢
  generalize option.maxSize = m
  -- the quotient and the remainder
  have hm := Nat.div_add_mod m n
  have hlt := Nat.mod_lt m h0
  rw [Nat.dvd_iff_mod_eq_zero]
  have hup : ∀ r, r < n → (r + n * (m / n)) / n = m / n := by
    intro r hr
    rw [Nat.add_mul_div_left _ _ h0, Nat.div_eq_of_lt hr, Nat.zero_add]
  constructor
  · intro heq
    by_contra hne
    have hsum : m + n - 1 = (m % n - 1) + n * (m / n) + n := by omega
    rw [hsum, Nat.add_div_right _ h0, hup _ (by omega)] at heq
    omega
  · intro hd
    have hsum : m + n - 1 = (n - 1) + n * (m / n) := by omega
    rw [hsum, hup _ (by omega)]

/-- **The capacity of the shards.** In a run on a new pool no list is ever longer than
`max_num_per_shard_`, and this bound is `max_size` over the number of shards rounded up, if and only if
no `Reclaim` crowds its list and the number of shards divides `max_size`. -/
theorem shard_capacity_iff (h0 : 0 < option.numShardGroup) (h : PoolRun 0 (.ofPool option addr) steps w) :
    ((∀ w' ∈ PoolRun.States steps w, WithinCapacity (w'.pools 0)) ∧
      (w.pools 0).maxNumPerShard = (option.maxSize + option.numShardGroup - 1) / option.numShardGroup) ↔
    (∀ x ∈ steps, ¬ Crowds x.1 x.2) ∧ option.numShardGroup ∣ option.maxSize := by
  rw [h.capacity, h.fixed.2, ceil_iff h0]

/-- One shard, one executor: the list is full, and not overfull. -/
theorem shard_capacity_single : ∃ steps w, PoolRun 0 (.ofPool { maxSize := 1, numShardGroup := 1 } {}) steps w ∧
    (w.pools 0).shards 0 = [0] ∧ (∀ w' ∈ PoolRun.States steps w, WithinCapacity (w'.pools 0)) ∧
    (w.pools 0).maxNumPerShard = (1 + 1 - 1) / 1 := by
  have h : ∃ steps w, PoolRun 0 (.ofPool { maxSize := 1, numShardGroup := 1 } {}) steps w ∧
      (w.pools 0).shards 0 = [0] ∧ ∀ x ∈ steps, ¬ Crowds x.1 x.2 := by
    refine ⟨_, _, .call (c := .reclaim 0) (List.replicate 3 {})
      (.call (c := .getExecutor) (List.replicate 20 {}) .init (by simp [PoolCall.executor]) rfl)
      (by simp [PoolCall.executor]; decide) rfl, rfl, ?_⟩
    intro x hx
    simp only [List.nil_append, List.cons_append, List.mem_cons, List.not_mem_nil, or_false] at hx
    rcases hx with rfl | rfl
    · rintro ⟨e, he, -⟩; cases he
    · rintro ⟨e, he, hlen, -⟩
      cases he
      cases hlen
  obtain ⟨steps, w, h, hs, hno⟩ := h
  exact ⟨steps, w, h, hs, (shard_capacity_iff (by decide) h).2 ⟨hno, Nat.dvd_refl 1⟩⟩

/-- With two shards for two executors each list may have one, and one of them gets two. -/
theorem shard_overfull : ¬ ∀ (option : MysqlExecutorPoolOption) (addr : NodeAddr)
    (steps : List (World × PoolCall)) (w : World), 0 < option.numShardGroup →
      PoolRun 0 (.ofPool option addr) steps w → WithinCapacity (w.pools 0) := by
  have h : ∃ steps w, PoolRun 0 (.ofPool { maxSize := 2, numShardGroup := 2 } {}) steps w ∧
      (w.pools 0).shards 0 = [0, 2] ∧ (w.pools 0).maxNumPerShard = 1 :=
    ⟨_, _, .call (c := .reclaim 2) (List.replicate 3 {})
      (.call (c := .reclaim 0) (List.replicate 3 {})
      (.call (c := .getExecutor) (List.replicate 20 {})
      -- the executor of the other shard cannot connect
      (.call (c := .getExecutor)
        (List.replicate 16 ({} : Answer) ++ { ok := false } :: List.replicate 3 ({} : Answer))
      (.call (c := .getExecutor) (List.replicate 20 {}) .init (by simp [PoolCall.executor]) rfl)
      (by simp [PoolCall.executor]) rfl) (by simp [PoolCall.executor]) rfl)
      (by simp [PoolCall.executor]; decide) rfl) (by simp [PoolCall.executor]; decide) rfl, rfl, rfl⟩
  obtain ⟨steps, w, h, hs, hm⟩ := h
  intro hall
  have := hall _ _ steps w (by decide) h 0
  simp [hs, hm] at this

/-! ## Homes and numbers -/

/-- Executors are listed where their numbers say, and the numbers are those that were given. -/
structure Homes (w : World) : Prop where
  listed : ∀ k e, e ∈ (w.pools 0).shards k → e < w.nextExec ∧ w.home 0 e = k
  gen : (w.pools 0).executorIdGen = w.nextExec % 2 ^ 32
  shardId : (w.pools 0).shardIdGen < 2 ^ 32
  low : ∀ e, e < w.nextExec → (w.execs e).this.executorId % 2 ^ 32 = e % 2 ^ 32
  high : ∀ e, e < w.nextExec → (w.execs e).this.executorId / 2 ^ 32 < 2 ^ 32

/-- What keeps the numbers and adds nothing to the lists. -/
theorem Homes.of_kept {q : Pool} (h : Homes w) (hnext : w'.nextExec = w.nextExec)
    (hids : ∀ e, (w'.execs e).this.executorId = (w.execs e).this.executorId) (hq : w'.pools 0 = q)
    (ho : q.option = (w.pools 0).option) (hg : q.executorIdGen = (w.pools 0).executorIdGen)
    (hsh : q.shardIdGen < 2 ^ 32) (hl : ∀ k e, e ∈ q.shards k → e < w.nextExec ∧ w.home 0 e = k) : Homes w' := by
  have hhome : ∀ e, w'.home 0 e = w.home 0 e := fun e => by simp only [World.home, hids, hq, ho]
  refine ⟨fun k e he => ?_, ?_, ?_, fun e he => ?_, fun e he => ?_⟩
  · rw [hnext, hhome]; rw [hq] at he; exact hl k e he
  · rw [hq, hg, hnext]; exact h.gen
  · rwa [hq]
  · rw [hids]; rw [hnext] at he; exact h.low e he
  · rw [hids]; rw [hnext] at he; exact h.high e he

theorem Homes.made (h : Homes w) {k : ℕ} (hk : k < 2 ^ 32) (hm : Made 0 k w w') : Homes w' := by
  obtain ⟨b, hb⟩ := hm.rest
  have hgen : (w.pools 0).executorIdGen < 2 ^ 32 := by rw [h.gen]; exact Nat.mod_lt _ (by decide)
  have hlt : ∀ {e}, e < w'.nextExec → e ≠ w.nextExec → e < w.nextExec := fun he hne => by
    rw [hm.nextExec] at he; omega
  refine ⟨fun k' e he => ?_, ?_, ?_, fun e he => ?_, fun e he => ?_⟩
  · rw [hb] at he
    obtain ⟨hlt', hhome⟩ := h.listed k' e he
    rw [hm.nextExec]
    refine ⟨Nat.lt_succ_of_lt hlt', ?_⟩
    rw [← hhome, World.home, World.home, hm.ids e (Nat.ne_of_lt hlt'), hb]
  · rw [hb, hm.nextExec]
    have := h.gen
    simp only
    omega
  · rw [hb]; exact h.shardId
  · by_cases hee : e = w.nextExec
    · subst hee; rw [hm.id, h.gen]; omega
    · rw [hm.ids e hee]; exact h.low e (hlt he hee)
  · by_cases hee : e = w.nextExec
    · subst hee; rw [hm.id]; omega
    · rw [hm.ids e hee]; exact h.high e (hlt he hee)

/-- **One call keeps every listed executor at home.** -/
theorem PoolCall.Did.homes (h : c.Did 0 w w') (he : ∀ e ∈ c.executor, e < w.nextExec) (hw : Homes w) : Homes w' := by
  cases h with
  | ran h => exact hw.of_kept h.nextExec h.ids (by rw [h.pools]) rfl rfl hw.shardId hw.listed
  | got h =>
    obtain ⟨w₁, rfl, w₂, hpop, hend⟩ := h
    obtain ⟨m, -, hrest⟩ := hpop.rest
    have hpre := hpop.shards
    simp only [World.setPool, update_self] at hrest hpre
    have hw₂ : Homes w₂ := by
      refine hw.of_kept hpop.nextExec hpop.ids rfl (by rw [hrest]) (by rw [hrest]) ?_ fun k e he =>
        hw.listed k e ((hpre k).subset he)
      rw [hrest]; exact Nat.mod_lt _ (by decide)
    rcases hend with rfl | hmade
    · exact hw₂
    · exact hw₂.made hw.shardId hmade
  | reclaimed h =>
    rename_i e
    cases h with
    | refused _ hp hnext hids => exact hw.of_kept hnext hids hp rfl rfl hw.shardId hw.listed
    | pushed _ hp hnext hids =>
      refine hw.of_kept hnext hids hp rfl rfl hw.shardId fun k e' hmem => ?_
      dsimp only at hmem
      by_cases hk : k = w.home 0 e
      · subst hk
        rw [update_self] at hmem
        rcases List.mem_append.1 hmem with hmem | hmem
        · exact hw.listed _ e' hmem
        · rw [List.mem_singleton] at hmem
          subst hmem
          exact ⟨he e' rfl, rfl⟩
      · rw [update_of_ne hk] at hmem
        exact hw.listed k e' hmem

theorem PoolRun.homes (h : PoolRun 0 (.ofPool option addr) steps w) : Homes w := by
  induction h with
  | init => exact ⟨fun _ _ h => (by cases h), rfl, Nat.two_pow_pos 32, fun e he => absurd he (Nat.not_lt_zero e),
      fun e he => absurd he (Nat.not_lt_zero e)⟩
  | call as _ he hr ih => exact (PoolCall.did hr).homes he ih

/-- An executor keeps its number. -/
theorem PoolCall.Did.keepsId (h : c.Did 0 w w') : w.nextExec ≤ w'.nextExec ∧
    ∀ e, e < w.nextExec → (w'.execs e).this.executorId = (w.execs e).this.executorId := by
  cases h with
  | ran h => exact ⟨Nat.le_of_eq h.nextExec.symm, fun e _ => h.ids e⟩
  | got h =>
    obtain ⟨w₁, rfl, w₂, hpop, hend⟩ := h
    rcases hend with rfl | hmade
    · exact ⟨Nat.le_of_eq hpop.nextExec.symm, fun e _ => hpop.ids e⟩
    · have hnext : w₂.nextExec = w.nextExec := hpop.nextExec
      refine ⟨by rw [hmade.nextExec, hnext]; exact Nat.le_succ _, fun e he => ?_⟩
      exact (hmade.ids e (by omega)).trans (hpop.ids e)
  | reclaimed h =>
    cases h with
    | pushed _ _ hnext hids => exact ⟨Nat.le_of_eq hnext.symm, fun e _ => hids e⟩
    | refused _ _ hnext hids => exact ⟨Nat.le_of_eq hnext.symm, fun e _ => hids e⟩

theorem PoolRun.keepsId (h : PoolRun 0 (.ofPool option addr) steps w) (hw : w' ∈ States steps w) :
    w'.nextExec ≤ w.nextExec ∧
      ∀ e, e < w'.nextExec → (w.execs e).this.executorId = (w'.execs e).this.executorId := by
  induction h with
  | init =>
    simp only [States, List.map_nil, List.nil_append, List.mem_singleton] at hw
    subst hw
    exact ⟨Nat.le_refl _, fun _ _ => rfl⟩
  | @call steps w w₁ c as rest h he hr ih =>
    have hmem : w' ∈ States steps w ∨ w' = w₁ := by
      simpa [States, or_assoc] using hw
    rcases hmem with hmem | rfl
    · obtain ⟨hle, hids⟩ := ih hmem
      obtain ⟨hle', hids'⟩ := (PoolCall.did hr).keepsId
      exact ⟨Nat.le_trans hle hle', fun e he => (hids' e (Nat.lt_of_lt_of_le he hle)).trans (hids e he)⟩
    · exact ⟨Nat.le_refl _, fun _ _ => rfl⟩

/-- **Home shard and identity.** In every run on a new pool: an executor in the list of shard `k` has a
number whose upper half is `k` modulo the number of shards; an executor that is listed at two moments is
listed in the same shard; and the numbers of the executors differ while fewer than `2 ^ 32` are made. -/
theorem home_shard (h : PoolRun 0 (.ofPool option addr) steps w) :
    (∀ k e, e ∈ (w.pools 0).shards k → (w.execs e).this.executorId / 2 ^ 32 % option.numShardGroup = k) ∧
    (∀ w' ∈ PoolRun.States steps w, ∀ k k' e,
      e ∈ (w'.pools 0).shards k → e ∈ (w.pools 0).shards k' → k = k') ∧
    (w.nextExec < 2 ^ 32 → ∀ e e', e < w.nextExec → e' < w.nextExec →
      (w.execs e).this.executorId = (w.execs e').this.executorId → e = e') := by
  have hhome := h.homes
  refine ⟨fun k e he => ?_, fun w' hw k k' e he he' => ?_, fun hlt e e' he he' heq => ?_⟩
  · obtain ⟨hlt, rfl⟩ := hhome.listed k e he
    rw [World.home, Nat.mod_eq_of_lt (hhome.high e hlt), h.fixed.1]
  · obtain ⟨steps', h'⟩ := h.prefix_of_mem hw
    obtain ⟨hlt, rfl⟩ := h'.homes.listed k e he
    obtain ⟨-, rfl⟩ := hhome.listed k' e he'
    rw [World.home, World.home, (h.keepsId hw).2 e hlt, h.fixed.1, h'.fixed.1]
  · have h1 := hhome.low e he
    have h2 := hhome.low e' he'
    rw [heq] at h1
    omega

/-- Two executors in one pool of two shards: their homes differ. -/
theorem home_shard_two : ∃ steps w, PoolRun 0 (.ofPool { maxSize := 4, numShardGroup := 2 } {}) steps w ∧
    (w.pools 0).shards 0 = [0] ∧ (w.pools 0).shards 1 = [1] ∧
    (∀ k e, e ∈ (w.pools 0).shards k → (w.execs e).this.executorId / 2 ^ 32 % 2 = k) ∧
    (w.execs 0).this.executorId ≠ (w.execs 1).this.executorId := by
  have h : ∃ steps w, PoolRun 0 (.ofPool { maxSize := 4, numShardGroup := 2 } {}) steps w ∧
      (w.pools 0).shards 0 = [0] ∧ (w.pools 0).shards 1 = [1] ∧ w.nextExec = 2 :=
    ⟨_, _, .call (c := .reclaim 1) (List.replicate 3 {})
      (.call (c := .reclaim 0) (List.replicate 3 {})
      (.call (c := .getExecutor) (List.replicate 20 {})
      (.call (c := .getExecutor) (List.replicate 20 {}) .init (by simp [PoolCall.executor]) rfl)
      (by simp [PoolCall.executor]) rfl) (by simp [PoolCall.executor]; decide) rfl)
      (by simp [PoolCall.executor]; decide) rfl, rfl, rfl, rfl⟩
  obtain ⟨steps, w, h, hs, hs', hn⟩ := h
  obtain ⟨hhome, -, hids⟩ := home_shard h
  refine ⟨steps, w, h, hs, hs', hhome, fun heq => ?_⟩
  have := hids (by omega) 0 1 (by omega) (by omega) heq
  cases this

end Runs

end TrpcMysql
