import Mathlib.Data.List.Nodup
import TrpcMysql.Manager.Manager

/-!
# Shutdown loses no pool

`Stop` takes the pools of the map, and `Destroy` works through that list, while other calls of `Get`
are in progress. `shutdown_settles`: when `Destroy` has ended, every pool made so far was stopped,
destroyed and deleted once, or lost the race for its key and was deleted by the call that made it. The
runs are those in which no pool comes into the map after `Stop` took the list, and no call still holds a
pool of its own when `Destroy` ends (`StopLast`).

The shutdown's view is the list it took and what is left to do on its pools (`Todo`); for a pool that
came into the map, what was done and what is left add up to one (`Shut.todo`).
-/

namespace TrpcMysql

open Function Conc

/-- What a shutdown does to a pool. -/
inductive Duty where
  | stop | destroy | delete
  deriving DecidableEq

/-- How often it was done. -/
def ManagedPool.times (q : ManagedPool) : Duty → ℕ
  | .stop => q.stopped
  | .destroy => q.destroyed
  | .delete => q.deleted

/-- The list that `Stop` took, and the pools on which something is left to do. -/
structure Todo where
  items : List (Bytes × PoolId)
  left : Duty → List PoolId

namespace Todo

def strike (t : Todo) (d : Duty) (p : PoolId) : Todo :=
  { t with left := update t.left d ((t.left d).erase p) }

end Todo

/-- What a call knows: the pool that it made, what it has to do as the shutdown, and whether it is the
shutdown and over. -/
structure ShutView where
  mine : Option PoolId := none
  todo : Option Todo := none
  finished : Bool := false

namespace ShutView

def next (v : ShutView) : (o : ManagerOp) → o.Reply → ShutView
  | .newPool .., p => { v with mine := some p }
  | .mapGetOrInsert .., none => { v with mine := none }
  | .getAllItems, items => { v with todo := some ⟨items, fun _ => items.map Prod.snd⟩ }
  | .poolStop p, _ => { v with todo := v.todo.map (·.strike .stop p) }
  | .poolDestroy p, _ => { v with todo := v.todo.map (·.strike .destroy p) }
  | .deletePool p, _ =>
    match v.todo with
    | some t => { v with todo := some (t.strike .delete p) }
    | none => { v with mine := none }
  | .clearPoolsToDestroy, _ => { v with todo := none, finished := true }
  | _, _ => v

end ShutView

/-- A pool that lost the race for its key and was deleted, or that was shut down. -/
def ManagedPool.Settled (q : ManagedPool) : Prop :=
  (q.inserted = false ∧ q.deleted = 1) ∨ (q.stopped = 1 ∧ q.destroyed = 1 ∧ q.deleted = 1)

/-- The pools while a shutdown may be in progress. -/
structure Shut (m : ManagerSt) (vs : ℕ → ShutView) : Prop where
  apart : ∀ p, p < m.nextPool → (m.pools p).inserted = false →
    (m.pools p).deleted ≤ 1 ∧ ((m.pools p).deleted = 0 → ∃ i, (vs i).mine = some p)
  mine : ∀ i p, (vs i).mine = some p → p < m.nextPool ∧ (m.pools p).inserted = false ∧
    (∀ d, (m.pools p).times d = 0) ∧ ∀ j, (vs j).mine = some p → j = i
  early : m.taken = false → m.ended = none ∧ (m.executorPools.map Prod.snd).Nodup ∧
    (∀ p ∈ m.executorPools.map Prod.snd, p < m.nextPool ∧ (m.pools p).inserted = true) ∧
    (∀ p, p < m.nextPool → (m.pools p).inserted = true →
      p ∈ m.executorPools.map Prod.snd ∧ ∀ d, (m.pools p).times d = 0) ∧ ∀ i, (vs i).todo = none
  todo : ∀ i t, (vs i).todo = some t → m.ended = none ∧ m.poolsToDestroy = t.items ∧
    (∀ d, ∀ p ∈ t.left d, p < m.nextPool ∧ (m.pools p).inserted = true) ∧
    (∀ p, p < m.nextPool → (m.pools p).inserted = true →
      ∀ d, (m.pools p).times d + (t.left d).count p = 1) ∧ ∀ j t', (vs j).todo = some t' → j = i
  ended : ∀ n, m.ended = some n → n ≤ m.nextPool ∧ (∀ i p, (vs i).mine = some p → n ≤ p) ∧
    ∀ p, p < n → (m.pools p).Settled
  finished : ∀ i, (vs i).finished = true → m.ended ≠ none

section Steps

variable {m : ManagerSt} {vs : ℕ → ShutView} {i : ℕ} {v : ShutView} {p : PoolId} {t : Todo}

/-- While there is something to do, the list has been taken. -/
theorem Shut.taken (h : Shut m vs) (ht : (vs i).todo = some t) : m.taken = true := by
  by_contra hf
  have := (h.early (by simpa using hf)).2.2.2.2 i
  rw [ht] at this; cases this

/-- What the views say of the pools that calls made, when one view changes and `mine` stays. -/
theorem mine_update (hv : v.mine = (vs i).mine) (j : ℕ) : (update vs i v j).mine = (vs j).mine := by
  by_cases hji : j = i
  · subst hji; rw [update_self, hv]
  · rw [update_of_ne hji]

theorem finished_update (hv : v.finished = (vs i).finished) (j : ℕ) : (update vs i v j).finished = (vs j).finished := by
  by_cases hji : j = i
  · subst hji; rw [update_self, hv]
  · rw [update_of_ne hji]

theorem todo_update (hv : v.todo = (vs i).todo) (j : ℕ) : (update vs i v j).todo = (vs j).todo := by
  by_cases hji : j = i
  · subst hji; rw [update_self, hv]
  · rw [update_of_ne hji]

/-- A call that returns gives up its view. -/
theorem Shut.rest (h : Shut m vs) (hm : v.mine = (vs i).mine) (ht : v.todo = (vs i).todo) (ho : v.finished = false) :
    Shut m (update vs i v) := by
  refine ⟨?_, ?_, ?_, ?_, ?_, fun j hj => ?_⟩
  · simpa only [mine_update hm] using h.apart
  · simpa only [mine_update hm] using h.mine
  · simpa only [todo_update ht] using h.early
  · simpa only [todo_update ht] using h.todo
  · simpa only [mine_update hm] using h.ended
  · by_cases hji : j = i
    · subst hji; rw [update_self, ho] at hj; cases hj
    · rw [update_of_ne hji] at hj; exact h.finished j hj

/-- A new pool belongs to the call that made it. -/
theorem Shut.made (h : Shut m vs) {opt : MysqlExecutorPoolOption} {addr : NodeAddr}
    (hi : (vs i).mine = none) (hm : v.mine = some m.nextPool) (ht : v.todo = (vs i).todo)
    (ho : v.finished = (vs i).finished) :
    Shut { m.setPool m.nextPool { option := opt, target := addr } with nextPool := m.nextPool + 1 }
      (update vs i v) := by
  have hlt : ∀ q, q < m.nextPool + 1 → q ≠ m.nextPool → q < m.nextPool := fun q h1 h2 => by omega
  refine ⟨fun q hq hins => ?_, fun j q hj => ?_, fun hk => ?_, fun j t hj => ?_, fun n hn => ?_, fun j hj => ?_⟩
  · -- the new pool is in the hands of call `i`, and an old one was in another call's
    by_cases hqn : q = m.nextPool
    · subst hqn; exact ⟨by simp, fun _ => ⟨i, by rw [update_self, hm]⟩⟩
    · dsimp only at hins ⊢
      rw [ManagerSt.setPool_of_ne hqn] at hins ⊢
      obtain ⟨h1, h2⟩ := h.apart q (hlt q hq hqn) hins
      refine ⟨h1, fun h0 => ?_⟩
      obtain ⟨j, hj⟩ := h2 h0
      refine ⟨j, ?_⟩
      rw [update_of_ne, hj]
      rintro rfl
      rw [hi] at hj; cases hj
  · by_cases hji : j = i
    · subst hji
      rw [update_self, hm] at hj
      cases hj
      refine ⟨Nat.lt_succ_self _, by simp, fun d => by cases d <;> simp [ManagedPool.times], fun j' hj' => ?_⟩
      by_contra hne
      rw [update_of_ne hne] at hj'
      exact absurd (h.mine j' _ hj').1 (Nat.lt_irrefl _)
    · rw [update_of_ne hji] at hj
      obtain ⟨h1, h2, h3, h4⟩ := h.mine j q hj
      have hqn : q ≠ m.nextPool := Nat.ne_of_lt h1
      dsimp only
      rw [ManagerSt.setPool_of_ne hqn]
      refine ⟨Nat.lt_succ_of_lt h1, h2, h3, fun j' hj' => ?_⟩
      by_cases hji' : j' = i
      · subst hji'; rw [update_self, hm] at hj'; cases hj'; exact absurd rfl hqn
      · rw [update_of_ne hji'] at hj'; exact h4 j' hj'
  · -- before the list is taken no pool of the map is the new one
    obtain ⟨h1, h2, h3, h4, h5⟩ := h.early hk
    refine ⟨h1, h2, fun q hq => ?_, fun q hq hins => ?_, fun j => (todo_update ht j).trans (h5 j)⟩
    · obtain ⟨k1, k2⟩ := h3 q hq
      dsimp only
      rw [ManagerSt.setPool_of_ne (Nat.ne_of_lt k1)]
      exact ⟨Nat.lt_succ_of_lt k1, k2⟩
    · by_cases hqn : q = m.nextPool
      · subst hqn; simp at hins
      · dsimp only at hins ⊢
        rw [ManagerSt.setPool_of_ne hqn] at hins ⊢
        exact h4 q (hlt q hq hqn) hins
  · -- nor is one that the shutdown has to do with
    rw [todo_update ht] at hj
    obtain ⟨h1, h2, h3, h4, h5⟩ := h.todo j t hj
    refine ⟨h1, h2, fun d q hq => ?_, fun q hq hins d => ?_, fun j' t' hj' => h5 j' t' (by rwa [todo_update ht] at hj')⟩
    · obtain ⟨k1, k2⟩ := h3 d q hq
      dsimp only
      rw [ManagerSt.setPool_of_ne (Nat.ne_of_lt k1)]
      exact ⟨Nat.lt_succ_of_lt k1, k2⟩
    · by_cases hqn : q = m.nextPool
      · subst hqn; simp at hins
      · dsimp only at hins ⊢
        rw [ManagerSt.setPool_of_ne hqn] at hins ⊢
        exact h4 q (hlt q hq hqn) hins d
  · obtain ⟨h1, h2, h3⟩ := h.ended n hn
    refine ⟨Nat.le_succ_of_le h1, fun j q hj => ?_, fun q hq => ?_⟩
    · by_cases hji : j = i
      · subst hji; rw [update_self, hm] at hj; cases hj; exact h1
      · rw [update_of_ne hji] at hj; exact h2 j q hj
    · dsimp only
      rw [ManagerSt.setPool_of_ne (Nat.ne_of_lt (Nat.lt_of_lt_of_le hq h1))]
      exact h3 q hq
  · rw [finished_update ho] at hj; exact h.finished j hj

/-- A pool comes into the map before the list is taken. -/
theorem Shut.insert (h : Shut m vs) (hk : m.taken = false) {key : Bytes} (hi : (vs i).mine = some p)
    (hm : v.mine = none) (ht : v.todo = (vs i).todo) (ho : v.finished = (vs i).finished) :
    Shut { m.setPool p { m.pools p with inserted := true } with
      executorPools := (key, p) :: m.executorPools } (update vs i v) := by
  obtain ⟨g1, g2, g3, g4⟩ := h.mine i p hi
  obtain ⟨e1, e2, e3, e4, e5⟩ := h.early hk
  have hp : p ∉ m.executorPools.map Prod.snd := fun hp => by rw [(e3 p hp).2] at g2; cases g2
  refine ⟨fun q hq hins => ?_, fun j q hj => ?_, fun _ => ?_, fun j t hj => ?_, fun n hn => ?_, fun j hj => ?_⟩
  · have hqp : q ≠ p := by rintro rfl; simp at hins
    dsimp only at hins ⊢
    rw [ManagerSt.setPool_of_ne hqp] at hins ⊢
    obtain ⟨h1, h2⟩ := h.apart q hq hins
    refine ⟨h1, fun h0 => ?_⟩
    obtain ⟨j, hj⟩ := h2 h0
    refine ⟨j, ?_⟩
    rw [update_of_ne, hj]
    rintro rfl
    rw [hi] at hj; cases hj; exact hqp rfl
  · -- no other call had the pool
    have hji : j ≠ i := by rintro rfl; rw [update_self, hm] at hj; cases hj
    rw [update_of_ne hji] at hj
    have hqp : q ≠ p := by rintro rfl; exact hji (g4 j hj)
    obtain ⟨h1, h2, h3, h4⟩ := h.mine j q hj
    dsimp only
    rw [ManagerSt.setPool_of_ne hqp]
    refine ⟨h1, h2, h3, fun j' hj' => h4 j' ?_⟩
    by_cases hji' : j' = i
    · subst hji'; rw [update_self, hm] at hj'; cases hj'
    · rwa [update_of_ne hji'] at hj'
  · -- the map has it once more, and nothing was done to it
    refine ⟨e1, List.nodup_cons.2 ⟨hp, e2⟩, fun q hq => ?_, fun q hq hins => ?_,
      fun j => (todo_update ht j).trans (e5 j)⟩
    · by_cases hqp : q = p
      · subst hqp; exact ⟨g1, by simp⟩
      · obtain ⟨k1, k2⟩ := e3 q ((List.mem_cons.1 hq).resolve_left hqp)
        dsimp only
        rw [ManagerSt.setPool_of_ne hqp]
        exact ⟨k1, k2⟩
    · by_cases hqp : q = p
      · subst hqp
        exact ⟨List.mem_cons_self, fun d => by rw [← g3 d]; cases d <;> simp [ManagedPool.times]⟩
      · dsimp only at hins ⊢
        rw [ManagerSt.setPool_of_ne hqp] at hins ⊢
        obtain ⟨k1, k2⟩ := e4 q hq hins
        exact ⟨List.mem_cons_of_mem _ k1, k2⟩
  · rw [todo_update ht, e5] at hj; cases hj
  · rw [show m.ended = some n from hn] at e1; cases e1
  · rw [finished_update ho] at hj; exact h.finished j hj

/-- A call deletes the pool that it made in vain. -/
theorem Shut.deleted (h : Shut m vs) (hi : (vs i).mine = some p) (hm : v.mine = none) (ht : v.todo = (vs i).todo)
    (ho : v.finished = (vs i).finished) :
    Shut (m.setPool p { m.pools p with deleted := (m.pools p).deleted + 1 }) (update vs i v) := by
  obtain ⟨g1, g2, g3, g4⟩ := h.mine i p hi
  -- the pool was never in the map
  have hne : ∀ q, (m.pools q).inserted = true → q ≠ p := fun q hq hqp => by
    subst hqp; rw [hq] at g2; cases g2
  have hins : ∀ q, ((m.setPool p { m.pools p with deleted := (m.pools p).deleted + 1 }).pools q).inserted =
      (m.pools q).inserted := fun q => ManagerSt.setPool_field ManagedPool.inserted rfl
  refine ⟨fun q hq hq' => ?_, fun j q hj => ?_, fun hk => ?_, fun j t hj => ?_, fun n hn => ?_, fun j hj => ?_⟩
  · -- it is deleted once now, as it was not before
    by_cases hqp : q = p
    · subst hqp
      have := g3 .delete
      simp only [ManagedPool.times] at this
      simp [this]
    · rw [ManagerSt.setPool_of_ne hqp] at hq' ⊢
      obtain ⟨h1, h2⟩ := h.apart q hq hq'
      refine ⟨h1, fun h0 => ?_⟩
      obtain ⟨j, hj⟩ := h2 h0
      refine ⟨j, ?_⟩
      rw [update_of_ne, hj]
      rintro rfl
      rw [hi] at hj; cases hj; exact hqp rfl
  · have hji : j ≠ i := by rintro rfl; rw [update_self, hm] at hj; cases hj
    rw [update_of_ne hji] at hj
    obtain ⟨h1, h2, h3, h4⟩ := h.mine j q hj
    rw [ManagerSt.setPool_of_ne (by rintro rfl; exact hji (g4 j hj))]
    refine ⟨h1, h2, h3, fun j' hj' => h4 j' ?_⟩
    by_cases hji' : j' = i
    · subst hji'; rw [update_self, hm] at hj'; cases hj'
    · rwa [update_of_ne hji'] at hj'
  · obtain ⟨h1, h2, h3, h4, h5⟩ := h.early hk
    refine ⟨h1, h2, fun q hq => ?_, fun q hq hq' => ?_, fun j => (todo_update ht j).trans (h5 j)⟩
    · obtain ⟨k1, k2⟩ := h3 q hq
      rw [ManagerSt.setPool_of_ne (hne q k2)]
      exact ⟨k1, k2⟩
    · rw [hins] at hq'
      rw [ManagerSt.setPool_of_ne (hne q hq')]
      exact h4 q hq hq'
  · rw [todo_update ht] at hj
    obtain ⟨h1, h2, h3, h4, h5⟩ := h.todo j t hj
    refine ⟨h1, h2, fun d q hq => ?_, fun q hq hq' d => ?_, fun j' t' hj' => h5 j' t' (by rwa [todo_update ht] at hj')⟩
    · obtain ⟨k1, k2⟩ := h3 d q hq
      rw [ManagerSt.setPool_of_ne (hne q k2)]
      exact ⟨k1, k2⟩
    · rw [hins] at hq'
      rw [ManagerSt.setPool_of_ne (hne q hq')]
      exact h4 q hq hq' d
  · obtain ⟨h1, h2, h3⟩ := h.ended n hn
    refine ⟨h1, fun j q hj => ?_, fun q hq => ?_⟩
    · by_cases hji : j = i
      · subst hji; rw [update_self, hm] at hj; cases hj
      · rw [update_of_ne hji] at hj; exact h2 j q hj
    · rw [ManagerSt.setPool_of_ne (by rintro rfl; exact absurd (h2 i q hi) (Nat.not_le_of_lt hq))]
      exact h3 q hq
  · rw [finished_update ho] at hj; exact h.finished j hj

/-- `Stop` takes the list: everything is left to do. -/
theorem Shut.take (h : Shut m vs) (hk : m.taken = false) (hm : v.mine = (vs i).mine)
    (ht : v.todo = some ⟨m.executorPools, fun _ => m.executorPools.map Prod.snd⟩) (ho : v.finished = (vs i).finished) :
    Shut { m with poolsToDestroy := m.executorPools, taken := true } (update vs i v) := by
  obtain ⟨e1, e2, e3, e4, e5⟩ := h.early hk
  have htodo : ∀ j t, (update vs i v j).todo = some t →
      j = i ∧ t = ⟨m.executorPools, fun _ => m.executorPools.map Prod.snd⟩ := by
    intro j t hj
    by_cases hji : j = i
    · subst hji; rw [update_self, ht] at hj; exact ⟨rfl, (Option.some.inj hj).symm⟩
    · rw [update_of_ne hji, e5] at hj; cases hj
  refine ⟨fun q hq hins => ?_, fun j q hj => ?_, fun hk' => (by cases hk'), fun j t hj => ?_,
    fun n hn => ?_, fun j hj => ?_⟩
  · obtain ⟨h1, h2⟩ := h.apart q hq hins
    exact ⟨h1, fun h0 => by simpa only [mine_update hm] using h2 h0⟩
  · rw [mine_update hm] at hj
    obtain ⟨h1, h2, h3, h4⟩ := h.mine j q hj
    exact ⟨h1, h2, h3, fun j' hj' => h4 j' (by rwa [mine_update hm] at hj')⟩
  · obtain ⟨rfl, rfl⟩ := htodo j t hj
    refine ⟨e1, rfl, fun d q hq => e3 q hq, fun q hq hins d => ?_, fun j' t' hj' => (htodo j' t' hj').1⟩
    obtain ⟨k1, k2⟩ := e4 q hq hins
    rw [k2 d, List.count_eq_one_of_mem e2 k1]
  · rw [show m.ended = some n from hn] at e1; cases e1
  · rw [finished_update ho] at hj; exact h.finished j hj

/-- The shutdown does one thing to one pool. -/
theorem Shut.tick (h : Shut m vs) (hi : (vs i).todo = some t) {d : Duty} {ps : List PoolId} (hd : t.left d = p :: ps)
    {q : ManagedPool} (hq : q.inserted = (m.pools p).inserted)
    (hqt : ∀ d', q.times d' = (m.pools p).times d' + if d' = d then 1 else 0) (hm : v.mine = (vs i).mine)
    (ht : v.todo = some (t.strike d p)) (ho : v.finished = (vs i).finished) : Shut (m.setPool p q) (update vs i v) := by
  obtain ⟨g1, g2, g3, g4, g5⟩ := h.todo i t hi
  obtain ⟨hp, hins⟩ := g3 d p (by rw [hd]; exact List.mem_cons_self)
  have hne : ∀ r, (m.pools r).inserted = false → r ≠ p := fun r hr hrp => by
    subst hrp; rw [hr] at hins; cases hins
  have hinse : ∀ r, ((m.setPool p q).pools r).inserted = (m.pools r).inserted :=
    fun r => ManagerSt.setPool_field ManagedPool.inserted hq
  -- one call does the shutdown, and it strikes the duty off
  have htodo : ∀ j t', (update vs i v j).todo = some t' → j = i ∧ t' = t.strike d p := by
    intro j t' hj
    by_cases hji : j = i
    · subst hji; rw [update_self, ht] at hj; exact ⟨rfl, (Option.some.inj hj).symm⟩
    · rw [update_of_ne hji] at hj; exact absurd (g5 j t' hj) hji
  have htaken : m.taken = true := h.taken hi
  refine ⟨fun r hr hrins => ?_, fun j r hj => ?_, fun hk => ?_, fun j t' hj => ?_, fun n hn => ?_, fun j hj => ?_⟩
  · rw [hinse] at hrins
    rw [ManagerSt.setPool_of_ne (hne r hrins)]
    obtain ⟨h1, h2⟩ := h.apart r hr hrins
    exact ⟨h1, fun h0 => by simpa only [mine_update hm] using h2 h0⟩
  · rw [mine_update hm] at hj
    obtain ⟨h1, h2, h3, h4⟩ := h.mine j r hj
    rw [ManagerSt.setPool_of_ne (hne r h2)]
    exact ⟨h1, h2, h3, fun j' hj' => h4 j' (by rwa [mine_update hm] at hj')⟩
  · rw [show m.taken = false from hk] at htaken; cases htaken
  · obtain ⟨rfl, rfl⟩ := htodo j t' hj
    refine ⟨g1, g2, fun d' r hr => ?_, fun r hr hrins d' => ?_, fun j' t'' hj' => (htodo j' t'' hj').1⟩
    · rw [hinse]
      refine g3 d' r ?_
      by_cases hdd : d' = d
      · subst hdd
        simp only [Todo.strike, update_self] at hr
        exact List.mem_of_mem_erase hr
      · simpa only [Todo.strike, update_of_ne hdd] using hr
    · rw [hinse] at hrins
      -- what is done and what is left to do make one
      have hcount := g4 r hr hrins d'
      by_cases hdd : d' = d
      · subst hdd
        rw [hd] at hcount
        simp only [Todo.strike, update_self, hd, List.erase_cons_head]
        by_cases hrp : r = p
        · subst hrp
          rw [ManagerSt.setPool_self, hqt]
          simp only [if_true, List.count_cons_self] at hcount ⊢
          omega
        · rw [ManagerSt.setPool_of_ne hrp]
          rwa [List.count_cons_of_ne (Ne.symm hrp)] at hcount
      · simp only [Todo.strike, update_of_ne hdd]
        by_cases hrp : r = p
        · subst hrp
          rw [ManagerSt.setPool_self, hqt, if_neg hdd]
          exact hcount
        · rwa [ManagerSt.setPool_of_ne hrp]
  · rw [show m.ended = some n from hn] at g1; cases g1
  · rw [finished_update ho] at hj; exact h.finished j hj

/-- `Destroy` has nothing left to do, and no call has a pool of its own. -/
theorem Shut.clear (h : Shut m vs) (hi : (vs i).todo = some t) (hl : ∀ d, t.left d = [])
    (hg : ∀ p, p < m.nextPool → (m.pools p).inserted = true ∨ (m.pools p).deleted = 1)
    (hm : v.mine = (vs i).mine) (ht : v.todo = none) :
    Shut { m with poolsToDestroy := [], ended := some m.nextPool } (update vs i v) := by
  obtain ⟨g1, g2, g3, g4, g5⟩ := h.todo i t hi
  -- no call has something to do any more
  have htodo : ∀ j, (update vs i v j).todo = none := by
    intro j
    by_cases hji : j = i
    · subst hji; rw [update_self, ht]
    · rw [update_of_ne hji]
      by_contra hne
      obtain ⟨t', hj⟩ := Option.ne_none_iff_exists'.1 hne
      exact hji (g5 j t' hj)
  have htaken : m.taken = true := h.taken hi
  refine ⟨fun r hr hrins => ?_, fun j r hj => ?_, fun hk => ?_, fun j t' hj => ?_, fun n hn => ?_, fun j _ => by simp⟩
  · obtain ⟨h1, h2⟩ := h.apart r hr hrins
    exact ⟨h1, fun h0 => by simpa only [mine_update hm] using h2 h0⟩
  · rw [mine_update hm] at hj
    obtain ⟨h1, h2, h3, h4⟩ := h.mine j r hj
    exact ⟨h1, h2, h3, fun j' hj' => h4 j' (by rwa [mine_update hm] at hj')⟩
  · rw [show m.taken = false from hk] at htaken; cases htaken
  · rw [htodo] at hj; cases hj
  · cases hn
    refine ⟨Nat.le_refl _, fun j r hj => ?_, fun r hr => ?_⟩
    · rw [mine_update hm] at hj
      obtain ⟨h1, h2, h3, -⟩ := h.mine j r hj
      rcases hg r h1 with hins | hdel
      · rw [hins] at h2; cases h2
      · have := h3 .delete
        simp only [ManagedPool.times] at this
        omega
    · -- a pool of the map has had its three duties, and any other was deleted
      by_cases hins : (m.pools r).inserted = true
      · have hd : ∀ d, (m.pools r).times d = 1 := fun d => by have := g4 r hr hins d; simpa [hl d] using this
        exact .inr ⟨hd .stop, hd .destroy, hd .delete⟩
      · exact .inl ⟨by simpa using hins, (hg r hr).resolve_left hins⟩

end Steps

/-! ## Runs -/

/-- `Stop` is called once. -/
def StopOnce : Guard ManagerSt ManagerOp Unit ManagerCall (Option PoolId) ManagerOp.Reply where
  start _ _ := True
  act _ _ m o _ :=
    match o with
    | .getAllItems => m.taken = false
    | _ => True

instance (i : ℕ) (c : ManagerCall) (m : ManagerSt) : ∀ (o : ManagerOp) (a : Unit), Decidable (StopOnce.act i c m o a)
  | .getAllItems, _ => inferInstanceAs (Decidable (m.taken = false))
  | .getOption, _ | .mapGet _, _ | .newPool .., _ | .mapGetOrInsert .., _ | .getPoolsToDestroy, _ | .poolStop _, _
  | .poolDestroy _, _ | .deletePool _, _ | .mapReclaim, _ | .clearPoolsToDestroy, _ => isTrue trivial

/-- `Stop` is called once, no pool comes into the map after it took the list, and no call has a pool of
its own when `Destroy` ends. -/
def StopLast : Guard ManagerSt ManagerOp Unit ManagerCall (Option PoolId) ManagerOp.Reply where
  start _ _ := True
  act _ _ m o _ :=
    match o with
    | .getAllItems => m.taken = false
    | .mapGetOrInsert key _ => m.taken = false ∨ m.find key ≠ none
    | .clearPoolsToDestroy => ∀ p, p < m.nextPool → (m.pools p).inserted = true ∨ (m.pools p).deleted = 1
    | _ => True

instance (i : ℕ) (c : ManagerCall) (m : ManagerSt) : ∀ (o : ManagerOp) (a : Unit), Decidable (StopLast.act i c m o a)
  | .getAllItems, _ => inferInstanceAs (Decidable (m.taken = false))
  | .mapGetOrInsert key _, _ => inferInstanceAs (Decidable (m.taken = false ∨ m.find key ≠ none))
  | .clearPoolsToDestroy, _ =>
    inferInstanceAs (Decidable (∀ p, p < m.nextPool → (m.pools p).inserted = true ∨ (m.pools p).deleted = 1))
  | .getOption, _ | .mapGet _, _ | .newPool .., _ | .getPoolsToDestroy, _ | .poolStop _, _
  | .poolDestroy _, _ | .deletePool _, _ | .mapReclaim, _ => isTrue trivial

@[reducible] def shutOutline : Outline ManagerSt ManagerOp Unit ManagerCall (Option PoolId) ManagerOp.Reply where
  V := ShutView
  rest := {}
  begin _ _ _ := {}
  next _ v o r _ := v.next o r
  Inv := Shut
  Fits _ _ := True
  Holds _ _ := True
  Step _ _ m m' := ∀ n, m.ended = some n → m'.ended = some n ∧ ∀ p, p < n → m'.pools p = m.pools p
  Unborn _ _ := True
  Post _ c v _ := v.mine = none ∧ v.todo = none ∧ (c = .shutdown → v.finished = true)
  Done _ c _ m := c = .shutdown → ∃ n, m.ended = some n ∧ ∀ p, p < n → (m.pools p).Settled

section Runs

variable {i : ℕ} {c : ManagerCall} {v : ShutView} {p : PoolId} {t : Todo} {key : Bytes}

/-- What is left of the view of a call of `Get` when its own pool is not looked at. -/
def ShutView.Rest (v v' : ShutView) : Prop := v'.todo = v.todo ∧ v'.finished = v.finished

theorem shut_mapGet : shutOutline.Safe managerSystem StopLast i c v (mop (.mapGet key)) fun v' _ => v' = v := by
  refine Outline.safe_next fun m vs a r m' hI hv _ he => ?_
  cases he
  subst hv
  exact ⟨vs i, rfl, by rw [update_eq_self]; exact hI, fun n hn => ⟨hn, fun _ _ => rfl⟩, rfl⟩

theorem shut_getOption : shutOutline.Safe managerSystem StopLast i c v (mop .getOption) fun v' _ => v' = v := by
  refine Outline.safe_next fun m vs a r m' hI hv _ he => ?_
  cases he
  subst hv
  exact ⟨vs i, rfl, by rw [update_eq_self]; exact hI, fun n hn => ⟨hn, fun _ _ => rfl⟩, rfl⟩

theorem shut_newPool (hm : v.mine = none) (opt : MysqlExecutorPoolOption) (addr : NodeAddr) :
    shutOutline.Safe managerSystem StopLast i c v (mop (.newPool opt addr)) fun v' p =>
      v'.mine = some p ∧ v.Rest v' := by
  refine Outline.safe_next fun m vs a r m' hI hv _ he => ?_
  simp only [managerSystem, managerExec] at he
  split at he
  · cases he
  cases he
  subst hv
  refine ⟨{ vs i with mine := some m.nextPool }, rfl, hI.made hm rfl rfl rfl, fun n hn => ⟨hn, fun p hp => ?_⟩,
    rfl, rfl, rfl⟩
  have := (hI.ended n hn).1
  exact ManagerSt.setPool_of_ne (Nat.ne_of_lt (Nat.lt_of_lt_of_le hp this))

theorem shut_mapGetOrInsert (hm : v.mine = some p) :
    shutOutline.Safe managerSystem StopLast i c v (mop (.mapGetOrInsert key p)) fun v' r =>
      v.Rest v' ∧ v'.mine = if r = none then none else some p := by
  refine Outline.safe_next fun m vs a r m' hI hv hg he => ?_
  subst hv
  simp only [managerSystem, managerExec] at he
  split at he
  · cases he
    exact ⟨vs i, rfl, by rw [update_eq_self]; exact hI, fun n hn => ⟨hn, fun _ _ => rfl⟩, ⟨rfl, rfl⟩, hm⟩
  · rename_i hk
    have htaken : m.taken = false := by
      rcases hg with hg | hg
      · exact hg
      · exact absurd hk hg
    cases he
    refine ⟨{ vs i with mine := none }, rfl, hI.insert htaken hm rfl rfl rfl, fun n hn => ?_, ⟨rfl, rfl⟩, rfl⟩
    rw [(hI.early htaken).1] at hn; cases hn

/-- A call of `Get` deletes its own pool. -/
theorem shut_deleteMine (hm : v.mine = some p) (ht : v.todo = none) :
    shutOutline.Safe managerSystem StopLast i c v (mop (.deletePool p)) fun v' _ => v'.mine = none ∧ v.Rest v' := by
  refine Outline.safe_next fun m vs a r m' hI hv hg he => ?_
  subst hv
  cases he
  refine ⟨{ vs i with mine := none }, ?_, hI.deleted hm rfl rfl rfl, fun n hn => ⟨hn, fun q hq => ?_⟩, rfl, rfl, rfl⟩
  · change ShutView.next (vs i) (.deletePool p) () = _
    simp only [ShutView.next, ht]
  · have := (hI.ended n hn).2.1 i p hm
    exact ManagerSt.setPool_of_ne (Nat.ne_of_lt (Nat.lt_of_lt_of_le hq this))

theorem get_shut (addr : NodeAddr) (hm : v.mine = none) (ht : v.todo = none) :
    shutOutline.Safe managerSystem StopLast i c v (Manager.get addr) fun v' _ => v'.mine = none ∧ v.Rest v' := by
  unfold Manager.get
  dsimp only
  rw [Outline.safe_bind]
  refine Outline.safe_mono (fun v₁ r h₁ => ?_) shut_mapGet
  subst h₁
  cases r with
  | some p => exact ⟨hm, rfl, rfl⟩
  | none =>
    simp only [Manager.createExecutorPool, bind_assoc, Outline.safe_bind]
    refine Outline.safe_mono (fun v₂ opt h₂ => ?_) shut_getOption
    subst h₂
    refine Outline.safe_mono (fun v₃ p h₃ => ?_) (shut_newPool hm opt addr)
    refine Outline.safe_mono (fun v₄ r h₄ => ?_) (shut_mapGetOrInsert h₃.1)
    have hrest : v₂.Rest v₄ := ⟨h₄.1.1.trans h₃.2.1, h₄.1.2.trans h₃.2.2⟩
    cases r with
    | none => exact ⟨h₄.2, hrest⟩
    | some q =>
      rw [Outline.safe_bind]
      refine Outline.safe_mono (fun v₅ _ h₅ => ?_) (shut_deleteMine h₄.2 (hrest.1.trans ht))
      exact ⟨h₅.1, h₅.2.1.trans hrest.1, h₅.2.2.trans hrest.2⟩

theorem shut_getAllItems (ht : v.todo = none) :
    shutOutline.Safe managerSystem StopLast i c v (mop .getAllItems) fun v' items =>
      v'.mine = v.mine ∧ v'.todo = some ⟨items, fun _ => items.map Prod.snd⟩ := by
  refine Outline.safe_next fun m vs a r m' hI hv hg he => ?_
  subst hv
  cases he
  refine ⟨{ vs i with todo := some ⟨m.executorPools, fun _ => m.executorPools.map Prod.snd⟩ }, rfl,
    hI.take hg rfl rfl rfl, fun n hn => ?_, rfl, rfl⟩
  rw [(hI.early hg).1] at hn; cases hn

theorem shut_getPoolsToDestroy (ht : v.todo = some t) :
    shutOutline.Safe managerSystem StopLast i c v (mop .getPoolsToDestroy) fun v' items =>
      v' = v ∧ items = t.items := by
  refine Outline.safe_next fun m vs a r m' hI hv hg he => ?_
  subst hv
  cases he
  exact ⟨vs i, rfl, by rw [update_eq_self]; exact hI, fun n hn => ⟨hn, fun _ _ => rfl⟩, rfl, (hI.todo i t ht).2.1⟩

/-- The steps of the shutdown on one pool. -/
def Duty.op : Duty → PoolId → ManagerOp
  | .stop => .poolStop
  | .destroy => .poolDestroy
  | .delete => .deletePool

theorem shut_duty (d : Duty) {ps : List PoolId} (ht : v.todo = some t) (hd : t.left d = p :: ps) :
    shutOutline.Safe managerSystem StopLast i c v (mop (d.op p)) fun v' _ =>
      v'.mine = v.mine ∧ v'.todo = some { t with left := update t.left d ps } := by
  have hstrike : t.strike d p = { t with left := update t.left d ps } := by
    rw [Todo.strike, hd, List.erase_cons_head]
  refine Outline.safe_next fun m vs a r m' hI hv hg he => ?_
  subst hv
  have hended := (hI.todo i t ht).1
  refine ⟨{ vs i with todo := some (t.strike d p) }, ?_, ?_, fun n hn => ?_, rfl, by rw [← hstrike]⟩
  · cases d <;> simp only [Duty.op, ShutView.next, ht, Option.map_some]
  · cases d <;> cases he <;> refine hI.tick ht hd ?_ ?_ rfl rfl rfl
    all_goals first | rfl | exact fun d' => by cases d' <;> rfl
  · rw [hended] at hn; cases hn

theorem shut_mapReclaim (ht : v.todo = some t) :
    shutOutline.Safe managerSystem StopLast i c v (mop .mapReclaim) fun v' _ => v' = v := by
  refine Outline.safe_next fun m vs a r m' hI hv hg he => ?_
  subst hv
  cases he
  refine ⟨vs i, rfl, ?_, fun n hn => ⟨hn, fun _ _ => rfl⟩, rfl⟩
  rw [update_eq_self]
  refine ⟨hI.apart, hI.mine, fun hk => ?_, hI.todo, hI.ended, hI.finished⟩
  exact absurd (hI.taken ht) (by rw [show m.taken = false from hk]; simp)

theorem shut_clear (ht : v.todo = some t) (hl : ∀ d, t.left d = []) :
    shutOutline.Safe managerSystem StopLast i c v (mop .clearPoolsToDestroy) fun v' _ =>
      v'.mine = v.mine ∧ v'.todo = none ∧ v'.finished = true := by
  refine Outline.safe_next fun m vs a r m' hI hv hg he => ?_
  subst hv
  cases he
  refine ⟨{ vs i with todo := none, finished := true }, rfl, hI.clear ht hl hg rfl rfl, fun n hn => ?_, rfl, rfl, rfl⟩
  rw [(hI.todo i t ht).1] at hn; cases hn

theorem stopAll_shut : ∀ (ps : List PoolId) {v : ShutView} {t : Todo}, v.todo = some t → t.left .stop = ps →
    shutOutline.Safe managerSystem StopLast i c v (Manager.stopAll ps) fun v' _ =>
      v'.mine = v.mine ∧ v'.todo = some { t with left := update t.left .stop [] } := by
  intro ps
  induction ps with
  | nil =>
    intro v t ht hl
    have : update t.left .stop [] = t.left := by rw [← hl, update_eq_self]
    exact ⟨rfl, by rw [this]; exact ht⟩
  | cons p ps ih =>
    intro v t ht hl
    refine Outline.safe_bind.2 (Outline.safe_mono (fun v₁ _ h₁ => ?_) (shut_duty .stop ht hl))
    refine Outline.safe_mono (fun v₂ _ h₂ => ?_) (ih h₁.2 (by simp))
    refine ⟨h₂.1.trans h₁.1, h₂.2.trans ?_⟩
    simp only [update_idem]

theorem destroyAll_shut : ∀ (ps : List PoolId) {v : ShutView} {t : Todo}, v.todo = some t →
    t.left .stop = [] → t.left .destroy = ps → t.left .delete = ps →
    shutOutline.Safe managerSystem StopLast i c v (Manager.destroyAll ps) fun v' _ =>
      v'.mine = v.mine ∧ ∃ t', v'.todo = some t' ∧ ∀ d, t'.left d = [] := by
  intro ps
  induction ps with
  | nil =>
    intro v t ht hs hd hx
    exact ⟨rfl, t, ht, fun d => by cases d <;> assumption⟩
  | cons p ps ih =>
    intro v t ht hs hd hx
    refine Outline.safe_bind.2 (Outline.safe_mono (fun v₁ _ h₁ => ?_) (shut_duty .destroy ht hd))
    have hx' : update t.left .destroy ps .delete = p :: ps := by rw [update_of_ne (by decide)]; exact hx
    refine Outline.safe_bind.2 (Outline.safe_mono (fun v₂ _ h₂ => ?_) (shut_duty .delete h₁.2 hx'))
    refine Outline.safe_mono (fun v₃ _ h₃ => ⟨h₃.1.trans (h₂.1.trans h₁.1), h₃.2⟩) (ih h₂.2 ?_ ?_ ?_)
    · simpa using hs
    · simp
    · simp

/-- `Stop` and `Destroy`, from a view without anything to do. -/
theorem shutdown_shut (hm : v.mine = none) (ht : v.todo = none) :
    shutOutline.Safe managerSystem StopLast i c v ManagerCall.shutdown.prog fun v' _ =>
      v'.mine = none ∧ v'.todo = none ∧ v'.finished = true := by
  simp only [ManagerCall.prog, Manager.stop, Manager.destroy, bind_assoc, Outline.safe_bind]
  refine Outline.safe_mono (fun v₁ items h₁ => ?_) (shut_getAllItems ht)
  refine Outline.safe_mono (fun v₂ _ h₂ => ?_) (stopAll_shut _ h₁.2 rfl)
  refine Outline.safe_mono (fun v₃ items' h₃ => ?_) (shut_getPoolsToDestroy h₂.2)
  obtain ⟨rfl, rfl⟩ := h₃
  refine Outline.safe_mono (fun v₄ _ h₄ => ?_) (destroyAll_shut _ h₂.2 (by simp) (by simp) (by simp))
  obtain ⟨h₄m, t, h₄t, hl⟩ := h₄
  refine Outline.safe_mono (fun v₅ _ h₅ => ?_) (shut_mapReclaim h₄t)
  subst h₅
  refine Outline.safe_mono (fun v₆ _ h₆ => ?_) (shut_clear h₄t hl)
  exact ⟨h₆.1.trans (h₄m.trans (h₂.1.trans (h₁.1.trans hm))), h₆.2⟩

/-- **The pools are accounted for whatever the order of the steps.** -/
theorem shutOutline_sound {opt : MysqlExecutorPoolOption} :
    shutOutline.Sound managerSystem StopLast { option := opt } where
  init := by
    refine ⟨fun _ h => absurd h (Nat.not_lt_zero _), fun _ _ h => (nomatch h), fun _ => ?_, fun _ _ h => (nomatch h),
      fun _ h => (nomatch h), fun _ h => (nomatch h)⟩
    exact ⟨rfl, List.nodup_nil, fun _ h => absurd h List.not_mem_nil, fun _ h => absurd h (Nat.not_lt_zero _),
      fun _ => rfl⟩
  unborn _ := trivial
  unborn_step _ _ _ := trivial
  start := by
    intro cf vs c hI _ hv _ _
    have hbegin : update vs cf.frames.length ({} : ShutView) = vs := update_eq_iff.2 ⟨hv.symm, fun _ _ => rfl⟩
    refine ⟨by rw [hbegin]; exact hI, ?_⟩
    cases c with
    | get addr =>
      refine Outline.safe_bind.2 (Outline.safe_mono (fun v p h => ?_) (get_shut addr rfl rfl))
      exact ⟨h.1, h.2.1, fun hc => (nomatch hc)⟩
    | shutdown =>
      refine Outline.safe_mono (fun v p h => ?_) (shutdown_shut rfl rfl)
      exact ⟨h.1, h.2.1, fun _ => h.2.2⟩
  fits _ _ _ := trivial
  fits_next _ _ _ _ _ _ _ := trivial
  holds _ := trivial
  holds_next _ _ _ _ _ _ _ := trivial
  finish := by
    intro m vs i c r hI hp
    obtain ⟨hm, ht, ho⟩ := hp
    refine ⟨?_, fun hc => ?_⟩
    · exact hI.rest hm.symm ht.symm rfl
    · obtain ⟨n, hn⟩ := Option.ne_none_iff_exists'.1 (hI.finished i (ho hc))
      exact ⟨n, hn, (hI.ended n hn).2.2⟩
  stable := by
    intro i c r m j c' o a x m' _ hd _ hst hc
    obtain ⟨n, hn, hp⟩ := hd hc
    obtain ⟨hn', hpools⟩ := hst n hn
    exact ⟨n, hn', fun p hlt => by rw [hpools p hlt]; exact hp p hlt⟩

end Runs

/-- When `Destroy` has ended, every pool that a call of `Get` made until then was stopped, destroyed and
deleted once, unless it lost the race for its key and was deleted. -/
def NoPoolLost (cf : ManagerConfig) : Prop :=
  ∀ i, cf.Returned i .shutdown none → ∃ n, cf.world.ended = some n ∧ ∀ p, p < n → (cf.world.pools p).Settled

/-- **Shutdown loses no pool that came into the map before `Stop` took the list.** -/
theorem shutdown_settles (opt : MysqlExecutorPoolOption) {cf : ManagerConfig}
    (hr : managerSystem.Reach StopLast { option := opt } cf) : NoPoolLost cf :=
  fun _ h => shutOutline_sound.returned hr h rfl

/-- A pool that is in the map when `Stop` begins is closed. -/
theorem shutdown_settles_one : ∃ cf, managerSystem.Reach StopLast { option := {} } cf ∧
    cf.Returned 1 .shutdown none ∧ NoPoolLost cf := by
  have h₁ : managerSystem.Reach StopLast { option := {} } _ := System.Reach.init.call
    (c := .get { ip := ascii "db", port := 3306 }) (List.replicate 4 ()) trivial (by decide) rfl
  have h₂ := h₁.call (c := .shutdown) (List.replicate 7 ()) trivial (by decide) rfl
  exact ⟨_, h₂, rfl, shutdown_settles {} h₂⟩

/-- A call of `Get` that begins after `Stop` took the list inserts a pool, and nobody ever closes it. -/
theorem shutdown_loses : ¬ ∀ cf, managerSystem.Reach StopOnce { option := {} } cf → NoPoolLost cf := by
  intro h
  have h₁ : managerSystem.Reach StopOnce { option := {} } _ :=
    System.Reach.init.step (.start .shutdown) trivial rfl
  have h₂ := h₁.run (n := 0) (c := .shutdown) (p := mop .getAllItems) [()] rfl ⟨rfl, trivial⟩ rfl
  have h₃ := h₂.call (c := .get { ip := ascii "db", port := 3306 }) (List.replicate 4 ()) trivial (by decide) rfl
  have h₄ := h₃.run (n := 0) (c := .shutdown) (p := do Manager.destroy; return none) (k := .ret)
    (List.replicate 3 ()) (by rw [Prog.bind_ret]; rfl) (by decide) rfl
  obtain ⟨n, hn, hp⟩ := h _ h₄ 0 rfl
  cases hn
  rcases hp 0 (by decide) with ⟨hi, -⟩ | ⟨hs, -⟩
  · exact absurd hi (by decide)
  · exact absurd hs (by decide)

end TrpcMysql
