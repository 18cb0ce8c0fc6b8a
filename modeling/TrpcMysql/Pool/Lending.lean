import Mathlib.Data.List.Nodup
import TrpcMysql.Pool.Shards

/-!
# Where the executors of a pool are

What stays true of a pool while borrowers and a shutdown are at work, one step at a time. The invariant
has three parts:

* `Apart`: an executor is in one list, or in the hands of one call, or neither;
* `Counting`: the lists and the hands hold no more executors than were counted, and the lists together
  with the executors that passed the test of `Reclaim` are no more than `max_size`;
* `Stopping`: a shard that `Stop` has copied holds connected executors only if they are still to be closed,
  and no borrower has an executor that is.

The second part holds while the counter does not wrap around, the third while the runs keep out of each
other's way (`ShardsGuard`); each step has one lemma about all the parts.
-/

namespace TrpcMysql

open Function Conc

/-- How far a call has come with the executor in its hands: new, connected, counted, or let through by the
test of `Reclaim`. -/
inductive Stage where
  | fresh | joined | counted | approved
  deriving DecidableEq

/-- What a call knows: the executor in its hands; and as the shutdown, the executors that it copied and
has not yet closed, the shards it has copied, and the executors it took out. -/
structure ShardView where
  hand : Option (ExecId × Stage) := none
  closing : Option (List ExecId) := none
  shot : List ℕ := []
  dropping : List ExecId := []

/-- The stage after an increment of the counter. -/
def Stage.count : Stage → Stage
  | .joined => .counted
  | s => s

namespace ShardView

def next (v : ShardView) : (o : ShardsOp) → o.Reply → ShardsSt → ShardView
  | .popBack _, some e, _ => { v with hand := some (e, .counted) }
  | .newExecutor _, e, _ => { v with hand := some (e, .fresh) }
  | .connect e, true, _ => { v with hand := some (e, .joined) }
  | .fetchAddExecutorNum, _, _ => { v with hand := v.hand.map fun h => (h.1, h.2.count) }
  | .loadExecutorNum, n, m =>
    if n ≤ m.option.maxSize then { v with hand := v.hand.map fun h => (h.1, .approved) } else v
  | .pushBack .., _, _ => { v with hand := none }
  | .beginStop, _, _ => { v with closing := some [] }
  | .copyShard k, es, _ => { v with closing := v.closing.map (· ++ es), shot := k :: v.shot }
  | .closeCopied e, _, _ => { v with closing := v.closing.map (·.erase e) }
  | .swapShard _, es, _ => { v with dropping := v.dropping ++ es }
  | _, _, _ => v

end ShardView

/-- The part of a pool's state that the invariant is about. -/
structure Core where
  option : MysqlExecutorPoolOption
  executorNum : ℕ
  increments : ℕ
  shards : ℕ → List ExecId
  connected : ExecId → Bool
  nextExec : ℕ
  lent : ExecId → Bool
  stopBegun : Bool
  copied : List ExecId
  snapped : ℕ → Bool
  cut : List ExecId
  lost : List ExecId

def ShardsSt.core (m : ShardsSt) : Core :=
  { option := m.option, executorNum := m.executorNum, increments := m.increments, shards := m.shards,
    connected := fun e => (m.conns e).connected, nextExec := m.nextExec, lent := m.lent, stopBegun := m.stopBegun,
    copied := m.copied, snapped := m.snapped, cut := m.cut, lost := m.lost }

/-! ## The invariant -/

/-- An executor is in one place at most. -/
structure Apart (m : Core) (vs : ℕ → ShardView) : Prop where
  listed : ∀ k e, e ∈ m.shards k → e < m.nextExec ∧ m.lent e = false
  nodup : ∀ k, (m.shards k).Nodup
  disjoint : ∀ k k' e, e ∈ m.shards k → e ∈ m.shards k' → k = k'
  hand : ∀ i e s, (vs i).hand = some (e, s) →
    e < m.nextExec ∧ (∀ k, e ∉ m.shards k) ∧ ∀ j s', (vs j).hand = some (e, s') → j = i
  fresh : ∀ i e, (vs i).hand = some (e, .fresh) → m.connected e = false

/-- The executor was counted when it was connected, and the pool or a call has it. -/
def Counted (m : Core) (vs : ℕ → ShardView) (e : ExecId) : Prop :=
  (∃ k, e ∈ m.shards k) ∨ ∃ i s, (vs i).hand = some (e, s) ∧ (s = .counted ∨ s = .approved)

/-- The executor is in a list, or passed the test and will be. -/
def Inside (m : Core) (vs : ℕ → ShardView) (e : ExecId) : Prop :=
  (∃ k, e ∈ m.shards k) ∨ ∃ i, (vs i).hand = some (e, .approved)

/-- The counter bounds the executors that were counted, and `max_size` those that may be idle. -/
structure Counting (m : Core) (vs : ℕ → ShardView) : Prop where
  num : m.executorNum = m.increments
  card : ∀ es : List ExecId, es.Nodup → (∀ e ∈ es, Counted m vs e) → es.length ≤ m.increments
  room : ∀ es : List ExecId, es.Nodup → (∀ e ∈ es, Inside m vs e) → es.length ≤ m.option.maxSize

/-- A shutdown, before, while and after it runs. -/
structure Stopping (m : Core) (vs : ℕ → ShardView) : Prop where
  closing : ∀ i es, (vs i).closing = some es →
    m.stopBegun = true ∧ m.copied = es ∧ ∀ j es', (vs j).closing = some es' → j = i
  copied : m.stopBegun = false → m.copied = []
  lent : ∀ e, m.lent e = true → e ∉ m.copied
  snapped : ∀ k e, m.snapped k = true → e ∈ m.shards k → m.connected e = true → e ∈ m.copied
  shot : ∀ i k, k ∈ (vs i).shot → m.snapped k = true
  dropping : ∀ i e, e ∈ (vs i).dropping → e < m.nextExec ∧ m.connected e = false ∧ (∀ k, e ∉ m.shards k) ∧
    ∀ j s, (vs j).hand ≠ some (e, s)
  history : m.cut = [] ∧ m.lost = []

/-- Which of the runs are looked at: those in which the counter does not wrap around (`few`), and those in
which borrowers keep out of the way of the shutdown (`calm`). -/
structure Look where
  few : Prop
  calm : Prop

structure Lending (L : Look) (m : Core) (vs : ℕ → ShardView) : Prop where
  apart : Apart m vs
  counting : L.few → Counting m vs
  stopping : L.calm → Stopping m vs

/-! ## Views -/

section Views

variable {vs : ℕ → ShardView} {i j : ℕ} {v : ShardView} {e : ExecId} {s : Stage}

theorem hand_cases (h : (update vs i v j).hand = some (e, s)) :
    (j = i ∧ v.hand = some (e, s)) ∨ (j ≠ i ∧ (vs j).hand = some (e, s)) := by
  by_cases hji : j = i
  · subst hji; rw [update_self] at h; exact .inl ⟨rfl, h⟩
  · rw [update_of_ne hji] at h; exact .inr ⟨hji, h⟩

/-- A field of the views that the new view has from the old one. -/
theorem view_field {β : Type} (f : ShardView → β) (h : f v = f (vs i)) : f (update vs i v j) = f (vs j) := by
  by_cases hji : j = i
  · subst hji; rw [update_self, h]
  · rw [update_of_ne hji]

/-- The views differ in their hands only. -/
structure ShardView.Like (v w : ShardView) : Prop where
  closing : w.closing = v.closing
  shot : w.shot = v.shot
  dropping : w.dropping = v.dropping

end Views

/-! ## Steps of a borrower -/

section Borrower

variable {L : Look} {m : Core} {vs : ℕ → ShardView} {i : ℕ} {v : ShardView} {e : ExecId} {s : Stage}

/-- The hands hold less, or the same at another stage. -/
structure Less (vs : ℕ → ShardView) (i : ℕ) (v : ShardView) : Prop where
  hand : ∀ e s, v.hand = some (e, s) → ∃ s', (vs i).hand = some (e, s') ∧ (s = s' ∨ s = .joined)
  like : (vs i).Like v

theorem Less.hands (h : Less vs i v) {j : ℕ} (hj : (update vs i v j).hand = some (e, s)) :
    ∃ s', (vs j).hand = some (e, s') ∧ (s = s' ∨ s = .joined) := by
  rcases hand_cases hj with ⟨rfl, hv⟩ | ⟨-, hv⟩
  · exact h.hand e s hv
  · exact ⟨s, hv, .inl rfl⟩

theorem Less.counted (h : Less vs i v) (hc : Counted m (update vs i v) e) : Counted m vs e := by
  rcases hc with hl | ⟨j, s, hj, hs⟩
  · exact .inl hl
  · obtain ⟨s', hj', hss⟩ := h.hands hj
    refine .inr ⟨j, s', hj', ?_⟩
    rcases hss with rfl | rfl
    · exact hs
    · rcases hs with hs | hs <;> cases hs

theorem Less.inside (h : Less vs i v) (hc : Inside m (update vs i v) e) : Inside m vs e := by
  rcases hc with hl | ⟨j, hj⟩
  · exact .inl hl
  · obtain ⟨s', hj', hss⟩ := h.hands hj
    rcases hss with rfl | hss
    · exact .inr ⟨j, hj'⟩
    · cases hss

/-- What a step of a borrower keeps of `Stopping`, when no executor comes into a list. -/
theorem Stopping.borrow (h : Stopping m vs) {m' : Core} (hv : (vs i).Like v)
    (hb : m'.stopBegun = m.stopBegun) (hc : m'.copied = m.copied) (hsn : m'.snapped = m.snapped)
    (hcut : m'.cut = m.cut) (hlost : m'.lost = m.lost) (hn : m.nextExec ≤ m'.nextExec)
    (hl : ∀ e, m'.lent e = true → e ∉ m.copied)
    (hs : ∀ k e, m'.snapped k = true → e ∈ m'.shards k → m'.connected e = true → e ∈ m.copied)
    (hd : ∀ j e, e ∈ (vs j).dropping → m'.connected e = false ∧ (∀ k, e ∉ m'.shards k) ∧
      ∀ j s, (update vs i v j).hand ≠ some (e, s)) : Stopping m' (update vs i v) := by
  refine ⟨fun j es hj => ?_, fun hb' => ?_, fun e he => by rw [hc]; exact hl e he,
    fun k e hk hke he => by rw [hc]; exact hs k e hk hke he, fun j k hj => ?_, fun j e hj => ?_, ?_⟩
  · rw [view_field ShardView.closing hv.closing] at hj
    obtain ⟨h1, h2, h3⟩ := h.closing j es hj
    exact ⟨hb.trans h1, hc.trans h2,
      fun j' es' hj' => h3 j' es' (by rwa [view_field ShardView.closing hv.closing] at hj')⟩
  · rw [hc]; exact h.copied (hb ▸ hb')
  · rw [view_field ShardView.shot hv.shot] at hj
    rw [hsn]; exact h.shot j k hj
  · rw [view_field ShardView.dropping hv.dropping] at hj
    obtain ⟨h1, h2, h3⟩ := hd j e hj
    exact ⟨Nat.lt_of_lt_of_le (h.dropping j e hj).1 hn, h1, h2, h3⟩
  · rw [hcut, hlost]; exact h.history

/-- A call changes the connection of the executor in its hands. -/
theorem Lending.touch (h : Lending L m vs) (hi : (vs i).hand = some (e, s)) (hv : Less vs i v) {b : Bool}
    (hb : ∀ s', v.hand = some (e, s') → s' = .fresh → b = false) {lent : ExecId → Bool}
    (hl : ∀ e, lent e = true → m.lent e = true) :
    Lending L { m with connected := update m.connected e b, lent := lent } (update vs i v) := by
  obtain ⟨he, hnot, huniq⟩ := h.apart.hand i e s hi
  -- the connections of the others stay
  have hconn : ∀ e', e' ≠ e → update m.connected e b e' = m.connected e' := fun e' hne => update_of_ne hne ..
  refine ⟨⟨fun k e' hk => ?_, h.apart.nodup, h.apart.disjoint, fun j e' s' hj => ?_, fun j e' hj => ?_⟩,
    fun hf => ?_, fun hc => ?_⟩
  · obtain ⟨h1, h2⟩ := h.apart.listed k e' hk
    refine ⟨h1, ?_⟩
    by_contra hne
    rw [hl e' (by simpa using hne)] at h2; cases h2
  · obtain ⟨s'', hj', -⟩ := hv.hands hj
    obtain ⟨h1, h2, h3⟩ := h.apart.hand j e' s'' hj'
    refine ⟨h1, h2, fun j' t hj'' => ?_⟩
    obtain ⟨t', ht, -⟩ := hv.hands hj''
    exact h3 j' t' ht
  · by_cases hee : e' = e
    · subst hee
      rcases hand_cases hj with ⟨rfl, hvj⟩ | ⟨hji, hvj⟩
      · simpa using hb _ hvj rfl
      · exact absurd (huniq j _ hvj) hji
    · dsimp only
      rw [hconn e' hee]
      obtain ⟨s'', hj', hss⟩ := hv.hands hj
      rcases hss with rfl | hss
      · exact h.apart.fresh j e' hj'
      · cases hss
  · -- nobody is counted who was not
    have hC := h.counting hf
    exact ⟨hC.num, fun es hn hes => hC.card es hn fun e' he' => hv.counted (hes e' he'),
      fun es hn hes => hC.room es hn fun e' he' => hv.inside (hes e' he')⟩
  · -- an executor in hands is neither in a list nor among those that the shutdown drops
    have hS := h.stopping hc
    refine hS.borrow hv.like rfl rfl rfl rfl rfl (Nat.le_refl _) (fun e' he' => hS.lent e' (hl e' he'))
      (fun k e' hk hke he' => ?_) fun j e' hj => ?_
    · have hee : e' ≠ e := by rintro rfl; exact hnot k hke
      dsimp only at he'
      rw [hconn e' hee] at he'
      exact hS.snapped k e' hk hke he'
    · obtain ⟨-, h1, h2, h3⟩ := hS.dropping j e' hj
      have hee : e' ≠ e := by rintro rfl; exact h3 i s hi
      refine ⟨by dsimp only; rw [hconn e' hee]; exact h1, h2, fun j' s' hj' => ?_⟩
      obtain ⟨s'', hj'', -⟩ := hv.hands hj'
      exact h3 j' s'' hj''

/-- A new executor comes into the hands of a call. -/
theorem Lending.made (h : Lending L m vs) (hv : v.hand = some (m.nextExec, .fresh)) (hk : (vs i).Like v) :
    Lending L { m with connected := update m.connected m.nextExec false, nextExec := m.nextExec + 1 }
      (update vs i v) := by
  have hold : ∀ e, e < m.nextExec → update m.connected m.nextExec false e = m.connected e :=
    fun e he => update_of_ne (Nat.ne_of_lt he) ..
  have hlist : ∀ k, m.nextExec ∉ m.shards k := fun k hk => Nat.lt_irrefl _ (h.apart.listed k _ hk).1
  -- the new executor is not counted yet, as it is fresh
  have hcounted : ∀ e, Counted m (update vs i v) e → Counted m vs e := by
    intro e hc
    rcases hc with hl | ⟨j, s, hj, hs⟩
    · exact .inl hl
    · rcases hand_cases hj with ⟨rfl, hw⟩ | ⟨-, hw⟩
      · rw [hv] at hw; cases hw; rcases hs with hs | hs <;> cases hs
      · exact .inr ⟨j, s, hw, hs⟩
  have hinside : ∀ e, Inside m (update vs i v) e → Inside m vs e := by
    intro e hc
    rcases hc with hl | ⟨j, hj⟩
    · exact .inl hl
    · rcases hand_cases hj with ⟨rfl, hw⟩ | ⟨-, hw⟩
      · rw [hv] at hw; cases hw
      · exact .inr ⟨j, hw⟩
  refine ⟨⟨fun k e hk => ?_, h.apart.nodup, h.apart.disjoint, fun j e s hj => ?_, fun j e hj => ?_⟩,
    fun hf => ?_, fun hc => ?_⟩
  · obtain ⟨h1, h2⟩ := h.apart.listed k e hk
    exact ⟨Nat.lt_succ_of_lt h1, h2⟩
  · rcases hand_cases hj with ⟨rfl, hw⟩ | ⟨hji, hw⟩
    · rw [hv] at hw
      cases hw
      refine ⟨Nat.lt_succ_self _, hlist, fun j' s' hj' => ?_⟩
      rcases hand_cases hj' with ⟨rfl, -⟩ | ⟨-, hw'⟩
      · rfl
      · exact absurd (h.apart.hand j' _ s' hw').1 (Nat.lt_irrefl _)
    · obtain ⟨h1, h2, h3⟩ := h.apart.hand j e s hw
      refine ⟨Nat.lt_succ_of_lt h1, h2, fun j' s' hj' => ?_⟩
      rcases hand_cases hj' with ⟨rfl, hw'⟩ | ⟨-, hw'⟩
      · rw [hv] at hw'; cases hw'; exact absurd h1 (Nat.lt_irrefl _)
      · exact h3 j' s' hw'
  · rcases hand_cases hj with ⟨rfl, hw⟩ | ⟨hji, hw⟩
    · rw [hv] at hw; cases hw; simp
    · dsimp only
      rw [hold e (h.apart.hand j e _ hw).1]
      exact h.apart.fresh j e hw
  · -- the counter
    have hC := h.counting hf
    exact ⟨hC.num, fun es hn hes => hC.card es hn fun e he => hcounted e (hes e he),
      fun es hn hes => hC.room es hn fun e he => hinside e (hes e he)⟩
  · -- the shutdown
    have hS := h.stopping hc
    refine hS.borrow hk rfl rfl rfl rfl rfl (Nat.le_succ _) hS.lent (fun k e hsk hke he => ?_) fun j e hj => ?_
    · dsimp only at he
      rw [hold e (h.apart.listed k e hke).1] at he
      exact hS.snapped k e hsk hke he
    · obtain ⟨h0, h1, h2, h3⟩ := hS.dropping j e hj
      refine ⟨by dsimp only; rw [hold e h0]; exact h1, h2, fun j' s hj' => ?_⟩
      rcases hand_cases hj' with ⟨rfl, hw'⟩ | ⟨-, hw'⟩
      · rw [hv] at hw'; cases hw'; exact Nat.lt_irrefl _ h0
      · exact h3 j' s hw'

/-- The last executor of a list comes into the hands of a call. -/
theorem Lending.pop (h : Lending L m vs) {k : ℕ} (he : (m.shards k).getLast? = some e)
    (hv : v.hand = some (e, .counted)) (hl : (vs i).Like v) :
    Lending L { m with shards := update m.shards k (m.shards k).dropLast } (update vs i v) := by
  have hmem : e ∈ m.shards k := List.mem_of_getLast? he
  have hsub : ∀ k' e', e' ∈ update m.shards k (m.shards k).dropLast k' → e' ∈ m.shards k' := by
    intro k' e' he'
    by_cases hkk : k' = k
    · subst hkk; rw [update_self] at he'; exact List.dropLast_subset _ he'
    · rwa [update_of_ne hkk] at he'
  -- it was in this list once, and in no other
  have hgone : ∀ k', e ∉ update m.shards k (m.shards k).dropLast k' := by
    intro k' he'
    by_cases hkk : k' = k
    · subst hkk
      rw [update_self] at he'
      have hn := h.apart.nodup k'
      rw [← List.dropLast_append_getLast? e he] at hn
      exact (List.nodup_append.1 hn).2.2 e he' e (by simp) rfl
    · rw [update_of_ne hkk] at he'
      exact hkk (h.apart.disjoint k' k e he' hmem)
  have hnobody : ∀ j s, (vs j).hand ≠ some (e, s) := fun j s hj => (h.apart.hand j e s hj).2.1 k hmem
  -- in a list or in hands, it is counted
  have hcounted : ∀ e', Counted { m with shards := update m.shards k (m.shards k).dropLast } (update vs i v) e' →
      Counted m vs e' := by
    intro e' hc
    rcases hc with ⟨k', hl'⟩ | ⟨j, s, hj, hs⟩
    · exact .inl ⟨k', hsub k' e' hl'⟩
    · rcases hand_cases hj with ⟨rfl, hw⟩ | ⟨-, hw⟩
      · rw [hv] at hw; cases hw; exact .inl ⟨k, hmem⟩
      · exact .inr ⟨j, s, hw, hs⟩
  have hinside : ∀ e', Inside { m with shards := update m.shards k (m.shards k).dropLast } (update vs i v) e' →
      Inside m vs e' := by
    intro e' hc
    rcases hc with ⟨k', hl'⟩ | ⟨j, hj⟩
    · exact .inl ⟨k', hsub k' e' hl'⟩
    · rcases hand_cases hj with ⟨rfl, hw⟩ | ⟨-, hw⟩
      · rw [hv] at hw; cases hw
      · exact .inr ⟨j, hw⟩
  refine ⟨⟨fun k' e' hk' => h.apart.listed k' e' (hsub k' e' hk'), fun k' => ?_,
    fun k₁ k₂ e' h1 h2 => h.apart.disjoint k₁ k₂ e' (hsub k₁ e' h1) (hsub k₂ e' h2), fun j e' s hj => ?_,
    fun j e' hj => ?_⟩, fun hf => ?_, fun hc => ?_⟩
  · dsimp only
    by_cases hkk : k' = k
    · subst hkk; rw [update_self]; exact (List.dropLast_sublist _).nodup (h.apart.nodup k')
    · rw [update_of_ne hkk]; exact h.apart.nodup k'
  · rcases hand_cases hj with ⟨rfl, hw⟩ | ⟨hji, hw⟩
    · rw [hv] at hw
      cases hw
      refine ⟨(h.apart.listed k e hmem).1, hgone, fun j' s' hj' => ?_⟩
      rcases hand_cases hj' with ⟨rfl, -⟩ | ⟨-, hw'⟩
      · rfl
      · exact absurd hw' (hnobody j' s')
    · obtain ⟨h1, h2, h3⟩ := h.apart.hand j e' s hw
      refine ⟨h1, fun k' hk' => h2 k' (hsub k' e' hk'), fun j' s' hj' => ?_⟩
      rcases hand_cases hj' with ⟨rfl, hw'⟩ | ⟨-, hw'⟩
      · rw [hv] at hw'; cases hw'; exact absurd hw (hnobody j s)
      · exact h3 j' s' hw'
  · rcases hand_cases hj with ⟨rfl, hw⟩ | ⟨hji, hw⟩
    · rw [hv] at hw; cases hw
    · exact h.apart.fresh j e' hw
  · -- the counter: those inside are fewer by one
    have hC := h.counting hf
    exact ⟨hC.num, fun es hn hes => hC.card es hn fun e' he' => hcounted e' (hes e' he'),
      fun es hn hes => hC.room es hn fun e' he' => hinside e' (hes e' he')⟩
  · -- the shutdown: what it drops is in no list, so it was not popped
    have hS := h.stopping hc
    refine hS.borrow hl rfl rfl rfl rfl rfl (Nat.le_refl _) hS.lent
      (fun k' e' hsk hke he' => hS.snapped k' e' hsk (hsub k' e' hke) he') fun j e' hj => ?_
    obtain ⟨h0, h1, h2, h3⟩ := hS.dropping j e' hj
    refine ⟨h1, fun k' hk' => h2 k' (hsub k' e' hk'), fun j' s hj' => ?_⟩
    rcases hand_cases hj' with ⟨rfl, hw'⟩ | ⟨-, hw'⟩
    · rw [hv] at hw'; cases hw'; exact h2 k hmem
    · exact h3 j' s hw'

/-- An executor that passed the test goes into a list. -/
theorem Lending.push (h : Lending L m vs) {k : ℕ} (hi : (vs i).hand = some (e, .approved)) (hv : v.hand = none)
    (hl : (vs i).Like v) (hcalm : L.calm → m.snapped k = true → m.connected e = false) :
    Lending L { m with shards := update m.shards k (m.shards k ++ [e]), lent := update m.lent e false }
      (update vs i v) := by
  obtain ⟨hlt, hnot, huniq⟩ := h.apart.hand i e _ hi
  have hsub : ∀ k' e', e' ∈ update m.shards k (m.shards k ++ [e]) k' → e' ∈ m.shards k' ∨ (k' = k ∧ e' = e) := by
    intro k' e' he'
    by_cases hkk : k' = k
    · subst hkk
      rw [update_self, List.mem_append, List.mem_singleton] at he'
      exact he'.imp_right fun hee => ⟨rfl, hee⟩
    · rw [update_of_ne hkk] at he'; exact .inl he'
  -- nobody but call `i` had it, and that call has nothing now
  have hhand : ∀ j e' s, (update vs i v j).hand = some (e', s) → j ≠ i ∧ (vs j).hand = some (e', s) := by
    intro j e' s hj
    rcases hand_cases hj with ⟨rfl, hw⟩ | hw
    · rw [hv] at hw; cases hw
    · exact hw
  have hcounted : ∀ e', Counted { m with shards := update m.shards k (m.shards k ++ [e]), lent := update m.lent e false }
      (update vs i v) e' → Counted m vs e' := by
    intro e' hc
    rcases hc with ⟨k', hl'⟩ | ⟨j, s, hj, hs⟩
    · rcases hsub k' e' hl' with hl' | ⟨-, rfl⟩
      · exact .inl ⟨k', hl'⟩
      · exact .inr ⟨i, .approved, hi, .inr rfl⟩
    · exact .inr ⟨j, s, (hhand j e' s hj).2, hs⟩
  -- an approved executor counted as inside already
  have hinside : ∀ e', Inside { m with shards := update m.shards k (m.shards k ++ [e]), lent := update m.lent e false }
      (update vs i v) e' → Inside m vs e' := by
    intro e' hc
    rcases hc with ⟨k', hl'⟩ | ⟨j, hj⟩
    · rcases hsub k' e' hl' with hl' | ⟨-, rfl⟩
      · exact .inl ⟨k', hl'⟩
      · exact .inr ⟨i, hi⟩
    · exact .inr ⟨j, (hhand j e' _ hj).2⟩
  refine ⟨⟨fun k' e' hk' => ?_, fun k' => ?_, fun k₁ k₂ e' h1 h2 => ?_, fun j e' s hj => ?_, fun j e' hj => ?_⟩,
    fun hf => ?_, fun hc => ?_⟩
  · rcases hsub k' e' hk' with hk₀ | ⟨-, rfl⟩
    · have hee : e' ≠ e := by rintro rfl; exact hnot k' hk₀
      obtain ⟨h1, h2⟩ := h.apart.listed k' e' hk₀
      exact ⟨h1, by dsimp only; rwa [update_of_ne hee]⟩
    · exact ⟨hlt, by simp⟩
  · dsimp only
    by_cases hkk : k' = k
    · subst hkk
      rw [update_self, List.nodup_append]
      refine ⟨h.apart.nodup k', by simp, fun a ha b hb hab => ?_⟩
      rw [List.mem_singleton] at hb
      subst hab hb
      exact hnot k' ha
    · rw [update_of_ne hkk]; exact h.apart.nodup k'
  · rcases hsub k₁ e' h1 with g1 | ⟨g1, g1'⟩ <;> rcases hsub k₂ e' h2 with g2 | ⟨g2, g2'⟩
    · exact h.apart.disjoint k₁ k₂ e' g1 g2
    · rw [g2'] at g1; exact absurd g1 (hnot k₁)
    · rw [g1'] at g2; exact absurd g2 (hnot k₂)
    · rw [g1, g2]
  · obtain ⟨hji, hj⟩ := hhand j e' s hj
    obtain ⟨h1, h2, h3⟩ := h.apart.hand j e' s hj
    refine ⟨h1, fun k' hk' => ?_, fun j' s' hj' => h3 j' s' (hhand j' e' s' hj').2⟩
    rcases hsub k' e' hk' with hk' | ⟨-, rfl⟩
    · exact h2 k' hk'
    · exact hji (huniq j s hj)
  · exact h.apart.fresh j e' (hhand j e' _ hj).2
  · -- the counter
    have hC := h.counting hf
    exact ⟨hC.num, fun es hn hes => hC.card es hn fun e' he' => hcounted e' (hes e' he'),
      fun es hn hes => hC.room es hn fun e' he' => hinside e' (hes e' he')⟩
  · -- the shutdown: into a list that was copied no connected executor goes, where the run is calm
    have hS := h.stopping hc
    refine hS.borrow hl rfl rfl rfl rfl rfl (Nat.le_refl _) (fun e' he' => ?_) (fun k' e' hsk hke he' => ?_)
      fun j e' hj => ?_
    · by_cases hee : e' = e
      · subst hee; simp at he'
      · dsimp only at he'; rw [update_of_ne hee] at he'; exact hS.lent e' he'
    · rcases hsub k' e' hke with hke | ⟨rfl, rfl⟩
      · exact hS.snapped k' e' hsk hke he'
      · rw [show m.connected e' = true from he'] at hcalm
        exact absurd (hcalm hc hsk) (by simp)
    · obtain ⟨h0, h1, h2, h3⟩ := hS.dropping j e' hj
      refine ⟨h1, fun k' hk' => ?_, fun j' s hj' => h3 j' s (hhand j' e' s hj').2⟩
      rcases hsub k' e' hk' with hk' | ⟨-, rfl⟩
      · exact h2 k' hk'
      · exact h3 i _ hi

/-- The counter is incremented; an executor that was just connected is counted. -/
theorem Lending.count (h : Lending L m vs) (hv : v.hand = (vs i).hand.map fun h => (h.1, h.2.count))
    (hl : (vs i).Like v) (hfew : L.few → m.increments + 1 < 2 ^ 32) :
    Lending L { m with executorNum := (m.executorNum + 1) % 2 ^ 32, increments := m.increments + 1 }
      (update vs i v) := by
  -- the stages of the executors, before and after
  have hhand : ∀ j e s, (update vs i v j).hand = some (e, s) → ∃ s', (vs j).hand = some (e, s') ∧
      (s = s' ∨ (j = i ∧ s = .counted)) ∧ (s = .fresh → s' = .fresh) := by
    intro j e s hj
    rcases hand_cases hj with ⟨rfl, hw⟩ | ⟨-, hw⟩
    · rw [hv, Option.map_eq_some_iff] at hw
      obtain ⟨⟨e', s'⟩, hi, hes⟩ := hw
      cases hes
      refine ⟨s', hi, ?_⟩
      cases s' <;> simp [Stage.count]
    · exact ⟨s, hw, .inl rfl, id⟩
  have hsame : ∀ j e s, (update vs i v j).hand = some (e, s) → ∃ s', (vs j).hand = some (e, s') := by
    intro j e s hj
    obtain ⟨s', hj', -⟩ := hhand j e s hj
    exact ⟨s', hj'⟩
  refine ⟨⟨h.apart.listed, h.apart.nodup, h.apart.disjoint, fun j e s hj => ?_, fun j e hj => ?_⟩,
    fun hf => ?_, fun hc => ?_⟩
  · obtain ⟨s', hj'⟩ := hsame j e s hj
    obtain ⟨h1, h2, h3⟩ := h.apart.hand j e s' hj'
    refine ⟨h1, h2, fun j' t hj'' => ?_⟩
    obtain ⟨t', ht⟩ := hsame j' e t hj''
    exact h3 j' t' ht
  · obtain ⟨s', hj', -, hs⟩ := hhand j e _ hj
    rw [hs rfl] at hj'
    exact h.apart.fresh j e hj'
  · have hC := h.counting hf
    refine ⟨?_, fun es hn hes => ?_, fun es hn hes => hC.room es hn fun e he => ?_⟩
    · dsimp only
      rw [hC.num, Nat.mod_eq_of_lt (hfew hf)]
    · -- all but the executor in the hands of the call were counted before
      have hold : ∀ e ∈ es, Counted m vs e ∨ ∃ s, (vs i).hand = some (e, s) := by
        intro e he
        rcases hes e he with hl | ⟨j, s, hj, hs⟩
        · exact .inl (.inl hl)
        · obtain ⟨s', hj', hss, -⟩ := hhand j e s hj
          rcases hss with rfl | ⟨rfl, -⟩
          · exact .inl (.inr ⟨j, s, hj', hs⟩)
          · exact .inr ⟨s', hj'⟩
      cases hi : (vs i).hand with
      | none =>
        refine Nat.le_succ_of_le (hC.card es hn fun e he => (hold e he).resolve_right ?_)
        rintro ⟨s, hs⟩
        rw [hi] at hs; cases hs
      | some x =>
        obtain ⟨e₀, s₀⟩ := x
        have hle := hC.card (es.erase e₀) (hn.erase e₀) fun e he => by
          refine (hold e (List.mem_of_mem_erase he)).resolve_right ?_
          rintro ⟨s, hs⟩
          rw [hi] at hs
          cases hs
          exact (List.Nodup.mem_erase_iff hn).1 he |>.1 rfl
        rw [List.length_erase] at hle
        split at hle <;> dsimp only <;> omega
    · rcases he' : hes e he with hl | ⟨j, hj⟩
      · exact .inl hl
      · obtain ⟨s', hj', hss, -⟩ := hhand j e _ hj
        rcases hss with rfl | ⟨-, hss⟩
        · exact .inr ⟨j, hj'⟩
        · cases hss
  · -- the shutdown does not look at the counter
    have hS := h.stopping hc
    refine hS.borrow hl rfl rfl rfl rfl rfl (Nat.le_refl _) hS.lent hS.snapped fun j e hj => ?_
    obtain ⟨-, h1, h2, h3⟩ := hS.dropping j e hj
    refine ⟨h1, h2, fun j' s hj' => ?_⟩
    obtain ⟨s', hs'⟩ := hsame j' e s hj'
    exact h3 j' s' hs'

/-- `Reclaim` has read the counter, and lets the executor through. -/
theorem Lending.approve (h : Lending L m vs) (hi : (vs i).hand = some (e, .counted))
    (hv : v.hand = some (e, .approved)) (hl : (vs i).Like v) (hn : m.executorNum ≤ m.option.maxSize) :
    Lending L m (update vs i v) := by
  -- only the stage of `e` is another
  have hhand : ∀ j e' s, (update vs i v j).hand = some (e', s) →
      (j = i ∧ e' = e ∧ s = .approved) ∨ (j ≠ i ∧ (vs j).hand = some (e', s)) := by
    intro j e' s hj
    rcases hand_cases hj with ⟨rfl, hw⟩ | hw
    · rw [hv] at hw; cases hw; exact .inl ⟨rfl, rfl, rfl⟩
    · exact .inr hw
  have hsame : ∀ j e' s, (update vs i v j).hand = some (e', s) → ∃ s', (vs j).hand = some (e', s') := by
    intro j e' s hj
    rcases hhand j e' s hj with ⟨rfl, rfl, -⟩ | ⟨-, hj⟩
    · exact ⟨_, hi⟩
    · exact ⟨s, hj⟩
  have hcounted : ∀ e', Counted m (update vs i v) e' → Counted m vs e' := by
    intro e' hc
    rcases hc with hl | ⟨j, s, hj, hs⟩
    · exact .inl hl
    · rcases hhand j e' s hj with ⟨rfl, rfl, -⟩ | ⟨-, hj⟩
      · exact .inr ⟨j, _, hi, .inl rfl⟩
      · exact .inr ⟨j, s, hj, hs⟩
  refine ⟨⟨h.apart.listed, h.apart.nodup, h.apart.disjoint, fun j e' s hj => ?_, fun j e' hj => ?_⟩,
    fun hf => ?_, fun hc => ?_⟩
  · obtain ⟨s', hj'⟩ := hsame j e' s hj
    obtain ⟨h1, h2, h3⟩ := h.apart.hand j e' s' hj'
    refine ⟨h1, h2, fun j' t hj'' => ?_⟩
    obtain ⟨t', ht⟩ := hsame j' e' t hj''
    exact h3 j' t' ht
  · rcases hhand j e' _ hj with ⟨-, -, hs⟩ | ⟨-, hj⟩
    · cases hs
    · exact h.apart.fresh j e' hj
  · have hC := h.counting hf
    refine ⟨hC.num, fun es hn' hes => hC.card es hn' fun e' he' => hcounted e' (hes e' he'), fun es hn' hes => ?_⟩
    have hin : ∀ e' ∈ es, Counted m vs e' := by
      intro e' he'
      rcases hes e' he' with hl | ⟨j, hj⟩
      · exact .inl hl
      · exact hcounted e' (.inr ⟨j, _, hj, .inr rfl⟩)
    -- the bound is that of the counter that the call has read
    calc es.length ≤ m.increments := hC.card es hn' hin
      _ = m.executorNum := hC.num.symm
      _ ≤ m.option.maxSize := hn
  · -- the shutdown does not look at the stages
    have hS := h.stopping hc
    refine hS.borrow hl rfl rfl rfl rfl rfl (Nat.le_refl _) hS.lent hS.snapped fun j e' hj => ?_
    obtain ⟨-, h1, h2, h3⟩ := hS.dropping j e' hj
    refine ⟨h1, h2, fun j' s hj' => ?_⟩
    obtain ⟨s', hs'⟩ := hsame j' e' s hj'
    exact h3 j' s' hs'

/-- The executor in the hands of a call goes to a borrower. -/
theorem Lending.lend (h : Lending L m vs) (hi : (vs i).hand = some (e, s)) (hcalm : L.calm → e ∉ m.copied) :
    Lending L { m with lent := update m.lent e true } vs := by
  refine ⟨⟨fun k e' hk => ?_, h.apart.nodup, h.apart.disjoint, h.apart.hand, h.apart.fresh⟩,
    fun hf => ⟨(h.counting hf).num, (h.counting hf).card, (h.counting hf).room⟩, fun hc => ?_⟩
  · have hee : e' ≠ e := by rintro rfl; exact (h.apart.hand i e' s hi).2.1 k hk
    obtain ⟨h1, h2⟩ := h.apart.listed k e' hk
    exact ⟨h1, by dsimp only; rwa [update_of_ne hee]⟩
  · have hS := h.stopping hc
    refine ⟨hS.closing, hS.copied, fun e' he' => ?_, hS.snapped, hS.shot, hS.dropping, hS.history⟩
    by_cases hee : e' = e
    · subst hee; exact hcalm hc
    · dsimp only at he'; rw [update_of_ne hee] at he'; exact hS.lent e' he'

end Borrower

/-! ## Steps of the shutdown -/

section Shutdown

variable {L : Look} {m : Core} {vs : ℕ → ShardView} {i : ℕ} {v : ShardView} {e : ExecId}

/-- A step that takes no executor into the hands and puts none into a list. -/
theorem Lending.shrink (h : Lending L m vs) (hh : v.hand = (vs i).hand) {m' : Core}
    (hs : ∀ k, (m'.shards k).Sublist (m.shards k)) (hn : m'.nextExec = m.nextExec) (hl : m'.lent = m.lent)
    (hc : ∀ e, m.connected e = false → m'.connected e = false) (hnum : m'.executorNum = m.executorNum)
    (hinc : m'.increments = m.increments) (ho : m'.option = m.option)
    (hS : L.calm → Stopping m' (update vs i v)) : Lending L m' (update vs i v) := by
  have hhand : ∀ j, (update vs i v j).hand = (vs j).hand := fun j => view_field ShardView.hand hh
  have hcounted : ∀ e, Counted m' (update vs i v) e → Counted m vs e := by
    intro e hc
    rcases hc with ⟨k, hk⟩ | ⟨j, s, hj, hs'⟩
    · exact .inl ⟨k, (hs k).subset hk⟩
    · exact .inr ⟨j, s, (hhand j).symm.trans hj, hs'⟩
  have hinside : ∀ e, Inside m' (update vs i v) e → Inside m vs e := by
    intro e hc
    rcases hc with ⟨k, hk⟩ | ⟨j, hj⟩
    · exact .inl ⟨k, (hs k).subset hk⟩
    · exact .inr ⟨j, (hhand j).symm.trans hj⟩
  refine ⟨⟨fun k e hk => ?_, fun k => (hs k).nodup (h.apart.nodup k),
    fun k k' e hk hk' => h.apart.disjoint k k' e ((hs k).subset hk) ((hs k').subset hk'), fun j e s hj => ?_,
    fun j e hj => ?_⟩, fun hf => ?_, hS⟩
  · rw [hn, hl]; exact h.apart.listed k e ((hs k).subset hk)
  · rw [hhand] at hj
    obtain ⟨h1, h2, h3⟩ := h.apart.hand j e s hj
    exact ⟨hn ▸ h1, fun k hk => h2 k ((hs k).subset hk), fun j' s' hj' => h3 j' s' ((hhand j').symm.trans hj')⟩
  · exact hc e (h.apart.fresh j e ((hhand j).symm.trans hj))
  · have hC := h.counting hf
    refine ⟨by rw [hnum, hinc]; exact hC.num, fun es hn hes => ?_, fun es hn hes => ?_⟩
    · rw [hinc]; exact hC.card es hn fun e he => hcounted e (hes e he)
    · rw [ho]; exact hC.room es hn fun e he => hinside e (hes e he)

theorem Lending.beginStop (h : Lending L m vs) (hv : v.closing = some []) (hh : v.hand = (vs i).hand)
    (hsh : v.shot = (vs i).shot) (hd : v.dropping = (vs i).dropping) (hcalm : L.calm → m.stopBegun = false) :
    Lending L { m with stopBegun := true } (update vs i v) := by
  refine h.shrink hh (fun _ => List.Sublist.refl _) rfl rfl (fun _ h => h) rfl rfl rfl fun hc => ?_
  have hS := h.stopping hc
  have hnone : ∀ j es, (vs j).closing ≠ some es := by
    intro j es hj
    have := (hS.closing j es hj).1
    rw [hcalm hc] at this; cases this
  have hclosing : ∀ j es, (update vs i v j).closing = some es → j = i ∧ es = [] := by
    intro j es hj
    by_cases hji : j = i
    · subst hji; rw [update_self, hv] at hj; cases hj; exact ⟨rfl, rfl⟩
    · rw [update_of_ne hji] at hj; exact absurd hj (hnone j es)
  refine ⟨fun j es hj => ?_, fun hb => (by cases hb), hS.lent, hS.snapped, fun j k hj => ?_, fun j e hj => ?_, hS.history⟩
  · obtain ⟨rfl, rfl⟩ := hclosing j es hj
    exact ⟨rfl, hS.copied (hcalm hc), fun j' es' hj' => (hclosing j' es' hj').1⟩
  · rw [view_field ShardView.shot hsh] at hj; exact hS.shot j k hj
  · rw [view_field ShardView.dropping hd] at hj
    obtain ⟨h0, h1, h2, h3⟩ := hS.dropping j e hj
    exact ⟨h0, h1, h2, fun j' s => by rw [view_field ShardView.hand hh]; exact h3 j' s⟩

/-- What `Stopping` says when the one shutdown changes its list. -/
theorem Stopping.closing_update (h : Stopping m vs) {es es' : List ExecId} (hi : (vs i).closing = some es)
    (hv : v.closing = some es') {j : ℕ} {fs : List ExecId} (hj : (update vs i v j).closing = some fs) :
    j = i ∧ fs = es' := by
  by_cases hji : j = i
  · subst hji; rw [update_self, hv] at hj; cases hj; exact ⟨rfl, rfl⟩
  · rw [update_of_ne hji] at hj; exact absurd ((h.closing i es hi).2.2 j fs hj) hji

theorem Lending.copyShard (h : Lending L m vs) {es : List ExecId} {k : ℕ} (hi : (vs i).closing = some es)
    (hv : v.closing = some (es ++ m.shards k)) (hh : v.hand = (vs i).hand) (hsh : v.shot = k :: (vs i).shot)
    (hd : v.dropping = (vs i).dropping) :
    Lending L { m with copied := m.copied ++ m.shards k, snapped := update m.snapped k true } (update vs i v) := by
  refine h.shrink hh (fun _ => List.Sublist.refl _) rfl rfl (fun _ h => h) rfl rfl rfl fun hc => ?_
  have hS := h.stopping hc
  obtain ⟨g1, g2, -⟩ := hS.closing i es hi
  refine ⟨fun j fs hj => ?_, fun hb => ?_, fun e he => ?_, fun k' e hk' hke he => ?_, fun j k' hj => ?_,
    fun j e hj => ?_, hS.history⟩
  · obtain ⟨rfl, rfl⟩ := hS.closing_update hi hv hj
    exact ⟨g1, by rw [g2], fun j' fs' hj' => (hS.closing_update hi hv hj').1⟩
  · rw [show m.stopBegun = false from hb] at g1; cases g1
  · rw [List.mem_append, not_or]
    refine ⟨hS.lent e he, fun hk => ?_⟩
    have := (h.apart.listed k e hk).2
    rw [show m.lent e = true from he] at this; cases this
  · rw [List.mem_append]
    by_cases hkk : k' = k
    · subst hkk; exact .inr hke
    · dsimp only at hk'
      rw [update_of_ne hkk] at hk'
      exact .inl (hS.snapped k' e hk' hke he)
  · dsimp only
    by_cases hkk : k' = k
    · subst hkk; rw [update_self]
    · rw [update_of_ne hkk]
      refine hS.shot j k' ?_
      by_cases hji : j = i
      · subst hji
        rw [update_self, hsh] at hj
        exact (List.mem_cons.1 hj).resolve_left hkk
      · rwa [update_of_ne hji] at hj
  · rw [view_field ShardView.dropping hd] at hj
    obtain ⟨h0, h1, h2, h3⟩ := hS.dropping j e hj
    exact ⟨h0, h1, h2, fun j' s => by rw [view_field ShardView.hand hh]; exact h3 j' s⟩

/-- `Stop` closes an executor that it copied; no borrower has it. -/
theorem Lending.closeCopied (h : Lending L m vs) {es : List ExecId} (hi : (vs i).closing = some (e :: es))
    (hv : v.closing = some es) (hh : v.hand = (vs i).hand) (hsh : v.shot = (vs i).shot)
    (hd : v.dropping = (vs i).dropping) :
    Lending L { m with connected := update m.connected e false, copied := m.copied.erase e,
                       cut := if m.lent e then e :: m.cut else m.cut } (update vs i v) := by
  have hfalse : ∀ e', m.connected e' = false → update m.connected e false e' = false := by
    intro e' he'
    by_cases hee : e' = e
    · subst hee; rw [update_self]
    · rwa [update_of_ne hee]
  refine h.shrink hh (fun _ => List.Sublist.refl _) rfl rfl hfalse rfl rfl rfl fun hc => ?_
  have hS := h.stopping hc
  obtain ⟨g1, g2, -⟩ := hS.closing i _ hi
  -- it was copied, so it is not lent
  have hlent : m.lent e = false := by
    by_contra hne
    exact hS.lent e (by simpa using hne) (by rw [g2]; exact List.mem_cons_self)
  refine ⟨fun j fs hj => ?_, fun hb => ?_, fun e' he' => ?_, fun k e' hk hke he' => ?_, fun j k hj => ?_,
    fun j e' hj => ?_, ?_⟩
  · obtain ⟨rfl, rfl⟩ := hS.closing_update hi hv hj
    exact ⟨g1, by dsimp only; rw [g2, List.erase_cons_head], fun j' fs' hj' => (hS.closing_update hi hv hj').1⟩
  · rw [show m.stopBegun = false from hb] at g1; cases g1
  · exact fun hmem => hS.lent e' he' (List.mem_of_mem_erase hmem)
  · -- what is connected yet was copied, and it is not `e`
    have hee : e' ≠ e := by rintro rfl; simp at he'
    dsimp only at he'
    rw [update_of_ne hee] at he'
    exact (List.mem_erase_of_ne hee).2 (hS.snapped k e' hk hke he')
  · rw [view_field ShardView.shot hsh] at hj; exact hS.shot j k hj
  · rw [view_field ShardView.dropping hd] at hj
    obtain ⟨h0, h1, h2, h3⟩ := hS.dropping j e' hj
    exact ⟨h0, hfalse e' h1, h2, fun j' s => by rw [view_field ShardView.hand hh]; exact h3 j' s⟩
  · rw [hlent]; exact hS.history

/-- `Destroy` takes the list of a shard; the executors in it are disconnected. -/
theorem Lending.swapShard (h : Lending L m vs) {k : ℕ} (hi : (vs i).closing = some []) (hk : k ∈ (vs i).shot)
    (hv : v.closing = (vs i).closing) (hh : v.hand = (vs i).hand) (hsh : v.shot = (vs i).shot)
    (hd : v.dropping = (vs i).dropping ++ m.shards k) :
    Lending L { m with shards := update m.shards k [] } (update vs i v) := by
  have hsub : ∀ k', (update m.shards k [] k').Sublist (m.shards k') := by
    intro k'
    by_cases hkk : k' = k
    · subst hkk; rw [update_self]; exact List.nil_sublist _
    · rw [update_of_ne hkk]
  refine h.shrink hh hsub rfl rfl (fun _ h => h) rfl rfl rfl fun hc => ?_
  have hS := h.stopping hc
  obtain ⟨g1, g2, -⟩ := hS.closing i _ hi
  -- they were in this list and in no other
  have hgone : ∀ e, e ∈ m.shards k → ∀ k', e ∉ update m.shards k [] k' := by
    intro e he k' hk'
    by_cases hkk : k' = k
    · subst hkk; rw [update_self] at hk'; cases hk'
    · rw [update_of_ne hkk] at hk'
      exact hkk (h.apart.disjoint k' k e hk' he)
  have hold : ∀ j e, e ∈ (vs j).dropping → e < m.nextExec ∧ m.connected e = false ∧
      (∀ k', e ∉ update m.shards k [] k') ∧ ∀ j' s, (vs j').hand ≠ some (e, s) := by
    intro j e hj
    obtain ⟨h0, h1, h2, h3⟩ := hS.dropping j e hj
    exact ⟨h0, h1, fun k' hk' => h2 k' ((hsub k').subset hk'), h3⟩
  refine ⟨fun j fs hj => ?_, hS.copied, hS.lent, fun k' e hsn hke he => hS.snapped k' e hsn ((hsub k').subset hke) he,
    fun j k' hj => ?_, fun j e hj => ?_, hS.history⟩
  · rw [view_field ShardView.closing hv] at hj
    obtain ⟨h1, h2, h3⟩ := hS.closing j fs hj
    exact ⟨h1, h2, fun j' fs' hj' => h3 j' fs' (by rwa [view_field ShardView.closing hv] at hj')⟩
  · rw [view_field ShardView.shot hsh] at hj; exact hS.shot j k' hj
  · simp only [view_field ShardView.hand hh]
    by_cases hji : j = i
    · subst hji
      rw [update_self, hd, List.mem_append] at hj
      rcases hj with hj | hj
      · exact hold j e hj
      · refine ⟨(h.apart.listed k e hj).1, ?_, hgone e hj, fun j' s hj' => (h.apart.hand j' e s hj').2.1 k hj⟩
        -- a connected one in a shot list was copied, and all that was copied is closed
        by_contra hne
        have := hS.snapped k e (hS.shot j k hk) hj (by simpa using hne)
        rw [g2] at this
        cases this
    · rw [update_of_ne hji] at hj
      exact hold j e hj

/-- `Destroy` drops an executor; it is disconnected. -/
theorem Lending.drop (h : Lending L m vs) (hd : e ∈ (vs i).dropping) :
    Lending L { m with lost := if m.connected e then e :: m.lost else m.lost } vs := by
  refine ⟨⟨h.apart.listed, h.apart.nodup, h.apart.disjoint, h.apart.hand, h.apart.fresh⟩,
    fun hf => ⟨(h.counting hf).num, (h.counting hf).card, (h.counting hf).room⟩, fun hc => ?_⟩
  have hS := h.stopping hc
  have hconn := (hS.dropping i e hd).2.1
  refine ⟨hS.closing, hS.copied, hS.lent, hS.snapped, hS.shot, hS.dropping, ?_⟩
  rw [hconn]
  exact hS.history

/-- A call that returns gives up its view. -/
theorem Lending.rest (h : Lending L m vs) : Lending L m (update vs i {}) := by
  have hhand : ∀ j e s, (update vs i ({} : ShardView) j).hand = some (e, s) → (vs j).hand = some (e, s) := by
    intro j e s hj
    rcases hand_cases hj with ⟨rfl, hw⟩ | ⟨-, hw⟩
    · cases hw
    · exact hw
  refine ⟨⟨h.apart.listed, h.apart.nodup, h.apart.disjoint, fun j e s hj => ?_,
    fun j e hj => h.apart.fresh j e (hhand j e _ hj)⟩, fun hf => ?_, fun hc => ?_⟩
  · obtain ⟨h1, h2, h3⟩ := h.apart.hand j e s (hhand j e s hj)
    exact ⟨h1, h2, fun j' s' hj' => h3 j' s' (hhand j' e s' hj')⟩
  · have hC := h.counting hf
    refine ⟨hC.num, fun es hn hes => hC.card es hn fun e he => ?_, fun es hn hes => hC.room es hn fun e he => ?_⟩
    · exact (hes e he).imp_right fun ⟨j, s, hj, hs⟩ => ⟨j, s, hhand j e s hj, hs⟩
    · exact (hes e he).imp_right fun ⟨j, hj⟩ => ⟨j, hhand j e _ hj⟩
  · have hS := h.stopping hc
    -- the view of the call is empty, the others stay
    have hother : ∀ j, j = i ∨ update vs i ({} : ShardView) j = vs j := fun j => by
      by_cases hji : j = i
      · exact .inl hji
      · exact .inr (update_of_ne hji ..)
    refine ⟨fun j es hj => ?_, hS.copied, hS.lent, hS.snapped, fun j k hj => ?_, fun j e hj => ?_, hS.history⟩
    · rcases hother j with rfl | hj'
      · rw [update_self] at hj; cases hj
      · rw [hj'] at hj
        obtain ⟨h1, h2, h3⟩ := hS.closing j es hj
        refine ⟨h1, h2, fun j₁ es₁ hj₁ => ?_⟩
        rcases hother j₁ with rfl | hj₁'
        · rw [update_self] at hj₁; cases hj₁
        · rw [hj₁'] at hj₁; exact h3 j₁ es₁ hj₁
    · rcases hother j with rfl | hj'
      · rw [update_self] at hj; cases hj
      · rw [hj'] at hj; exact hS.shot j k hj
    · rcases hother j with rfl | hj'
      · rw [update_self] at hj; cases hj
      · rw [hj'] at hj
        obtain ⟨h0, h1, h2, h3⟩ := hS.dropping j e hj
        exact ⟨h0, h1, h2, fun j' s hj' => h3 j' s (hhand j' e s hj')⟩

end Shutdown

end TrpcMysql
