import TrpcMysql.Pool.Lending

/-!
# A pool shared by borrowers and a shutdown

The runs of a pool, step by step (`Pool.Shards`), with any number of calls in progress. `idle_bounded`: the
lists of all shards together never hold more than `max_size` executors, while the counter does not wrap
around. `shutdown_clean`: `Stop` closes no executor that a borrower has, and `Destroy` drops disconnected
executors only, in the runs in which borrowers keep clear of the shards that `Stop` has copied.

Each step of a call keeps `Lending`, by the lemma about it (`shards_…`); the calls follow.
-/

namespace TrpcMysql

open Function Conc

/-- What the runs keep to: the counter does not wrap around (`few`); `Stop` is called once, no borrower gets
an executor that `Stop` copied and has not yet closed, and no connected executor comes into a shard
after `Stop` copied its list (`calm`). -/
def ShardsGuard (L : Look) : Guard ShardsSt ShardsOp ShardsAnswer ShardsCall Unit ShardsOp.Reply where
  start _ _ := True
  act _ _ m o _ :=
    match o with
    | .fetchAddExecutorNum => L.few → m.increments + 1 < 2 ^ 32
    | .lend e => L.calm → e ∉ m.copied
    | .pushBack k e => L.calm → m.snapped k = true → (m.conns e).connected = false
    | .beginStop => L.calm → m.stopBegun = false
    | _ => True

instance (L : Look) [Decidable L.few] [Decidable L.calm] (i : ℕ) (c : ShardsCall) (m : ShardsSt) :
    ∀ (o : ShardsOp) (a : ShardsAnswer), Decidable ((ShardsGuard L).act i c m o a)
  | .fetchAddExecutorNum, _ => inferInstanceAs (Decidable (L.few → m.increments + 1 < 2 ^ 32))
  | .lend e, _ => inferInstanceAs (Decidable (L.calm → e ∉ m.copied))
  | .pushBack k e, _ => inferInstanceAs (Decidable (L.calm → m.snapped k = true → (m.conns e).connected = false))
  | .beginStop, _ => inferInstanceAs (Decidable (L.calm → m.stopBegun = false))
  | .getOption, _ | .fetchAddShardId, _ | .lock _, _ | .unlock _, _ | .popBack _, _ | .checkAlive _, _
  | .getAliveTime _, _ | .close _, _ | .fetchAddExecutorId, _ | .newExecutor _, _ | .connect _, _
  | .isConnected _, _ | .use _, _ | .getExecutorId _, _ | .listSize _, _ | .getMaxNumPerShard, _
  | .loadExecutorNum, _ | .refreshAliveTime _, _ | .copyShard _, _ | .closeCopied _, _ | .swapShard _, _
  | .drop _, _ | .crash, _ => isTrue trivial

@[reducible] def shardsOutline (opt : MysqlExecutorPoolOption) (L : Look) :
    Outline ShardsSt ShardsOp ShardsAnswer ShardsCall Unit ShardsOp.Reply where
  V := ShardView
  rest := {}
  begin _ _ _ := {}
  next _ v o r m := v.next o r m
  Inv m vs := m.option = opt ∧ Lending L m.core vs
  Fits _ _ := True
  Holds _ _ := True
  Step _ _ _ _ := True
  Unborn _ _ := True
  Post _ _ _ _ := True
  Done _ _ _ _ := True

section Ops

variable {opt : MysqlExecutorPoolOption} {L : Look} {i : ℕ} {c : ShardsCall} {v : ShardView} {e : ExecId} {k : ℕ}

/-- The calls of a pool, from the view `v`. -/
abbrev Safely {α : Type} (opt : MysqlExecutorPoolOption) (L : Look) (i : ℕ) (c : ShardsCall) (v : ShardView)
    (p : SProg α) (Q : ShardView → α → Prop) : Prop := (shardsOutline opt L).Safe shardsSystem (ShardsGuard L) i c v p Q

/-- A step that changes nothing that the invariant is about. -/
theorem shards_still {o : ShardsOp} {Q : o.Reply → Prop} (hn : ∀ v r m, ShardView.next v o r m = v)
    (he : ∀ a m r m', shardsExec i o a m = some (r, m') → m'.core = m.core ∧ (m.option = opt → Q r)) :
    Safely opt L i c v (sop o) fun v' r => v' = v ∧ Q r := by
  refine Outline.safe_next fun m vs a r m' hI hv _ hex => ?_
  obtain ⟨hcore, hQ⟩ := he a m r m' hex
  have ho : m'.option = m.option := congrArg Core.option hcore
  refine ⟨v, hn v r m', ⟨ho.trans hI.1, ?_⟩, trivial, rfl, hQ hI.1⟩
  rw [← hv, update_eq_self, hcore]
  exact hI.2

theorem shards_getOption : Safely opt L i c v (sop .getOption) fun v' r => v' = v ∧ r = opt :=
  shards_still (fun _ _ _ => rfl) fun _ _ _ _ h => by cases h; exact ⟨rfl, id⟩

theorem shards_fetchAddShardId : Safely opt L i c v (sop .fetchAddShardId) fun v' _ => v' = v ∧ True :=
  shards_still (fun _ _ _ => rfl) fun _ _ _ _ h => by cases h; exact ⟨rfl, fun _ => trivial⟩

theorem shards_lock : Safely opt L i c v (sop (.lock k)) fun v' _ => v' = v ∧ True := by
  refine shards_still (fun _ _ _ => rfl) fun a m r m' h => ?_
  simp only [shardsExec] at h
  split at h
  · cases h
  · cases h; exact ⟨rfl, fun _ => trivial⟩

theorem shards_unlock : Safely opt L i c v (sop (.unlock k)) fun v' _ => v' = v ∧ True :=
  shards_still (fun _ _ _ => rfl) fun _ _ _ _ h => by cases h; exact ⟨rfl, fun _ => trivial⟩

theorem shards_getAliveTime : Safely opt L i c v (sop (.getAliveTime e)) fun v' _ => v' = v ∧ True :=
  shards_still (fun _ _ _ => rfl) fun _ _ _ _ h => by cases h; exact ⟨rfl, fun _ => trivial⟩

theorem shards_fetchAddExecutorId : Safely opt L i c v (sop .fetchAddExecutorId) fun v' _ => v' = v ∧ True :=
  shards_still (fun _ _ _ => rfl) fun _ _ _ _ h => by cases h; exact ⟨rfl, fun _ => trivial⟩

theorem shards_getExecutorId : Safely opt L i c v (sop (.getExecutorId e)) fun v' _ => v' = v ∧ True :=
  shards_still (fun _ _ _ => rfl) fun _ _ _ _ h => by cases h; exact ⟨rfl, fun _ => trivial⟩

theorem shards_listSize : Safely opt L i c v (sop (.listSize k)) fun v' _ => v' = v ∧ True :=
  shards_still (fun _ _ _ => rfl) fun _ _ _ _ h => by cases h; exact ⟨rfl, fun _ => trivial⟩

theorem shards_getMaxNumPerShard : Safely opt L i c v (sop .getMaxNumPerShard) fun v' _ => v' = v ∧ True :=
  shards_still (fun _ _ _ => rfl) fun _ _ _ _ h => by cases h; exact ⟨rfl, fun _ => trivial⟩

theorem shards_refreshAliveTime : Safely opt L i c v (sop (.refreshAliveTime e)) fun v' _ => v' = v ∧ True := by
  refine shards_still (fun _ _ _ => rfl) fun a m r m' h => ?_
  cases h
  refine ⟨?_, fun _ => trivial⟩
  simp only [ShardsSt.core, ShardsSt.setConn, Core.mk.injEq, true_and, and_true]
  funext e'
  by_cases hee : e' = e
  · subst hee; rw [update_self]
  · rw [update_of_ne hee]

theorem ShardView.Like.refl : v.Like v := ⟨rfl, rfl, rfl⟩

theorem Less.refl (vs : ℕ → ShardView) (i : ℕ) : Less vs i (vs i) := ⟨fun _ s h => ⟨s, h, .inl rfl⟩, .refl⟩

/-- The state after a change of a connection, as the invariant sees it. -/
theorem core_setConnected (m : ShardsSt) (e : ExecId) (b : Bool) :
    (m.setConnected e b).core = { m.core with connected := update m.core.connected e b } := by
  simp only [ShardsSt.core, ShardsSt.setConnected, ShardsSt.setConn, Core.mk.injEq, true_and, and_true]
  funext e'
  by_cases hee : e' = e
  · subst hee; rw [update_self, update_self]
  · rw [update_of_ne hee, update_of_ne hee]

/-- A function of the executor in the hands of the call. -/
theorem Lending.setConnected {m : ShardsSt} {vs : ℕ → ShardView} {s : Stage} (h : Lending L m.core vs)
    (hi : (vs i).hand = some (e, s)) {w : ShardView} (hw : Less vs i w) {b : Bool}
    (hb : ∀ s', w.hand = some (e, s') → s' = .fresh → b = false) :
    Lending L (m.setConnected e b).core (update vs i w) := by
  rw [core_setConnected]
  exact h.touch hi hw hb fun _ h => h

theorem shards_popBack : Safely opt L i c v (sop (.popBack k)) fun v' r =>
    match r with
    | none => v' = v
    | some e => v'.hand = some (e, .counted) := by
  refine Outline.safe_next fun m vs a r m' hI hv _ he => ?_
  subst hv
  simp only [shardsSystem, shardsExec] at he
  split at he
  · cases he
    exact ⟨vs i, rfl, ⟨hI.1, by rw [update_eq_self]; exact hI.2⟩, trivial, rfl⟩
  · rename_i e hlast
    cases he
    exact ⟨{ vs i with hand := some (e, .counted) }, rfl, ⟨hI.1, hI.2.pop hlast rfl ⟨rfl, rfl, rfl⟩⟩, trivial, rfl⟩

theorem shards_checkAlive (hv : v.hand = some (e, .counted)) :
    Safely opt L i c v (sop (.checkAlive e)) fun v' _ => v' = v := by
  refine Outline.safe_next fun m vs a r m' hI hvi _ he => ?_
  subst hvi
  cases he
  refine ⟨vs i, rfl, ⟨hI.1, hI.2.setConnected hv (.refl vs i) fun s' hs' hf => ?_⟩, trivial, rfl⟩
  rw [hv] at hs'; cases hs'; cases hf

theorem shards_use (hv : v.hand = some (e, .counted)) : Safely opt L i c v (sop (.use e)) fun v' _ => v' = v := by
  refine Outline.safe_next fun m vs a r m' hI hvi _ he => ?_
  subst hvi
  cases he
  refine ⟨vs i, rfl, ⟨hI.1, hI.2.setConnected hv (.refl vs i) fun s' hs' hf => ?_⟩, trivial, rfl⟩
  rw [hv] at hs'; cases hs'; cases hf

theorem shards_close {s : Stage} (hv : v.hand = some (e, s)) :
    Safely opt L i c v (sop (.close e)) fun v' _ => v' = v := by
  refine Outline.safe_next fun m vs a r m' hI hvi _ he => ?_
  subst hvi
  cases he
  refine ⟨vs i, rfl, ⟨hI.1, ?_⟩, trivial, rfl⟩
  have hcore : ({ m.setConnected e false with lent := update m.lent e false } : ShardsSt).core =
      { m.core with connected := update m.core.connected e false, lent := update m.core.lent e false } := by
    have := core_setConnected m e false
    simp only [ShardsSt.core, ShardsSt.setConnected, ShardsSt.setConn, Core.mk.injEq, true_and, and_true] at this ⊢
    exact this
  rw [hcore]
  refine hI.2.touch hv (.refl vs i) (fun _ _ _ => rfl) fun e' he' => ?_
  by_cases hee : e' = e
  · subst hee; rw [update_self] at he'; cases he'
  · rwa [update_of_ne hee] at he'

theorem shards_connect (hv : v.hand = some (e, .fresh)) : Safely opt L i c v (sop (.connect e)) fun v' r =>
    v'.hand = some (e, if r then .joined else .fresh) := by
  refine Outline.safe_next fun m vs a r m' hI hvi _ he => ?_
  subst hvi
  cases he
  cases ha : a.alive with
  | true =>
    refine ⟨{ vs i with hand := some (e, .joined) }, rfl, ⟨hI.1, ?_⟩, trivial, rfl⟩
    have hless : Less vs i { vs i with hand := some (e, .joined) } := by
      refine ⟨fun e' s' hs' => ?_, rfl, rfl, rfl⟩
      cases hs'
      exact ⟨.fresh, hv, .inr rfl⟩
    refine hI.2.setConnected hv hless fun s' hs' hf => ?_
    cases hs'
    cases hf
  | false => exact ⟨vs i, rfl, ⟨hI.1, hI.2.setConnected hv (.refl vs i) fun _ _ _ => rfl⟩, trivial, hv⟩

theorem shards_isConnected {s : Stage} (hv : v.hand = some (e, s)) :
    Safely opt L i c v (sop (.isConnected e)) fun v' r => v' = v ∧ (r = true → s ≠ .fresh) := by
  refine Outline.safe_next fun m vs a r m' hI hvi _ he => ?_
  subst hvi
  cases he
  refine ⟨vs i, rfl, ⟨hI.1, by rw [update_eq_self]; exact hI.2⟩, trivial, rfl, fun hr hs => ?_⟩
  subst hs
  have := hI.2.apart.fresh i e hv
  rw [show m.core.connected e = true from hr] at this; cases this

theorem shards_newExecutor (n : ℕ) : Safely opt L i c v (sop (.newExecutor n)) fun v' e =>
    v'.hand = some (e, .fresh) := by
  refine Outline.safe_next fun m vs a r m' hI hvi _ he => ?_
  subst hvi
  cases he
  refine ⟨{ vs i with hand := some (m.nextExec, .fresh) }, rfl, ⟨hI.1, ?_⟩, trivial, rfl⟩
  have hcore : ({ m.setConn m.nextExec { executorId := n } with nextExec := m.nextExec + 1 } : ShardsSt).core =
      { m.core with connected := update m.core.connected m.core.nextExec false
                    nextExec := m.core.nextExec + 1 } := by
    simp only [ShardsSt.core, ShardsSt.setConn, Core.mk.injEq, true_and, and_true]
    funext e'
    by_cases hee : e' = m.nextExec
    · subst hee; rw [update_self, update_self]
    · rw [update_of_ne hee, update_of_ne hee]
  rw [hcore]
  exact hI.2.made rfl ⟨rfl, rfl, rfl⟩

theorem shards_fetchAddExecutorNum : Safely opt L i c v (sop .fetchAddExecutorNum) fun v' _ =>
    v'.hand = v.hand.map fun h => (h.1, h.2.count) := by
  refine Outline.safe_next fun m vs a r m' hI hvi hg he => ?_
  subst hvi
  cases he
  exact ⟨{ vs i with hand := (vs i).hand.map fun h => (h.1, h.2.count) }, rfl,
    ⟨hI.1, hI.2.count rfl ⟨rfl, rfl, rfl⟩ hg⟩, trivial, rfl⟩

theorem shards_loadExecutorNum (hv : v.hand = some (e, .counted)) :
    Safely opt L i c v (sop .loadExecutorNum) fun v' n =>
      v'.hand = some (e, if n ≤ opt.maxSize then .approved else .counted) := by
  refine Outline.safe_next fun m vs a r m' hI hvi _ he => ?_
  subst hvi
  cases he
  by_cases hn : m.executorNum ≤ opt.maxSize
  · refine ⟨{ vs i with hand := some (e, .approved) }, ?_, ⟨hI.1, ?_⟩, trivial, by rw [if_pos hn]⟩
    · simp only [ShardView.next, hI.1, if_pos hn, hv, Option.map_some]
    · exact hI.2.approve hv rfl ⟨rfl, rfl, rfl⟩ (by rw [show m.core.option = opt from hI.1]; exact hn)
  · refine ⟨vs i, ?_, ⟨hI.1, by rw [update_eq_self]; exact hI.2⟩, trivial, by rw [if_neg hn]; exact hv⟩
    simp only [ShardView.next, hI.1, if_neg hn]

theorem shards_pushBack (hv : v.hand = some (e, .approved)) :
    Safely opt L i c v (sop (.pushBack k e)) fun v' _ => v'.hand = none := by
  refine Outline.safe_next fun m vs a r m' hI hvi hg he => ?_
  subst hvi
  cases he
  exact ⟨{ vs i with hand := none }, rfl, ⟨hI.1, hI.2.push hv rfl ⟨rfl, rfl, rfl⟩ hg⟩, trivial, rfl⟩

theorem shards_lend {s : Stage} (hv : v.hand = some (e, s)) :
    Safely opt L i c v (sop (.lend e)) fun v' _ => v' = v := by
  refine Outline.safe_next fun m vs a r m' hI hvi hg he => ?_
  subst hvi
  cases he
  exact ⟨vs i, rfl, ⟨hI.1, by rw [update_eq_self]; exact hI.2.lend hv hg⟩, trivial, rfl⟩

theorem shards_beginStop : Safely opt L i c v (sop .beginStop) fun v' _ => v'.closing = some [] := by
  refine Outline.safe_next fun m vs a r m' hI hvi hg he => ?_
  subst hvi
  cases he
  exact ⟨{ vs i with closing := some [] }, rfl, ⟨hI.1, hI.2.beginStop rfl rfl rfl rfl hg⟩, trivial, rfl⟩

theorem shards_copyShard {es : List ExecId} (hv : v.closing = some es) :
    Safely opt L i c v (sop (.copyShard k)) fun v' fs =>
      v'.closing = some (es ++ fs) ∧ v'.shot = k :: v.shot := by
  refine Outline.safe_next fun m vs a r m' hI hvi hg he => ?_
  subst hvi
  cases he
  refine ⟨{ vs i with closing := some (es ++ m.shards k), shot := k :: (vs i).shot }, ?_,
    ⟨hI.1, hI.2.copyShard hv rfl rfl rfl rfl⟩, trivial, rfl, rfl⟩
  simp only [ShardView.next, hv, Option.map_some]

theorem shards_closeCopied {es : List ExecId} (hv : v.closing = some (e :: es)) :
    Safely opt L i c v (sop (.closeCopied e)) fun v' _ => v'.closing = some es ∧ v'.shot = v.shot := by
  refine Outline.safe_next fun m vs a r m' hI hvi hg he => ?_
  subst hvi
  cases he
  refine ⟨{ vs i with closing := some es }, ?_, ⟨hI.1, ?_⟩, trivial, rfl, rfl⟩
  · simp only [ShardView.next, hv, Option.map_some, List.erase_cons_head]
  · have hcore : ({ m.setConnected e false with
          copied := m.copied.erase e, cut := if m.lent e then e :: m.cut else m.cut } : ShardsSt).core =
        { m.core with connected := update m.core.connected e false, copied := m.core.copied.erase e,
                      cut := if m.core.lent e then e :: m.core.cut else m.core.cut } := by
      have := core_setConnected m e false
      simp only [ShardsSt.core, ShardsSt.setConnected, ShardsSt.setConn, Core.mk.injEq, true_and, and_true] at this ⊢
      exact ⟨this, rfl⟩
    rw [hcore]
    exact hI.2.closeCopied hv rfl rfl rfl rfl

theorem shards_swapShard (hv : v.closing = some []) (hk : k ∈ v.shot) :
    Safely opt L i c v (sop (.swapShard k)) fun v' es =>
      v'.closing = some [] ∧ v'.shot = v.shot ∧ ∀ e ∈ es, e ∈ v'.dropping := by
  refine Outline.safe_next fun m vs a r m' hI hvi hg he => ?_
  subst hvi
  cases he
  exact ⟨{ vs i with dropping := (vs i).dropping ++ m.shards k }, rfl,
    ⟨hI.1, hI.2.swapShard hv hk rfl rfl rfl rfl⟩, trivial, hv, rfl, fun e he => List.mem_append_right _ he⟩

theorem shards_drop (hv : e ∈ v.dropping) : Safely opt L i c v (sop (.drop e)) fun v' _ => v' = v := by
  refine Outline.safe_next fun m vs a r m' hI hvi hg he => ?_
  subst hvi
  cases he
  exact ⟨vs i, rfl, ⟨hI.1, by rw [update_eq_self]; exact hI.2.drop hv⟩, trivial, rfl⟩

theorem shards_crashed {α : Type} {Q : ShardView → α → Prop} : Safely opt L i c v (Shards.crashed) Q := by
  intro m vs a r m' _ _ _ he
  cases he

end Ops

/-! ## The calls -/

section Calls

variable {opt : MysqlExecutorPoolOption} {L : Look} {i : ℕ} {c : ShardsCall} {v : ShardView} {e : ExecId} {k : ℕ}

theorem isIdleTimeout_shards : Safely opt L i c v (Shards.isIdleTimeout e) fun v' _ => v' = v := by
  unfold Shards.isIdleTimeout
  refine Outline.safe_bind.2 (Outline.safe_mono (fun v₁ option h₁ => ?_) shards_getOption)
  obtain ⟨rfl, rfl⟩ := h₁
  split
  · exact rfl
  · refine Outline.safe_bind.2 (Outline.safe_mono (fun v₂ t h₂ => ?_) shards_getAliveTime)
    exact h₂.1

/-- The loop of `GetOrCreate` returns an executor that was counted. -/
theorem popAlive_shards : ∀ (n : ℕ) {v : ShardView}, Safely opt L i c v (Shards.popAlive k n) fun v' r =>
    ∀ e, r = some e → v'.hand = some (e, .counted) := by
  intro n
  induction n with
  | zero => intro v e he; cases he
  | succ n ih =>
    intro v
    unfold Shards.popAlive
    refine Outline.safe_bind.2 (Outline.safe_mono (fun v₁ _ h₁ => ?_) shards_lock)
    refine Outline.safe_bind.2 (Outline.safe_mono (fun v₂ r h₂ => ?_) shards_popBack)
    cases r with
    | none =>
      refine Outline.safe_bind.2 (Outline.safe_mono (fun v₃ _ _ => ?_) shards_unlock)
      intro e he; cases he
    | some e =>
      -- the executor is dead or idle for too long: the next round
      have hnext : ∀ {w : ShardView}, w.hand = some (e, .counted) →
          Safely opt L i c w (do sop (.unlock k); sop (.close e); Shards.popAlive k n) fun v' r =>
            ∀ e, r = some e → v'.hand = some (e, .counted) := by
        intro w hw
        refine Outline.safe_bind.2 (Outline.safe_mono (fun v₃ _ h₃ => ?_) shards_unlock)
        refine Outline.safe_bind.2 (Outline.safe_mono (fun v₄ _ _ => ih) (shards_close (s := .counted) ?_))
        rw [h₃.1]; exact hw
      refine Outline.safe_bind.2 (Outline.safe_mono (fun v₃ alive h₃ => ?_) (shards_checkAlive h₂))
      subst h₃
      cases alive with
      | false => exact hnext h₂
      | true =>
        refine Outline.safe_bind.2 (Outline.safe_mono (fun v₄ idle h₄ => ?_) isIdleTimeout_shards)
        subst h₄
        cases idle with
        | true => exact hnext h₂
        | false =>
          refine Outline.safe_bind.2 (Outline.safe_mono (fun v₅ _ h₅ => ?_) (shards_lend h₂))
          subst h₅
          refine Outline.safe_bind.2 (Outline.safe_mono (fun v₆ _ h₆ => ?_) shards_unlock)
          obtain ⟨rfl, -⟩ := h₆
          intro e' he'
          cases he'
          exact h₂

theorem createExecutor_shards (shardId : ℕ) : Safely opt L i c v (Shards.createExecutor shardId) fun v' e =>
    v'.hand = some (e, .fresh) := by
  unfold Shards.createExecutor
  exact Outline.safe_bind.2 (Outline.safe_mono (fun v₁ n _ => shards_newExecutor _) shards_fetchAddExecutorId)

/-- An executor that `GetExecutor` returns was counted, if it is connected. -/
def Handed (v : ShardView) (e : ExecId) : Prop := ∃ s, v.hand = some (e, s) ∧ (s = .counted ∨ s = .fresh)

theorem connectNew_shards (shardId : ℕ) : Safely opt L i c v (Shards.connectNew shardId) Handed := by
  unfold Shards.connectNew
  refine Outline.safe_bind.2 (Outline.safe_mono (fun v₁ e h₁ => ?_) (createExecutor_shards shardId))
  refine Outline.safe_bind.2 (Outline.safe_mono (fun v₂ connected h₂ => ?_) (shards_connect h₁))
  cases connected with
  | false => exact ⟨.fresh, h₂, .inr rfl⟩
  | true =>
    refine Outline.safe_bind.2 (Outline.safe_mono (fun v₃ _ h₃ => ?_) shards_fetchAddExecutorNum)
    rw [h₂] at h₃
    refine Outline.safe_bind.2 (Outline.safe_mono (fun v₄ _ h₄ => ?_) (shards_lend h₃))
    subst h₄
    exact ⟨.counted, h₃, .inl rfl⟩

theorem getExecutor_shards : Safely opt L i c v Shards.getExecutor Handed := by
  unfold Shards.getExecutor
  refine Outline.safe_bind.2 (Outline.safe_mono (fun v₁ shardId _ => ?_) shards_fetchAddShardId)
  refine Outline.safe_bind.2 (Outline.safe_mono (fun v₂ option _ => ?_) shards_getOption)
  split
  · exact shards_crashed
  · refine Outline.safe_bind.2 (Outline.safe_mono (fun v₃ r h₃ => ?_) (popAlive_shards 3))
    cases r with
    | none => exact connectNew_shards shardId
    | some e => exact ⟨.counted, h₃ e rfl, .inl rfl⟩

theorem uses_shards : ∀ (n : ℕ) {v : ShardView}, v.hand = some (e, .counted) →
    Safely opt L i c v (Shards.uses e n) fun v' _ => v'.hand = some (e, .counted) := by
  intro n
  induction n with
  | zero => intro v hv; exact hv
  | succ n ih =>
    intro v hv
    refine Outline.safe_bind.2 (Outline.safe_mono (fun v₁ _ h₁ => ?_) (shards_use hv))
    subst h₁
    exact ih hv

theorem refuse_shards (hv : v.hand = some (e, .counted)) :
    Safely opt L i c v (Shards.refuse e) fun _ _ => True := by
  unfold Shards.refuse
  refine Outline.safe_bind.2 (Outline.safe_mono (fun v₁ _ h₁ => ?_) shards_fetchAddExecutorNum)
  rw [hv] at h₁
  exact Outline.safe_mono (fun _ _ _ => trivial) (shards_close h₁)

/-- Only an executor that was counted is given back. -/
theorem reclaim_shards (ret : ℤ) (hv : v.hand = some (e, .counted)) :
    Safely opt L i c v (Shards.reclaim ret e) fun _ _ => True := by
  unfold Shards.reclaim
  by_cases hret : ret = 0
  swap
  · rw [if_neg hret]; exact refuse_shards hv
  rw [if_pos hret]
  refine Outline.safe_bind.2 (Outline.safe_mono (fun v₁ id h₁ => ?_) shards_getExecutorId)
  obtain ⟨rfl, -⟩ := h₁
  refine Outline.safe_bind.2 (Outline.safe_mono (fun v₂ option h₂ => ?_) shards_getOption)
  obtain ⟨rfl, rfl⟩ := h₂
  split
  · exact shards_crashed
  refine Outline.safe_bind.2 (Outline.safe_mono (fun v₃ _ h₃ => ?_) shards_lock)
  obtain ⟨rfl, -⟩ := h₃
  refine Outline.safe_bind.2 (Outline.safe_mono (fun v₄ size h₄ => ?_) shards_listSize)
  obtain ⟨rfl, -⟩ := h₄
  refine Outline.safe_bind.2 (Outline.safe_mono (fun v₅ max h₅ => ?_) shards_getMaxNumPerShard)
  obtain ⟨rfl, -⟩ := h₅
  have hno : ∀ {w : ShardView}, w.hand = some (e, .counted) →
      Safely option L i c w (do sop (.unlock (id / 2 ^ 32 % 2 ^ 32 % option.numShardGroup)); Shards.refuse e)
        fun _ _ => True := by
    intro w hw
    refine Outline.safe_bind.2 (Outline.safe_mono (fun v₆ _ h₆ => ?_) shards_unlock)
    obtain ⟨rfl, -⟩ := h₆
    exact refuse_shards hw
  split
  · refine Outline.safe_bind.2 (Outline.safe_mono (fun v₆ num h₆ => ?_) (shards_loadExecutorNum hv))
    split
    · rename_i hnum
      rw [if_pos hnum] at h₆
      refine Outline.safe_bind.2 (Outline.safe_mono (fun v₇ _ h₇ => ?_) shards_refreshAliveTime)
      obtain ⟨rfl, -⟩ := h₇
      refine Outline.safe_bind.2 (Outline.safe_mono (fun v₈ _ _ => ?_) (shards_pushBack h₆))
      exact Outline.safe_mono (fun _ _ _ => trivial) shards_unlock
    · rename_i hnum
      rw [if_neg hnum] at h₆
      exact hno h₆
  · exact hno hv

theorem closeAll_shards : ∀ (es : List ExecId) {v : ShardView}, v.closing = some es →
    Safely opt L i c v (Shards.closeAll es) fun v' _ => v'.closing = some [] ∧ v'.shot = v.shot := by
  intro es
  induction es with
  | nil => intro v hv; exact ⟨hv, rfl⟩
  | cons e es ih =>
    intro v hv
    refine Outline.safe_bind.2 (Outline.safe_mono (fun v₁ _ h₁ => ?_) (shards_closeCopied hv))
    refine Outline.safe_mono (fun v₂ _ h₂ => ⟨h₂.1, h₂.2.trans h₁.2⟩) (ih h₁.1)

theorem stopShards_shards : ∀ (ks : List ℕ) {v : ShardView}, v.closing = some [] →
    Safely opt L i c v (Shards.stopShards ks) fun v' _ =>
      v'.closing = some [] ∧ (∀ k ∈ v.shot, k ∈ v'.shot) ∧ ∀ k ∈ ks, k ∈ v'.shot := by
  intro ks
  induction ks with
  | nil => intro v hv; exact ⟨hv, fun _ h => h, fun _ h => absurd h List.not_mem_nil⟩
  | cons k ks ih =>
    intro v hv
    refine Outline.safe_bind.2 (Outline.safe_mono (fun v₁ _ h₁ => ?_) shards_lock)
    obtain ⟨rfl, -⟩ := h₁
    refine Outline.safe_bind.2 (Outline.safe_mono (fun v₂ es h₂ => ?_) (shards_copyShard hv))
    refine Outline.safe_bind.2 (Outline.safe_mono (fun v₃ _ h₃ => ?_) shards_unlock)
    obtain ⟨rfl, -⟩ := h₃
    refine Outline.safe_bind.2 (Outline.safe_mono (fun v₄ _ h₄ => ?_) (closeAll_shards es h₂.1))
    refine Outline.safe_mono (fun v₅ _ h₅ => ⟨h₅.1, fun k' hk' => ?_, fun k' hk' => ?_⟩) (ih h₄.1)
    · exact h₅.2.1 k' (by rw [h₄.2, h₂.2]; exact List.mem_cons_of_mem _ hk')
    · rcases List.mem_cons.1 hk' with rfl | hk'
      · exact h₅.2.1 k' (by rw [h₄.2, h₂.2]; exact List.mem_cons_self)
      · exact h₅.2.2 k' hk'

theorem dropAll_shards : ∀ (es : List ExecId) {v : ShardView}, (∀ e ∈ es, e ∈ v.dropping) →
    Safely opt L i c v (Shards.dropAll es) fun v' _ => v' = v := by
  intro es
  induction es with
  | nil => intro v _; exact rfl
  | cons e es ih =>
    intro v hv
    refine Outline.safe_bind.2 (Outline.safe_mono (fun v₁ _ h₁ => ?_) (shards_drop (hv e List.mem_cons_self)))
    subst h₁
    exact ih fun e' he' => hv e' (List.mem_cons_of_mem _ he')

theorem destroyShards_shards : ∀ (ks : List ℕ) {v : ShardView}, v.closing = some [] → (∀ k ∈ ks, k ∈ v.shot) →
    Safely opt L i c v (Shards.destroyShards ks) fun _ _ => True := by
  intro ks
  induction ks with
  | nil => intro v _ _; trivial
  | cons k ks ih =>
    intro v hv hks
    refine Outline.safe_bind.2 (Outline.safe_mono (fun v₁ _ h₁ => ?_) shards_lock)
    obtain ⟨rfl, -⟩ := h₁
    refine Outline.safe_bind.2 (Outline.safe_mono (fun v₂ es h₂ => ?_) (shards_swapShard hv (hks k List.mem_cons_self)))
    refine Outline.safe_bind.2 (Outline.safe_mono (fun v₃ _ h₃ => ?_) shards_unlock)
    obtain ⟨rfl, -⟩ := h₃
    refine Outline.safe_bind.2 (Outline.safe_mono (fun v₄ _ h₄ => ?_) (dropAll_shards es h₂.2.2))
    subst h₄
    exact ih h₂.1 fun k' hk' => by rw [h₂.2.1]; exact hks k' (List.mem_cons_of_mem _ hk')

/-- `Stop`, then `Destroy`. -/
theorem shutdown_shards : Safely opt L i c v ShardsCall.shutdown.prog fun _ _ => True := by
  simp only [ShardsCall.prog, Shards.stop, Shards.destroy, bind_assoc, Outline.safe_bind]
  refine Outline.safe_mono (fun v₁ _ h₁ => ?_) shards_beginStop
  refine Outline.safe_mono (fun v₂ option h₂ => ?_) shards_getOption
  obtain ⟨rfl, rfl⟩ := h₂
  refine Outline.safe_mono (fun v₃ _ h₃ => ?_) (stopShards_shards _ h₁)
  refine Outline.safe_mono (fun v₄ option' h₄ => ?_) shards_getOption
  obtain ⟨rfl, rfl⟩ := h₄
  exact destroyShards_shards _ h₃.1 h₃.2.2

theorem borrow_shards (n : ℕ) (ret : Option ℤ) : Safely opt L i c v (ShardsCall.borrow n ret).prog fun _ _ => True := by
  unfold ShardsCall.prog
  refine Outline.safe_bind.2 (Outline.safe_mono (fun v₁ e h₁ => ?_) getExecutor_shards)
  obtain ⟨s, hs, hcs⟩ := h₁
  refine Outline.safe_bind.2 (Outline.safe_mono (fun v₂ connected h₂ => ?_) (shards_isConnected hs))
  obtain ⟨rfl, hconn⟩ := h₂
  cases connected with
  | false => trivial
  | true =>
    have hs' : s = .counted := hcs.resolve_right (hconn rfl)
    subst hs'
    refine Outline.safe_bind.2 (Outline.safe_mono (fun v₃ _ h₃ => ?_) (uses_shards n hs))
    cases ret with
    | some ret => exact reclaim_shards ret h₃
    | none => exact Outline.safe_mono (fun _ _ _ => trivial) (shards_close h₃)

end Calls

/-- The invariant holds of a new pool. -/
theorem Lending.new (opt : MysqlExecutorPoolOption) (L : Look) :
    Lending L (ShardsSt.new opt).core fun _ => ({} : ShardView) := by
  refine ⟨⟨fun _ _ h => (nomatch h), fun _ => List.nodup_nil, fun _ _ _ h => (nomatch h), fun _ _ _ h => (nomatch h),
    fun _ _ h => (nomatch h)⟩, fun _ => ⟨rfl, fun es _ hes => ?_, fun es _ hes => ?_⟩, fun _ => ?_⟩
  · cases es with
    | nil => exact Nat.le_refl _
    | cons e es => rcases hes e List.mem_cons_self with ⟨_, h⟩ | ⟨_, _, h, _⟩ <;> cases h
  · cases es with
    | nil => exact Nat.zero_le _
    | cons e es => rcases hes e List.mem_cons_self with ⟨_, h⟩ | ⟨_, h⟩ <;> cases h
  · exact ⟨fun _ _ h => (nomatch h), fun _ => rfl, fun _ h => (nomatch h), fun _ _ h => (nomatch h),
      fun _ _ h => (nomatch h), fun _ _ h => (nomatch h), rfl, rfl⟩

/-- **The executors are where the invariant says, whatever the order of the steps.** -/
theorem shardsOutline_sound (opt : MysqlExecutorPoolOption) (L : Look) :
    (shardsOutline opt L).Sound shardsSystem (ShardsGuard L) (ShardsSt.new opt) where
  init := ⟨rfl, .new opt L⟩
  unborn _ := trivial
  unborn_step _ _ _ := trivial
  start := by
    intro cf vs c hI _ hv _ _
    have hbegin : update vs cf.frames.length ({} : ShardView) = vs := update_eq_iff.2 ⟨hv.symm, fun _ _ => rfl⟩
    refine ⟨by rw [hbegin]; exact hI, ?_⟩
    cases c with
    | borrow n ret => exact borrow_shards n ret
    | shutdown => exact shutdown_shards
  fits _ _ _ := trivial
  fits_next _ _ _ _ _ _ _ := trivial
  holds _ := trivial
  holds_next _ _ _ _ _ _ _ := trivial
  finish := fun hI _ => ⟨⟨hI.1, hI.2.rest⟩, trivial⟩
  stable _ _ _ _ := trivial

/-! ## What is idle -/

/-- The executors in all lists. -/
def ShardsSt.idle (m : ShardsSt) : List ExecId := (List.range m.option.numShardGroup).flatMap m.shards

theorem Apart.idle_nodup {m : ShardsSt} {vs : ℕ → ShardView} (h : Apart m.core vs) : m.idle.Nodup := by
  refine List.nodup_flatMap.2 ⟨fun k _ => h.nodup k, ?_⟩
  refine List.nodup_range.imp fun {k k'} hne e hk hk' => ?_
  exact hne (h.disjoint k k' e hk hk')

/-- The runs in which fewer than `2 ^ 32` increments happen. -/
@[reducible] def Look.counter : Look := ⟨True, False⟩

/-- **The lists of a pool together hold no more than `max_size` executors.** -/
theorem idle_bounded (opt : MysqlExecutorPoolOption) {cf : ShardsConfig}
    (hr : shardsSystem.Reach (ShardsGuard .counter) (ShardsSt.new opt) cf) :
    cf.world.idle.length ≤ opt.maxSize := by
  obtain ⟨vs, hI, -⟩ := (shardsOutline_sound opt .counter).reach hr
  obtain ⟨ho, hL⟩ := hI
  have hroom := (hL.counting trivial).room cf.world.idle hL.apart.idle_nodup fun e he => by
    obtain ⟨k, -, hk⟩ := List.mem_flatMap.1 he
    exact .inl ⟨k, hk⟩
  rwa [show cf.world.core.option = opt from ho] at hroom

/-- A borrower connects an executor, makes a statement and gives the executor back. -/
theorem idle_bounded_one : ∃ cf, shardsSystem.Reach (ShardsGuard .counter) (ShardsSt.new { maxSize := 8 }) cf ∧
    cf.world.idle = [0] ∧ cf.world.idle.length ≤ 8 := by
  have h : shardsSystem.Reach (ShardsGuard .counter) (ShardsSt.new { maxSize := 8 }) _ :=
    System.Reach.init.call (c := .borrow 1 (some 0)) (List.replicate 21 {}) trivial (by decide) rfl
  exact ⟨_, h, by decide, idle_bounded _ h⟩

/-! ## The shutdown -/

/-- The runs in which borrowers keep clear of the shutdown. -/
@[reducible] def Look.shutdown : Look := ⟨False, True⟩

/-- `Stop` has closed no executor that a borrower had, and `Destroy` has dropped none that was connected. -/
def CleanStop (m : ShardsSt) : Prop := m.cut = [] ∧ m.lost = []

/-- **A shutdown is safe for the borrowers that keep clear of it.** -/
theorem shutdown_clean (opt : MysqlExecutorPoolOption) {cf : ShardsConfig}
    (hr : shardsSystem.Reach (ShardsGuard .shutdown) (ShardsSt.new opt) cf) : CleanStop cf.world := by
  obtain ⟨vs, hI, -⟩ := (shardsOutline_sound opt .shutdown).reach hr
  exact (hI.2.stopping trivial).history

/-- A shutdown that finds an executor in the list, after a borrower has given it back. -/
theorem shutdown_clean_one : ∃ cf, shardsSystem.Reach (ShardsGuard .shutdown) (ShardsSt.new { maxSize := 8 }) cf ∧
    cf.Returned 1 .shutdown () ∧ (cf.world.conns 0).connected = false ∧ CleanStop cf.world := by
  have h₁ : shardsSystem.Reach (ShardsGuard .shutdown) (ShardsSt.new { maxSize := 8 }) _ :=
    System.Reach.init.call (c := .borrow 1 (some 0)) (List.replicate 21 {}) trivial (by decide) rfl
  have h₂ := h₁.call (c := .shutdown) (List.replicate 29 {}) trivial (by decide) rfl
  exact ⟨_, h₂, rfl, rfl, shutdown_clean _ h₂⟩

/-- `Stop` is called once. -/
def ShardsOnce : Guard ShardsSt ShardsOp ShardsAnswer ShardsCall Unit ShardsOp.Reply where
  start _ _ := True
  act _ _ m o _ :=
    match o with
    | .beginStop => m.stopBegun = false
    | _ => True

instance (cf : ShardsConfig) (c : ShardsCall) : Decidable (ShardsOnce.start cf c) := isTrue trivial

instance (i : ℕ) (c : ShardsCall) (m : ShardsSt) (o : ShardsOp) (a : ShardsAnswer) :
    Decidable (ShardsOnce.act i c m o a) := by
  cases o <;> first | exact isTrue trivial | exact inferInstanceAs (Decidable (m.stopBegun = false))

/-- The steps of a borrower that connects an executor and gives it back, as call `i`. -/
def borrowSteps (i : ℕ) : List (Label ShardsAnswer ShardsCall) :=
  .start (.borrow 1 (some 0)) :: List.replicate 21 (.act i {})

/-- `Stop` closes an executor that a borrower took out after `Stop` had copied the list; and `Destroy` drops a
connected one, that a borrower gave back after that. -/
theorem shutdown_cuts :
    (¬ ∀ opt cf, shardsSystem.Reach ShardsOnce (ShardsSt.new opt) cf → cf.world.cut = []) ∧
      ¬ ∀ opt cf, shardsSystem.Reach ShardsOnce (ShardsSt.new opt) cf → cf.world.lost = [] := by
  refine ⟨fun h => ?_, fun h => ?_⟩
  · have hr : shardsSystem.Reach ShardsOnce (ShardsSt.new { maxSize := 8, numShardGroup := 1 }) _ :=
      System.Reach.init.of_steps (borrowSteps 0 ++ .start .shutdown :: List.replicate 5 (.act 1 {}) ++
        .start (.borrow 1 (some 0)) :: List.replicate 7 (.act 2 {}) ++ [.act 1 {}]) rfl (by decide)
    exact absurd (h _ _ hr) (by decide)
  · have hr : shardsSystem.Reach ShardsOnce (ShardsSt.new { maxSize := 8, numShardGroup := 1 }) _ :=
      System.Reach.init.of_steps (.start .shutdown :: List.replicate 5 (.act 0 {}) ++ borrowSteps 1 ++
        List.replicate 5 (.act 0 {}))
      rfl (by decide)
    exact absurd (h _ _ hr) (by decide)

end TrpcMysql
