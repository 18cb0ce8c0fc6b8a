import TrpcMysql.Proxy.Steps

/-!
# Getting an executor, and giving it back

What `MysqlExecutorPoolManager::Get`, `MysqlExecutorPool::GetExecutor` and `Reclaim` do for a call: the
executor that a call gets has no open transaction where the pools are clean, and it is open or its MYSQL
object is closed; and a call gives back an executor without an open transaction.
-/

namespace TrpcMysql

open Function Conc

variable {T : Terms} {i : ℕ} {c : Call} {v : View} {e : ExecId} {p : PoolId} {hd : HandleId}

/-- A program of the call's executor that leaves no trace in its history. -/
theorem safe_silent {α : Type} {q : XProg α} {P : α → ExecSt → Prop} (hl : v.live = true) (he : v.exec = some e)
    (hq : Spec (T.given c) q P v.state) (hP : ∀ x s', P x s' → s'.events = v.state.events) :
    T.Safe i c v (onExecutor e q) fun v' x => ∃ s', P x s' ∧ v' = { v with state := s' } := by
  refine safe_mono (safe_onExecutor hl he hq) fun v' x h => ?_
  obtain ⟨s', new, hPx, hnew, rfl⟩ := h
  have hnil : new = [] := by
    have := (hP x s' hPx).symm.trans hnew
    simpa using this
  subst hnil
  exact ⟨s', hPx, by simp [View.ran]⟩

/-- The views differ in the executor, its state and the grip only. -/
abbrev View.Near (v v' : View) : Prop := v' = { v with exec := v'.exec, state := v'.state, grip := v'.grip }

namespace View.Near

variable {v v' v'' : View}

theorem live (h : v.Near v') : v'.live = v.live := by rw [h]

theorem hand (h : v.Near v') : v'.hand = v.hand := by rw [h]

theorem copy (h : v.Near v') : v'.copy = v.copy := by rw [h]

theorem ctxId (h : v.Near v') : v'.ctxId = v.ctxId := by rw [h]

theorem data (h : v.Near v') : v'.data = v.data := by rw [h]

theorem ctx (h : v.Near v') : v'.ctx = v.ctx := by rw [h]

theorem pool (h : v.Near v') : v'.pool = v.pool := by rw [h]

theorem log (h : v.Near v') : v'.log = v.log := by rw [h]

theorem trans (h : v.Near v') (h' : v'.Near v'') : v.Near v'' := by
  unfold View.Near at h h' ⊢
  rw [h', h]

end View.Near

/-- A call that works with executors of its own, and has no copy of a reference. -/
structure View.Own (v : View) : Prop where
  live : v.live = true
  hand : v.hand = none
  copy : v.copy = none

theorem View.Own.near {v v' : View} (h : v.Own) (h' : v.Near v') : v'.Own :=
  ⟨h'.live.trans h.live, h'.hand.trans h.hand, h'.copy.trans h.copy⟩

theorem MysqlExecutorPoolManager.get_safe (hl : v.live = true) (addr : NodeAddr) :
    T.Safe i c v (get addr) fun v' p => v' = { v with pool := some p } := by
  refine safe_bind (safe_poolsGet hl _) fun v₁ r h₁ => ?_
  cases r with
  | some p => exact h₁
  | none =>
    subst h₁
    refine safe_bind (safe_plain hl rfl) fun v₂ option h₂ => ?_
    subst h₂
    split
    · exact safe_crashed
    · exact safe_poolsGetOrInsert hl _ fun _ => rfl

namespace MysqlExecutorPool

/-- The executor that a call got from a pool. -/
structure Got (T : Terms) (v v' : View) (e : ExecId) : Prop where
  near : v.Near v'
  exec : v'.exec = some e
  sober : v'.state.Sober T
  down : v'.state.this.isConnected = false →
    ∃ p, v'.state.this.mysql = some p ∧ (v'.state.mysqls p).closed = true

theorem isIdleTimeout_safe (hl : v.live = true) (he : v.exec = some e) :
    T.Safe i c v (isIdleTimeout p e) fun v' _ => v' = v := by
  refine safe_bind (safe_plain hl rfl) fun v₁ option h₁ => ?_
  subst h₁
  split
  · exact rfl
  refine safe_bind (safe_silent (P := fun _ s => s = v₁.state) hl he ?_ fun _ s h => by rw [h]) fun v₂ n h₂ => ?_
  · exact fun a _ => ⟨trivial, fun r s' he => by cases he; rfl⟩
  · obtain ⟨s, rfl, rfl⟩ := h₂
    rfl

theorem popAlive_safe (k : ℕ) : ∀ (n : ℕ) {v : View}, v.Own → v.exec = none →
    T.Safe i c v (popAlive p k n) fun v' r =>
      match r with
      | none => v.Near v' ∧ v'.exec = none
      | some e => Got T v v' e := by
  intro n
  induction n with
  | zero => intro v hv he; exact ⟨rfl, he⟩
  | succ n ih =>
    intro v hv he
    refine safe_bind (safe_popBack hv.live he hv.hand) fun v₁ r h₁ => ?_
    cases r with
    | none => subst h₁; exact ⟨rfl, he⟩
    | some e =>
      obtain ⟨s, hs, g, rfl⟩ := h₁
      refine safe_bind (safe_silent (e := e) hv.live rfl (MysqlExecutor.checkAlive_spec hs.1) fun _ _ h => h.events)
        fun v₂ alive h₂ => ?_
      obtain ⟨s₂, h₂, rfl⟩ := h₂
      have hs₂ : s₂.Sober T := ⟨h₂.ok, fun hT hx => hs.2 hT (h₂.keeps.txOpen hx)⟩
      -- an executor that is not used is closed and released
      have hdrop : T.Safe i c { v with exec := some e, state := s₂, grip := g } (do
          onExecutor e MysqlExecutor.close
          wop (.noteDiscarded p)
          wop (.release e)
          popAlive p k n) (fun v' r =>
            match r with
            | none => v.Near v' ∧ v'.exec = none
            | some e => Got T v v' e) := by
        refine safe_bind (safe_silent (e := e) hv.live rfl (MysqlExecutor.close_spec h₂.ok) fun _ _ h => h.events)
          fun v₃ _ h₃ => ?_
        obtain ⟨s₃, h₃, rfl⟩ := h₃
        refine safe_bind (safe_plain hv.live rfl) fun v₄ _ h₄ => ?_
        subst h₄
        refine safe_bind (safe_release (e := e) hv.live rfl hv.hand hv.copy fun _ => h₃.isConnected) fun v₅ _ h₅ => ?_
        obtain ⟨g₅, rfl⟩ := h₅
        refine safe_mono (ih (v := { v with exec := none, state := s₃, grip := g₅ }) ⟨hv.live, hv.hand, hv.copy⟩ rfl)
          fun v₆ r h₆ => ?_
        cases r with
        | none => exact ⟨.trans rfl h₆.1, h₆.2⟩
        | some e => exact ⟨.trans rfl h₆.near, h₆.exec, h₆.sober, h₆.down⟩
      cases alive with
      | false => exact hdrop
      | true =>
        refine safe_bind (isIdleTimeout_safe hv.live rfl) fun v₃ idle h₃ => ?_
        subst h₃
        cases idle with
        | true => exact hdrop
        | false =>
          refine ⟨rfl, rfl, hs₂, fun hc => ?_⟩
          have : s₂.this.isConnected = true := by rw [h₂.this]
          exact absurd (this.symm.trans hc) (by simp)

/-- A new executor, without a session. -/
theorem createExecutor_safe (hv : v.Own) (he : v.exec = none) (k : ℕ) :
    T.Safe i c v (createExecutor p k) fun v' e => v.Near v' ∧ v'.exec = some e ∧ v'.state.Ok ∧
      v'.state.this.isConnected = false ∧ ¬ v'.state.TxOpen := by
  refine safe_bind (safe_plain hv.live rfl) fun v₁ n h₁ => ?_
  subst h₁
  refine safe_bind (safe_plain hv.live rfl) fun v₂ target h₂ => ?_
  subst h₂
  refine safe_bind (safe_plain hv.live rfl) fun v₃ option h₃ => ?_
  subst h₃
  refine safe_bind (safe_newExecutor hv.live he hv.hand _) fun v₄ e h₄ => ?_
  obtain ⟨g, rfl⟩ := h₄
  refine safe_bind (safe_silent (e := e) hv.live rfl (MysqlExecutor.construct_spec rfl (fun _ => rfl) fun _ => ⟨[], rfl⟩)
    fun _ _ h => h.events) fun v₅ _ h₅ => ?_
  obtain ⟨s, hs, rfl⟩ := h₅
  refine safe_bind (safe_silent (e := e) (q := xop (.setExecutorId (k * 2 ^ 32 + n)))
    (P := fun _ s' => s' = { s with this := { s.this with executorId := k * 2 ^ 32 + n } }) hv.live rfl ?_
    fun _ _ h => by rw [h]) fun v₆ _ h₆ => ?_
  · exact fun a _ => ⟨trivial, fun r s' he => by cases he; rfl⟩
  · obtain ⟨s', rfl, rfl⟩ := h₆
    refine ⟨rfl, rfl, ⟨hs.ok.conn, hs.ok.single, hs.ok.texts⟩, hs.isConnected, ?_⟩
    rintro ⟨q, σ, hσ, -⟩
    have : (s.mysqls q).session = none := hs.none q
    exact absurd (this.symm.trans hσ) (by simp)

theorem connectNew_safe (hv : v.Own) (he : v.exec = none) (k : ℕ) :
    T.Safe i c v (connectNew p k) (Got T v) := by
  refine safe_bind (createExecutor_safe hv he k) fun v₁ e h₁ => ?_
  obtain ⟨hnear, hexec, hok, -, htx⟩ := h₁
  have hv₁ := hv.near hnear
  refine safe_bind (safe_silent hv₁.live hexec (MysqlExecutor.connect_spec hok) fun _ _ h => h.events)
    fun v₂ connected h₂ => ?_
  obtain ⟨s, hs, rfl⟩ := h₂
  have hgot : Got T v { v₁ with state := s } e := by
    refine ⟨hnear.trans rfl, hexec, ⟨hs.ok, fun _ hx => htx (hs.tx hx)⟩, fun hc => hs.down ?_⟩
    exact hs.isConnected.symm.trans hc
  cases connected with
  | false => exact hgot
  | true =>
    refine safe_bind (safe_plain hv₁.live rfl) fun v₃ _ h₃ => ?_
    subst h₃
    refine safe_bind (safe_plain hv₁.live rfl) fun v₄ _ h₄ => ?_
    subst h₄
    exact hgot

theorem getExecutor_safe (hv : v.Own) (he : v.exec = none) : T.Safe i c v (getExecutor p) (Got T v) := by
  refine safe_bind (safe_plain hv.live rfl) fun v₁ shardId h₁ => ?_
  subst h₁
  refine safe_bind (safe_plain hv.live rfl) fun v₂ option h₂ => ?_
  subst h₂
  split
  · exact safe_crashed
  refine safe_bind (popAlive_safe _ _ hv he) fun v₃ r h₃ => ?_
  cases r with
  | some e => exact h₃
  | none =>
    exact safe_mono (connectNew_safe (hv.near h₃.1) h₃.2 _) fun v₄ e h₄ =>
      ⟨h₃.1.trans h₄.near, h₄.exec, h₄.sober, h₄.down⟩

/-- Reading the fields changes nothing. -/
theorem getThis_safe (hl : v.live = true) (he : v.exec = some e) :
    T.Safe i c v (onExecutor e getThis) fun v' r => v' = v ∧ r = v.state.this := by
  refine safe_mono (safe_silent (P := fun x s => s = v.state ∧ x = v.state.this) hl he ?_ fun _ s h => by rw [h.1])
    fun v' x h => ?_
  · exact fun a _ => ⟨trivial, fun r s' he => by cases he; exact ⟨rfl, rfl⟩⟩
  · obtain ⟨s, ⟨rfl, rfl⟩, rfl⟩ := h
    exact ⟨rfl, rfl⟩

/-- An executor of the call's own goes into the pool, or is closed. -/
theorem reclaim_safe (hv : v.Own) (he : v.exec = some e) (hp : v.pool = some p) (hs : v.state.Sober T) :
    T.Safe i c v (reclaim p e none) fun v' moved => v.Near v' ∧
      if moved then v'.exec = none else v'.exec = some e ∧ v'.state.this.isConnected = false := by
  refine safe_bind (getThis_safe hv.live he) fun v₁ this h₁ => ?_
  obtain ⟨rfl, rfl⟩ := h₁
  refine safe_bind (safe_plain hv.live rfl) fun v₂ option h₂ => ?_
  subst h₂
  split
  · exact safe_crashed
  refine safe_bind (safe_pushBack hv.live he hv.hand hp hs) fun v₃ moved h₃ => ?_
  obtain ⟨g, rfl⟩ := h₃
  cases moved with
  | true => exact ⟨rfl, rfl⟩
  | false =>
    refine safe_bind (safe_plain hv.live rfl) fun v₄ _ h₄ => ?_
    subst h₄
    refine safe_bind (safe_silent (e := e) hv.live rfl (MysqlExecutor.close_spec hs.1) fun _ _ h => h.events)
      fun v₅ _ h₅ => ?_
    obtain ⟨s, hs, rfl⟩ := h₅
    refine safe_bind (safe_plain hv.live rfl) fun v₆ _ h₆ => ?_
    subst h₆
    exact ⟨rfl, rfl, hs.isConnected⟩

/-- The executor of a handle goes into the pool, or is closed. -/
theorem reclaim_handle_safe (hl : v.live = true) (hhand : v.hand = some hd) (he : v.exec = some e)
    (hp : v.pool = some p) (hs : v.state.Sober T) :
    T.Safe i c v (reclaim p e (some hd)) fun v' moved =>
      (moved = true ∧ v'.Is { v with exec := none, data := { v.data with executor := none } }) ∨
      (moved = false ∧ ∃ s, MysqlExecutor.Closed v.state s ∧ v' = { v with state := s }) := by
  refine safe_bind (getThis_safe hl he) fun v₁ this h₁ => ?_
  obtain ⟨rfl, rfl⟩ := h₁
  refine safe_bind (safe_plain hl rfl) fun v₂ option h₂ => ?_
  subst h₂
  split
  · exact safe_crashed
  refine safe_bind (safe_pushBackHandle hl he hhand hp hs) fun v₃ moved h₃ => ?_
  cases moved with
  | true => exact .inl ⟨rfl, h₃⟩
  | false =>
    simp only [Bool.false_eq_true, if_false] at h₃
    subst h₃
    refine safe_bind (safe_plain hl rfl) fun v₄ _ h₄ => ?_
    subst h₄
    refine safe_bind (safe_silent hl he (MysqlExecutor.close_spec hs.1) fun _ _ h => h.events) fun v₅ _ h₅ => ?_
    obtain ⟨s, hs, rfl⟩ := h₅
    refine safe_bind (safe_plain hl rfl) fun v₆ _ h₆ => ?_
    subst h₆
    exact .inr ⟨rfl, s, hs, rfl⟩

end MysqlExecutorPool

end TrpcMysql
