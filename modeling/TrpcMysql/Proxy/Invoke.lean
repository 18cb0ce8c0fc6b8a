import TrpcMysql.Proxy.Borrow

/-!
# Invocations

What `UnaryInvoke` and `AsyncUnaryInvoke` do, with an executor or without one (`Invoked`): the call is turned
away by a filter or a timeout, or gets no connection, or its statement runs. The status of the context is OK
after it just if it was OK before and the statement succeeded (`Invoked.told`).
-/

namespace TrpcMysql

open Function Conc

/-- The entry of the history tells of no failure. -/
def Note.good : Note → Bool
  | rejected _ | timedOut | sql _ .failed => false
  | sql _ (.acked ..) => true

/-- A call succeeded, by its history: no filter rejected it, it did not time out, and its statement, as it is
sent, was acknowledged and did not fail. -/
def Succeeded (sends : Sql → Prop) (log : List Note) : Prop :=
  (∀ n ∈ log, n.good = true) ∧ ∃ e id sent, sends sent ∧ .sql e (.acked id sent) ∈ log

variable {T : Terms} {i : ℕ} {c : Call} {v : View} {e : ExecId} {x : CtxId} {r : MysqlResults} {q : Sql}
  {args : List InputArg} {mode : MysqlResultsMode} {sends : Sql → Prop}

/-! ## Error numbers -/

/-- `mysql_` is a closed object. -/
def ExecSt.Down (s : ExecSt) : Prop := ∃ p, s.this.mysql = some p ∧ (s.mysqls p).closed = true

namespace MysqlExecutor

variable {g : Given} {s : ExecSt}

theorem getErrorMessage_spec : Spec g getErrorMessage (fun _ s' => Fades s s' ∧ s'.events = s.events) s := by
  refine .getThis fun a _ => ⟨trivial, fun n s' he => ?_⟩
  cases hm : s.this.mysql with
  | none => rw [hm] at he; cases he; exact ⟨.refl s, rfl⟩
  | some p => rw [hm] at he; cases he; exact ⟨(Fades.refl s).enter, ExecSt.enter_events⟩

/-- An honest error number of a closed object is not zero. -/
theorem getErrorNumber_spec : Spec g getErrorNumber (fun n s' => Fades s s' ∧ s'.events = s.events ∧
    (g.numbers → s.Down → n ≠ 0)) s := by
  refine .getThis fun a ha => ⟨trivial, fun n s' he => ?_⟩
  cases hm : s.this.mysql with
  | none =>
    rw [hm] at he
    cases he
    exact ⟨.refl s, rfl, fun hg _ => ha hg (by simp [hm])⟩
  | some p =>
    rw [hm] at he
    cases he
    refine ⟨(Fades.refl s).enter, ExecSt.enter_events, fun hg hd => ?_⟩
    obtain ⟨p', hp', hc⟩ := hd
    obtain rfl : p = p' := Option.some.inj (hm.symm.trans hp')
    rw [if_pos hc]
    exact ha hg (by simp [hm, hc])

end MysqlExecutor

/-! ## Tasks -/

/-- The views differ in what is inside the executor, in the context, the history, the pool and the grip. -/
abbrev View.Stays (v v' : View) : Prop :=
  v' = { v with state := v'.state, ctx := v'.ctx, log := v'.log, pool := v'.pool, grip := v'.grip }

namespace View.Stays

variable {v v' v'' : View}

theorem live (h : v.Stays v') : v'.live = v.live := by rw [h]

theorem hand (h : v.Stays v') : v'.hand = v.hand := by rw [h]

theorem copy (h : v.Stays v') : v'.copy = v.copy := by rw [h]

theorem ctxId (h : v.Stays v') : v'.ctxId = v.ctxId := by rw [h]

theorem data (h : v.Stays v') : v'.data = v.data := by rw [h]

theorem exec (h : v.Stays v') : v'.exec = v.exec := by rw [h]

theorem of_fields (hlive : v'.live = v.live) (hhand : v'.hand = v.hand) (hcopy : v'.copy = v.copy)
    (hctx : v'.ctxId = v.ctxId) (hdata : v'.data = v.data) (hexec : v'.exec = v.exec) : v.Stays v' := by
  unfold View.Stays
  rw [← hlive, ← hhand, ← hcopy, ← hctx, ← hdata, ← hexec]

theorem trans (h : v.Stays v') (h' : v'.Stays v'') : v.Stays v'' :=
  .of_fields (h'.live.trans h.live) (h'.hand.trans h.hand) (h'.copy.trans h.copy) (h'.ctxId.trans h.ctxId)
    (h'.data.trans h.data) (h'.exec.trans h.exec)

end View.Stays

/-- The view with another context and history. -/
abbrev View.at (v : View) (cx : ClientContext) (l : List Note) : View := { v with ctx := cx, log := l }

namespace MysqlServiceProxy

open MysqlExecutorPool
open MysqlExecutor (Ran Proper)

theorem isConnected_safe (hl : v.live = true) (he : v.exec = some e) :
    T.Safe i c v (isConnected e) fun v' b => v' = v ∧ b = v.state.this.isConnected := by
  refine safe_mono (safe_silent (P := fun b s => s = v.state ∧ b = v.state.this.isConnected) hl he
    (.getThis ⟨rfl, rfl⟩) fun _ _ h => by rw [h.1]) fun v' b h => ?_
  obtain ⟨s, ⟨rfl, rfl⟩, rfl⟩ := h
  exact ⟨rfl, rfl⟩

/-- The status tells of the failed connection. -/
theorem connectionFailed_safe (hl : v.live = true) (he : v.exec = some e) (hx : v.ctxId = some x) :
    T.Safe i c v (connectionFailed x e) fun v' _ => ∃ s cx, v' = { v with state := s, ctx := cx } ∧ Fades v.state s ∧
      (T.contexts → (T.given c).numbers → v.state.Down → cx.status.ok = false) := by
  refine safe_bind (safe_plain hl rfl) fun v₁ name h₁ => ?_
  subst h₁
  refine safe_bind (safe_silent hl he MysqlExecutor.getErrorMessage_spec fun _ _ h => h.2) fun v₂ message h₂ => ?_
  obtain ⟨s₂, ⟨hf₂, -⟩, rfl⟩ := h₂
  refine safe_bind (safe_silent hl he MysqlExecutor.getErrorNumber_spec fun _ _ h => h.2.1) fun v₃ number h₃ => ?_
  obtain ⟨s₃, ⟨hf₃, -, hn⟩, rfl⟩ := h₃
  refine safe_bind (safe_setStatus (v := { v₁ with state := s₃ }) hl hx) fun v₄ _ h₄ => ?_
  obtain ⟨cx, rfl, hcx⟩ := h₄
  refine ⟨s₃, cx, rfl, hf₂.trans hf₃, fun hT hg hd => ?_⟩
  obtain ⟨p, hp, hclosed⟩ := hd
  have hne := hn hg ⟨p, by rw [hf₂.this]; exact hp, (hf₂.closed p).trans hclosed⟩
  rw [hcx hT]
  simp [Status.ok, hne]

/-- What a statement did in a task. -/
structure TaskRan (T : Terms) (c : Call) (q : Sql) (args : List InputArg) (r : MysqlResults) (e : ExecId)
    (s : ExecSt) (r' : MysqlResults) (s' : ExecSt) (new : List SqlEvent) : Prop where
  ran : Ran (T.given c) q args r s r' s'
  events : s'.events = s.events ++ new

/-- The task of a call with an executor that is connected. -/
theorem ownTask_safe (hl : v.live = true) (he : v.exec = some e) (hok : v.state.Ok)
    (hc : v.state.this.isConnected = true) (hq : Proper r q args) :
    T.Safe i c v (ownTask x e r q args) fun v' out => ∃ r' s' new, out = .ok r' ∧
      TaskRan T c q args r e v.state r' s' new ∧ v' = v.ran e s' new := by
  refine safe_bind (isConnected_safe hl he) fun v₁ b h₁ => ?_
  obtain ⟨rfl, rfl⟩ := h₁
  rw [hc]
  refine safe_bind (safe_onExecutor hl he (MysqlExecutor.runStatement_spec hok hc hq)) fun v₂ out h₂ => ?_
  obtain ⟨s', new, hran, hnew, rfl⟩ := h₂
  exact ⟨out.2, s', new, rfl, ⟨hran, hnew⟩, rfl⟩

/-- The task of a call without an executor. -/
theorem borrowTask_safe (hv : v.Own) (he : v.exec = none) (hx : v.ctxId = some x) {t : Bytes} :
    T.Safe i c v (borrowTask x r (.user t) args) fun v' out => v.Stays v' ∧
      ((∃ m, out = .error m ∧ v'.log = v.log ∧ (T.contexts → (T.given c).numbers → v'.ctx.status.ok = false)) ∨
        ∃ r' e s s' new, out = .ok r' ∧ TaskRan T c (.user t) args r e s r' s' new ∧
          v'.log = v.log ++ new.map (.sql e) ∧ v'.ctx = v.ctx) := by
  refine safe_bind (safe_plain hv.live rfl) fun v₁ addr h₁ => ?_
  subst h₁
  refine safe_bind (MysqlExecutorPoolManager.get_safe hv.live addr) fun v₂ p h₂ => ?_
  subst h₂
  refine safe_bind (getExecutor_safe (v := { v₁ with pool := some p }) ⟨hv.live, hv.hand, hv.copy⟩ he)
    fun v₃ e h₃ => ?_
  obtain ⟨hnear, hexec, hsober, hdown⟩ := h₃
  have hv₃ : v₃.Own := ⟨hnear.live.trans hv.live, hnear.hand.trans hv.hand, hnear.copy.trans hv.copy⟩
  have hx₃ : v₃.ctxId = some x := hnear.ctxId.trans hx
  refine safe_bind (isConnected_safe hv₃.live hexec) fun v₄ b h₄ => ?_
  obtain ⟨rfl, rfl⟩ := h₄
  cases hc : v₄.state.this.isConnected with
  | false =>
    refine safe_bind (connectionFailed_safe hv₃.live hexec hx₃) fun v₅ m h₅ => ?_
    obtain ⟨s, cx, rfl, hf, hst⟩ := h₅
    refine safe_bind (safe_release (e := e) hv₃.live hexec hv₃.hand hv₃.copy fun _ => ?_) fun v₆ _ h₆ => ?_
    · rw [hf.this]; exact hc
    · obtain ⟨g, rfl⟩ := h₆
      refine ⟨.of_fields hnear.live hnear.hand hnear.copy hnear.ctxId hnear.data he.symm,
        .inl ⟨m, rfl, hnear.log, fun hT hg => ?_⟩⟩
      exact hst hT hg (hdown hc)
  | true =>
    refine safe_bind (safe_onExecutor hv₃.live hexec
      (MysqlExecutor.runStatement_spec hsober.1 hc (.inl ⟨t, rfl⟩ : Proper r (.user t) args))) fun v₅ out h₅ => ?_
    obtain ⟨s', new, hran, hnew, rfl⟩ := h₅
    have hdone : v₄.log ++ new.map (.sql e) = v₁.log ++ new.map (.sql e) := by rw [hnear.log]
    refine safe_bind (reclaim_safe (v := v₄.ran e s' new) ⟨hv₃.live, hv₃.hand, hv₃.copy⟩ hexec hnear.pool
      ⟨hran.ok, fun hT hx => hsober.2 hT (hran.tx ⟨t, rfl⟩ hx)⟩) fun v₆ moved h₆ => ?_
    obtain ⟨hnear₆, h₆⟩ := h₆
    cases moved with
    | true =>
      exact ⟨.of_fields (hnear₆.live.trans hnear.live) (hnear₆.hand.trans hnear.hand) (hnear₆.copy.trans hnear.copy)
        (hnear₆.ctxId.trans hnear.ctxId) (hnear₆.data.trans hnear.data) (h₆.trans he.symm),
        .inr ⟨out.2, e, v₄.state, s', new, rfl, ⟨hran, hnew⟩, hnear₆.log.trans hdone, hnear₆.ctx.trans hnear.ctx⟩⟩
    | false =>
      refine safe_bind (safe_release (e := e) (hnear₆.live.trans hv₃.live) h₆.1 (hnear₆.hand.trans hv₃.hand)
        (hnear₆.copy.trans hv₃.copy) fun _ => h₆.2) fun v₇ _ h₇ => ?_
      obtain ⟨g, rfl⟩ := h₇
      exact ⟨.of_fields (hnear₆.live.trans hnear.live) (hnear₆.hand.trans hnear.hand) (hnear₆.copy.trans hnear.copy)
        (hnear₆.ctxId.trans hnear.ctxId) (hnear₆.data.trans hnear.data) he.symm,
        .inr ⟨out.2, e, v₄.state, s', new, rfl, ⟨hran, hnew⟩, hnear₆.log.trans hdone, hnear₆.ctx.trans hnear.ctx⟩⟩

/-! ## Invocations -/

/-- No statement was sent. -/
def Unsent (log : List Note) : Prop := ∀ e ev, .sql e ev ∉ log

theorem Unsent.not_succeeded {log : List Note} (h : Unsent log) : ¬ Succeeded sends log := by
  rintro ⟨-, e, id, sent, -, hm⟩
  exact h e _ hm

/-- What an invocation came to, from a view without a history. -/
inductive Invoked (T : Terms) (c : Call) (x : CtxId) (q : Sql) (args : List InputArg) (r : MysqlResults) (v : View)
    (r' : MysqlResults) (v' : View) : Prop
  /-- it was late, or a filter rejected it -/
  | away (hr : r' = r) (hstate : v'.state = v.state) (hst : T.contexts → v'.ctx.status.ok = false)
      (hlog : Unsent v'.log)
      (hrough : T.Rough c v (.checkTimeout x) ∨ T.Rough c v (.runFilters .preSendMsg x))
  /-- there was no connection -/
  | refused (hr : r' = r) (hexec : v.exec = none)
      (hst : T.contexts → (T.given c).numbers → v'.ctx.status.ok = false)
      (hlog : Unsent v'.log)
  | ran {e : ExecId} {s s' : ExecSt} {new : List SqlEvent} {post : List Note}
      (hran : TaskRan T c q args r e s r' s' new) (hlog : v'.log = new.map (.sql e) ++ post)
      (hpost : post = [] ∨ post = [.rejected .postRecvMsg] ∧ T.Rough c v' (.runFilters .postRecvMsg x))
      (hst : T.contexts → (v'.ctx.status.ok = true ↔ v.ctx.status.ok = true ∧ r'.ok = true ∧ post = []))
      (hown : v.exec = none ∨ v.exec = some e ∧ s = v.state ∧ s' = v'.state)

/-- The end of an invocation: an error goes into the status, and the filters run. -/
theorem answer_safe (hl : v.live = true) (hx : v.ctxId = some x) (r' : MysqlResults) : T.Safe i c v (do
      if !r'.ok then
        wop (.setStatus x { frameworkRetCode := r'.errorNumber, errorMessage := r'.errorMessage })
      let _ ← wop (.runFilters .postRecvMsg x)
      return r') fun v' r'' => r'' = r' ∧ v.Stays v' ∧ v'.state = v.state ∧ ∃ post, v'.log = v.log ++ post ∧
        (post = [] ∨ post = [.rejected .postRecvMsg] ∧ T.Rough c v' (.runFilters .postRecvMsg x)) ∧
        (T.contexts → (v'.ctx.status.ok = true ↔ v.ctx.status.ok = true ∧ r'.ok = true ∧ post = [])) := by
  -- from a view whose status is OK just if the result is
  have hfilter : ∀ {y : ClientContext}, (T.contexts → (y.status.ok = true ↔ v.ctx.status.ok = true ∧ r'.ok = true)) →
      T.Safe i c { v with ctx := y } (do
        let _ ← wop (.runFilters .postRecvMsg x)
        return r') fun v' r'' => r'' = r' ∧ v.Stays v' ∧ v'.state = v.state ∧ ∃ post, v'.log = v.log ++ post ∧
          (post = [] ∨ post = [.rejected .postRecvMsg] ∧ T.Rough c v' (.runFilters .postRecvMsg x)) ∧
          (T.contexts → (v'.ctx.status.ok = true ↔ v.ctx.status.ok = true ∧ r'.ok = true ∧ post = [])) := by
    intro cx hcx
    refine safe_bind (safe_runFilters (v := { v with ctx := cx }) hl hx) fun v₁ pass h₁ => ?_
    obtain ⟨⟨cx₁, l₁, rfl⟩, hlog, hpass, hrej, hrough⟩ := h₁
    refine ⟨rfl, rfl, rfl, _, hlog, ?_, fun hT => ?_⟩
    · cases pass with
      | true => exact .inl rfl
      | false => exact .inr ⟨rfl, hrough rfl⟩
    · cases pass with
      | true =>
        rw [hpass hT rfl]
        exact (hcx hT).trans ⟨fun h => ⟨h.1, h.2, rfl⟩, fun h => ⟨h.1, h.2.1⟩⟩
      | false =>
        rw [hrej hT rfl]
        exact ⟨fun h => (by cases h), fun h => (by cases h.2.2)⟩
  dsimp only
  split
  · rename_i hok
    have hne : ¬ r'.errorNumber = 0 := by simpa [MysqlResults.ok] using hok
    refine safe_bind (safe_setStatus hl hx) fun v₁ _ h₁ => ?_
    obtain ⟨cx, rfl, hcx⟩ := h₁
    refine hfilter fun hT => ?_
    rw [hcx hT]
    simp [Status.ok, MysqlResults.ok, hne]
  · rename_i hok
    have hok : r'.ok = true := by simpa using hok
    exact hfilter (y := v.ctx) fun _ => ⟨fun h => ⟨h, hok⟩, fun h => h.1⟩

/-- What the task of an invocation does. -/
def TaskOk (T : Terms) (c : Call) (q : Sql) (args : List InputArg) (r : MysqlResults) (v v' : View)
    (out : Except String MysqlResults) : Prop :=
  (∃ m, out = .error m ∧ v.exec = none ∧ v.Stays v' ∧ v'.log = v.log ∧
      (T.contexts → (T.given c).numbers → v'.ctx.status.ok = false)) ∨
    ∃ r' e s s' new, out = .ok r' ∧ TaskRan T c q args r e s r' s' new ∧ v.Stays v' ∧
      v'.log = v.log ++ new.map (.sql e) ∧ v'.ctx = v.ctx ∧
      (v.exec = none ∨ v.exec = some e ∧ s = v.state ∧ s' = v'.state)

theorem task_own (hl : v.live = true) (he : v.exec = some e) (hok : v.state.Ok) (hc : v.state.this.isConnected = true)
    (hq : Proper r q args) : T.Safe i c v (task x (some e) r q args) fun v' out => TaskOk T c q args r v v' out := by
  refine safe_mono (ownTask_safe hl he hok hc hq) fun v' out h => ?_
  obtain ⟨r', s', new, rfl, hran, rfl⟩ := h
  exact .inr ⟨r', e, v.state, s', new, rfl, hran, rfl, rfl, rfl, .inr ⟨he, rfl, rfl⟩⟩

theorem task_borrow (hv : v.Own) (he : v.exec = none) (hx : v.ctxId = some x) {t : Bytes} :
    T.Safe i c v (task x none r (.user t) args) fun v' out => TaskOk T c (.user t) args r v v' out := by
  refine safe_mono (borrowTask_safe hv he hx) fun v' out h => ?_
  obtain ⟨hs, ⟨m, rfl, hlog, hst⟩ | ⟨r', e, s, s', new, rfl, hran, hlog, hctx⟩⟩ := h
  · exact .inl ⟨m, rfl, he, hs, hlog, hst⟩
  · exact .inr ⟨r', e, s, s', new, rfl, hran, hs, hlog, hctx, .inl he⟩

/-- An invocation, given what its task does. -/
theorem unaryInvoke_safe {ex : Option ExecId} (hl : v.live = true) (hx : v.ctxId = some x) (hlog : v.log = [])
    (htask : ∀ cx, T.Safe i c (v.at cx []) (task x ex r q args) fun v' out => TaskOk T c q args r (v.at cx []) v' out) :
    T.Safe i c v (unaryInvoke x ex r q args) fun v' r' =>
      v.Stays v' ∧ (T.Sees v fun w => T.fit c w (.checkTimeout x)) ∧ Invoked T c x q args r v r' v' := by
  refine safe_bind (safe_checkTimeout hl hx) fun v₁ late h₁ => ?_
  obtain ⟨⟨cx₁, l₁, rfl⟩, hlog₁, hst₁, hrough₁, hfit⟩ := h₁
  have hlog₁ : l₁ = if late then [.timedOut] else [] := by simpa [hlog] using hlog₁
  -- CheckTimeout first: a call that is late goes no further
  cases late with
  | true =>
    refine ⟨rfl, hfit, .away rfl rfl (fun hT => ?_) (fun e ev hm => ?_) (.inl (hrough₁ rfl))⟩
    · rw [hst₁ hT]; rfl
    · rw [hlog₁] at hm; simp at hm
  | false =>
    subst hlog₁
    refine safe_bind (safe_runFilters (v := v.at cx₁ []) hl hx) fun v₂ pass h₂ => ?_
    obtain ⟨⟨cx₂, l₂, rfl⟩, hlog₂, hpass₂, hrej₂, hrough₂⟩ := h₂
    have hlog₂ : l₂ = if pass then [] else [.rejected .preSendMsg] := hlog₂
    -- preSendMsg: a rejection goes on to postRecvMsg, which may replace the status
    cases pass with
    | false =>
      refine safe_bind (safe_runFilters (v := v.at cx₂ l₂) hl hx) fun v₃ pass₃ h₃ => ?_
      obtain ⟨⟨cx₃, l₃, rfl⟩, hlog₃, hpass₃, hrej₃, -⟩ := h₃
      refine ⟨rfl, hfit, .away rfl rfl (fun hT => ?_) (fun e ev hm => ?_) (.inr (hrough₂ rfl))⟩
      · cases pass₃ with
        | true => rw [hpass₃ hT rfl]; exact hrej₂ hT rfl
        | false => exact hrej₃ hT rfl
      · rw [hlog₃, hlog₂] at hm
        cases pass₃ <;> simp at hm
    | true =>
      subst hlog₂
      refine safe_bind (safe_plain hl rfl) fun v₃ _ h₃ => ?_
      subst h₃
      refine safe_bind (htask cx₂) fun v₄ out h₄ => ?_
      have hst : T.contexts → cx₂.status = v.ctx.status := fun hT => (hpass₂ hT rfl).trans (hst₁ hT)
      -- the task: refused before a statement was sent, or run with the events it wrote
      rcases h₄ with ⟨m, rfl, hexec, hs, hlog₄, hst₄⟩ | ⟨r', e, s, s', new, rfl, hran, hs, hlog₄, hctx, hown⟩
      · refine safe_mono (answer_safe (hs.live.trans hl) (hs.ctxId.trans hx) r) fun v₅ r₅ h₅ => ?_
        obtain ⟨rfl, hs₅, -, post, hlog₅, hpost, hst₅⟩ := h₅
        refine ⟨.trans rfl (hs.trans hs₅), hfit, .refused rfl hexec (fun hT hn => ?_) fun e ev hm => ?_⟩
        · by_contra hne
          have := ((hst₅ hT).1 (by simpa using hne)).1
          rw [hst₄ hT hn] at this; cases this
        · rw [hlog₅, hlog₄] at hm
          rcases hpost with rfl | ⟨rfl, -⟩ <;> simp at hm
      · refine safe_mono (answer_safe (hs.live.trans hl) (hs.ctxId.trans hx) r') fun v₅ r₅ h₅ => ?_
        obtain ⟨rfl, hs₅, hstate₅, post, hlog₅, hpost, hst₅⟩ := h₅
        refine ⟨.trans rfl (hs.trans hs₅), hfit, .ran hran ?_ hpost (fun hT => ?_) ?_⟩
        · rw [hlog₅, hlog₄]; rfl
        · rw [hst₅ hT, hctx, hst hT]
        · rcases hown with h | ⟨h1, h2, h3⟩
          · exact .inl h
          · exact .inr ⟨h1, h2, h3.trans hstate₅.symm⟩

/-- What follows the statement in the history tells of filters that rejected the call. -/
def Rejections (post : List Note) : Prop := ∀ n ∈ post, ∃ pt, n = .rejected pt

/-- A call whose history has no failure was not rejected. -/
theorem Rejections.nil {post : List Note} (h : Rejections post) (hgood : ∀ n ∈ post, n.good = true) : post = [] := by
  refine List.eq_nil_iff_forall_not_mem.2 fun n hn => ?_
  obtain ⟨pt, rfl⟩ := h n hn
  have := hgood _ hn
  cases this

/-- What an asynchronous invocation came to. -/
inductive AsyncInvoked (T : Terms) (c : Call) (x : CtxId) (q : Sql) (args : List InputArg) (mode : MysqlResultsMode)
    (v : View) (out : Future MysqlResults) (v' : View) : Prop
  | away {m : String} (hout : out = .error m) (hstate : v'.state = v.state) (hlog : Unsent v'.log)
      (hrough : T.Rough c v (.checkTimeout x) ∨ T.Rough c v (.runFilters .preSendMsg x))
  | refused {m : String} (hout : out = .error m) (hexec : v.exec = none)
  | ran {e : ExecId} {s s' : ExecSt} {new : List SqlEvent} {r' : MysqlResults} {post : List Note}
      (hran : TaskRan T c q args { mode := mode } e s r' s' new) (hlog : v'.log = new.map (.sql e) ++ post)
      (hpost : Rejections post)
      (hout : out = if r'.ok then .ok r' else .error r'.errorMessage)
      (hown : v.exec = none ∨ v.exec = some e ∧ s = v.state ∧ s' = v'.state)

theorem asyncUnaryInvoke_safe {ex : Option ExecId} (hl : v.live = true) (hx : v.ctxId = some x) (hlog : v.log = [])
    (htask : ∀ cx, T.Safe i c (v.at cx []) (task x ex { mode := mode } q args) fun v' out =>
      TaskOk T c q args { mode := mode } (v.at cx []) v' out) :
    T.Safe i c v (asyncUnaryInvoke x ex mode q args) fun v' out =>
      v.Stays v' ∧ AsyncInvoked T c x q args mode v out v' := by
  refine safe_bind (safe_checkTimeout hl hx) fun v₁ late h₁ => ?_
  obtain ⟨⟨cx₁, l₁, rfl⟩, hlog₁, -, hrough₁, -⟩ := h₁
  have hlog₁ : l₁ = if late then [.timedOut] else [] := by simpa [hlog] using hlog₁
  -- a late call and a rejected one give an exceptional future of the status read
  cases late with
  | true =>
    refine safe_bind (safe_getStatus (v := v.at cx₁ l₁) hl hx) fun v₂ st h₂ => ?_
    obtain ⟨rfl, -⟩ := h₂
    refine ⟨rfl, .away rfl rfl (fun e ev hm => ?_) (.inl (hrough₁ rfl))⟩
    rw [hlog₁] at hm; simp at hm
  | false =>
    subst hlog₁
    refine safe_bind (safe_runFilters (v := v.at cx₁ []) hl hx) fun v₂ pass h₂ => ?_
    obtain ⟨⟨cx₂, l₂, rfl⟩, hlog₂, -, -, hrough₂⟩ := h₂
    have hlog₂ : l₂ = if pass then [] else [.rejected .preSendMsg] := hlog₂
    cases pass with
    | false =>
      refine safe_bind (safe_runFilters (v := v.at cx₂ l₂) hl hx) fun v₃ _ h₃ => ?_
      obtain ⟨⟨cx₃, l₃, rfl⟩, hlog₃, -⟩ := h₃
      refine safe_bind (safe_runFilters (v := v.at cx₃ l₃) hl hx) fun v₄ _ h₄ => ?_
      obtain ⟨⟨cx₄, l₄, rfl⟩, hlog₄, -⟩ := h₄
      refine safe_bind (safe_getStatus (v := v.at cx₄ l₄) hl hx) fun v₅ st h₅ => ?_
      obtain ⟨rfl, -⟩ := h₅
      refine ⟨rfl, .away rfl rfl (fun e ev hm => ?_) (.inr (hrough₂ rfl))⟩
      rw [hlog₄, hlog₃, hlog₂] at hm
      simp only [List.mem_append, List.mem_ite_nil_left, List.mem_singleton] at hm
      simp at hm
    | true =>
      subst hlog₂
      refine safe_bind (safe_plain hl rfl) fun v₃ _ h₃ => ?_
      subst h₃
      refine safe_bind (htask cx₂) fun v₄ out h₄ => ?_
      -- both outcomes of the task leave the call its context, which postRecvMsg is run on
      have hlx : v₄.live = true ∧ v₄.ctxId = some x := by
        rcases h₄ with ⟨m, -, -, hs, -⟩ | ⟨r', e, s, s', new, -, -, hs, -⟩ <;>
          exact ⟨hs.live.trans hl, hs.ctxId.trans hx⟩
      refine safe_bind (safe_runFilters hlx.1 hlx.2) fun v₅ pass h₅ => ?_
      obtain ⟨⟨cx₅, l₅, rfl⟩, hlog₅, -⟩ := h₅
      rcases h₄ with ⟨m, rfl, hexec, hs, -, -⟩ | ⟨r', e, s, s', new, rfl, hran, hs, hlog₄, -, hown⟩
      · exact ⟨.trans rfl (.trans hs rfl), .refused rfl hexec⟩
      · have hdone : v.Stays (v₄.at cx₅ l₅) := .trans rfl (.trans hs rfl)
        have hlog₅ : l₅ = new.map (.sql e) ++ if pass then [] else [.rejected .postRecvMsg] := by
          rw [hlog₄] at hlog₅; exact hlog₅
        have hpost : Rejections (if pass then [] else [.rejected .postRecvMsg]) := by
          intro n hn
          cases pass with
          | true => cases hn
          | false => exact ⟨_, List.mem_singleton.1 hn⟩
        dsimp only
        split
        · rename_i hok
          exact ⟨hdone, .ran hran hlog₅ hpost (by rw [if_pos hok]) hown⟩
        · rename_i hok
          exact ⟨hdone, .ran hran hlog₅ hpost (by rw [if_neg hok]) hown⟩

/-! ## The status of an invocation -/

variable {v' : View} {r' : MysqlResults} {s s' : ExecSt} {new : List SqlEvent}

/-- The outcome of a statement that is not prepared, or where error numbers are honest. -/
theorem TaskRan.outcome (h : TaskRan T c q args r e s r' s' new)
    (hn : (T.given c).numbers ∨ r.mode = .onlyExec ∧ args = []) :
    (∃ id sent, Sql.Sent r.mode q args sent ∧ new = [.acked id sent] ∧ (r.ok = true → r'.ok = true)) ∨
      (.failed ∈ new ∧ r'.ok = false) ∨
      (new = [] ∧ r'.ok = false) := by
  have hcancel : ∀ {l : List SqlEvent}, s'.events = s.events ++ l → new = l := fun hl =>
    List.append_cancel_left (h.events.symm.trans hl)
  cases h.ran.outcome hn with
  | sent hsent he hr => exact .inl ⟨_, _, hsent, hcancel he, hr⟩
  | failed he hf hr => exact .inr (.inl ⟨by rw [hcancel he]; exact hf, hr⟩)
  | unsent he hr => exact .inr (.inr ⟨hcancel (he.trans (List.append_nil _).symm), hr⟩)

/-- A result without an error tells of an acknowledgement. -/
theorem TaskRan.acked (h : TaskRan T c q args r e s r' s' new)
    (hn : (T.given c).numbers ∨ r.mode = .onlyExec ∧ args = []) (hr : r'.ok = true) :
    ∃ id sent, Sql.Sent r.mode q args sent ∧ .acked id sent ∈ new := by
  rcases h.outcome hn with ⟨id, sent, hsent, rfl, -⟩ | ⟨-, h⟩ | ⟨-, h⟩
  · exact ⟨id, sent, hsent, by simp⟩
  · rw [hr] at h; cases h
  · rw [hr] at h; cases h

/-- A result without an error, and no rejection after it, make a success. -/
theorem TaskRan.succeeded (h : TaskRan T c q args r e s r' s' new)
    (hn : (T.given c).numbers ∨ r.mode = .onlyExec ∧ args = []) (hok : r'.ok = true) :
    Succeeded (Sql.Sent r.mode q args) (new.map (.sql e)) := by
  rcases h.outcome hn with ⟨id, sent, hsent, rfl, -⟩ | ⟨-, hno⟩ | ⟨-, hno⟩
  · refine ⟨fun n hn => ?_, e, id, sent, hsent, by simp⟩
    simp only [List.map_cons, List.map_nil, List.mem_singleton] at hn
    subst hn
    rfl
  · rw [hok] at hno; cases hno
  · rw [hok] at hno; cases hno

/-- A success leaves no error in a results object that had none. -/
theorem TaskRan.ok_of_succeeded (h : TaskRan T c q args r e s r' s' new)
    (hn : (T.given c).numbers ∨ r.mode = .onlyExec ∧ args = []) (hr : r.ok = true) {post : List Note}
    (hpost : Rejections post) (hs : Succeeded sends (new.map (.sql e) ++ post)) : r'.ok = true ∧ post = [] := by
  obtain ⟨hgood, e', id, sent, -, hm⟩ := hs
  obtain rfl := hpost.nil fun n hn => hgood n (List.mem_append_right _ hn)
  rw [List.append_nil] at hgood hm
  refine ⟨?_, rfl⟩
  rcases h.outcome hn with ⟨id, sent, -, rfl, hok⟩ | ⟨hf, -⟩ | ⟨rfl, -⟩
  · exact hok hr
  · have := hgood _ (List.mem_map.2 ⟨_, hf, rfl⟩)
    cases this
  · cases hm

/-- What the status of a call tells: it is OK only if it was before and the call succeeded; and it stays OK when
the call succeeds, if the results object had no error before. -/
structure Told (T : Terms) (c : Call) (sends : Sql → Prop) (r : MysqlResults) (v v' : View) : Prop where
  succeeded : T.contexts → (T.given c).numbers → v'.ctx.status.ok = true →
    v.ctx.status.ok = true ∧ Succeeded sends v'.log
  stays : T.contexts → (T.given c).numbers → r.ok = true → v.ctx.status.ok = true → Succeeded sends v'.log →
    v'.ctx.status.ok = true

/-- A call that failed, and says so. -/
theorem Told.failed (hst : T.contexts → (T.given c).numbers → v'.ctx.status.ok = false)
    (hlog : ¬ Succeeded sends v'.log) : Told T c sends r v v' where
  succeeded hT hn h := by rw [hst hT hn] at h; cases h
  stays _ _ _ _ hs := absurd hs hlog

/-- **The status is OK after an invocation just if it was before and the invocation succeeded.** -/
theorem Invoked.told (h : Invoked T c x q args r v r' v') : Told T c (Sql.Sent r.mode q args) r v v' := by
  cases h with
  | away _ _ hst hlog _ => exact .failed (fun hT _ => hst hT) hlog.not_succeeded
  | refused _ _ hst hlog => exact .failed hst hlog.not_succeeded
  | @ran _ _ _ _ post hran hlog hpost hst _ =>
    refine ⟨fun hT hn hok => ?_, fun hT hn hr hok hs => ?_⟩
    · obtain ⟨h1, h2, rfl⟩ := (hst hT).1 hok
      rw [hlog, List.append_nil]
      exact ⟨h1, hran.succeeded (.inl hn) h2⟩
    · have hrej : Rejections post := by
        intro n hm
        rcases hpost with rfl | ⟨rfl, -⟩
        · cases hm
        · exact ⟨_, List.mem_singleton.1 hm⟩
      rw [hlog] at hs
      exact (hst hT).2 ⟨hok, hran.ok_of_succeeded (.inl hn) hr hrej hs⟩

end MysqlServiceProxy

end TrpcMysql
