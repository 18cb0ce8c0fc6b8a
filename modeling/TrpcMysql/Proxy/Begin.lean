import TrpcMysql.Proxy.Transaction

/-!
# Calls without a handle

What `Query`, `AsyncQuery`, `Begin` and `AsyncBegin` leave: they give up every executor that they got. A
`Begin` whose 'begin' fails drops an executor that is still connected, unless the status of its context says
that all is well (`Known.BeginsWell`).
-/

namespace TrpcMysql

open Function Conc

variable {T : Terms} {i : ℕ} {c : Call} {v v' v'' : View} {e : ExecId} {x : CtxId} {q : Sql}
  {args : List InputArg} {r : MysqlResults} {mode : MysqlResultsMode} {sends : Sql → Prop}

/-- A call without a handle, and without an executor. -/
structure View.Free (v : View) : Prop extends v.Own where
  exec : v.exec = none

theorem View.Free.finished (hv : v.Free) : v.Finished T where
  copy := hv.copy
  exec _ := hv.exec
  held e he := by rw [hv.exec] at he; cases he

/-- The steps that may turn a call of `Begin` away once it has an executor. -/
def MysqlServiceProxy.TurnsBack (x : CtxId) (o : WorldOp) : Prop :=
  o = .checkTimeout x ∨ o = .runFilters .preSendMsg x

/-- A call of `Begin` that comes to send its 'begin' is not turned away, its status is OK, and 'begin' succeeds. -/
structure Known.BeginsWell (K : Known) : Prop where
  contexts : K.contexts
  smooth : ∀ x w o, MysqlServiceProxy.TurnsBack x o ∨ o = .runFilters .postRecvMsg x → K.smooth (.begin x) w o
  succeed : ∀ x, (K.given (.begin x)).succeed
  status : ∀ x w, K.fit (.begin x) w (.checkTimeout x) → (w.ctxs x).status.ok = true
  asyncSmooth : ∀ x w o, MysqlServiceProxy.TurnsBack x o → K.smooth (.asyncBegin x) w o
  asyncSucceed : ∀ x, (K.given (.asyncBegin x)).succeed

namespace MysqlServiceProxy

open MysqlExecutorPool (Got getExecutor_safe)

/-! ## Queries -/

/-- What a call leaves, and tells. -/
structure Answered (T : Terms) (c : Call) (x : CtxId) (sends : Sql → Prop) (r : MysqlResults) (v v' : View) : Prop
    where
  free : v'.Free
  ctxId : v'.ctxId = some x
  told : Told T c sends r v v'

theorem Answered.filtered {pt : FilterPoint} {pass : Bool} (h : Answered T c x sends r v v')
    (hf : Filtered T c v' pt x v'' pass) : Answered T c x sends r v v'' := by
  have ht := h.told.filtered hf
  obtain ⟨⟨cx, l, rfl⟩, -, -, -, -⟩ := hf
  exact ⟨⟨⟨h.free.live, h.free.hand, h.free.copy⟩, h.free.exec⟩, h.ctxId, ht⟩

/-- The last filters, and the status. -/
theorem answered_safe {α : Type} {y : α} (h : Answered T c x sends r v v') : T.Safe i c v' (do
      let _ ← wop (.runFilters .postRpcInvoke x)
      return (← wop (.getStatus x), y)) fun v'' out =>
        Answered T c x sends r v v'' ∧ (T.contexts → out.1 = v''.ctx.status) := by
  refine safe_bind (safe_runFilters h.free.live h.ctxId) fun v₁ pass h₁ => ?_
  have ha := h.filtered h₁
  refine safe_bind (safe_getStatus ha.free.live ha.ctxId) fun v₂ st h₂ => ?_
  obtain ⟨rfl, hst⟩ := h₂
  exact ⟨ha, hst⟩

/-- The verdict of the first filters. -/
theorem answered_rejected {pass : Bool} (hv : v.Free) (hx : v.ctxId = some x) (hlog : v.log = [])
    (hf : Filtered T c v .preRpcInvoke x v' pass) (hpass : pass = false) : Answered T c x sends r v v' := by
  subst hpass
  have hun : Unsent v'.log := by
    intro e ev hm
    rw [hf.log, hlog] at hm
    simp at hm
  have hst := hf.rejected
  obtain ⟨⟨cx, l, rfl⟩, -, -, -, -⟩ := hf
  exact ⟨⟨⟨hv.live, hv.hand, hv.copy⟩, hv.exec⟩, hx, .failed (fun hT _ => hst hT rfl) hun.not_succeeded⟩

/-- What the first filters let pass. -/
theorem free_passed (hv : v.Free) (hx : v.ctxId = some x) (hlog : v.log = [])
    (hf : Filtered T c v .preRpcInvoke x v' true) : v'.Free ∧ v'.ctxId = some x ∧ v'.log = [] := by
  have hl := hf.log
  obtain ⟨⟨cx, l, rfl⟩, -, -, -, -⟩ := hf
  exact ⟨⟨⟨hv.live, hv.hand, hv.copy⟩, hv.exec⟩, hx, by rw [hl, hlog]; rfl⟩

theorem View.Stays.free (h : v.Stays v') (hv : v.Free) : v'.Free :=
  ⟨⟨h.live.trans hv.live, h.hand.trans hv.hand, h.copy.trans hv.copy⟩, h.exec.trans hv.exec⟩

/-- **A synchronous query.** -/
theorem query_safe (hv : v.Free) (hx : v.ctxId = some x) (hlog : v.log = []) {t : Bytes} :
    T.Safe i c v (query x r (.user t) args) fun v' out =>
      Answered T c x (Sql.Sent r.mode (.user t) args) r v v' ∧ (T.contexts → out.1 = v'.ctx.status) := by
  refine safe_bind (safe_runFilters hv.live hx) fun v₁ pass h₁ => ?_
  cases pass with
  | false => exact answered_safe (answered_rejected hv hx hlog h₁ rfl)
  | true =>
    obtain ⟨hv₁, hx₁, hlog₁⟩ := free_passed hv hx hlog h₁
    refine safe_bind (unaryInvoke_safe hv₁.live hx₁ hlog₁ fun cx =>
      task_borrow (v := v₁.at cx []) ⟨hv₁.live, hv₁.hand, hv₁.copy⟩ hv₁.exec hx₁) fun v₂ r₂ h₂ => ?_
    obtain ⟨hs, -, hinv⟩ := h₂
    exact answered_safe ⟨View.Stays.free hs hv₁, hs.ctxId.trans hx₁, hinv.told.passed h₁⟩

theorem asyncQuery_safe (hv : v.Free) (hx : v.ctxId = some x) (hlog : v.log = []) {t : Bytes} :
    T.Safe i c v (asyncQuery x mode (.user t) args) fun v' _ => v'.Free := by
  refine safe_bind (safe_runFilters hv.live hx) fun v₁ pass h₁ => ?_
  cases pass with
  | false =>
    have ha : Answered T c x (Sql.Sent mode (.user t) args) { mode := mode } v v₁ :=
      answered_rejected hv hx hlog h₁ rfl
    refine safe_bind (safe_getStatus ha.free.live ha.ctxId) fun v₂ st h₂ => ?_
    obtain ⟨rfl, -⟩ := h₂
    refine safe_bind (safe_runFilters ha.free.live ha.ctxId) fun v₃ pass h₃ => ?_
    exact (ha.filtered h₃).free
  | true =>
    obtain ⟨hv₁, hx₁, hlog₁⟩ := free_passed hv hx hlog h₁
    refine safe_bind (asyncUnaryInvoke_safe hv₁.live hx₁ hlog₁ fun cx =>
      task_borrow (v := v₁.at cx []) ⟨hv₁.live, hv₁.hand, hv₁.copy⟩ hv₁.exec hx₁) fun v₂ out h₂ => ?_
    have hv₂ := View.Stays.free h₂.1 hv₁
    refine safe_bind (safe_runFilters hv₂.live (h₂.1.ctxId.trans hx₁)) fun v₃ pass h₃ => ?_
    obtain ⟨⟨cx, l, rfl⟩, -, -, -, -⟩ := h₃
    exact ⟨⟨hv₂.live, hv₂.hand, hv₂.copy⟩, hv₂.exec⟩

/-! ## `Begin` -/

theorem beginAddr_safe (hl : v.live = true) (hx : v.ctxId = some x) : T.Safe i c v (beginAddr x) fun v' addr =>
    match addr with
    | .ok _ => v' = v
    | .error _ => ∃ cx, v' = { v with ctx := cx } ∧ (T.contexts → cx.status.ok = false) := by
  refine safe_bind (safe_plain hl rfl) fun v₁ addr h₁ => ?_
  subst h₁
  split
  · refine safe_bind (safe_plain hl rfl) fun v₂ found h₂ => ?_
    subst h₂
    cases found with
    | ok addr => rfl
    | error text =>
      refine safe_bind (safe_setStatus hl hx) fun v₃ _ h₃ => ?_
      obtain ⟨cx, rfl, hcx⟩ := h₃
      refine ⟨cx, rfl, fun hT => ?_⟩
      rw [hcx hT]
      rfl
  · rfl

/-- The end of `Begin`: the executor goes into a handle, or it is given up. -/
theorem beginHandle_safe (hv : v'.Own) (hx : v'.ctxId = some x) (hexec : v'.exec = some e) (hok : v'.state.Ok)
    (ht : Told T c sends r v v')
    (hkept : T.kept → v'.state.this.isConnected = false ∨ T.contexts ∧ v'.ctx.status.ok = true) :
    T.Safe i c v' (do
      let handle ← if (← wop (.getStatus x)).ok then
          pure (some (← wop (.newHandle e)))
        else pure none
      let _ ← wop (.runFilters .postRpcInvoke x)
      let s ← wop (.getStatus x)
      if handle.isNone then wop (.release e)
      return (s, handle)) fun v'' out =>
        Answered T c x sends r v v'' ∧ (T.contexts → out.1 = v''.ctx.status) := by
  refine safe_bind (safe_getStatus hv.live hx) fun v₁ st h₁ => ?_
  obtain ⟨rfl, hst⟩ := h₁
  -- an OK status gives a handle the executor, any other gives the executor back to its pool
  cases hs : st.ok with
  | true =>
    refine safe_bind (safe_newHandle hv.live hexec hv.hand hok) fun v₂ hd h₂ => ?_
    obtain ⟨g, rfl⟩ := h₂
    have ha : Answered T c x sends r v { v₁ with exec := none, grip := g } :=
      ⟨⟨⟨hv.live, hv.hand, hv.copy⟩, rfl⟩, hx, ⟨ht.succeeded, ht.stays⟩⟩
    exact answered_safe (y := some hd) ha
  | false =>
    refine safe_bind (R := fun v₂ handle => v₂ = v₁ ∧ handle = none) ⟨rfl, rfl⟩ fun v₂ handle h₂ => ?_
    obtain ⟨rfl, rfl⟩ := h₂
    refine safe_bind (safe_runFilters hv.live hx) fun v₃ pass h₃ => ?_
    have ht₃ := ht.filtered h₃
    obtain ⟨⟨cx, l, rfl⟩, -, -, -, -⟩ := h₃
    refine safe_bind (safe_getStatus (v := { v₂ with ctx := cx, log := l }) hv.live hx) fun v₃ st₃ h₃ => ?_
    obtain ⟨rfl, hst₃⟩ := h₃
    refine safe_bind (safe_release (v := { v₂ with ctx := cx, log := l }) hv.live hexec hv.hand hv.copy fun hT => ?_)
      fun v₄ _ h₄ => ?_
    · rcases hkept hT with hdown | ⟨hC, hup⟩
      · exact hdown
      · rw [← hst hC, hs] at hup
        cases hup
    · obtain ⟨g, rfl⟩ := h₄
      exact ⟨⟨⟨⟨hv.live, hv.hand, hv.copy⟩, rfl⟩, hx, ⟨ht₃.succeeded, ht₃.stays⟩⟩, hst₃⟩

/-- **`Begin` with an executor from the pool.** -/
theorem beginOn_safe (hv : v.Own) (hx : v.ctxId = some x) (hlog : v.log = []) (hexec : v.exec = some e)
    (hok : v.state.Ok) (hdown : v.state.this.isConnected = false → v.state.Down)
    (hkept : T.kept → T.BeginsWell) :
    T.Safe i (.begin x) v (beginOn x e) fun v' out =>
      Answered T (.begin x) x (· = .begin) { mode := .onlyExec } v v' ∧ (T.contexts → out.1 = v'.ctx.status) := by
  refine safe_bind (isConnected_safe hv.live hexec) fun v₁ b h₁ => ?_
  obtain ⟨rfl, rfl⟩ := h₁
  -- an executor that did not connect answers with its own error, without a statement
  cases hc : v₁.state.this.isConnected with
  | false =>
    refine safe_bind (connectionFailed_safe hv.live hexec hx) fun v₂ m h₂ => ?_
    obtain ⟨s, cx, rfl, hf, hst⟩ := h₂
    refine beginHandle_safe ⟨hv.live, hv.hand, hv.copy⟩ hx hexec (hf.ok hok)
      (.failed (fun hT hn => hst hT hn (hdown hc)) fun hs => ?_) fun _ => .inl ?_
    · obtain ⟨-, e', id, _, rfl, hm⟩ := hs
      have hm : Note.sql e' (.acked id .begin) ∈ v₁.log := hm
      rw [hlog] at hm
      cases hm
    · rw [hf.this]
      exact hc
  | true =>
    refine safe_bind (unaryInvoke_safe hv.live hx hlog fun cx =>
      task_own (v := v₁.at cx []) hv.live hexec hok hc (.inr ⟨rfl, rfl⟩)) fun v₂ r' h₂ => ?_
    obtain ⟨hs, ⟨w, -, hctx, hfit⟩, hinv⟩ := h₂
    have hok₂ : v₂.state.Ok := by
      cases hinv with
      | away _ hstate _ _ _ => rw [hstate]; exact hok
      | refused _ hno _ _ => rw [hexec] at hno; cases hno
      | ran hran _ _ _ hown =>
        rcases hown with hno | ⟨-, -, rfl⟩
        · rw [hexec] at hno; cases hno
        · exact hran.ran.ok
    refine beginHandle_safe ⟨hs.live.trans hv.live, hs.hand.trans hv.hand, hs.copy.trans hv.copy⟩ (hs.ctxId.trans hx)
      (hs.exec.trans hexec) hok₂ hinv.told fun hT => .inr ?_
    -- the status is OK, because nothing went wrong
    have hK := hkept hT
    refine ⟨hK.contexts, ?_⟩
    have hstart : v₁.ctx.status.ok = true := by
      rw [hctx hK.contexts x hx]
      exact hK.status x w hfit
    cases hinv with
    | away _ _ _ _ hrough =>
      rcases hrough with ⟨w', -, hno⟩ | ⟨w', -, hno⟩
      · exact absurd (hK.smooth x w' _ (.inl (.inl rfl))) hno
      · exact absurd (hK.smooth x w' _ (.inl (.inr rfl))) hno
    | refused _ hno _ _ => rw [hexec] at hno; cases hno
    | ran hran _ hpost hst _ =>
      refine (hst hK.contexts).2 ⟨hstart, hran.ran.succeed (hK.succeed x) ⟨rfl, rfl⟩ rfl, ?_⟩
      rcases hpost with rfl | ⟨-, w', -, hno⟩
      · rfl
      · exact absurd (hK.smooth x w' _ (.inr rfl)) hno

/-- **`Begin`.** -/
theorem begin_safe (hv : v.Free) (hx : v.ctxId = some x) (hlog : v.log = []) (hkept : T.kept → T.BeginsWell) :
    T.Safe i (.begin x) v (begin x) fun v' out =>
      Answered T (.begin x) x (· = .begin) { mode := .onlyExec } v v' ∧ (T.contexts → out.1 = v'.ctx.status) := by
  refine safe_bind (safe_runFilters hv.live hx) fun v₁ pass h₁ => ?_
  cases pass with
  | false => exact answered_safe (answered_rejected hv hx hlog h₁ rfl)
  | true =>
    obtain ⟨hv₁, hx₁, hlog₁⟩ := free_passed hv hx hlog h₁
    refine safe_bind (beginAddr_safe hv₁.live hx₁) fun v₂ addr h₂ => ?_
    cases addr with
    | error text =>
      obtain ⟨cx, rfl, hst⟩ := h₂
      refine safe_bind (safe_getStatus (v := { v₁ with ctx := cx }) hv₁.live hx₁) fun v₃ st h₃ => ?_
      obtain ⟨rfl, hst₃⟩ := h₃
      refine ⟨⟨⟨⟨hv₁.live, hv₁.hand, hv₁.copy⟩, hv₁.exec⟩, hx₁, .failed (fun hT _ => hst hT) fun hs => ?_⟩, hst₃⟩
      obtain ⟨-, e', id, _, rfl, hm⟩ := hs
      have hm : Note.sql e' (.acked id .begin) ∈ v₁.log := hm
      rw [hlog₁] at hm
      cases hm
    | ok addr =>
      subst h₂
      refine safe_bind (MysqlExecutorPoolManager.get_safe hv₁.live addr) fun v₃ p h₃ => ?_
      subst h₃
      refine safe_bind (getExecutor_safe (v := { v₂ with pool := some p }) ⟨hv₁.live, hv₁.hand, hv₁.copy⟩ hv₁.exec)
        fun v₄ e h₄ => ?_
      obtain ⟨hnear, hexec, hsober, hdown⟩ := h₄
      have hv₄ : v₄.Own := ⟨hnear.live.trans hv₁.live, hnear.hand.trans hv₁.hand, hnear.copy.trans hv₁.copy⟩
      refine safe_mono (beginOn_safe hv₄ (hnear.ctxId.trans hx₁) (hnear.log.trans hlog₁) hexec hsober.1 hdown hkept)
        fun v₅ out h₅ => ?_
      obtain ⟨ha, hst⟩ := h₅
      refine ⟨⟨ha.free, ha.ctxId, ⟨fun hT hn hok => ?_, fun hT hn hr hok hs => ?_⟩⟩, hst⟩
      · obtain ⟨h', hs⟩ := ha.told.succeeded hT hn hok
        rw [hnear.ctx] at h'
        exact ⟨by rw [← h₁.passed hT rfl]; exact h', hs⟩
      · refine ha.told.stays hT hn hr ?_ hs
        rw [hnear.ctx]
        have := h₁.passed hT rfl
        exact this ▸ hok

/-- **`AsyncBegin` with an executor from the pool.** -/
theorem asyncBeginOn_safe (hv : v.Own) (hx : v.ctxId = some x) (hlog : v.log = []) (hexec : v.exec = some e)
    (hok : v.state.Ok) (hkept : T.kept → T.BeginsWell) :
    T.Safe i (.asyncBegin x) v (asyncBeginOn x e) fun v' _ => v'.Free := by
  refine safe_bind (isConnected_safe hv.live hexec) fun v₁ b h₁ => ?_
  obtain ⟨rfl, rfl⟩ := h₁
  cases hc : v₁.state.this.isConnected with
  | false =>
    refine safe_bind (connectionFailed_safe hv.live hexec hx) fun v₂ m h₂ => ?_
    obtain ⟨s, cx, rfl, hf, -⟩ := h₂
    refine safe_bind (safe_release (v := { v₁ with state := s, ctx := cx }) hv.live hexec hv.hand hv.copy fun _ => ?_)
      fun v₃ _ h₃ => ?_
    · rw [show ({ v₁ with state := s, ctx := cx } : View).state = s from rfl, hf.this]
      exact hc
    · obtain ⟨g, rfl⟩ := h₃
      exact ⟨⟨hv.live, hv.hand, hv.copy⟩, rfl⟩
  | true =>
    refine safe_bind (asyncUnaryInvoke_safe hv.live hx hlog fun cx =>
      task_own (v := v₁.at cx []) hv.live hexec hok hc (.inr ⟨rfl, rfl⟩)) fun v₂ out h₂ => ?_
    obtain ⟨hs, hinv⟩ := h₂
    have hv₂ : v₂.Own := ⟨hs.live.trans hv.live, hs.hand.trans hv.hand, hs.copy.trans hv.copy⟩
    have hok₂ : v₂.state.Ok := by
      cases hinv with
      | away _ hstate _ _ => rw [hstate]; exact hok
      | refused _ hno => rw [hexec] at hno; cases hno
      | ran hran _ _ _ hown =>
        rcases hown with hno | ⟨-, -, rfl⟩
        · rw [hexec] at hno; cases hno
        · exact hran.ran.ok
    cases out with
    | ok r' =>
      refine safe_bind (safe_newHandle hv₂.live (hs.exec.trans hexec) hv₂.hand hok₂) fun v₃ hd h₃ => ?_
      obtain ⟨g, rfl⟩ := h₃
      exact ⟨⟨hv₂.live, hv₂.hand, hv₂.copy⟩, rfl⟩
    | error m =>
      refine safe_bind (safe_release hv₂.live (hs.exec.trans hexec) hv₂.hand hv₂.copy fun hT => ?_) fun v₃ _ h₃ => ?_
      · -- the 'begin' did not fail
        have hK := hkept hT
        cases hinv with
        | away _ _ _ hrough =>
          rcases hrough with ⟨w', -, hno⟩ | ⟨w', -, hno⟩
          · exact absurd (hK.asyncSmooth x w' _ (.inl rfl)) hno
          · exact absurd (hK.asyncSmooth x w' _ (.inr rfl)) hno
        | refused _ hno => rw [hexec] at hno; cases hno
        | ran hran _ _ hout _ =>
          rw [if_pos (hran.ran.succeed (hK.asyncSucceed x) ⟨rfl, rfl⟩ rfl)] at hout
          cases hout
      · obtain ⟨g, rfl⟩ := h₃
        exact ⟨⟨hv₂.live, hv₂.hand, hv₂.copy⟩, rfl⟩

/-- **`AsyncBegin`.** -/
theorem asyncBegin_safe (hv : v.Free) (hx : v.ctxId = some x) (hlog : v.log = []) (hkept : T.kept → T.BeginsWell) :
    T.Safe i (.asyncBegin x) v (asyncBegin x) fun v' _ => v'.Free := by
  refine safe_bind (safe_runFilters hv.live hx) fun v₁ pass h₁ => ?_
  cases pass with
  | false =>
    have ha : Answered T (.asyncBegin x) x (· = .begin) { mode := .onlyExec } v v₁ :=
      answered_rejected hv hx hlog h₁ rfl
    refine safe_bind (safe_getStatus ha.free.live ha.ctxId) fun v₂ st h₂ => ?_
    obtain ⟨rfl, -⟩ := h₂
    refine safe_bind (safe_runFilters ha.free.live ha.ctxId) fun v₃ pass h₃ => ?_
    exact (ha.filtered h₃).free
  | true =>
    obtain ⟨hv₁, hx₁, hlog₁⟩ := free_passed hv hx hlog h₁
    refine safe_bind (beginAddr_safe hv₁.live hx₁) fun v₂ addr h₂ => ?_
    cases addr with
    | error text =>
      obtain ⟨cx, rfl, -⟩ := h₂
      exact ⟨⟨hv₁.live, hv₁.hand, hv₁.copy⟩, hv₁.exec⟩
    | ok addr =>
      subst h₂
      refine safe_bind (MysqlExecutorPoolManager.get_safe hv₁.live addr) fun v₃ p h₃ => ?_
      subst h₃
      refine safe_bind (getExecutor_safe (v := { v₂ with pool := some p }) ⟨hv₁.live, hv₁.hand, hv₁.copy⟩ hv₁.exec)
        fun v₄ e h₄ => ?_
      obtain ⟨hnear, hexec, hsober, -⟩ := h₄
      exact asyncBeginOn_safe ⟨hnear.live.trans hv₁.live, hnear.hand.trans hv₁.hand, hnear.copy.trans hv₁.copy⟩
        (hnear.ctxId.trans hx₁) (hnear.log.trans hlog₁) hexec hsober.1 hkept

end MysqlServiceProxy

end TrpcMysql
