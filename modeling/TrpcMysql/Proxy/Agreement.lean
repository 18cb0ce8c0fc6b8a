import TrpcMysql.Proxy.Sequences

/-!
# The two interfaces agree

A call of the synchronous interface and the asynchronous call of the same request run side by side, on worlds that
differ in the contexts and the history only. They perform the same steps but on their contexts: a synchronous call
looks at the status to see whether it failed, where an asynchronous one has its future. `Issue.Fits` is what keeps the
two together, and every function has its lemma: `invoke_twin`, `query_twin`, `queryTx_twin`, `begin_twin`,
`commit_twin`, `rollback_twin`.

`interfaces_agree`: while every step finds what it must, the results are the same for every sequence of requests.
They are not without it: a `Commit` that the filters reject ends the transaction by one interface only
(`rejected_commit_disagrees`).
-/

namespace TrpcMysql

open Function Conc MysqlExecutorPool MysqlServiceProxy

namespace World

variable {w : World} {x : CtxId} {e : ExecId}

@[simp] theorem core_setCtx (cx : ClientContext) : (w.setCtx x cx).core = w.core := rfl

@[simp] theorem core_record (i : ℕ) (notes : List Note) : (w.record i notes).core = w.core := rfl

end World

section Functions

variable {c : Issue} {s t : World × ℕ} {x : CtxId} {e : ExecId} {h : HandleId} {α β : Type}
  {R : α → World × ℕ → β → World × ℕ → Prop}

/-! ## Steps on one side -/

/-- What the first side keeps while it touches its context only. -/
structure FirstSide (x : CtxId) (b : Bool) (s s' t : World × ℕ) : Prop where
  same : Same s' t
  handles : s'.1.handles = s.1.handles
  status : (s'.1.ctxs x).status.ok = b

/-- The filters after a call. -/
theorem twin_post {pt : FilterPoint} {f : Bool → WProg α} {q : WProg β} (hst : Same s t)
    (hpt : pt = .postRecvMsg ∨ pt = .postRpcInvoke)
    (hf : ∀ b s', FirstSide x (s.1.ctxs x).status.ok s s' t → c.Twin R (f b) q s' t) :
    c.Twin R (wop (.runFilters pt x) >>= f) q s t := by
  refine twin_live hst fun hl _ => Prog.twin_left (exec_live hl) fun hfit => hf _ _ ⟨⟨hst.1, hst.2⟩, rfl, ?_⟩
  have hstatus : (((c.outcome.answer s.2 (.runFilters pt x)).status.getD (s.1.ctxs x).status).ok : Bool) =
      (s.1.ctxs x).status.ok := by
    rcases hpt with rfl | rfl <;> simpa [Issue.Fits, Request.fits] using hfit
  simpa [worldStep, World.record, World.setCtx] using hstatus

/-- A status that is set tells of a failure. -/
theorem twin_setStatus {st : Status} {f : Unit → WProg α} {q : WProg β} (hst : Same s t)
    (hf : ∀ s', FirstSide x false s s' t → c.Twin R (f ()) q s' t) :
    c.Twin R (wop (.setStatus x st) >>= f) q s t := by
  refine twin_live hst fun hl _ => Prog.twin_left (exec_live hl) fun hfit => hf _ ⟨⟨hst.1, hst.2⟩, rfl, ?_⟩
  have hbad : st.ok = false := by simpa [Issue.Fits, Request.fits] using hfit
  simpa [worldStep, World.setCtx] using hbad

theorem twin_getStatus {f : Status → WProg α} {q : WProg β} (hst : Same s t)
    (hf : c.Twin R (f (s.1.ctxs x).status) q s t) : c.Twin R (wop (.getStatus x) >>= f) q s t :=
  twin_live hst fun hl _ => Prog.twin_left (exec_live hl) fun _ => hf

/-- A step of the second side on its context. -/
theorem twin_right {o : WorldOp} {p : WProg α} {g : o.Reply → WProg β} (hst : Same s t)
    (ho : ∀ n w, ∃ r w', worldStep 0 o (c.outcome.answer n o) w = some (r, w') ∧ w'.core = w.core)
    (hask : o.asks = false) (hg : ∀ r t', Same s t' → c.Twin R p (g r) s t') : c.Twin R p (wop o >>= g) s t := by
  refine twin_live hst fun _ hl => ?_
  obtain ⟨r, w', hstep, hcore⟩ := ho t.2 t.1
  have he : c.outcome.machine.exec o t = some (r, w', t.2) := by rw [exec_live hl, hstep, hask]; rfl
  exact Prog.twin_right he (hg r _ ⟨hst.1.trans hcore.symm, hst.2⟩)

theorem twin_filters_right {pt : FilterPoint} {p : WProg α} {g : Bool → WProg β} (hst : Same s t)
    (hg : ∀ b t', Same s t' → c.Twin R p (g b) s t') : c.Twin R p (wop (.runFilters pt x) >>= g) s t :=
  twin_right hst (fun _ _ => ⟨_, _, rfl, rfl⟩) rfl hg

theorem twin_getStatus_right {p : WProg α} {g : Status → WProg β} (hst : Same s t)
    (hg : ∀ st t', Same s t' → c.Twin R p (g st) s t') : c.Twin R p (wop (.getStatus x) >>= g) s t :=
  twin_right hst (fun _ _ => ⟨_, _, rfl, rfl⟩) rfl hg

theorem twin_setStatus_right {st : Status} {p : WProg α} {g : Unit → WProg β} (hst : Same s t)
    (hg : ∀ r t', Same s t' → c.Twin R p (g r) s t') : c.Twin R p (wop (.setStatus x st) >>= g) s t :=
  twin_right hst (fun _ _ => ⟨_, _, rfl, rfl⟩) rfl hg

/-- A part of both sides that touches no context. -/
theorem twin_aside {γ : Type} {p : WProg γ} {f : γ → WProg α} {g : γ → WProg β} (hp : p.Uses Aside) (hst : Same s t)
    (hf : ∀ a s' t', Same s' t' → s'.1.ctxs = s.1.ctxs → c.Twin R (f a) (g a) s' t') :
    c.Twin R (p >>= f) (p >>= g) s t := by
  refine ((hst.twin hp).and (sure_aside hp)).bind fun a s' b t' h => ?_
  obtain ⟨⟨rfl, hst'⟩, hctxs⟩ := h
  exact hf a s' t' hst' hctxs

theorem twin_pure {a : α} {b : β} (hst : Same s t) (hr : R a s b t) :
    c.Twin R (pure a) (pure b) s t := Prog.twin_ret hst.aborted hr

/-! ## Programs of an executor -/

section Executor

variable {ends : Bool} {y : ExecSt} {Q : α → ExecSt → Prop}

theorem xfits_op {o : ClientOp} {f : o.Reply → XProg α}
    (hf : ∀ a, o.fits ends a y = true → ∀ r y', clientExec o a y = some (r, y') → XFits ends (f r) Q y') :
    XFits ends (xop o >>= f) Q y := fun a ha => ⟨trivial, fun r y' he => hf a ha r y' he⟩

theorem xfits_getThis {f : ExecutorFields → XProg α} (hf : XFits ends (f y.this) Q y) :
    XFits ends (getThis >>= f) Q y := xfits_op fun a _ r y' he => by cases he; exact hf

/-- `CheckAlive` finds a connected executor, and where a transaction ends it finds it so. -/
theorem checkAlive_fits : XFits ends MysqlExecutor.checkAlive
    (fun alive y' => (alive = true → y'.this.isConnected = true) ∧
      (ends = true → y.this.isConnected = true → y.this.mysql.isSome = true → alive = true)) y := by
  refine xfits_getThis ?_
  -- where the executor is not connected, the result is false
  have hoff : ∀ {y' : ExecSt}, (ends = true → y.this.isConnected = true → y.this.mysql.isSome = true → False) →
      XFits ends (setConnected false >>= fun _ => pure false) (fun alive y' =>
        (alive = true → y'.this.isConnected = true) ∧
          (ends = true → y.this.isConnected = true → y.this.mysql.isSome = true → alive = true)) y' :=
    fun hno => xfits_op fun _ _ _ _ _ => ⟨fun h => (by cases h), fun he hc hm => (hno he hc hm).elim⟩
  cases hc : y.this.isConnected with
  | false => exact ⟨fun h => (by cases h), fun _ h => (by cases h)⟩
  | true =>
    rw [hc] at hoff
    cases hm : y.this.mysql with
    | none =>
      rw [hm] at hoff
      exact hoff fun _ _ h => (by cases h)
    | some p =>
      rw [hm] at hoff
      refine xfits_op fun a hfit pong y₂ hp => ?_
      simp only [clientExec] at hp
      split at hp
      · obtain ⟨rfl, rfl⟩ : true = pong ∧ _ = y₂ := by simpa using hp
        refine ⟨fun _ => ?_, fun _ _ _ => rfl⟩
        simp only [ExecSt.enter, ExecSt.setMysql]
        split <;> exact hc
      · rename_i hnone
        obtain ⟨rfl, rfl⟩ : false = pong ∧ _ = y₂ := by simpa using hp
        refine hoff fun hends _ _ => ?_
        simp [ClientOp.fits, ExecSt.answers, hnone, hends] at hfit

/-- A ROLLBACK that the server takes leaves results without an error. -/
theorem rollback_fits : XFits ends (MysqlExecutor.runStatement { mode := .onlyExec } .rollback [])
    (fun out _ => out.2.ok = true) y := by
  refine xfits_getThis (xfits_op fun a hfit sent y₂ he => ?_)
  cases hm : y.this.mysql with
  | none => rw [hm] at he; cases he
  | some p =>
    rw [hm] at he hfit
    simp only [ClientOp.fits, ExecSt.answers, Bool.and_eq_true] at hfit
    obtain ⟨σ, hσ⟩ := Option.isSome_iff_exists.1 hfit.1
    simp only [clientExec, hσ, hfit.2] at he
    obtain ⟨rfl, -⟩ : true = sent ∧ _ = y₂ := by simpa using he
    exact xfits_getThis (xfits_op fun _ _ _ _ _ => rfl)

end Executor

/-! ## Tasks -/

theorem sure_setStatus {Q : α → World × ℕ → Prop} {st : Status} {f : Unit → WProg α}
    (hf : ∀ s', (s'.1.ctxs x).status.ok = false → c.Sure Q (f ()) s') : c.Sure Q (wop (.setStatus x st) >>= f) s := by
  refine Prog.sure_op fun _ s' hfit he => hf s' ?_
  have hw := (machine_exec he).2
  simp only [worldStep, Option.some.injEq, Prod.mk.injEq, true_and] at hw
  have hbad : st.ok = false := by simpa [Issue.Fits, Request.fits] using hfit
  rw [← hw]
  simpa [World.setCtx] using hbad

theorem connectionFailed_sure : c.Sure (fun _ s' => (s'.1.ctxs x).status.ok = false) (connectionFailed x e) s :=
  (sure_any _).bind fun _ _ _ => (sure_any _).bind fun _ _ _ => (sure_any _).bind fun _ _ _ =>
    sure_setStatus fun _ hbad => Prog.sure_ret hbad

/-- The task of a call: the context is as before, or it tells of the failed connection. -/
def TaskLeaves (x : CtxId) (q : Sql) (s : World × ℕ) (out : Except String MysqlResults) (s' : World × ℕ) : Prop :=
  match out with
  | .error _ => (s'.1.ctxs x).status.ok = false
  | .ok r' => (s'.1.ctxs x).status = (s.1.ctxs x).status ∧ (q = .rollback → r'.ok = true)

variable {q : Sql} {r : MysqlResults} {args : List InputArg}

theorem runStatement_sure (hq : q = .rollback → r = { mode := .onlyExec } ∧ args = []) :
    c.Sure (fun out s' => s'.1.ctxs = s.1.ctxs ∧ (q = .rollback → out.2.ok = true))
      (onExecutor e (MysqlExecutor.runStatement r q args)) s := by
  by_cases hroll : q = .rollback
  · obtain ⟨rfl, rfl⟩ := hq hroll
    subst hroll
    exact (sure_executor rollback_fits).mono fun out s' h => ⟨h.2.1, fun _ => h.1⟩
  · exact (sure_aside (aside_onExecutor _)).mono fun out s' h => ⟨h, fun h' => (hroll h').elim⟩

theorem isConnected_sure : c.Sure (fun b s' => b = (s.1.execs e).this.isConnected ∧ s'.1.execs e = s.1.execs e ∧
    s'.1.ctxs = s.1.ctxs) (isConnected e) s := by
  have hfits : XFits c.request.ends MysqlExecutor.isConnected
      (fun b y => b = (s.1.execs e).this.isConnected ∧ y = s.1.execs e) (s.1.execs e) := xfits_getThis ⟨rfl, rfl⟩
  exact (sure_executor hfits).mono fun b s' h => ⟨h.1.1, h.1.2, h.2.1⟩

/-- The task of a call with an executor. -/
theorem ownTask_sure (hq : q = .rollback → r = { mode := .onlyExec } ∧ args = []) :
    c.Sure (fun out s' => TaskLeaves x q s out s' ∧ ((s.1.execs e).this.isConnected = true → out.isOk = true))
      (ownTask x e r q args) s := by
  refine isConnected_sure.bind fun b s₁ h₁ => ?_
  obtain ⟨rfl, -, hctxs⟩ := h₁
  cases hc : (s.1.execs e).this.isConnected with
  | false => exact connectionFailed_sure.bind fun message s₂ h₂ => Prog.sure_ret ⟨h₂, fun h => (by cases h)⟩
  | true =>
    refine (runStatement_sure hq).bind fun out s₂ h₂ => Prog.sure_ret ⟨⟨?_, h₂.2⟩, fun _ => rfl⟩
    rw [h₂.1, hctxs]

/-- The task of a call without an executor. -/
theorem borrowTask_sure (hq : q = .rollback → r = { mode := .onlyExec } ∧ args = []) :
    c.Sure (fun out s' => TaskLeaves x q s out s') (borrowTask x r q args) s := by
  have hget : c.Sure (fun _ s' => s'.1.ctxs = s.1.ctxs) (wop (.getNodeAddr x)) s :=
    Prog.sure_op fun addr s₁ _ he => by
      have hw := (machine_exec he).2
      simp only [worldStep, Option.some.injEq, Prod.mk.injEq] at hw
      exact Prog.sure_ret (by rw [← hw.2])
  refine hget.bind fun addr s₁ h₁ => (sure_aside (still_aside (pooled_still (pooled_get addr)))).bind fun p s₂ h₂ =>
    (sure_aside (still_aside (pooled_still pooled_getExecutor))).bind fun conn s₃ h₃ =>
      isConnected_sure.bind fun b s₄ h₄ => ?_
  have hctxs : s₄.1.ctxs = s.1.ctxs := h₄.2.2.trans (h₃.trans (h₂.trans h₁))
  cases b with
  | false =>
    refine connectionFailed_sure.bind fun message s₅ h₅ => ?_
    refine (sure_aside (uses_wop (o := .release conn) trivial)).bind fun _ s₆ h₆ => Prog.sure_ret ?_
    have hstatus : (s₆.1.ctxs x).status.ok = false := by rw [h₆]; exact h₅
    exact hstatus
  | true =>
    refine (runStatement_sure hq).bind fun out s₅ h₅ =>
      (sure_aside (still_aside (pooled_still pooled_reclaim))).bind fun kept s₆ h₆ => ?_
    have hctxs₆ : s₆.1.ctxs = s.1.ctxs := h₆.trans (h₅.1.trans hctxs)
    cases kept with
    | true => exact Prog.sure_ret ⟨by rw [hctxs₆], h₅.2⟩
    | false =>
      refine (sure_aside (uses_wop (o := .release conn) trivial)).bind fun _ s₇ h₇ => Prog.sure_ret ⟨?_, h₅.2⟩
      rw [h₇, hctxs₆]

/-- The task that both kinds of invocation hand to the thread pool. -/
theorem task_sure (executor : Option ExecId) (hq : q = .rollback → r = { mode := .onlyExec } ∧ args = []) :
    c.Sure (fun out s' => TaskLeaves x q s out s' ∧
      ((∃ e, executor = some e ∧ (s.1.execs e).this.isConnected = true) → out.isOk = true))
      (task x executor r q args) s := by
  cases executor with
  | none => exact (borrowTask_sure hq).mono fun out s' h => ⟨h, fun ⟨e, he, _⟩ => (by cases he)⟩
  | some e =>
    refine (ownTask_sure hq).mono fun out s' h => ⟨h.1, fun ⟨e', he, hc⟩ => ?_⟩
    cases he
    exact h.2 hc

/-! ## Invocations -/

/-- The filters before a call. -/
theorem twin_pre {pt : FilterPoint} {f : Bool → WProg α} {g : Bool → WProg β}
    (hf : ∀ s', c.Fits (.runFilters pt x) s → s'.1.core = s.1.core →
      (s'.1.ctxs x).status = (c.outcome.status pt).getD (s.1.ctxs x).status →
      c.Twin R (f (c.outcome.pass pt)) (g (c.outcome.pass pt)) s' s') :
    c.Twin R (wop (.runFilters pt x) >>= f) (wop (.runFilters pt x) >>= g) s s := by
  refine Prog.twin_op fun b s' hfit he => ?_
  have hw := (machine_exec he).2
  simp only [worldStep, Option.some.injEq, Prod.mk.injEq] at hw
  obtain ⟨rfl, hw⟩ := hw
  refine hf s' hfit (by rw [← hw]; rfl) ?_
  rw [← hw]
  simp only [World.record, World.setCtx, update_self]
  rfl

/-- The results of a statement, as both interfaces give them. -/
def GivenAlike (q : Sql) (r : MysqlResults) (out : Future MysqlResults) : Prop :=
  out = (if r.ok then .ok r else .error r.errorMessage) ∧ (q = .rollback → r.ok = true)

/-- What the two invocations leave. -/
structure Invokes (c : Issue) (x : CtxId) (q : Sql) (r : MysqlResults) (r' : MysqlResults) (s' : World × ℕ)
    (out : Future MysqlResults) (t' : World × ℕ) : Prop where
  same : Same s' t'
  status : (s'.1.ctxs x).status.ok = out.isOk
  answer : r' = r ∧ out.isOk = false ∧ c.request.ends = false ∨ GivenAlike q r' out

theorem invoke_twin (executor : Option ExecId) (mode : MysqlResultsMode)
    (hq : q = .rollback → mode = .onlyExec ∧ args = [])
    (hcon : c.request.ends = true → ∃ e, executor = some e ∧ (s.1.execs e).this.isConnected = true) :
    c.Twin (Invokes c x q { mode := mode }) (unaryInvoke x executor { mode := mode } q args)
      (asyncUnaryInvoke x executor mode q args) s s := by
  refine Prog.twin_op fun late s₁ hfit₁ he₁ => ?_
  have hw₁ := (machine_exec he₁).2
  simp only [worldStep] at hw₁
  split at hw₁
  · rename_i htime
    obtain ⟨rfl, hs₁⟩ : true = late ∧ _ = s₁.1 := by simpa using hw₁
    have hends : c.request.ends = false := by
      have htime : c.outcome.timedOut = true := htime
      simpa [Issue.Fits, Request.fits, CallOutcome.answer, htime] using hfit₁
    have hbad : (s₁.1.ctxs x).status.ok = false := by
      rw [← hs₁]
      simp only [World.record, World.setCtx, update_self]
      rfl
    exact twin_getStatus_right (.refl _) fun _ t' hst => twin_pure hst ⟨hst, hbad, .inl ⟨rfl, rfl, hends⟩⟩
  obtain ⟨rfl, hs₁⟩ : false = late ∧ s.1 = s₁.1 := by simpa using hw₁
  refine twin_pre fun s₂ hfit₂ hcore hstatus => ?_
  obtain ⟨hpre, hsend⟩ : (s₂.1.ctxs x).status.ok = c.outcome.pass .preSendMsg ∧
      (c.outcome.pass .preSendMsg = true ∨ c.request.ends = false) := by
    have hboth := Bool.and_eq_true_iff.1 hfit₂
    rw [hstatus]
    exact ⟨of_decide_eq_true hboth.1, by simpa [CallOutcome.answer] using hboth.2⟩
  cases hpass : c.outcome.pass .preSendMsg with
  | false =>
    rw [hpass] at hpre hsend
    have hends : c.request.ends = false := hsend.resolve_left (by simp)
    refine twin_filters_right (.refl _) fun _ t₁ hst₁ => twin_filters_right hst₁ fun _ t₂ hst₂ =>
      twin_getStatus_right hst₂ fun _ t₃ hst₃ => twin_post hst₃ (.inl rfl) fun _ s₃ h₃ => ?_
    exact twin_pure h₃.same ⟨h₃.same, h₃.status.trans hpre, .inl ⟨rfl, rfl, hends⟩⟩
  | true =>
    refine Prog.twin_op fun _ s₃ _ he₃ => ?_
    have hs₃ : s₂.1 = s₃.1 := by
      have hw₃ := (machine_exec he₃).2
      simp only [worldStep] at hw₃
      split at hw₃
      · exact congrArg Prod.snd (Option.some.inj hw₃)
      · cases hw₃
    have hexecs : s₃.1.execs = s.1.execs := by
      have hcores : s₃.1.core.execs = s.1.core.execs := by rw [← hs₃, hcore, hs₁]
      exact hcores
    have hfresh : (s₃.1.ctxs x).status.ok = true := by rw [← hs₃, hpre, hpass]
    have hq' : q = .rollback → ({ mode := mode } : MysqlResults) = { mode := .onlyExec } ∧ args = [] :=
      fun h => ⟨by rw [(hq h).1], (hq h).2⟩
    refine Prog.twin_call (task_sure executor hq') fun out s₄ h₄ => ?_
    obtain ⟨hleaves, hconn⟩ := h₄
    cases out with
    | error message =>
      -- there was no connection, which is not so where a transaction ends
      have hends : c.request.ends = false := by
        by_contra hne
        obtain ⟨e, he, hc⟩ := hcon (by simpa using hne)
        have hno := hconn ⟨e, he, by rw [hexecs]; exact hc⟩
        cases hno
      refine twin_filters_right (.refl _) fun _ t₅ hst₅ => twin_post hst₅ (.inl rfl) fun _ s₅ h₅ => ?_
      exact twin_pure h₅.same ⟨h₅.same, h₅.status.trans hleaves, .inl ⟨rfl, rfl, hends⟩⟩
    | ok r' =>
      obtain ⟨hkept, hroll⟩ := hleaves
      refine twin_filters_right (.refl _) fun _ t₅ hst₅ => ?_
      dsimp only
      split
      · rename_i hwrong
        have hr : r'.ok = false := by simpa [Except.toOption] using hwrong
        refine twin_setStatus hst₅ fun s₅ h₅ => twin_post h₅.same (.inl rfl) fun _ s₆ h₆ => ?_
        rw [hr]
        refine twin_pure h₆.same ⟨h₆.same, ?_, .inr ⟨?_, hroll⟩⟩
        · rw [h₆.status, h₅.status]
          rfl
        · exact (if_neg (by simpa [Except.toOption] using hr)).symm
      · rename_i hfine
        have hr : r'.ok = true := by simpa [Except.toOption] using hfine
        refine twin_post hst₅ (.inl rfl) fun _ s₅ h₅ => ?_
        rw [hr]
        refine twin_pure h₅.same ⟨h₅.same, ?_, .inr ⟨?_, hroll⟩⟩
        · rw [h₅.status, hkept, hfresh]
          rfl
        · exact (if_pos hr).symm

/-! ## Queries -/

/-- What a query leaves by the two interfaces; `r` is the fresh results object of the synchronous one. -/
structure Queries (c : Issue) (x : CtxId) (q : Sql) (r : MysqlResults) (a : Status × MysqlResults) (s' : World × ℕ)
    (out : Future MysqlResults) (t' : World × ℕ) : Prop where
  same : Same s' t'
  status : a.1 = (s'.1.ctxs x).status
  told : a.1.ok = out.isOk
  answer : a.2 = r ∧ out.isOk = false ∧ c.request.spared s'.1 = true ∨ GivenAlike q a.2 out

/-- The filters at the end of a query, and its status. -/
theorem twin_end {out : Future MysqlResults} {r₀ : MysqlResults} (hst : Same s t)
    (htold : (s.1.ctxs x).status.ok = out.isOk)
    (hans : r = r₀ ∧ out.isOk = false ∧ c.request.spared s.1 = true ∨ GivenAlike q r out) :
    c.Twin (Queries c x q r₀) (do let _ ← wop (.runFilters .postRpcInvoke x); return (← wop (.getStatus x), r))
      (pure out) s t := by
  refine twin_post hst (.inr rfl) fun _ s₁ h₁ => twin_getStatus h₁.same ?_
  refine twin_pure h₁.same ⟨h₁.same, rfl, h₁.status.trans htold, hans.imp (fun h => ⟨h.1, h.2.1, ?_⟩) id⟩
  have hsp : c.request.spared s₁.1 = c.request.spared s.1 := by
    cases c.request <;> simp [Request.spared, h₁.handles]
  rw [hsp]
  exact h.2.2

theorem spared_of_not_ends (h : c.request.ends = false) (w : World) : c.request.spared w = true := by
  cases hr : c.request <;> first | rfl | (rw [hr] at h; cases h)

/-- The filters turn a call away. -/
theorem turned_away {s₁ : World × ℕ} (hfit : c.Fits (.runFilters .preRpcInvoke x) s)
    (hstatus : (s₁.1.ctxs x).status = (c.outcome.status .preRpcInvoke).getD (s.1.ctxs x).status)
    (hpass : c.outcome.pass .preRpcInvoke = false) :
    (s₁.1.ctxs x).status.ok = false ∧ c.request.spared s.1 = true := by
  rw [hstatus]
  simpa [Issue.Fits, Request.fits, CallOutcome.answer, hpass] using hfit

/-- A plain query. -/
theorem query_twin {mode : MysqlResultsMode} (hq : q ≠ .rollback) (hends : c.request.ends = false) :
    c.Twin (Queries c x q { mode := mode }) (query x { mode := mode } q args) (asyncQuery x mode q args) s s := by
  refine twin_pre fun s₁ hfit _ hstatus => ?_
  cases hpass : c.outcome.pass .preRpcInvoke with
  | false =>
    have hbad := (turned_away hfit hstatus hpass).1
    refine twin_getStatus_right (.refl _) fun _ t₁ hst₁ => twin_filters_right hst₁ fun _ t₂ hst₂ => ?_
    exact twin_end hst₂ hbad (.inl ⟨rfl, rfl, spared_of_not_ends hends _⟩)
  | true =>
    refine (invoke_twin none mode (fun h => (hq h).elim) fun h => by rw [hends] at h; cases h).bind
      fun r' s₂ out t₂ h₂ => ?_
    refine twin_filters_right h₂.same fun _ t₃ hst₃ => twin_end hst₃ h₂.status ?_
    exact h₂.answer.imp (fun h => ⟨h.1, h.2.1, spared_of_not_ends h.2.2 _⟩) id

/-- What the executor of a handle is found to be. -/
theorem handleAlive_sure : c.Sure (fun alive s' => s'.1.ctxs = s.1.ctxs ∧ s'.1.handles = s.1.handles ∧
      (alive = true → ∃ e, (s.1.handles h).executor = some e ∧ (s'.1.execs e).this.isConnected = true) ∧
      (c.request.ends = true → ((s.1.handles h).executor.all fun e =>
        (s.1.execs e).this.isConnected && (s.1.execs e).this.mysql.isSome) = true → alive = true))
    (handleAlive h) s := by
  refine Prog.sure_op fun ex s₁ _ he₁ => ?_
  have hw₁ := (machine_exec he₁).2
  simp only [worldStep, Option.some.injEq, Prod.mk.injEq] at hw₁
  obtain ⟨rfl, hw₁⟩ := hw₁
  cases hex : (s.1.handles h).executor with
  | none => exact Prog.sure_op fun r _ _ _ => r.elim
  | some e =>
    refine (sure_executor checkAlive_fits).bind fun alive s₂ h₂ => Prog.sure_op fun _ s₃ _ he₃ => ?_
    obtain ⟨⟨halive, hends⟩, hctxs₂, hhandles₂⟩ := h₂
    have hw₃ := (machine_exec he₃).2
    simp only [worldStep, Option.some.injEq, Prod.mk.injEq, true_and] at hw₃
    refine Prog.sure_ret ⟨?_, ?_, fun ha => ⟨e, rfl, ?_⟩, fun he hall => ?_⟩
    · rw [← hw₃]
      exact hctxs₂.trans (by rw [← hw₁]; rfl)
    · rw [← hw₃]
      exact hhandles₂.trans (by rw [← hw₁]; rfl)
    · rw [← hw₃]
      exact halive ha
    · have hexecs : s₁.1.execs = s.1.execs := by rw [← hw₁]; rfl
      simp only [Option.all_some, Bool.and_eq_true] at hall
      rw [← hexecs] at hall
      exact hends he hall.1 hall.2

/-- A query with a handle. -/
theorem queryTx_twin (mode : MysqlResultsMode) (hq : q = .rollback → mode = .onlyExec ∧ args = [])
    (hh : c.request.ends = true → ∃ b, c.request = .finish h b) :
    c.Twin (Queries c x q { mode := mode }) (queryTx x h { mode := mode } q args)
      (asyncQueryTx x h mode q args) s s := by
  refine twin_pre fun s₁ hfit hcore hstatus => ?_
  -- where preRpcInvoke rejects, both return before a step of their own
  cases hpass : c.outcome.pass .preRpcInvoke with
  | false =>
    obtain ⟨hbad, hspared⟩ := turned_away hfit hstatus hpass
    have hsp : c.request.spared s₁.1 = true := by
      have hhandles : s₁.1.core.handles = s.1.core.handles := by rw [hcore]
      have hhandles : s₁.1.handles = s.1.handles := hhandles
      rw [← hspared]
      cases c.request <;> simp [Request.spared, hhandles]
    refine twin_getStatus_right (.refl _) fun _ t₁ hst₁ => twin_filters_right hst₁ fun _ t₂ hst₂ => ?_
    exact twin_end hst₂ hbad (.inl ⟨rfl, rfl, hsp⟩)
  | true =>
    simp only [if_true, Bool.not_true, Bool.false_eq_true, if_false, handleInvoke, Prog.bind_assoc]
    refine Prog.twin_op fun st s₂ hfit₂ he₂ => ?_
    have hw₂ := (machine_exec he₂).2
    simp only [worldStep, Option.some.injEq, Prod.mk.injEq] at hw₂
    obtain ⟨rfl, hw₂⟩ := hw₂
    have hcan : c.request.ready s₂.1 = true ∨ c.request.spared s₂.1 = true := by
      rw [← hw₂]
      simpa [Issue.Fits, Request.fits] using hfit₂
    rw [hw₂]
    by_cases hst : (s₂.1.handles h).state = .kStarted
    · -- a started handle is not committed, so where a transaction ends its executor is connected
      have hall : c.request.ends = true → ((s₂.1.handles h).executor.all fun e =>
          (s₂.1.execs e).this.isConnected && (s₂.1.execs e).this.mysql.isSome) = true := by
        intro hends
        obtain ⟨b, hb⟩ := hh hends
        rw [hb] at hcan
        rcases hcan with hready | hspared
        · exact (Bool.and_eq_true_iff.1 hready).2
        · simp [Request.spared, hst] at hspared
      rw [if_neg (by simp [hst]), if_neg (by simp [hst])]
      simp only [Prog.bind_assoc]
      refine Prog.twin_call handleAlive_sure fun alive s₃ h₃ => ?_
      obtain ⟨-, hhandles₃, halive, hends₃⟩ := h₃
      -- a dead connection: only the asynchronous call runs the filters there
      cases alive with
      | false =>
        have hends : c.request.ends = false := by
          by_contra hne
          have hno := hends₃ (by simpa using hne) (hall (by simpa using hne))
          cases hno
        simp only [Bool.not_false, if_true, Prog.bind_assoc]
        refine twin_aside (uses_wop trivial) (.refl _) fun _ s₄ t₄ hst₄ _ => ?_
        refine twin_setStatus_right hst₄ fun _ t₅ hst₅ => twin_filters_right hst₅ fun _ t₆ hst₆ => ?_
        refine twin_setStatus hst₆ fun s₇ h₇ => ?_
        exact twin_end h₇.same h₇.status (.inl ⟨rfl, rfl, spared_of_not_ends hends _⟩)
      | true =>
        obtain ⟨e, he, hcon⟩ := halive rfl
        simp only [Bool.not_true, Bool.false_eq_true, if_false, Prog.bind_assoc]
        refine Prog.twin_op fun ex s₄ _ he₄ => ?_
        have hw₄ := (machine_exec he₄).2
        simp only [worldStep, Option.some.injEq, Prod.mk.injEq] at hw₄
        obtain ⟨rfl, hw₄⟩ := hw₄
        have hexecs : s₄.1.execs = s₃.1.execs := by rw [← hw₄]; rfl
        rw [hhandles₃, he]
        refine (invoke_twin (x := x) (some e) mode hq fun _ => ⟨e, rfl, by rw [hexecs]; exact hcon⟩).bind
          fun r' s₅ out t₅ h₅ => ?_
        refine twin_filters_right h₅.same fun _ t₆ hst₆ => ?_
        simp only [Prog.bind_assoc]
        refine twin_aside (uses_wop (o := .release e) trivial) hst₆ fun _ s₇ t₇ hst₇ hctxs => twin_end hst₇ ?_ ?_
        · rw [hctxs]
          exact h₅.status
        · exact h₅.answer.imp (fun h' => ⟨h'.1, h'.2.1, spared_of_not_ends h'.2.2 _⟩) id
    · simp only [ne_eq, hst, not_false_eq_true, if_true, Prog.bind_assoc]
      refine twin_setStatus_right (.refl _) fun _ t₃ hst₃ => twin_filters_right hst₃ fun _ t₄ hst₄ => ?_
      refine twin_setStatus hst₄ fun s₅ h₅ => twin_end h₅.same h₅.status (.inl ⟨rfl, rfl, ?_⟩)
      have hsp : c.request.spared s₂.1 = true := by
        cases hends : c.request.ends with
        | false => exact spared_of_not_ends hends _
        | true =>
          obtain ⟨b, hb⟩ := hh hends
          refine hcan.resolve_left fun hready => ?_
          rw [hb] at hready
          simp [Request.ready, hst] at hready
      rw [← hsp]
      cases c.request <;> simp [Request.spared, h₅.handles]

/-! ## Transactions -/

/-- A call is told the same by its status as by its future. -/
def EndsAlike (st : Status) (s' : World × ℕ) (out : Future β) (t' : World × ℕ) : Prop := Same s' t' ∧ st.ok = out.isOk

/-- `EndTransaction` on a handle that is committed and has no executor. -/
theorem endTransaction_committed {f : Unit → WProg α} {p : WProg β} (hst : Same s t)
    (hstate : (s.1.handles h).state = .kCommitted) (hex : (s.1.handles h).executor = none)
    (hf : ∀ s', Same s' t → s'.1.ctxs = s.1.ctxs → c.Twin R (f ()) p s' t) :
    c.Twin R (endTransaction h false >>= f) p s t := by
  have hsame : s.1.setHandle h { s.1.handles h with state := .kCommitted } = s.1 := by
    have hhandle : { s.1.handles h with state := .kCommitted } = s.1.handles h := by rw [← hstate]
    simp only [World.setHandle, hhandle, update_eq_self]
  refine twin_live hst fun hl _ => Prog.twin_left (exec_live hl) fun _ => ?_
  simp only [Bool.false_eq_true, if_false, hsame, WorldOp.asks]
  refine Prog.twin_left (exec_live hl) fun _ => ?_
  simp only [hex, Option.toList_none]
  exact hf _ ⟨hst.1, hst.2⟩ rfl

/-- The statement succeeded: the transaction ends by both interfaces. -/
theorem finish_ended {b : Bool} (hst : Same s t) (hok : (s.1.ctxs x).status.ok = true) :
    c.Twin EndsAlike (endTransaction h b >>= fun _ => wop (.getStatus x))
      (endTransaction h b >>= fun _ => (pure (.ok ()) : WProg (Future Unit))) s t := by
  refine twin_aside (still_aside (still_endTransaction b)) hst fun _ s₁ t₁ hst₁ hctxs => ?_
  refine twin_getStatus (f := pure) hst₁ (twin_pure hst₁ ⟨hst₁, ?_⟩)
  rw [hctxs, hok]
  rfl

/-- `Commit`. -/
theorem commit_twin (hc : c.request = .finish h false) : c.Twin EndsAlike (commit x h) (asyncCommit x h) s s := by
  have hends : c.request.ends = true → ∃ b, c.request = .finish h b := fun _ => ⟨false, hc⟩
  refine (queryTx_twin (q := .commit) .onlyExec (fun h => (by cases h)) hends).bind fun a s₁ out t₁ h₁ => ?_
  obtain ⟨st, r⟩ := a
  have hstatus : st = (s₁.1.ctxs x).status := h₁.status
  have htold : st.ok = out.isOk := h₁.told
  rcases h₁.answer with ⟨hr, hout, hspared⟩ | ⟨hout, -⟩
  · -- the statement was not sent, and the handle is committed already
    have hr : r = { mode := .onlyExec } := hr
    subst hr
    cases out with
    | ok r' => cases hout
    | error message =>
      rw [hc] at hspared
      simp only [Request.spared, Bool.not_false, Bool.true_and, Bool.and_eq_true, decide_eq_true_eq,
        Option.isNone_iff_eq_none] at hspared
      refine endTransaction_committed h₁.same hspared.1 hspared.2 fun s₂ hst₂ hctxs => ?_
      refine twin_getStatus (f := pure) hst₂ (twin_pure hst₂ ⟨hst₂, ?_⟩)
      rw [hctxs, ← hstatus, htold]
      rfl
  · have hout : out = if r.ok = true then .ok r else .error r.errorMessage := hout
    cases hr : r.ok with
    | true =>
      rw [if_pos hr] at hout
      subst hout
      simp only [hr, Bool.not_true, Bool.false_eq_true, if_false]
      exact finish_ended h₁.same (by rw [← hstatus, htold]; rfl)
    | false =>
      rw [if_neg (by simp [hr])] at hout
      subst hout
      simp only [hr, Bool.not_false, if_true]
      refine twin_setStatus h₁.same fun s₂ h₂ => twin_getStatus (f := pure) h₂.same (twin_pure h₂.same ⟨h₂.same, ?_⟩)
      exact h₂.status

/-- `Rollback`. -/
theorem rollback_twin (hc : c.request = .finish h true) : c.Twin EndsAlike (rollback x h) (asyncRollback x h) s s := by
  have hends : c.request.ends = true → ∃ b, c.request = .finish h b := fun _ => ⟨true, hc⟩
  refine (queryTx_twin (q := .rollback) .onlyExec (fun _ => ⟨rfl, rfl⟩) hends).bind
    fun a s₁ out t₁ h₁ => ?_
  obtain ⟨st, r⟩ := a
  have hstatus : st = (s₁.1.ctxs x).status := h₁.status
  have htold : st.ok = out.isOk := h₁.told
  rcases h₁.answer with ⟨-, -, hspared⟩ | ⟨hout, hroll⟩
  · rw [hc] at hspared
    cases hspared
  · have hr : r.ok = true := hroll rfl
    have hout : out = if r.ok = true then .ok r else .error r.errorMessage := hout
    rw [if_pos hr] at hout
    subst hout
    simp only [hr, Bool.not_true, Bool.false_eq_true, if_false]
    exact finish_ended h₁.same (by rw [← hstatus, htold]; rfl)

theorem beginAddr_sure : c.Sure (fun addr s' => addr.toOption = none → (s'.1.ctxs x).status.ok = false)
    (beginAddr x) s := by
  refine Prog.sure_op fun addr s₁ _ _ => ?_
  split
  · refine Prog.sure_op fun found s₂ _ _ => ?_
    cases found with
    | error text => exact sure_setStatus fun s₃ hbad => Prog.sure_ret fun _ => hbad
    | ok addr' => exact Prog.sure_ret fun h => by cases h
  · exact Prog.sure_ret fun h => by cases h

/-- What `Begin` leaves by the two interfaces. -/
def Begins (a : Status × Option HandleId) (s' : World × ℕ) (out : Future HandleId) (t' : World × ℕ) : Prop :=
  Same s' t' ∧ a.1.ok = out.isOk ∧ a.2 = out.toOption

/-- The end of a `Begin` that failed: the executor leaves its scope. -/
theorem begin_failed {message : String} (hst : Same s t) (hbad : (s.1.ctxs x).status.ok = false) :
    c.Twin Begins (do
        let handle ← if (← wop (.getStatus x)).ok then
            pure (some (← wop (.newHandle e)))
          else pure none
        let _ ← wop (.runFilters .postRpcInvoke x)
        let st ← wop (.getStatus x)
        if handle.isNone then wop (.release e)
        return (st, handle))
      (do
        wop (.release e)
        return .error message) s t := by
  refine twin_getStatus hst ?_
  rw [if_neg (by simp [hbad])]
  refine twin_post hst (.inr rfl) fun _ s₁ h₁ => twin_getStatus h₁.same ?_
  refine twin_aside (uses_wop (o := .release e) trivial) h₁.same fun _ s₂ t₂ hst₂ _ => twin_pure hst₂ ⟨hst₂, ?_, rfl⟩
  exact h₁.status.trans hbad

theorem beginOn_twin (hends : c.request.ends = false) : c.Twin Begins (beginOn x e) (asyncBeginOn x e) s s := by
  refine Prog.twin_call isConnected_sure fun b s₁ _ => ?_
  cases b with
  | false =>
    refine Prog.twin_call connectionFailed_sure fun message s₂ hbad => ?_
    exact begin_failed (.refl _) hbad
  | true =>
    have hinvoke : c.Twin (Invokes c x .begin { mode := .onlyExec })
        (unaryInvoke x (some e) { mode := .onlyExec } .begin []) (asyncUnaryInvoke x (some e) .onlyExec .begin [])
        s₁ s₁ := invoke_twin (some e) .onlyExec (fun h => by cases h) fun h => by rw [hends] at h; cases h
    refine hinvoke.bind fun r s₂ out t₂ h₂ => ?_
    cases out with
    | error message => exact begin_failed h₂.same h₂.status
    | ok r' =>
      have hfine : (s₂.1.ctxs x).status.ok = true := h₂.status
      refine twin_getStatus h₂.same ?_
      rw [if_pos hfine]
      refine twin_aside (uses_wop (o := .newHandle e) trivial) h₂.same fun h s₃ t₃ hst₃ hctxs => ?_
      refine twin_post hst₃ (.inr rfl) fun _ s₄ h₄ => twin_getStatus h₄.same ?_
      refine twin_pure h₄.same ⟨h₄.same, ?_, rfl⟩
      rw [h₄.status, hctxs, hfine]
      rfl

theorem begin_twin (hends : c.request.ends = false) : c.Twin Begins (begin x) (asyncBegin x) s s := by
  refine twin_pre fun s₁ hfit _ hstatus => ?_
  cases hpass : c.outcome.pass .preRpcInvoke with
  | false =>
    have hbad := (turned_away hfit hstatus hpass).1
    refine twin_getStatus_right (.refl _) fun _ t₁ hst₁ => twin_filters_right hst₁ fun _ t₂ hst₂ => ?_
    refine twin_post hst₂ (.inr rfl) fun _ s₃ h₃ => twin_getStatus h₃.same ?_
    exact twin_pure h₃.same ⟨h₃.same, h₃.status.trans hbad, rfl⟩
  | true =>
    refine Prog.twin_call beginAddr_sure fun addr s₂ hnone => ?_
    cases addr with
    | error text => exact twin_getStatus (.refl _) (twin_pure (.refl _) ⟨.refl _, hnone rfl, rfl⟩)
    | ok addr =>
      exact Prog.twin_call (sure_any _) fun p s₃ _ => Prog.twin_call (sure_any _) fun e s₄ _ => beginOn_twin hends

/-! ## Runs -/

/-- What the calls of a request leave by the two interfaces. -/
def Replies (a : Result) (s' : World × ℕ) (b : Result) (t' : World × ℕ) : Prop := Same s' t' ∧ a.reply = b.reply

/-- **One request.** -/
theorem request_twin : c.Twin Replies c.request.sync.prog c.request.async.prog s s := by
  cases hc : c.request with
  | query mode text args =>
    have hends : c.request.ends = false := by rw [hc]; rfl
    refine (query_twin (q := .user text) (fun h => by cases h) hends).bind fun a s' b t' h => ?_
    exact twin_pure h.same ⟨h.same, congrArg (fun ok => ({ failed := !ok } : CallReply)) h.told⟩
  | begin =>
    have hends : c.request.ends = false := by rw [hc]; rfl
    refine (begin_twin hends).bind fun a s' b t' h => twin_pure h.1 ⟨h.1, ?_⟩
    simp only [Result.reply, h.2.1, h.2.2]
  | queryTx h mode text args =>
    have hends : c.request.ends = true → ∃ b, c.request = .finish h b := fun he => by rw [hc] at he; cases he
    refine (queryTx_twin (q := .user text) mode (fun h => by cases h) hends).bind fun a s' b t' h => ?_
    exact twin_pure h.same ⟨h.same, congrArg (fun ok => ({ failed := !ok } : CallReply)) h.told⟩
  | finish h rollback =>
    cases rollback with
    | false =>
      refine (commit_twin hc).bind fun st s' out t' h => twin_pure h.1 ⟨h.1, ?_⟩
      simp only [Result.reply, h.2]
    | true =>
      refine (rollback_twin hc).bind fun st s' out t' h => twin_pure h.1 ⟨h.1, ?_⟩
      simp only [Result.reply, h.2]
  | moveHandle h =>
    exact twin_aside (uses_wop trivial) (.refl _) fun h' s' t' hst _ => twin_pure hst ⟨hst, rfl⟩
  | dropHandle h =>
    refine twin_aside ?_ (.refl _) fun _ s' t' hst _ => twin_pure hst ⟨hst, rfl⟩
    refine uses_then trivial fun ex => ?_
    cases ex with
    | none => exact uses_wop trivial
    | some e => exact (aside_onExecutor _).bind fun _ => uses_then trivial fun _ => uses_wop trivial

end Functions

theorem World.start_eq {w w' : World} (h : w.core = w'.core) (addr : NodeAddr) : w.start addr = w'.start addr := by
  simp only [World.start, h]

/-- One call from two worlds that differ in contexts and history only. -/
theorem run_rel {c : Issue} {w w' : World} (h : w.core = w'.core)
    (hfit : c.request.sync.prog.Meets c.outcome.machine c.Fits (w.start c.addr, 0)) :
    Option.Rel (fun x y => x.1 = y.1 ∧ x.2.core = y.2.core) (c.run Request.sync w) (c.run Request.async w') := by
  have htwin := request_twin (c := c) (s := (w.start c.addr, 0)) hfit
  simp only [Issue.run, ← World.start_eq h]
  generalize c.request.sync.prog.eval c.outcome.machine (w.start c.addr, 0) = x at htwin ⊢
  generalize c.request.async.prog.eval c.outcome.machine (w.start c.addr, 0) = y at htwin ⊢
  cases htwin with
  | none => exact .none
  | some hxy => exact .some ⟨hxy.2, hxy.1.1⟩

theorem runIssues_rel : ∀ {cs : List Issue} {w w' : World}, w.core = w'.core → AllFit cs w →
    Option.Rel (fun x y => x.1 = y.1 ∧ x.2.core = y.2.core) (runIssues Request.sync cs w)
      (runIssues Request.async cs w') := by
  intro cs
  induction cs with
  | nil => intro w w' h _; exact .some ⟨rfl, h⟩
  | cons c cs ih =>
    intro w w' h hfit
    have hrun := run_rel h hfit.1
    have hrest := hfit.2
    simp only [runIssues]
    generalize c.run Request.sync w = x at hrun hrest ⊢
    generalize c.run Request.async w' = y at hrun ⊢
    cases hrun with
    | none => exact .none
    | some hxy =>
      obtain ⟨hr, hcore⟩ := hxy
      have hall := ih hcore hrest
      simp only [Option.bind_eq_bind, Option.bind_some]
      generalize runIssues Request.sync cs _ = x' at hall ⊢
      generalize runIssues Request.async cs _ = y' at hall ⊢
      cases hall with
      | none => exact .none
      | some hxy' => exact .some ⟨by rw [hr, hxy'.1], hxy'.2⟩

/-- **The interfaces agree.** Where every step of the synchronous run finds what it must, the asynchronous run
of the same requests with the same outcomes fails in the same calls, makes the same handles, and leaves
the same handles, executors and pools; and it ends the process where the other one does. -/
theorem interfaces_agree {cs : List Issue} {w : World} (h : AllFit cs w) :
    Agree (runIssues Request.sync cs w) (runIssues Request.async cs w) := by
  have hrel := runIssues_rel rfl h
  unfold Agree
  generalize runIssues Request.sync cs w = x at hrel ⊢
  generalize runIssues Request.async cs w = y at hrel ⊢
  cases hrel with
  | none => rfl
  | some hxy => simp only [Option.map_some, hxy.1, hxy.2]

/-- A transaction whose second statement the filters reject and whose third one the server refuses, a second `Commit`
of it, and a transaction that is rolled back. -/
def issuesThatFit : List Issue :=
  let addr : NodeAddr := { ip := ascii "127.0.0.1", port := 3306 }
  let rejected : Status := { frameworkRetCode := TRPC_INVOKE_UNKNOWN_ERR, errorMessage := "rejected" }
  [{ request := .begin, addr := addr },
    { request := .queryTx 0 .onlyExec (ascii "update account set money = 0") [] },
    { request := .queryTx 0 .onlyExec (ascii "update account set money = 1") []
      outcome := { pass := fun pt => pt ≠ .preSendMsg
                   status := fun pt => if pt = .preSendMsg then some rejected else none } },
    { request := .queryTx 0 .onlyExec (ascii "update account set money = 2") []
      outcome := { client := fun _ => { ok := false, error := ⟨1064, "syntax", by decide⟩ } } },
    { request := .finish 0 false },
    { request := .finish 0 false },
    { request := .query .nativeString (ascii "select money from account") [], addr := addr
      outcome := { client := fun _ => { rows := some {} } } },
    { request := .begin, addr := addr },
    { request := .finish 1 true },
    { request := .dropHandle 1 }]

theorem interfaces_agree_fit : Agree (runIssues Request.sync issuesThatFit { poolOption := { maxSize := 8 } })
    (runIssues Request.async issuesThatFit { poolOption := { maxSize := 8 } }) :=
  interfaces_agree (by decide +kernel)

/-- A transaction whose `Commit` the filters reject. -/
def rejectedCommit : List Issue :=
  [{ request := .begin, addr := { ip := ascii "127.0.0.1", port := 3306 } },
    { request := .finish 0 false
      outcome := { pass := fun pt => pt ≠ .preRpcInvoke
                   status := fun pt => if pt = .preRpcInvoke then
                       some { frameworkRetCode := TRPC_INVOKE_UNKNOWN_ERR, errorMessage := "rejected" }
                     else none } }]

/-- Both interfaces report the rejected `Commit`, but the synchronous one ends the transaction all the same. -/
theorem rejected_commit_disagrees :
    ¬ ∀ cs : List Issue, Agree (runIssues Request.sync cs {}) (runIssues Request.async cs {}) := by
  intro h
  have hstates := congrArg (Option.map fun x => (x.2.handles 0).state) (h rejectedCommit)
  have hsync : ((runIssues Request.sync rejectedCommit {}).map fun x => (x.1, x.2.core)).map
      (fun x => (x.2.handles 0).state) = some .kCommitted := by decide +kernel
  have hasync : ((runIssues Request.async rejectedCommit {}).map fun x => (x.1, x.2.core)).map
      (fun x => (x.2.handles 0).state) = some .kStarted := by decide +kernel
  rw [hsync, hasync] at hstates
  cases hstates

end TrpcMysql
