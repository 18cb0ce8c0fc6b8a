import TrpcMysql.Proxy.Exclusive

/-!
# The end of a transaction

`Commit` and `Rollback` end the transaction whenever their results object shows no error, also when the call was
turned away and sent nothing. Where they are turned away only on a handle that is at its end already, the state of
every handle tells the truth (`states_truthful`); and where they are turned away only while the executor has no open
transaction, no idle executor has one (`idle_clean`).
-/

namespace TrpcMysql

open Function Conc MysqlServiceProxy

variable {cf cf' : ProxyConfig} {T : Terms} {h : HandleId} {i : ℕ} {a : Answer}

/-! ## The states of the handles -/

/-- The calls of `Commit`. -/
def Call.commits : Call → Bool
  | finish _ _ false => true
  | _ => false

/-- The executor of the handle is connected. -/
def World.connected (w : World) (h : HandleId) : Bool :=
  (w.handles h).executor.all fun e => (w.execs e).this.isConnected

/-- `Commit` and `Rollback` are turned away only on a handle that is committed, or rolled back, already, or by a
`Rollback` that finds the connection lost: no filter rejects them before the statement is sent, they are not late, and
they find the handle started; and `Commit` finds the connection alive. -/
def turnedAwayAtEnd : Known where
  given c := { alive := c.commits = true }
  smooth c w o :=
    match c, o with
    | .finish _ h b, .runFilters .preRpcInvoke _ | .finish _ h b, .checkTimeout _
    | .finish _ h b, .runFilters .preSendMsg _ => (w.handles h).state ≠ ending b
    | _, _ => False
  fit c w o :=
    match c, o with
    | .finish _ h b, .getState _ => (w.handles h).state = ending b ∨
        (w.handles h).state = .kStarted ∧ (b = false → w.connected h = true)
    | _, _ => True

instance : Decidable turnedAwayAtEnd.contexts := isFalse id

instance (c : Call) (w : World) (o : WorldOp) : Decidable (turnedAwayAtEnd.smooth c w o) := by
  induction c using Call.casesOn with
  | finish _ h b =>
    induction o using WorldOp.casesOn with
    | checkTimeout _ => exact inferInstanceAs (Decidable ((w.handles h).state ≠ ending b))
    | runFilters pt _ =>
      induction pt using FilterPoint.casesOn with
      | preRpcInvoke | preSendMsg => exact inferInstanceAs (Decidable ((w.handles h).state ≠ ending b))
      | _ => exact isFalse id
    | _ => exact isFalse id
  | _ => exact isFalse id

instance (c : Call) (w : World) (o : WorldOp) : Decidable (turnedAwayAtEnd.fit c w o) := by
  induction c using Call.casesOn with
  | finish _ h b =>
    induction o using WorldOp.casesOn with
    | getState _ => exact inferInstanceAs (Decidable (_ ∨ _))
    | _ => exact isTrue trivial
  | _ => exact isTrue trivial

instance (c : Call) (o : ClientOp) (a : ClientAnswer) (s : ExecSt) :
    Decidable ((turnedAwayAtEnd.given c).Allows o a s) :=
  inferInstanceAs (Decidable (Given.Allows { alive := c.commits = true } o a s))

/-- The terms under which the states of the handles tell the truth. -/
def truthTerms : Terms := { turnedAwayAtEnd with truth := True }

theorem upheld_truth : truthTerms.Upheld where
  session h := h.elim
  truth _ :=
    { smooth := by rintro x h b w o (rfl | rfl | rfl) hne <;> exact hne
      started := fun x h b w hf => hf.symm.imp_left And.left
      alive := fun _ _ => rfl
      connected := by
        intro x h w e hf hst hex
        rcases hf with hend | ⟨-, hup⟩
        · rw [hst] at hend; cases hend
        · simpa [World.connected, hex] using hup rfl }
  clean h := h.elim
  kept h := h.elim
  done _ _ _ _ _ := trivial

/-- The handle has come to an end, or has no executor and has not come to the other end. -/
def Final (b : Bool) (w : World) (h : HandleId) : Prop :=
  (w.handles h).state = ending b ∨ (w.handles h).executor = none ∧ (w.handles h).state ≠ ending !b

/-- A step that tells the truth keeps what is final. -/
theorem Truthful.final {w w' : World} {b : Bool} (ht : Truthful i w w') (hb : Beside i w w') (hlt : h < w.nextHandle)
    (hf : Final b w h) : Final b w' h := by
  by_cases hst : (w'.handles h).state = (w.handles h).state
  · rcases hf with hf | ⟨hex, hf⟩
    · exact .inl (hst.trans hf)
    · refine .inr ⟨?_, by rwa [hst]⟩
      rcases hb.executor h hlt with he | he
      · exact he.trans hex
      · exact he
  obtain ⟨hc, hr, hk⟩ := ht h hlt hst
  -- the other end is out of reach
  have hother : (w'.handles h).state ≠ ending !b := by
    intro ho
    cases b with
    | false =>
      obtain ⟨hne, e, he, -⟩ := hr ho
      rcases hf with hf | ⟨hex, -⟩
      · exact hne hf
      · rw [hex] at he; cases he
    | true =>
      obtain ⟨hne, e, id, he, -⟩ := hc ho
      rcases hf with hf | ⟨hex, -⟩
      · exact hne hf
      · rw [hex] at he; cases he
  rcases hk with hk | hk | hk
  · cases b with
    | false => exact .inl hk
    | true => exact absurd hk hother
  · cases b with
    | false => exact absurd hk hother
    | true => exact .inl hk
  · exact .inr ⟨hk, hother⟩

/-- From `cf` on, the states of the handles tell the truth in every step of a run within the guard, and no handle comes
from one end to the other. -/
structure TruthfulFrom (g : Guard World WorldOp Answer Call Result WorldOp.Reply) (cf : ProxyConfig) : Prop where
  step : ∀ i a cf', g.Allows cf (.act i a) → proxySystem.step cf (.act i a) = some cf' →
    Truthful i cf.world cf'.world
  final : ∀ ls cf', proxySystem.Legal g cf ls → proxySystem.steps cf ls = some cf' → ∀ b h,
    h < cf.world.nextHandle → (cf.world.handles h).state = ending b → (cf'.world.handles h).state ≠ ending !b

theorem ending_ne (b : Bool) : ending b ≠ ending !b := by
  cases b <;> decide

/-- A run from `cf` keeps what is final. -/
theorem final_steps {g : Guard World WorldOp Answer Call Result WorldOp.Reply} {w₀ : World} {b : Bool}
    (ht : ∀ cf i a cf', proxySystem.Reach g w₀ cf → g.Allows cf (.act i a) →
      proxySystem.step cf (.act i a) = some cf' → Truthful i cf.world cf'.world) :
    ∀ (ls : List (Label Answer Call)) {cf cf' : ProxyConfig}, proxySystem.Reach g w₀ cf →
      proxySystem.Legal g cf ls → proxySystem.steps cf ls = some cf' → h < cf.world.nextHandle →
      Final b cf.world h → Final b cf'.world h := by
  intro ls
  induction ls with
  | nil =>
    intro cf cf' _ _ hs _ hf
    simp only [System.steps, Option.some.injEq] at hs
    subst hs
    exact hf
  | cons l ls ih =>
    intro cf cf' hr hg hs hlt hf
    simp only [System.steps, Option.bind_eq_some_iff] at hs
    obtain ⟨cf₁, h₁, h₂⟩ := hs
    have hnext : h < cf₁.world.nextHandle ∧ Final b cf₁.world h := by
      cases l with
      | start c =>
        simp only [System.step, Option.some.injEq] at h₁
        subst h₁
        exact ⟨hlt, hf⟩
      | act i a =>
        have htr := ht cf i a cf₁ hr hg.1 h₁
        obtain ⟨c, o, k, r, w', -, he, rfl⟩ := System.step_act h₁
        have he : worldExec i o a cf.world = some (r, w') := he
        unfold worldExec at he
        split at he
        · cases he
        · have hb := beside_step he
          exact ⟨Nat.lt_of_lt_of_le hlt hb.nextHandle, htr.final hb hlt hf⟩
    exact ih (hr.step l hg.1 h₁) (hg.2 cf₁ h₁) h₂ hnext.1 hnext.2

/-- **The state of a handle tells the truth, in every run in which `Commit` and `Rollback` are turned away only on a
handle that is at its end.** -/
theorem states_truthful (serviceName : String) (option : MysqlExecutorPoolOption) (ctxs : CtxId → ClientContext)
    (hr : proxySystem.Reach turnedAwayAtEnd.guard (World.fresh serviceName option ctxs) cf) :
    TruthfulFrom turnedAwayAtEnd.guard cf := by
  have hstep : ∀ cf i a cf', proxySystem.Reach turnedAwayAtEnd.guard (World.fresh serviceName option ctxs) cf →
      turnedAwayAtEnd.guard.Allows cf (.act i a) → proxySystem.step cf (.act i a) = some cf' →
      Truthful i cf.world cf'.world := by
    intro cf i a cf' hr hg hs
    obtain ⟨c, -, hst⟩ := (Terms.sound upheld_truth serviceName option ctxs).step_ok hr hg hs
    exact hst trivial
  refine ⟨fun i a cf' hg hs => hstep cf i a cf' hr hg hs, fun ls cf' hg hs b h hlt hst => ?_⟩
  rcases final_steps hstep ls hr hg hs hlt (.inl hst) with hend | ⟨-, hne⟩
  · rw [hend]
    exact ending_ne b
  · exact hne

/-- A transaction is committed. -/
theorem states_truthful_commit : ∃ cf, proxySystem.Reach turnedAwayAtEnd.guard newProxy cf ∧
    (cf.world.handles 0).state = .kCommitted ∧ TruthfulFrom turnedAwayAtEnd.guard cf := by
  have h₁ : proxySystem.Reach turnedAwayAtEnd.guard newProxy _ :=
    System.Reach.init.call (c := .begin 0) (List.replicate 60 {})
      (Known.start_of_done trivial rfl (by decide) (by decide))
      (by decide) rfl
  have h₂ := h₁.call (c := .finish 1 0 false) (List.replicate 60 {})
    (Known.start_of_done trivial rfl (by decide) (by decide)) (by decide) rfl
  exact ⟨_, h₂, by decide, states_truthful _ _ _ h₂⟩

/-- A `Rollback` on a handle that is committed makes it rolled back. -/
theorem committed_becomes_rolled_back : ¬ ∀ (serviceName : String) (option : MysqlExecutorPoolOption)
    (ctxs : CtxId → ClientContext) (cf : ProxyConfig),
    proxySystem.Reach Sequenced (World.fresh serviceName option ctxs) cf → TruthfulFrom Sequenced cf := by
  intro h
  have h₁ : proxySystem.Reach Sequenced newProxy _ :=
    System.Reach.init.call (c := .begin 0) (List.replicate 60 {})
      (.of_done rfl (by decide) (by decide)) Prog.along_true rfl
  have h₂ := h₁.call (c := .finish 1 0 false) (List.replicate 60 {}) (.of_done rfl (by decide) (by decide))
    Prog.along_true rfl
  have hf := (h _ _ _ _ h₂).final (.start (.finish 2 0 true) :: List.replicate 8 (.act 2 {})) _
    ⟨.of_done rfl (by decide) (by decide), fun cf' hs => by
      cases hs
      exact System.legal_of_steps (sequenced_acts 8 2) rfl⟩ rfl false 0 (by decide) (by decide)
  exact absurd hf (by decide)

/-! ## Idle executors -/

/-- No idle executor has an open transaction. -/
def Clean (w : World) : Prop := ∀ p k e, e ∈ (w.pools p).shards k → ¬ (w.execs e).TxOpen

/-- The executor of the handle has an open transaction. -/
def World.inTx (w : World) (h : HandleId) : Bool :=
  (w.handles h).executor.any fun e => (w.execs e).inTx

/-- The connection of the handle's executor can be checked: it is there, and no result waits on it. -/
def World.checkable (w : World) (h : HandleId) : Bool :=
  (w.handles h).executor.all fun e => (w.execs e).this.isConnected &&
    (w.execs e).this.mysql.all fun p => !((w.execs e).mysqls p).busy

/-- `Commit` and `Rollback` are turned away only while the handle's executor has no open transaction: while it has one,
no filter rejects them before the statement is sent, they are not late, and they find the handle started, and its
connection such that it can be checked. -/
def turnedAwayClean : Known where
  smooth c w o :=
    match c, o with
    | .finish _ h _, .runFilters .preRpcInvoke _ | .finish _ h _, .checkTimeout _
    | .finish _ h _, .runFilters .preSendMsg _ => w.inTx h = true
    | _, _ => False
  fit c w o :=
    match c, o with
    | .finish _ h _, .getState _ => w.inTx h = true → (w.handles h).state = .kStarted ∧ w.checkable h = true
    | _, _ => True

instance : Decidable turnedAwayClean.contexts := isFalse id

instance (c : Call) (w : World) (o : WorldOp) : Decidable (turnedAwayClean.smooth c w o) := by
  induction c using Call.casesOn with
  | finish _ h _ =>
    induction o using WorldOp.casesOn with
    | checkTimeout _ => exact inferInstanceAs (Decidable (w.inTx h = true))
    | runFilters pt _ =>
      induction pt using FilterPoint.casesOn with
      | preRpcInvoke | preSendMsg => exact inferInstanceAs (Decidable (w.inTx h = true))
      | _ => exact isFalse id
    | _ => exact isFalse id
  | _ => exact isFalse id

instance (c : Call) (w : World) (o : WorldOp) : Decidable (turnedAwayClean.fit c w o) := by
  induction c using Call.casesOn with
  | finish _ h _ =>
    induction o using WorldOp.casesOn with
    | getState _ => exact inferInstanceAs (Decidable (_ → _))
    | _ => exact isTrue trivial
  | _ => exact isTrue trivial

instance (c : Call) (o : ClientOp) (a : ClientAnswer) (s : ExecSt) :
    Decidable ((turnedAwayClean.given c).Allows o a s) :=
  inferInstanceAs (Decidable (Given.Allows {} o a s))

/-- The terms under which idle executors have no open transaction. -/
def cleanTerms : Terms := { turnedAwayClean with clean := True }

theorem World.inTx_of {w : World} {e : ExecId} (hex : (w.handles h).executor = some e)
    (hin : (w.execs e).inTx = true) : w.inTx h = true := by
  simp [World.inTx, hex, hin]

theorem upheld_clean : cleanTerms.Upheld where
  session h := h.elim
  truth h := h.elim
  clean _ :=
    { smooth := by rintro x h b w o e (rfl | rfl | rfl) hex hin <;> exact World.inTx_of hex hin
      ready := by
        intro x h b w e hf hex hin
        obtain ⟨hst, hch⟩ := hf (World.inTx_of hex hin)
        simp only [World.checkable, hex, Option.all_some, Bool.and_eq_true] at hch
        refine ⟨hst, hch.1, fun p hp => ?_⟩
        have := hch.2
        rw [hp] at this
        simpa using this }
  kept h := h.elim
  done _ _ _ _ _ := trivial

/-- **No idle executor has an open transaction, in every run in which `Commit` and `Rollback` are turned away only while
the handle's executor has none.** -/
theorem idle_clean (serviceName : String) (option : MysqlExecutorPoolOption) (ctxs : CtxId → ClientContext)
    (hr : proxySystem.Reach turnedAwayClean.guard (World.fresh serviceName option ctxs) cf) : Clean cf.world := by
  obtain ⟨vs, hG⟩ := (Terms.sound upheld_clean serviceName option ctxs).reach hr
  obtain ⟨owner, ho⟩ := hG.1
  exact fun p k e hm => (ho.idleOk e p k ((ho.idle e p k).1 hm)).2 trivial

/-- A transaction with a statement is rolled back. -/
theorem idle_clean_rollback : ∃ cf, proxySystem.Reach turnedAwayClean.guard newProxy cf ∧
    (cf.world.pools 0).shards 0 = [0] ∧ Clean cf.world := by
  have h₁ : proxySystem.Reach turnedAwayClean.guard newProxy _ :=
    System.Reach.init.call (c := .begin 0) (List.replicate 60 {})
      (Known.start_of_done trivial rfl (by decide) (by decide))
      (by decide) rfl
  have h₂ := h₁.call (c := .queryTx 1 0 { mode := .onlyExec } (ascii "delete from t") []) (List.replicate 60 {})
    (Known.start_of_done trivial rfl (by decide) (by decide)) (by decide) rfl
  have h₃ := h₂.call (c := .finish 1 0 true) (List.replicate 60 {})
    (Known.start_of_done trivial rfl (by decide) (by decide)) (by decide) rfl
  exact ⟨_, h₃, by decide, idle_clean _ _ _ h₃⟩

/-- A `Commit` that a filter rejects puts the executor into the pool, with its transaction. -/
theorem rejected_commit_leaves_tx : ¬ ∀ (serviceName : String) (option : MysqlExecutorPoolOption)
    (ctxs : CtxId → ClientContext) (cf : ProxyConfig),
    proxySystem.Reach Sequenced (World.fresh serviceName option ctxs) cf → Clean cf.world := by
  intro h
  have h₁ : proxySystem.Reach Sequenced newProxy _ :=
    System.Reach.init.call (c := .begin 0) (List.replicate 60 {})
      (.of_done rfl (by decide) (by decide)) Prog.along_true rfl
  have h₂ := h₁.call (c := .finish 1 0 false) (answers 0 { pass := false }) (.of_done rfl (by decide) (by decide))
    Prog.along_true rfl
  exact h _ _ _ _ h₂ 0 0 0 (by decide) ⟨0, _, rfl, rfl⟩

end TrpcMysql
