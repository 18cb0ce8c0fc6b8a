import TrpcMysql.Proxy.Endings

/-!
# What a call tells of its outcome

The status lives in the context, and a call sets it when it fails, but never when it succeeds: an error of an earlier
call stays. Where every call starts with a context and a results object without an error, its status tells whether it
succeeded (`status_tells`).

A statement with arguments makes the executor connect anew when it finds its connection lost, and the handle stays
started: its transaction is gone, and a later 'commit' succeeds in the new session. Where no call with a handle
connects, the statements that succeeded ran in the session of the 'commit' (`commit_atomic`).
-/

namespace TrpcMysql

open Function Conc MysqlServiceProxy

variable {cf : ProxyConfig}

/-! ## The status -/

/-- The status that a synchronous call returned is OK just if the call succeeded. -/
def StatusTells (cf : ProxyConfig) : Prop :=
  ∀ i c r s, cf.Returned i c r → r.returned = some s → (s.ok = true ↔ Succeeded c.sends (cf.world.ownLog i))

/-- Filters that pass leave the status as it was, and those that reject leave an error; and no two calls in progress
share a context. -/
def calmFilters : Known where
  contexts := True

/-- Besides, a call starts with a context and a results object that hold no error, and the number of an error that is
read from a closed MYSQL object is not zero. -/
def freshCalls : Known where
  contexts := True
  given _ := { numbers := True }
  start w c := c.Fresh w

instance : Decidable freshCalls.contexts := isTrue trivial

instance (c : Call) (w : World) (o : WorldOp) : Decidable (freshCalls.smooth c w o) := isFalse id

instance (c : Call) (w : World) (o : WorldOp) : Decidable (freshCalls.fit c w o) := isTrue trivial

instance (c : Call) (o : ClientOp) (a : ClientAnswer) (s : ExecSt) : Decidable ((freshCalls.given c).Allows o a s) :=
  inferInstanceAs (Decidable (Given.Allows { numbers := True } o a s))

instance : Decidable calmFilters.contexts := isTrue trivial

instance (c : Call) (w : World) (o : WorldOp) : Decidable (calmFilters.smooth c w o) := isFalse id

instance (c : Call) (w : World) (o : WorldOp) : Decidable (calmFilters.fit c w o) := isTrue trivial

instance (c : Call) (o : ClientOp) (a : ClientAnswer) (s : ExecSt) : Decidable ((calmFilters.given c).Allows o a s) :=
  inferInstanceAs (Decidable (Given.Allows {} o a s))

/-- The terms under which the status tells of the call. -/
def statusTerms : Terms where
  toKnown := freshCalls
  done c r log _ := ∀ s, r.returned = some s → (s.ok = true ↔ Succeeded c.sends log)

theorem upheld_status : statusTerms.Upheld where
  session h := h.elim
  truth h := h.elim
  clean h := h.elim
  kept h := h.elim
  done _ _ _ _ hr s hs :=
    ⟨fun hok => hr.succeeded trivial trivial s hs hok, fun hsu => hr.stays trivial trivial (fun _ h => h) s hs hsu⟩

/-- **The status of a synchronous call tells whether the call succeeded, in every run whose calls start fresh.** -/
theorem status_tells (serviceName : String) (option : MysqlExecutorPoolOption) (ctxs : CtxId → ClientContext)
    (hr : proxySystem.Reach freshCalls.guard (World.fresh serviceName option ctxs) cf) : StatusTells cf := by
  intro i c r s hret hs
  exact ((Terms.sound upheld_status serviceName option ctxs).returned hr hret).2 s hs

/-- A query and a `Begin`, with contexts of their own. -/
theorem status_tells_begin : ∃ cf, proxySystem.Reach freshCalls.guard newProxy cf ∧
    cf.Returned 1 (.begin 1) (.begun {} (some 0)) ∧ StatusTells cf := by
  have h₁ : proxySystem.Reach freshCalls.guard newProxy _ :=
    System.Reach.init.call (c := .query 0 { mode := .onlyExec } (ascii "delete from t") []) (List.replicate 60 {})
      (Known.start_of_done ⟨fun x _ => rfl, rfl⟩ rfl (by decide) (by decide)) (by decide) rfl
  have h₂ := h₁.call (c := .begin 1) (List.replicate 60 {})
    (Known.start_of_done ⟨fun x hx => by cases hx; decide, rfl⟩ rfl (by decide) (by decide)) (by decide) rfl
  exact ⟨_, h₂, rfl, status_tells _ _ _ h₂⟩

/-- A query that is late leaves its error in the context, and the next query returns it, though it succeeds. -/
theorem status_stays : ¬ ∀ (serviceName : String) (option : MysqlExecutorPoolOption) (ctxs : CtxId → ClientContext)
    (cf : ProxyConfig),
    proxySystem.Reach calmFilters.guard (World.fresh serviceName option ctxs) cf → StatusTells cf := by
  intro h
  have h₁ : proxySystem.Reach calmFilters.guard newProxy _ :=
    System.Reach.init.call (c := .query 0 { mode := .onlyExec } (ascii "delete from t") [])
      (answers 1 { timedOut := true })
      (Known.start_of_done trivial rfl (by decide) (by decide)) (by decide) rfl
  have h₂ := h₁.call (c := .query 0 { mode := .onlyExec } (ascii "delete from t") []) (List.replicate 60 {})
    (Known.start_of_done trivial rfl (by decide) (by decide)) (by decide) rfl
  have hs := (h _ _ _ _ h₂ 1 _ _ timeoutStatus rfl rfl).2
  exact absurd (hs ⟨by decide, 0, 0, _, rfl, by decide⟩) (by decide)

/-! ## The session of a transaction -/

/-- What a call returned says that it succeeded. -/
def Result.succeeds (r : Result) : Bool := r.ready || r.returned.any Status.ok

/-- Every statement in the history was acknowledged in this session of the executor. -/
def InSessionOf (e : ExecId) (id : ℕ) (log : List Note) : Prop :=
  ∀ e' id' q, .sql e' (.acked id' q) ∈ log → e' = e ∧ id' = id

/-- When a 'commit' on a handle succeeds, every statement of the transaction that succeeded ran in the session in which
the 'commit' ran. A handle that was moved goes on with the transaction of the old one. -/
def CommitAtomic (cf : ProxyConfig) : Prop :=
  ∀ i j c c' r r' h h', cf.Returned i c r → c.handle = some h → r.succeeds = true →
    cf.Returned j c' r' → c'.handle = some h' → c'.sends .commit → r'.succeeds = true →
    (cf.world.handles h).opened = (cf.world.handles h').opened →
    ∃ e id sent, c.sends sent ∧ .sql e (.acked id sent) ∈ cf.world.ownLog i ∧ InSessionOf e id (cf.world.ownLog i) ∧
      .sql e (.acked id .commit) ∈ cf.world.ownLog j ∧ InSessionOf e id (cf.world.ownLog j)

/-- A call that may send 'commit' sends nothing else. -/
theorem Call.sends_commit {c : Call} {sent : Sql} (hc : c.sends .commit) (hs : c.sends sent) : sent = .commit := by
  cases c with
  | query | asyncQuery | queryTx | asyncQueryTx =>
    obtain ⟨text, ht⟩ := Sql.Sent.user hc
    cases ht
  | _ => first | exact hs.trans hc.symm | exact hs.elim

/-- No call with a handle makes a connection; filters that pass leave the status as it was, and those that reject leave
an error; no two calls in progress share a context; and the number of an error that is read from a closed MYSQL object
is not zero. -/
def noReconnect : Known where
  contexts := True
  given c := { numbers := True, noConnect := c.handle.isSome = true }

instance : Decidable noReconnect.contexts := isTrue trivial

instance (c : Call) (w : World) (o : WorldOp) : Decidable (noReconnect.smooth c w o) := isFalse id

instance (c : Call) (w : World) (o : WorldOp) : Decidable (noReconnect.fit c w o) := isTrue trivial

instance (c : Call) (o : ClientOp) (a : ClientAnswer) (s : ExecSt) : Decidable ((noReconnect.given c).Allows o a s) :=
  inferInstanceAs (Decidable (Given.Allows { numbers := True, noConnect := c.handle.isSome = true } o a s))

/-- The terms under which the statements of a handle run in its session. -/
def sessionTerms : Terms where
  toKnown := noReconnect
  session := True
  done c r log opened := c.handle.isSome = true →
    (r.succeeds = true → ∃ e id sent, c.sends sent ∧ .sql e (.acked id sent) ∈ log) ∧
      ∀ e id q, .sql e (.acked id q) ∈ log → opened = some (e, id)

theorem upheld_session : sessionTerms.Upheld where
  session _ c h hc := by
    change c.handle.isSome = true
    rw [hc]
    rfl
  truth h := h.elim
  clean h := h.elim
  kept h := h.elim
  done c r log opened hr hc := by
    refine ⟨fun hs => ?_, fun e id q hm => hr.inTx hc trivial e id q hm⟩
    rcases Bool.or_eq_true _ _ ▸ hs with hready | hst
    · exact hr.ready trivial hc hready
    · obtain ⟨s, hs, hok⟩ := (Option.any_eq_true _ _).1 hst
      exact (hr.succeeded trivial trivial s hs hok).2

/-- **A transaction is atomic across the loss of a connection, in every run in which no call with a handle connects.** -/
theorem commit_atomic (serviceName : String) (option : MysqlExecutorPoolOption) (ctxs : CtxId → ClientContext)
    (hr : proxySystem.Reach noReconnect.guard (World.fresh serviceName option ctxs) cf) : CommitAtomic cf := by
  have hdone : ∀ {i c r h}, cf.Returned i c r → c.handle = some h → r.succeeds = true →
      ∃ e id sent, c.sends sent ∧ .sql e (.acked id sent) ∈ cf.world.ownLog i ∧
        (cf.world.handles h).opened = some (e, id) ∧ InSessionOf e id (cf.world.ownLog i) := by
    intro i c r h hret hc hs
    have hd := ((Terms.sound upheld_session serviceName option ctxs).returned hr hret).2
    obtain ⟨h1, h2⟩ := hd (by rw [hc]; rfl)
    have hopened : c.opened cf.world = (cf.world.handles h).opened := by rw [Call.opened, hc]; rfl
    obtain ⟨e, id, sent, hsent, hm⟩ := h1 hs
    have hid := h2 e id sent hm
    refine ⟨e, id, sent, hsent, hm, hopened.symm.trans hid, fun e' id' q' hm' => ?_⟩
    have := hid.symm.trans (h2 e' id' q' hm')
    cases this
    exact ⟨rfl, rfl⟩
  intro i j c c' r r' h h' hret hc hs hret' hc' hcommit hs' hsame
  obtain ⟨e, id, sent, hsent, hm, hopened, hin⟩ := hdone hret hc hs
  obtain ⟨e', id', sent', hsent', hm', hopened', hin'⟩ := hdone hret' hc' hs'
  obtain rfl := Call.sends_commit hcommit hsent'
  have := (hopened.symm.trans hsame).trans hopened'
  cases this
  exact ⟨e, id, sent, hsent, hm, hin, hm', hin'⟩

/-- A statement and the 'commit' of its transaction. -/
theorem commit_atomic_statement : ∃ cf, proxySystem.Reach noReconnect.guard newProxy cf ∧
    (cf.world.handles 0).state = .kCommitted ∧ CommitAtomic cf := by
  have h₁ : proxySystem.Reach noReconnect.guard newProxy _ :=
    System.Reach.init.call (c := .begin 0) (List.replicate 60 {})
      (Known.start_of_done trivial rfl (by decide) (by decide))
      (by decide) rfl
  have h₂ := h₁.call (c := .queryTx 1 0 { mode := .onlyExec } (ascii "delete from t") []) (List.replicate 60 {})
    (Known.start_of_done trivial rfl (by decide) (by decide)) (by decide) rfl
  have h₃ := h₂.call (c := .finish 2 0 false) (List.replicate 60 {})
    (Known.start_of_done trivial rfl (by decide) (by decide)) (by decide) rfl
  exact ⟨_, h₃, by decide, commit_atomic _ _ _ h₃⟩

/-- A history with a single statement tells the session of each. -/
theorem acked_session {log : List Note} {e : ExecId} {id : ℕ} {q : Sql} (e₀ : ExecId) (id₀ : ℕ) (q₀ : Sql)
    (hl : log = [.sql e₀ (.acked id₀ q₀)]) (hm : .sql e (.acked id q) ∈ log) : id = id₀ := by
  rw [hl, List.mem_singleton] at hm
  cases hm
  rfl

/-- The connection is lost when a statement with an argument is about to run: the executor connects anew, and the
'commit' succeeds in the new session, though the first statement is lost. -/
theorem commit_in_new_session : ¬ ∀ (serviceName : String) (option : MysqlExecutorPoolOption)
    (ctxs : CtxId → ClientContext) (cf : ProxyConfig),
    proxySystem.Reach Sequenced (World.fresh serviceName option ctxs) cf → CommitAtomic cf := by
  intro h
  have h₁ : proxySystem.Reach Sequenced newProxy _ :=
    System.Reach.init.call (c := .begin 0) (List.replicate 60 {}) (.of_done rfl (by decide) (by decide))
      Prog.along_true rfl
  have h₂ := h₁.call (c := .queryTx 1 0 { mode := .onlyExec } (ascii "delete from t") []) (List.replicate 60 {})
    (.of_done rfl (by decide) (by decide)) Prog.along_true rfl
  have h₃ := h₂.call (c := .queryTx 2 0 { mode := .onlyExec } (ascii "delete from u where id = ?") [.string (ascii "7")])
    (answers 19 { lost := true, params := 1 }) (.of_done rfl (by decide) (by decide)) Prog.along_true rfl
  have h₄ := h₃.call_get (c := .finish 3 0 false) (List.replicate 60 {})
    (.of_done rfl (by decide +kernel) (by decide +kernel)) Prog.along_true (by decide +kernel)
  obtain ⟨e, id, _, rfl, hm, -, hc, -⟩ := h _ _ _ _ h₄ 1 3 _ _ _ _ 0 0 rfl rfl (by decide +kernel)
    rfl rfl rfl (by decide +kernel) rfl
  have hold : id = 0 := acked_session 0 0 (.user (ascii "delete from t")) (by decide +kernel) hm
  have hnew : id = 1 := acked_session 0 1 .commit (by decide +kernel) hc
  omega

end TrpcMysql
