import TrpcMysql.Executor.Spec

/-!
# What a statement does

`runStatement_spec`: what `Execute` and `QueryAll`, called on a connected executor, leave
(`Ran`). A user's statement opens no transaction, and the sessions stay the same as long as
no connection is made; the results object holds no error only if the server acknowledged the
statement and nothing failed after that (`Outcome`); and an acknowledged 'commit' or
'rollback' leaves no open transaction.
-/

namespace TrpcMysql

open Function Conc

/-- A MYSQL object of the executor is connected in the session with this number. -/
def ExecSt.HasSession (s : ExecSt) (id : ℕ) : Prop :=
  ∃ p σ, (s.mysqls p).session = some σ ∧ σ.id = id

theorem ExecSt.Keeps.hasSession {s s' : ExecSt} (h : s.Keeps s') {id : ℕ} :
    s'.HasSession id → s.HasSession id := by
  rintro ⟨p, σ, hσ, hid⟩
  exact ⟨p, σ, h p σ hσ, hid⟩

/-! ## What a user's statement keeps -/

/-- From `s` to `s'` no transaction was opened, and unless a connection was made, no session
is new and every acknowledgement came from a session of `s`. -/
structure Tame (g : Given) (s s' : ExecSt) : Prop where
  tx : s'.TxOpen → s.TxOpen
  sessions : g.noConnect → ∀ id, s'.HasSession id → s.HasSession id
  events : ∃ new, s'.events = s.events ++ new ∧
    (g.noConnect → ∀ id sql, .acked id sql ∈ new → s.HasSession id)

section Statement

variable {g : Given} {s s' s'' : ExecSt} {p : MysqlPtr} {σ : Session} {a : ClientAnswer} {sql : Sql}

namespace Tame

theorem refl (s : ExecSt) : Tame g s s := ⟨id, fun _ _ => id, [], by simp, by simp⟩

theorem trans (h : Tame g s s') (h' : Tame g s' s'') : Tame g s s'' := by
  refine ⟨fun hx => h.tx (h'.tx hx), fun hg id hid => h.sessions hg id (h'.sessions hg id hid), ?_⟩
  obtain ⟨new, he, hn⟩ := h.events
  obtain ⟨new', he', hn'⟩ := h'.events
  refine ⟨new ++ new', by rw [he', he, List.append_assoc], fun hg id sql hm => ?_⟩
  rcases List.mem_append.1 hm with hm | hm
  · exact hn hg id sql hm
  · exact h.sessions hg id (hn' hg id sql hm)

theorem of_fades (h : Fades s s') : Tame g s s' := by
  obtain ⟨n, hn⟩ := h.events
  refine ⟨h.keeps.txOpen, fun _ _ => h.keeps.hasSession, _, hn, fun _ id sql hm => ?_⟩
  have := List.eq_of_mem_replicate hm
  cases this

theorem of_keeps (hk : s.Keeps s') (he : s'.events = s.events) : Tame g s s' :=
  ⟨hk.txOpen, fun _ _ => hk.hasSession, [], by simpa using he, by simp⟩

end Tame

open ExecSt in
/-- An acknowledgement changes at most the transaction of its session. -/
theorem acknowledge_session (hσ : (s.mysqls p).session = some σ) {q : MysqlPtr} {τ : Session}
    (h : ((s.acknowledge p σ sql a).mysqls q).session = some τ) :
    (q = p ∧ τ = σ.after sql) ∨ (q ≠ p ∧ (s.mysqls q).session = some τ) := by
  by_cases hq : q = p
  · subst hq
    simp only [acknowledge, note, setMysql, update_self, Option.some.injEq] at h
    exact .inl ⟨rfl, h.symm⟩
  · simp only [acknowledge, note, setMysql, update_of_ne hq] at h
    exact .inr ⟨hq, h⟩

theorem Session.after_id (σ : Session) (sql : Sql) : (σ.after sql).id = σ.id := by cases sql <;> rfl

theorem acknowledge_hasSession (hσ : (s.mysqls p).session = some σ) {id : ℕ} :
    (s.acknowledge p σ sql a).HasSession id → s.HasSession id := by
  rintro ⟨q, τ, hτ, hid⟩
  rcases acknowledge_session hσ hτ with ⟨-, rfl⟩ | ⟨-, h⟩
  · exact ⟨p, σ, hσ, by rwa [Session.after_id] at hid⟩
  · exact ⟨q, τ, h, hid⟩

theorem ExecSt.Ok.acknowledge (hs : s.Ok) (hσ : (s.mysqls p).session = some σ) :
    (s.acknowledge p σ sql a).Ok where
  conn hc := by
    obtain ⟨q, hq, ho⟩ := hs.conn hc
    exact ⟨q, hq, ExecSt.acknowledge_closed.trans ho⟩
  single q τ hτ := by
    rcases acknowledge_session hσ hτ with ⟨rfl, -⟩ | ⟨-, h⟩
    · exact hs.single _ σ hσ
    · exact hs.single q τ h
  texts := hs.texts

theorem Tame.acknowledge {t : Bytes} (hσ : (s.mysqls p).session = some σ) :
    Tame g s (s.acknowledge p σ (.user t) a) := by
  refine ⟨?_, fun _ id => acknowledge_hasSession hσ, _, rfl, fun _ id sql hm => ?_⟩
  · rintro ⟨q, τ, hτ, hin⟩
    rcases acknowledge_session hσ hτ with ⟨-, rfl⟩ | ⟨-, h⟩
    · exact ⟨p, _, hσ, hin⟩
    · exact ⟨q, τ, h, hin⟩
  · cases List.mem_singleton.1 hm
    exact ⟨p, σ, hσ, rfl⟩

/-- The texts of the user. -/
abbrev UserText (sql : Sql) : Prop := ∃ t, sql = .user t

/-- The operations of a user's statement keep an executor well formed and tame. -/
theorem tame_ops (g : Given) (s₀ : ExecSt) : KeepsOps clientExec ExecSt.this g.Allows (fun _ _ _ => True)
    (fun s => s.Ok ∧ Tame g s₀ s) fun o => o.OfStatement UserText ∨ o.ofCheck = true := by
  intro o a s ho _ hI _
  obtain ⟨hs, hst⟩ := hI
  refine ⟨trivial, fun r s' he => ?_⟩
  have fades : Fades s s' → s'.Ok ∧ Tame g s₀ s' := fun h => ⟨h.ok hs, hst.trans (.of_fades h)⟩
  have enter : ∀ p, Fades s (s.enter a p) := fun p => (Fades.refl s).enter
  by_cases hm : o.minor = true
  · exact fades (fades_exec hm he)
  cases o <;> simp [ClientOp.OfStatement, ClientOp.ofStatement, ClientOp.text?, ClientOp.ofCheck, ClientOp.minor] at ho hm
  case setConnected b =>
    subst ho; cases he
    exact ⟨hs.off, hst.trans (.of_keeps (.refl s) rfl)⟩
  case mysqlRealQuery m sql =>
    obtain ⟨t, rfl⟩ := ho
    obtain ⟨p, -, ⟨-, σ, hσ, rfl⟩ | ⟨-, rfl⟩⟩ := realQuery_exec he
    · have h1 := (ExecSt.ready_eq hσ).1
      exact ⟨((enter p).ok hs).acknowledge h1, (hst.trans (.of_fades (enter p))).trans (.acknowledge h1)⟩
    · exact fades (enter p).failMysql
  case mysqlStmtPrepare st sql =>
    obtain ⟨t, rfl⟩ := ho
    obtain ⟨q, -, ⟨-, id, rfl⟩ | ⟨-, rfl⟩⟩ := stmtPrepare_exec he
    · have hok := (enter (s.stmts q).mysql).ok hs
      refine ⟨⟨hok.conn, hok.single, fun q' => ?_⟩,
        (hst.trans (.of_fades (enter _))).trans (.of_keeps (.refl _) rfl)⟩
      by_cases hq : q' = q
      · subst hq; exact ⟨t, by simp [ExecSt.setStmt]⟩
      · simpa [ExecSt.setStmt, update_of_ne hq] using hs.texts q'
    · exact fades (enter _).failStmt
  case mysqlStmtExecute st =>
    obtain ⟨q, p, -, -, ⟨-, σ, hσ, -, rfl⟩ | ⟨-, rfl⟩⟩ := stmtExecute_exec he
    · have h1 := (ExecSt.ready_eq hσ).1
      obtain ⟨t', ht⟩ := hs.texts q
      rw [ht]
      exact ⟨((enter p).ok hs).acknowledge h1, (hst.trans (.of_fades (enter p))).trans (.acknowledge h1)⟩
    · exact fades (enter p).failStmt
  case crash why => cases he

/-- A user's statement keeps an executor well formed and tame, and so does `Connect`. -/
theorem tame_walk (g : Given) (s₀ : ExecSt) :
    Walk clientExec ExecSt.this g.Allows (fun _ _ _ => True) (fun s => s.Ok ∧ Tame g s₀ s) UserText := by
  refine .ofOps (tame_ops g s₀) ?_
  rintro s ⟨hs, hst⟩
  refine (MysqlExecutor.connect_spec hs).mono fun b s' h => ⟨h.ok, hst.trans ?_⟩
  exact ⟨h.tx, fun hg id => (h.keeps hg).hasSession, [], by simpa using h.events, by simp⟩

/-! ## Statements sent as a text -/

/-- What a statement without arguments in `OnlyExec` mode leaves: sent, or failed. -/
inductive TextRan (g : Given) (sql : Sql) (r : MysqlResults) (s : ExecSt) (r' : MysqlResults) (s' : ExecSt) :
    Prop where
  | sent {p : MysqlPtr} {σ : Session} {s₁ : ExecSt} {a : ClientAnswer} (hp : s.this.mysql = some p)
      (hf : Fades s s₁) (hσ : (s₁.mysqls p).session = some σ) (hf' : Fades (s₁.acknowledge p σ sql a) s')
      (he : s'.events = s.events ++ [.acked σ.id sql]) (hr : r'.ok = r.ok)
  | failed (hg : ¬ g.succeed) (hf : Fades s s') (he : s'.events = s.events ++ [.failed])
      (hr : r'.ok = false)

/-- What a statement that is sent as one of `T` did, and what its results object tells. -/
inductive Outcome (T : Sql → Prop) (r : MysqlResults) (s : ExecSt) (r' : MysqlResults) (s' : ExecSt) : Prop where
  | sent {id : ℕ} {sql : Sql} (hT : T sql) (he : s'.events = s.events ++ [.acked id sql])
      (hr : r.ok = true → r'.ok = true)
  | failed {e : List SqlEvent} (he : s'.events = s.events ++ e) (hf : .failed ∈ e) (hr : r'.ok = false)
  | unsent (he : s'.events = s.events) (hr : r'.ok = false)

theorem Outcome.congr {T : Sql → Prop} {r r' r'' : MysqlResults} (h : Outcome T r s r' s') (hr : r''.ok = r'.ok) :
    Outcome T r s r'' s' := by
  cases h with
  | sent hT he h' => exact .sent hT he fun h => hr.trans (h' h)
  | failed he hf h' => exact .failed he hf (hr.trans h')
  | unsent he h' => exact .unsent he (hr.trans h')

namespace TextRan

variable {r r' r'' : MysqlResults}

theorem congr (h : TextRan g sql r s r' s') (hr : r''.ok = r'.ok) : TextRan g sql r s r'' s' := by
  cases h with
  | sent hp hf hσ hf' he h' => exact .sent hp hf hσ hf' he (hr.trans h')
  | failed hg hf he h' => exact .failed hg hf he (hr.trans h')

theorem ok (h : TextRan g sql r s r' s') (hs : s.Ok) : s'.Ok := by
  cases h with
  | sent _ hf hσ hf' _ _ => exact hf'.ok ((hf.ok hs).acknowledge hσ)
  | failed _ hf _ _ => exact hf.ok hs

theorem hasSession (h : TextRan g sql r s r' s') {id : ℕ} (hid : s'.HasSession id) : s.HasSession id := by
  cases h with
  | sent _ hf hσ hf' _ _ => exact hf.keeps.hasSession (acknowledge_hasSession hσ (hf'.keeps.hasSession hid))
  | failed _ hf _ _ => exact hf.keeps.hasSession hid

theorem events (h : TextRan g sql r s r' s') : ∃ new, s'.events = s.events ++ new ∧
    ∀ id sql, .acked id sql ∈ new → s.HasSession id := by
  cases h with
  | sent hp hf hσ hf' he _ =>
    refine ⟨_, he, fun id sql hm => ?_⟩
    cases List.mem_singleton.1 hm
    exact hf.keeps.hasSession ⟨_, _, hσ, rfl⟩
  | failed _ _ he _ => exact ⟨_, he, fun id sql hm => (by cases List.mem_singleton.1 hm)⟩

theorem outcome {T : Sql → Prop} (h : TextRan g sql r s r' s') (hT : T sql) : Outcome T r s r' s' := by
  cases h with
  | sent _ _ _ _ he hr => exact .sent hT he fun h => hr.trans h
  | failed _ _ he hr => exact .failed he (List.mem_singleton.2 rfl) hr

theorem tx {t : Bytes} (h : TextRan g (.user t) r s r' s') : s'.TxOpen → s.TxOpen := by
  cases h with
  | sent _ hf hσ hf' _ _ =>
    exact fun hx => hf.keeps.txOpen ((Tame.acknowledge (g := g) hσ).tx (hf'.keeps.txOpen hx))
  | failed _ hf _ _ => exact hf.keeps.txOpen

/-- The end of a transaction that was acknowledged. -/
theorem ended (h : TextRan g sql r s r' s') (hs : s.Ok) (hsql : sql = .commit ∨ sql = .rollback)
    (hr' : r'.ok = true) : ¬ s'.TxOpen := by
  cases h with
  | failed _ _ _ hr => rw [hr] at hr'; cases hr'
  | @sent p σ s₁ a hp hf hσ hf' he hr =>
    rintro ⟨q, τ, hτ, hin⟩
    rcases acknowledge_session hσ (hf'.keeps q τ hτ) with ⟨-, rfl⟩ | ⟨hq, h⟩
    · rcases hsql with rfl | rfl <;> cases hin
    · -- no other object has a session
      have := (hf.ok hs).single q τ h
      rw [hf.this, hp] at this
      exact hq (Option.some.inj this).symm

end TextRan

end Statement

/-! ## The programs -/

section Programs

variable {g : Given} {s s₀ : ExecSt} {r r₀ : MysqlResults} {p : MysqlPtr} {q : StmtPtr} {a : ClientAnswer}
  {t : Bytes} {stmt : MysqlStatement} {outputs : List OutputArg} {args : List InputArg}

theorem ExecSt.enter_errno {p' : MysqlPtr} : ((s.enter a p').mysqls p).errno = (s.mysqls p).errno := by
  unfold ExecSt.enter
  split
  · by_cases hp : p = p'
    · subst hp; simp [Mysql.lose]
    · rw [ExecSt.setMysql_of_ne hp]
  · rfl

/-- A call on the statement `q` failed, and its error is there to be read. -/
structure StmtFailed (q : StmtPtr) (s₀ s : ExecSt) : Prop where
  errno : (s.stmts q).errno ≠ 0
  failed : ∃ new, s.events = s₀.events ++ new ∧ .failed ∈ new

theorem StmtFailed.of_failStmt {e : List SqlEvent} (he : s.events = s₀.events ++ e) :
    StmtFailed q s₀ (s.failStmt q a) := by
  refine ⟨?_, e ++ [.failed], ?_, by simp⟩
  · simpa [ExecSt.failStmt, ExecSt.note, ExecSt.setStmt, Stmt.fail] using a.error.ne_zero
  · simp [ExecSt.failStmt, ExecSt.note, ExecSt.setStmt, he]

/-- The statement `q` stands with the text, and nothing was sent since `s₀`. -/
structure Prepared (t : Bytes) (q : StmtPtr) (s₀ s : ExecSt) : Prop where
  ok : s.Ok
  sql : (s.stmts q).sql = .user t
  events : s.events = s₀.events

theorem StmtFailed.outcome {r' : MysqlResults} {s' : ExecSt} (h : StmtFailed q s₀ s)
    (he : s'.events = s.events) (hr : r'.ok = false) (T : Sql → Prop) : Outcome T r₀ s₀ r' s' := by
  obtain ⟨new, hn, hf⟩ := h.failed
  exact .failed (he.trans hn) hf hr

namespace MysqlExecutor

/-- The error of an open MYSQL object. -/
theorem setMysqlError_spec (hp : s.this.mysql = some p) (ho : (s.mysqls p).closed = false) :
    Spec g (setMysqlError r) (fun r' s' => Fades s s' ∧ s'.events = s.events ∧
      r'.errorNumber = (s.mysqls p).errno) s := by
  refine .getThis ?_
  rw [hp]
  refine .op fun a message s₁ _ he => .getThis ?_
  cases he
  rw [ExecSt.enter_this, hp]
  refine .op fun b number s₂ _ he => ?_
  cases he
  refine ⟨(Fades.refl s).enter.enter, by simp, ?_⟩
  simp [MysqlResults.setError, ExecSt.enter_closed, ExecSt.enter_errno, ho]

theorem executeText_spec (hs : s.Ok) (hc : s.this.isConnected = true) (sql : Sql) :
    Spec g (executeText r sql) (fun x s' => TextRan g sql r s x.2 s') s := by
  obtain ⟨p, hp, ho⟩ := hs.conn hc
  refine .getThis ?_
  rw [hp]
  refine .op fun a done s₁ hg he => ?_
  obtain ⟨p', hp', ⟨rfl, σ, hσ, rfl⟩ | ⟨rfl, rfl⟩⟩ := realQuery_exec he
  · obtain rfl : p = p' := Option.some.inj hp'
    simp only [Bool.not_true, Bool.false_eq_true, if_false]
    refine .getThis ?_
    rw [ExecSt.acknowledge_this, ExecSt.enter_this, hp]
    refine .op fun b n s₂ _ he => ?_
    cases he
    exact .sent hp (Fades.refl s).enter (ExecSt.ready_eq hσ).1 (Fades.refl _).enter (by simp) rfl
  · obtain rfl : p = p' := Option.some.inj hp'
    simp only [Bool.not_false, if_true]
    have hf : Fades s ((s.enter a p).failMysql p a) := (Fades.refl s).enter.failMysql
    have hp₁ : ((s.enter a p).failMysql p a).this.mysql = some p := by rw [hf.this, hp]
    refine (setMysqlError_spec hp₁ ((hf.closed p).trans ho)).bind fun r' s' h => ?_
    obtain ⟨h1, h2, h3⟩ := h
    refine .failed (fun hsucc => ?_) (hf.trans h1) (h2.trans (by simp [ExecSt.failMysql, ExecSt.note])) ?_
    · -- a statement that succeeds is not refused
      obtain ⟨hr, hok⟩ := hg hsucc p rfl
      obtain ⟨σ, hσ⟩ := Option.ne_none_iff_exists'.1 hr
      simp only [clientExec, hσ, hok, Option.some.injEq, Prod.mk.injEq, Bool.true_eq_false, false_and] at he
    · simpa [MysqlResults.ok, h3, ExecSt.failMysql, ExecSt.note, Mysql.fail] using a.error.ne_zero

/-! ### Prepared statements -/

theorem setStmtError_spec (hq : stmt.mysqlStmt = some q) (h : (s.stmts q).errno ≠ 0) :
    Spec g (setStmtError r stmt) (fun r' s' => s' = s ∧ r'.ok = false) s := by
  obtain ⟨st, m, n, k⟩ := stmt
  obtain rfl : st = some q := hq
  refine .op fun a message s₁ _ he => .op fun b number s₂ _ he' => ?_
  cases he; cases he'
  exact ⟨rfl, decide_eq_false h⟩

theorem stmtStatus_spec (hq : stmt.mysqlStmt = some q) (h : (s.stmts q).errno ≠ 0) :
    Spec g (stmtStatus stmt) (fun st s' => s' = s ∧ st.frameworkRetCode ≠ 0) s := by
  obtain ⟨st, m, n, k⟩ := stmt
  obtain rfl : st = some q := hq
  refine .op fun a number s₁ _ he => .op fun b message s₂ _ he' => ?_
  cases he; cases he'
  exact ⟨rfl, h⟩

/-- Closing the statement adds nothing to the history. -/
theorem endStatement_spec : Spec g (endStatement stmt) (fun _ s' => s'.events = s.events) s := by
  obtain ⟨st, m, n, k⟩ := stmt
  cases st with
  | none => rfl
  | some q =>
    refine .op fun a freed s₁ _ he => ?_
    cases freed
    · -- the destructor of an open statement ends the process
      exact fun b _ => ⟨trivial, fun x => x.elim⟩
    · have he₁ : s₁.events = s.events := by
        simp only [clientExec] at he
        split at he
        · cases he; simp [ExecSt.setStmt]
        · cases he
      refine .op fun b _ s₂ _ he => ?_
      cases he
      exact ExecSt.enter_events.trans he₁

/-- The end of a statement that failed. -/
theorem stmtFailure_spec {α : Type} (x : α) (T : Sql → Prop) (hq : stmt.mysqlStmt = some q) (h : StmtFailed q s₀ s) :
    Spec g (do
      let r ← setStmtError r stmt
      endStatement stmt
      return (x, r)) (fun y s' => Outcome T r₀ s₀ y.2 s') s := by
  refine (setStmtError_spec hq h.errno).bind fun r' s' h' => ?_
  obtain ⟨rfl, hr⟩ := h'
  exact endStatement_spec.bind fun _ s' he => h.outcome he hr T

/-- `MysqlStatement(mysql_)` and `Init`. -/
theorem init_spec (hg : g.numbers) (hs : s.Ok) (he : s.events = s₀.events) (m : Option MysqlPtr) (t : Bytes) :
    Spec g (MysqlStatement.init { mysql := m } (.user t)) (fun x s' => ∃ q, x.2.mysqlStmt = some q ∧
      (if x.1 then Prepared t q s₀ s' else StmtFailed q s₀ s')) s := by
  refine .op fun a st s₁ ha hi => ?_
  cases m with
  | none => cases hi
  | some p =>
    -- the statement is there
    simp only [clientExec, ha hg, if_true, Option.some.injEq, Prod.mk.injEq] at hi
    obtain ⟨rfl, rfl⟩ := hi
    set q := (s.enter a p).nextStmt
    set s₁ : ExecSt := { (s.enter a p).setStmt q { mysql := p } with nextStmt := q + 1 } with hs₁
    have hok : s₁.Ok := ((Fades.refl s).enter.newStmt rfl).ok hs
    have he₁ : s₁.events = s₀.events := by simpa [hs₁, ExecSt.setStmt] using he
    refine .op fun b done s₂ _ hp => ?_
    obtain ⟨q', hq', ⟨rfl, id, rfl⟩ | ⟨rfl, rfl⟩⟩ := stmtPrepare_exec hp
    · obtain rfl : q = q' := Option.some.inj hq'
      refine .op fun c n s₃ _ hc => .op fun d k s₄ _ hd => ?_
      cases hc; cases hd
      refine ⟨q, rfl, ?_⟩
      have hok₂ : (s₁.enter b (s₁.stmts q).mysql).Ok := (Fades.refl s₁).enter.ok hok
      refine ⟨⟨hok₂.conn, hok₂.single, fun q' => ?_⟩, by simp [ExecSt.setStmt],
        by simpa [ExecSt.setStmt] using he₁⟩
      by_cases hq : q' = q
      · subst hq; exact ⟨t, by simp [ExecSt.setStmt]⟩
      · simpa [ExecSt.setStmt, update_of_ne hq] using hok₂.texts q'
    · obtain rfl : q = q' := Option.some.inj hq'
      exact ⟨q, rfl, .of_failStmt (e := []) (by simpa using he₁)⟩

/-- The history after an acknowledged statement. -/
def Sent (sql : Sql) (s₀ s : ExecSt) : Prop := ∃ id, s.events = s₀.events ++ [.acked id sql]

/-- What `ExecuteStatement` tells: the statement was acknowledged, or it was not sent, or it failed. -/
def Executed (t : Bytes) (s₀ : ExecSt) (st : Status) (s : ExecSt) : Prop :=
  (st = {} ∧ Sent (.user t) s₀ s) ∨ (st.frameworkRetCode ≠ 0 ∧
    (s.events = s₀.events ∨ ∃ new, s.events = s₀.events ++ new ∧ .failed ∈ new))

/-- A failure of the statement, read as a status. -/
theorem stmtStatus_executed (hq : stmt.mysqlStmt = some q) (h : StmtFailed q s₀ s) :
    Spec g (stmtStatus stmt) (Executed t s₀) s :=
  (stmtStatus_spec hq h.errno).mono fun st s' h' => .inr ⟨h'.2, .inr (by rw [h'.1]; exact h.failed)⟩

theorem executeStatement_spec (hg : g.numbers) (hq : stmt.mysqlStmt = some q) (b : Bool)
    (h : Prepared t q s₀ s) : Spec g (executeStatement b stmt) (Executed t s₀) s := by
  -- from the inside out: the execution, the bind before it, the reconnect before that
  have hexec : ∀ s, Prepared t q s₀ s → Spec g (do
      if !(← mysqlStmtExecute stmt.mysqlStmt) then return ← stmtStatus stmt
      return ({} : Status)) (Executed t s₀) s := by
    intro s h
    rw [hq]
    refine .op fun a done s' _ he => ?_
    obtain ⟨q', p, hq', -, ⟨rfl, σ, -, -, rfl⟩ | ⟨rfl, rfl⟩⟩ := stmtExecute_exec he
    · obtain rfl : q = q' := Option.some.inj hq'
      refine .inl ⟨rfl, σ.id, ?_⟩
      rw [ExecSt.acknowledge_events, ExecSt.enter_events, h.events, h.sql]
    · obtain rfl : q = q' := Option.some.inj hq'
      exact stmtStatus_executed hq (.of_failStmt (e := []) (by simpa using h.events))
  have hbind : ∀ s, Prepared t q s₀ s → Spec g (do
      if b then
        if !(← mysqlStmtBindResult stmt.mysqlStmt) then return ← stmtStatus stmt
      if !(← mysqlStmtExecute stmt.mysqlStmt) then return ← stmtStatus stmt
      return ({} : Status)) (Executed t s₀) s := by
    intro s h
    cases b
    · exact hexec s h
    rw [hq]
    refine .op fun a done s' _ he => ?_
    simp only [clientExec] at he
    split at he
    · cases he; rw [← hq]; exact hexec s h
    · cases he; exact stmtStatus_executed hq (.of_failStmt (e := []) (by simpa using h.events))
  refine (checkAlive_spec h.ok).bind fun alive s₁ h₁ => ?_
  have hp₁ : Prepared t q s₀ s₁ := ⟨h₁.ok, by rw [h₁.stmts]; exact h.sql, h₁.events.trans h.events⟩
  cases alive
  · refine (startReconnect_spec h₁.ok).bind fun done s₂ h₂ => ?_
    have hp₂ : Prepared t q s₀ s₂ := ⟨h₂.ok, by rw [h₂.stmts]; exact hp₁.sql, h₂.events.trans hp₁.events⟩
    cases done
    · -- the error number is read from a closed object
      obtain ⟨p, hp, hcl⟩ := h₂.down rfl
      refine .getThis ?_
      rw [hp]
      refine .op fun a number s₃ ha he => .getThis ?_
      cases he
      rw [ExecSt.enter_this, hp]
      refine .op fun b message s₄ _ he => ?_
      cases he
      refine .inr ⟨?_, .inl (by simpa using hp₂.events)⟩
      have hne : a.strayNumber ≠ 0 := ha hg fun p' hp' => by
        obtain rfl : p = p' := Option.some.inj hp'
        exact hcl
      simpa [hcl] using hne
    · exact hbind s₂ hp₂
  · exact hbind s₁ hp₁

/-- Formatting the statement changes nothing. -/
theorem formatQuery_spec (sql : Sql) (args : List InputArg) : Spec g (formatQuery sql args)
    (fun sent s' => s = s' ∧ ∃ fmt, Formatter.formatSql fmt args sql = some sent) s := by
  refine .op fun a sent s' _ he => ?_
  obtain rfl : s = s' := congrArg Prod.snd (Option.some.inj he)
  cases sent with
  | none => exact Spec.crash
  | some sent => exact ⟨rfl, sent.2⟩

/-- A row adds nothing to the history. -/
theorem fetchRow_events (handle : QueryHandle) (row : ServerRow) :
    Spec g (fetchRow stmt handle row) (fun _ s' => s'.events = s.events) s := by
  refine (uses_fetchRow (P := fun o => ∃ q column offset, o = .mysqlStmtFetchColumn q column offset) stmt handle row
    fun column offset => ⟨_, column, offset, rfl⟩).gwp (I := fun s' : ExecSt => s'.events = s.events) ?_ rfl
  rintro o a s₁ ⟨st, column, offset, rfl⟩ he₁ _
  refine ⟨trivial, fun r s' hx => ?_⟩
  cases st with
  | none => cases hx
  | some q =>
    simp only [clientExec] at hx
    split at hx <;> cases hx
    exacts [he₁, he₁]

/-- Fetching changes neither the error number nor, without a failure, the history. -/
def Fetched (q : StmtPtr) (r : MysqlResults) (s₀ s : ExecSt) (x : Bool × MysqlResults) (s' : ExecSt) : Prop :=
  if x.1 then s'.events = s.events ∧ x.2.errorNumber = r.errorNumber else StmtFailed q s₀ s'

theorem fetchLoop_spec (hq : stmt.mysqlStmt = some q) {e : List SqlEvent} :
    ∀ (n : ℕ) (handle : QueryHandle) (r : MysqlResults) {s : ExecSt}, s.events = s₀.events ++ e →
      Spec g (fetchLoop stmt n handle r) (Fetched q r s₀ s) s := by
  intro n
  induction n with
  | zero =>
    intro handle r s he
    unfold fetchLoop
    rw [hq]
    refine .op fun a f s' _ hf => ?_
    simp only [clientExec] at hf
    split at hf
    · split at hf <;> cases hf
      exacts [⟨rfl, rfl⟩, Spec.crash]
    · cases hf; exact StmtFailed.of_failStmt he
  | succ n ih =>
    intro handle r s he
    unfold fetchLoop
    rw [hq]
    refine .op fun a f s' _ hf => ?_
    simp only [clientExec] at hf
    split at hf
    · split at hf <;> cases hf
      · exact ⟨rfl, rfl⟩
      · refine (fetchRow_events handle _).bind fun handle s₁ he₁ => (ih handle _ (he₁.trans he)).mono fun x s' h => ?_
        unfold Fetched at h ⊢
        rwa [he₁] at h
    · cases hf; exact StmtFailed.of_failStmt he

theorem fetchResults_spec (hq : stmt.mysqlStmt = some q) {e : List SqlEvent}
    (handle : QueryHandle) (he : s.events = s₀.events ++ e) :
    Spec g (fetchResults handle stmt r) (Fetched q r s₀ s) s := by
  unfold fetchResults
  rw [hq]
  refine .op fun a n s' _ hn => ?_
  simp only [clientExec] at hn
  split at hn
  · cases hn
    have he' : (s.setStmt q { s.stmts q with rows := [] }).events = s₀.events ++ e := he
    refine (fetchLoop_spec hq _ _ r (by simpa [ExecSt.setStmt] using he')).mono ?_
    intro x s' h
    unfold Fetched at h ⊢
    split
    · rename_i hx
      simpa [hx, ExecSt.setStmt] using h
    · rename_i hx
      simpa [hx] using h
  · cases hn; exact StmtFailed.of_failStmt (by simpa using he)

theorem queryBound_spec (handle : QueryHandle) (hg : g.numbers) (hq : stmt.mysqlStmt = some q)
    (h : Prepared t q s₀ s) (hr : r₀.ok = true → r.ok = true) :
    Spec g (queryBound handle stmt r) (fun x s' => Outcome (· = .user t) r₀ s₀ x.2 s') s := by
  refine (executeStatement_spec hg hq true h).bind fun st s₁ h₁ => ?_
  rcases h₁ with ⟨rfl, id, hid⟩ | ⟨hne, hev⟩
  · refine (fetchResults_spec hq _ hid).bind fun x s₂ h₂ => ?_
    obtain ⟨fetched, r₂⟩ := x
    cases fetched
    · exact (setStmtError_spec hq h₂.errno).bind fun r' s' h' => by
        obtain ⟨rfl, hr'⟩ := h'
        exact endStatement_spec.bind fun _ s' he => h₂.outcome he hr' _
    · obtain ⟨he, hn⟩ := h₂
      refine .op fun a fields s₃ _ hf => ?_
      rw [hq] at hf
      cases hf
      refine endStatement_spec.bind fun _ s' he' => .sent rfl ((he'.trans he).trans hid) fun h₀ => ?_
      have hok : r₂.ok = true := by simpa [MysqlResults.ok, show r₂.errorNumber = r.errorNumber from hn] using hr h₀
      cases (s₂.stmts q).columns <;> exact hok
  · have hst : st.ok = false := by simp [Status.ok, hne]
    simp only [hst, Bool.not_false, if_true]
    refine endStatement_spec.bind fun _ s' he' => ?_
    have hr' : (r.setError st.errorMessage st.frameworkRetCode).ok = false := decide_eq_false hne
    rcases hev with hev | ⟨new, hn, hf⟩
    · exact .unsent (he'.trans hev) hr'
    · exact .failed (he'.trans hn) hf hr'

theorem queryPrepared_spec (hg : g.numbers) (hq : stmt.mysqlStmt = some q) (h : Prepared t q s₀ s)
    (hr : r₀.ok = true → r.ok = true) :
    Spec g (queryPrepared outputs stmt r) (fun x s' => Outcome (· = .user t) r₀ s₀ x.2 s') s := by
  unfold queryPrepared
  refine .op fun a fields s₁ _ hf => ?_
  rw [hq] at hf
  cases hf
  cases (s.stmts q).columns with
  | none => exact Spec.crash
  | some fields => exact queryBound_spec _ hg hq h hr

theorem queryAllBind_spec (hg : g.numbers) (hs : s.Ok) :
    Spec g (queryAllBind outputs r (.user t) args) (fun x s' => Outcome (· = .user t) r s x.2 s') s := by
  refine .op fun a _ s₁ _ he => .getThis ?_
  cases he
  refine (init_spec hg hs (rfl : s.events = s.events) _ t).bind fun x s₂ h₂ => ?_
  obtain ⟨ok, stmt⟩ := x
  obtain ⟨q, hq, h₂⟩ := h₂
  cases ok
  · exact stmtFailure_spec _ _ hq h₂
  change Prepared t q s s₂ at h₂
  refine .op fun b fields s₃ _ hf => ?_
  rw [hq] at hf
  cases hf
  cases hcol : (s₂.stmts q).columns with
  | none => exact Spec.crash
  | some fields =>
    dsimp only
    split
    · exact endStatement_spec.bind fun _ s' he' => .unsent (he'.trans h₂.events) rfl
    refine gwp_bindInputArgs (fun _ => trivial) (Spec.op fun c bound s₄ _ hb => ?_)
    rw [hq] at hb
    simp only [clientExec] at hb
    split at hb
    · cases hb
      exact queryPrepared_spec hg hq h₂ id
    · cases hb
      exact stmtFailure_spec _ _ hq (.of_failStmt (e := []) (by simpa using h₂.events))

theorem executePrepared_spec (hg : g.numbers) (hs : s.Ok) :
    Spec g (executePrepared r (.user t) args) (fun x s' => Outcome (· = .user t) r s x.2 s') s := by
  refine .op fun a _ s₁ _ he => .getThis ?_
  cases he
  refine (init_spec hg hs (rfl : s.events = s.events) _ t).bind fun x s₂ h₂ => ?_
  obtain ⟨ok, stmt⟩ := x
  obtain ⟨q, hq, h₂⟩ := h₂
  cases ok
  · exact stmtFailure_spec _ _ hq h₂
  change Prepared t q s s₂ at h₂
  refine gwp_bindInputArgs (fun _ => trivial) (Spec.op fun c bound s₃ _ hb => ?_)
  rw [hq] at hb
  simp only [clientExec] at hb
  split at hb
  · cases hb
    refine (executeStatement_spec hg hq false h₂).bind fun st s₄ h₄ => ?_
    rcases h₄ with ⟨rfl, id, hid⟩ | ⟨hne, hev⟩
    · refine .getThis (.op fun d n s₅ _ hn => ?_)
      have he₅ : s₅.events = s₄.events := by
        cases hp : s₄.this.mysql with
        | none => rw [hp] at hn; cases hn
        | some p => rw [hp] at hn; cases hn; exact ExecSt.enter_events
      exact endStatement_spec.bind fun _ s' he' => .sent rfl ((he'.trans he₅).trans hid) fun h => h
    · have hst : st.ok = false := by simp [Status.ok, hne]
      simp only [hst, Bool.not_false, if_true]
      refine endStatement_spec.bind fun _ s' he' => ?_
      have hr' : (r.cleared.setError st.errorMessage st.frameworkRetCode).ok = false := decide_eq_false hne
      rcases hev with hev | ⟨new, hn, hf⟩
      · exact .unsent (he'.trans hev) hr'
      · exact .failed (he'.trans hn) hf hr'
  · cases hb
    exact stmtFailure_spec _ _ hq (.of_failStmt (e := []) (by simpa using h₂.events))

/-- The rows of a stored result leave the error number alone. -/
theorem pushRows_errorNumber (rows : List ServerRow) : ∀ r : MysqlResults,
    (rows.foldl (fun r row => r.pushRow (row.map (·.getD [])) (row.map Option.isNone)) r).errorNumber =
      r.errorNumber := by
  induction rows with
  | nil => intro r; rfl
  | cons row rows ih => intro r; exact ih _

theorem queryAllNative_spec (hs : s.Ok) (hc : s.this.isConnected = true) (sql : Sql) :
    Spec g (queryAllNative r sql args)
      (fun x s' => Outcome (fun sent => ∃ fmt, Formatter.formatSql fmt args sql = some sent) r s x.2 s') s := by
  obtain ⟨p, hp, ho⟩ := hs.conn hc
  refine .op fun a _ s₁ _ he => ?_
  cases he
  refine (formatQuery_spec sql args).bind fun sent s₁ h => ?_
  obtain ⟨rfl, hsent⟩ := h
  refine .getThis ?_
  rw [hp]
  refine .op fun b done s₁ _ he => ?_
  -- the server acknowledged the text, or mysql_real_query failed
  obtain ⟨p', hp', ⟨rfl, σ, hσ, rfl⟩ | ⟨rfl, rfl⟩⟩ := realQuery_exec he
  · obtain rfl : p = p' := Option.some.inj hp'
    set s₁ := (s.enter b p).acknowledge p σ sent b with hs₁
    have hp₁ : s₁.this.mysql = some p := by simpa [hs₁] using hp
    have ho₁ : (s₁.mysqls p).closed = false :=
      (ExecSt.acknowledge_closed.trans ExecSt.enter_closed).trans ho
    have hz : (s₁.mysqls p).errno = 0 := by simp [hs₁, ExecSt.acknowledge, ExecSt.note, Mysql.clear]
    have he₁ : s₁.events = s.events ++ [.acked σ.id sent] := by simp [hs₁]
    refine .getThis ?_
    rw [hp₁]
    refine .op fun c res s₂ _ hst => ?_
    simp only [clientExec] at hst
    split at hst
    · -- no result to store, and no error either
      cases hst
      refine (setMysqlError_spec (p := p) (by simpa using hp₁) (ExecSt.enter_closed.trans ho₁)).bind
        fun r' s' h => ?_
      obtain ⟨-, he', hn⟩ := h
      refine .sent hsent (he'.trans (by simpa using he₁)) fun _ => ?_
      rw [ExecSt.enter_errno, hz] at hn
      exact decide_eq_true hn
    · split at hst
      · cases hst
        refine .sent hsent (by simpa using he₁) fun h => ?_
        simpa [MysqlResults.ok, MysqlResults.setFieldsName, pushRows_errorNumber, MysqlResults.cleared] using h
      · cases hst
        set s₂ := ((s₁.enter c p).setMysql p { (s₁.enter c p).mysqls p with pending := none }) with hs₂
        refine (setMysqlError_spec (p := p) (by simpa [ExecSt.failMysql, ExecSt.note, hs₂] using hp₁) ?_).bind
          fun r' s' h => ?_
        · have h2 : (s₂.mysqls p).closed = false := by simp [hs₂, ExecSt.enter_closed, ho₁]
          simpa [ExecSt.failMysql, ExecSt.note, Mysql.fail] using h2
        obtain ⟨-, he', hn⟩ := h
        refine .failed (e := [.acked σ.id sent, .failed]) (he'.trans ?_) (by simp) (decide_eq_false ?_)
        · simp [ExecSt.failMysql, ExecSt.note, hs₂, he₁]
        · rw [hn]; simpa [ExecSt.failMysql, ExecSt.note, Mysql.fail] using c.error.ne_zero
  · obtain rfl : p = p' := Option.some.inj hp'
    have hf : Fades s ((s.enter b p).failMysql p b) := (Fades.refl s).enter.failMysql
    refine (setMysqlError_spec (by rw [hf.this, hp]) ((hf.closed p).trans ho)).bind fun r' s' h => ?_
    obtain ⟨-, he', hn⟩ := h
    refine .failed (e := [.failed]) (he'.trans (by simp [ExecSt.failMysql, ExecSt.note])) (by simp)
      (decide_eq_false ?_)
    rw [hn]
    simpa [ExecSt.failMysql, ExecSt.note, Mysql.fail] using b.error.ne_zero

/-! ### The whole statement -/

/-- The statement is the user's, or one of the proxy's own, which are sent as texts. -/
def Proper (r : MysqlResults) (sql : Sql) (args : List InputArg) : Prop :=
  (∃ t, sql = .user t) ∨ (r.mode = .onlyExec ∧ args = [])

/-- What `Execute` or `QueryAll` leaves. -/
structure Ran (g : Given) (sql : Sql) (args : List InputArg) (r : MysqlResults) (s : ExecSt)
    (r' : MysqlResults) (s' : ExecSt) : Prop where
  ok : s'.Ok
  sessions : g.noConnect → ∀ id, s'.HasSession id → s.HasSession id
  events : ∃ new, s'.events = s.events ++ new ∧
    (g.noConnect → ∀ id sql, .acked id sql ∈ new → s.HasSession id)
  outcome : g.numbers ∨ r.mode = .onlyExec ∧ args = [] → Outcome (Sql.Sent r.mode sql args) r s r' s'
  tx : (∃ t, sql = .user t) → s'.TxOpen → s.TxOpen
  ended : r.mode = .onlyExec ∧ args = [] → sql = .commit ∨ sql = .rollback → r'.ok = true → ¬ s'.TxOpen
  succeed : g.succeed → r.mode = .onlyExec ∧ args = [] → r.ok = true → r'.ok = true

/-- A statement sent as a text. -/
theorem runText_spec (hs : s.Ok) (hc : s.this.isConnected = true) (hm : r.mode = .onlyExec) (sql : Sql) :
    Spec g (runStatement r sql []) (fun x s' => TextRan g sql r s x.2 s') s := by
  unfold runStatement
  rw [hm]
  exact (executeText_spec hs hc sql).bind fun x s' h => h.congr rfl

/-- The outcome of a user's statement, with honest error numbers. -/
theorem runUser_outcome (hg : g.numbers) (hs : s.Ok) (hc : s.this.isConnected = true) :
    Spec g (runStatement r (.user t) args) (fun x s' => Outcome (Sql.Sent r.mode (.user t) args) r s x.2 s') s := by
  have hend : ∀ {T : Sql → Prop} (x : Bool × MysqlResults) s', Outcome T r s x.2 s' →
      Spec g (do
        if !x.1 then return (false, x.2)
        return (true, { x.2 with hasValue := true })) (fun x s' => Outcome T r s x.2 s') s' := by
    rintro T ⟨_ | _, r'⟩ s' h
    · exact h
    · exact h.congr rfl
  unfold runStatement
  cases hmode : r.mode with
  | bindType outputs =>
    unfold queryAll
    rw [hmode]
    exact (queryAllBind_spec hg hs).bind hend
  | nativeString =>
    unfold queryAll
    rw [hmode]
    exact (queryAllNative_spec hs hc _).bind hend
  | onlyExec =>
    have hrows : ∀ (x : ℕ × MysqlResults) s', Outcome (· = .user t) r s x.2 s' →
        Outcome (· = .user t) r s { x.2 with affectedRows := x.1 } s' :=
      fun x s' h => h.congr rfl
    dsimp only
    unfold execute
    split
    · exact (executeText_spec hs hc _).bind fun x s' h => hrows x s' (h.outcome rfl)
    · exact (executePrepared_spec hg hs).bind fun x s' h => hrows x s' h

/-- **A statement on a connected executor.** -/
theorem runStatement_spec (hs : s.Ok) (hc : s.this.isConnected = true) {sql : Sql} (h : Proper r sql args) :
    Spec g (runStatement r sql args) (fun x s' => Ran g sql args r s x.2 s') s := by
  by_cases htext : r.mode = .onlyExec ∧ args = []
  · obtain ⟨hm, rfl⟩ := htext
    refine (runText_spec hs hc hm sql).mono fun x s' h' => ?_
    obtain ⟨new, he, hn⟩ := h'.events
    refine ⟨h'.ok hs, fun _ _ => h'.hasSession, ⟨new, he, fun _ => hn⟩,
      fun _ => h'.outcome (.same (by simp [hm])), ?_,
      fun _ => h'.ended hs, fun hg _ hr => ?_⟩
    · rintro ⟨t, rfl⟩
      exact h'.tx
    · cases h' with
      | sent _ _ _ _ _ h => exact h.trans hr
      | failed hg' _ _ _ => exact absurd hg hg'
  · obtain ⟨t, rfl⟩ : ∃ t, sql = .user t := h.resolve_right htext
    have htame : Spec g (runStatement r (.user t) args) (fun _ s' => s'.Ok ∧ Tame g s s') s :=
      keeps_runStatement (tame_walk g s) r args (fun _ h => h.user) s ⟨hs, .refl s⟩
    -- the outcome is known where error numbers are honest
    have hout : Spec g (runStatement r (.user t) args)
        (fun x s' => g.numbers → Outcome (Sql.Sent r.mode (.user t) args) r s x.2 s') s := by
      by_cases hg : g.numbers
      · exact (runUser_outcome hg hs hc).mono fun _ _ h _ => h
      · exact htame.mono fun _ _ _ h => absurd h hg
    refine (htame.and hout).mono fun x s' h' => ?_
    obtain ⟨⟨hok, hst⟩, hout⟩ := h'
    exact ⟨hok, hst.sessions, hst.events, fun h => hout (h.resolve_right htext), fun _ => hst.tx,
      fun h => absurd h htext, fun _ h => absurd h htext⟩

end MysqlExecutor

end Programs

end TrpcMysql
