import TrpcMysql.Executor.Calls
import TrpcMysql.Executor.Closed
import TrpcMysql.Executor.Transcript

/-!
# The session of a prepared statement

`QueryAll` and `Execute` prepare their statement first. `ExecuteStatement` then looks at the connection and may
make a new one, and binds and executes the statement it was given: the one that was prepared before.

* `Lasts`: without a new connection an executor's session can only be lost, and statements stay in theirs.
* `in_session_iff`: statements are bound and executed in the session that prepared them exactly while no attempt
  to connect succeeds.
-/

namespace TrpcMysql

open Function Conc ExecutorCall

/-- The statement was prepared in the session behind `mysql_`, if there is one. -/
def ExecSt.Current (q : StmtPtr) (s : ExecSt) : Prop := ∀ σ ∈ s.session, (s.stmts q).session = some σ.id

instance (q : StmtPtr) : DecidablePred (ExecSt.Current q) := fun s =>
  inferInstanceAs (Decidable (∀ σ ∈ s.session, (s.stmts q).session = some σ.id))

/-- The statement that is bound or executed. -/
def ClientOp.statement : ClientOp → Option StmtPtr
  | mysqlStmtBindResult st | mysqlStmtExecute st => st
  | _ => none

/-- A statement is bound and executed in the session that prepared it. -/
def RunsInSession (o : ClientOp) (_ : ClientAnswer) (s : ExecSt) : Prop := ∀ q ∈ o.statement, s.Current q

/-- No attempt to connect succeeds. -/
def Unconnected (o : ClientOp) (a : ClientAnswer) (s : ExecSt) : Prop :=
  ∀ p ∈ connectArg o, ¬ (((s.enter a p).mysqls p).session.isNone = true ∧ a.ok = true)

instance : ∀ o a s, Decidable (RunsInSession o a s) := fun o _ s =>
  inferInstanceAs (Decidable (∀ q ∈ o.statement, s.Current q))

/-! ## Without a new connection -/

/-- The session is lost at most, and the statements stay in theirs. -/
structure Lasts (s s' : ExecSt) : Prop where
  session : ∀ σ ∈ s'.session, ∃ τ ∈ s.session, τ.id = σ.id
  stmts : ∀ q, (s'.stmts q).session = (s.stmts q).session
  sessions : s'.sessions = s.sessions

namespace Lasts

variable {s s' : ExecSt} {a : ClientAnswer} {p : MysqlPtr} {q : StmtPtr} {m : Mysql}

theorem refl (s : ExecSt) : Lasts s s := ⟨fun σ hσ => ⟨σ, hσ, rfl⟩, fun _ => rfl, rfl⟩

theorem current (h : Lasts s s') (hq : s.Current q) : s'.Current q := by
  intro σ hσ
  obtain ⟨τ, hτ, hid⟩ := h.session σ hσ
  rw [h.stmts, hq τ hτ, hid]

theorem setMysql (h : Lasts s s') (hm : ∀ σ ∈ m.session, ∃ τ ∈ (s'.mysqls p).session, τ.id = σ.id) :
    Lasts s (s'.setMysql p m) := by
  refine ⟨fun σ hσ => ?_, h.stmts, h.sessions⟩
  obtain ⟨p', hp', hσ⟩ := Option.bind_eq_some_iff.1 hσ
  have hp' : s'.this.mysql = some p' := hp'
  have hback : ∀ τ ∈ (s'.mysqls p').session, ∃ υ ∈ s.session, υ.id = τ.id := fun τ hτ =>
    h.session τ (Option.bind_eq_some_iff.2 ⟨p', hp', hτ⟩)
  by_cases hpp : p' = p
  · subst hpp
    rw [ExecSt.setMysql_self] at hσ
    obtain ⟨τ, hτ, hid⟩ := hm σ hσ
    obtain ⟨υ, hυ, hid'⟩ := hback τ hτ
    exact ⟨υ, hυ, hid'.trans hid⟩
  · rw [ExecSt.setMysql_of_ne hpp] at hσ
    exact hback σ hσ

/-- The object keeps its session. -/
theorem setSame (h : Lasts s s') (hm : m.session = (s'.mysqls p).session) : Lasts s (s'.setMysql p m) :=
  h.setMysql fun σ hσ => ⟨σ, by rw [← hm]; exact hσ, rfl⟩

/-- The object loses its session. -/
theorem setNone (h : Lasts s s') (hm : m.session = none) : Lasts s (s'.setMysql p m) :=
  h.setMysql fun σ hσ => by rw [hm] at hσ; cases hσ

theorem enter (h : Lasts s s') : Lasts s (s'.enter a p) := by
  unfold ExecSt.enter
  split
  · exact h.setNone rfl
  · exact h

theorem note {e : SqlEvent} (h : Lasts s s') : Lasts s (s'.note e) := ⟨h.session, h.stmts, h.sessions⟩

theorem setStmt {st : Stmt} (h : Lasts s s') (hst : st.session = (s'.stmts q).session) : Lasts s (s'.setStmt q st) := by
  refine ⟨h.session, fun q' => ?_, h.sessions⟩
  by_cases hq : q' = q
  · subst hq
    rw [← h.stmts]
    simpa [ExecSt.setStmt] using hst
  · simpa [ExecSt.setStmt, hq] using h.stmts q'

theorem failMysql (h : Lasts s s') : Lasts s (s'.failMysql p a) := .note (.setSame h rfl)

theorem failStmt (h : Lasts s s') : Lasts s (s'.failStmt q a) := .note (.setStmt h rfl)

/-- An executor without a MYSQL object has no session. -/
theorem of_none (hnone : s'.session = none) (hst : s'.stmts = s.stmts) (hs : s'.sessions = s.sessions) : Lasts s s' := by
  refine ⟨fun σ hσ => ?_, fun q => by rw [hst], hs⟩
  rw [hnone] at hσ
  cases hσ

theorem acknowledge {σ : Session} {sql : Sql} (h : Lasts s s') (hσ : (s'.mysqls p).session = some σ) :
    Lasts s (s'.acknowledge p σ sql a) := by
  refine (h.setMysql fun τ hτ => ⟨σ, hσ, ?_⟩).note
  cases hτ
  cases sql <;> rfl

end Lasts

/-- The operation makes or prepares a statement. -/
def ClientOp.prepares : ClientOp → Bool
  | mysqlStmtInit _ | mysqlStmtPrepare .. => true
  | _ => false

-- the equations of `clientExec` are made here, once for the operations below
attribute [local simp] clientExec in
theorem minor_lasts {o : ClientOp} {a : ClientAnswer} {s s' : ExecSt} {r : o.Reply} (hm : o.minor = true)
    (ho : o.prepares = false) (h : clientExec o a s = some (r, s')) : Lasts s s' := by
  have h0 : Lasts s s := .refl s
  unfold clientExec at h
  split at h <;> simp only [ClientOp.minor, Bool.false_eq_true] at hm <;>
    simp only [ClientOp.prepares, Bool.true_eq_false] at ho
  all_goals try dsimp only at h
  all_goals repeat' (split at h)
  all_goals try contradiction
  all_goals simp only [Option.some.injEq, Prod.mk.injEq] at h
  all_goals obtain ⟨-, rfl⟩ := h
  all_goals first
    | exact h0
    | exact h0.enter
    | exact h0.failStmt
    | exact h0.enter.failMysql
    | exact h0.enter.failStmt
    | exact .setStmt h0 rfl
    | exact .setSame h0.enter rfl
    | exact .failMysql (.setSame h0.enter rfl)
    | exact .setStmt h0.enter rfl
    | exact .setStmt (.setSame h0.enter rfl) rfl

/-- **Without a new connection a session lasts or is lost.** -/
theorem lasts_exec {o : ClientOp} {a : ClientAnswer} {s s' : ExecSt} {r : o.Reply} (ho : o.prepares = false)
    (hc : Unconnected o a s) (h : clientExec o a s = some (r, s')) : Lasts s s' := by
  have h0 : Lasts s s := .refl s
  by_cases hm : o.minor = true
  · exact minor_lasts hm ho h
  cases o <;> simp only [ClientOp.minor, not_true_eq_false] at hm
  case mysqlRealConnect m option =>
    obtain ⟨p, rfl, ⟨-, hnone, hok, -⟩ | ⟨-, rfl⟩⟩ := realConnect_exec h
    · exact absurd ⟨by rw [hnone]; rfl, hok⟩ (hc p rfl)
    · exact h0.enter.setSame rfl
  case mysqlRealQuery m sql =>
    obtain ⟨p, -, ⟨-, σ, hσ, rfl⟩ | ⟨-, rfl⟩⟩ := realQuery_exec h
    · exact h0.enter.acknowledge (ExecSt.ready_eq hσ).1
    · exact h0.enter.failMysql
  case mysqlStmtExecute st =>
    obtain ⟨q, p, -, -, ⟨-, σ, hσ, -, rfl⟩ | ⟨-, rfl⟩⟩ := stmtExecute_exec h
    · exact h0.enter.acknowledge (ExecSt.ready_eq hσ).1
    · exact h0.enter.failStmt
  case mysqlClose m =>
    cases m with
    | none => cases h; exact h0
    | some p => cases h; exact h0.enter.setNone rfl
  case initMysql =>
    cases h
    exact .of_none (by simp [ExecSt.session, ExecSt.setMysql]) rfl rfl
  case clearMysql =>
    cases h
    exact .of_none rfl rfl rfl
  case mysqlStmtPrepare => cases ho
  case crash why => cases h
  all_goals
    cases h
    exact ⟨h0.session, h0.stmts, h0.sessions⟩

/-- A new connection is one session more. -/
theorem sessions_exec {o : ClientOp} {a : ClientAnswer} {s s' : ExecSt} {r : o.Reply}
    (h : clientExec o a s = some (r, s')) :
    (Unconnected o a s → s'.sessions = s.sessions) ∧ (¬ Unconnected o a s → s'.sessions = s.sessions + 1) := by
  constructor
  · intro hc
    by_cases ho : o.prepares = false
    · exact (lasts_exec ho hc h).sessions
    cases o <;> simp only [ClientOp.prepares, not_true_eq_false] at ho
    case mysqlStmtInit m => exact (fades_exec rfl h).sessions
    case mysqlStmtPrepare st sql =>
      obtain ⟨q, -, ⟨-, id, rfl⟩ | ⟨-, rfl⟩⟩ := stmtPrepare_exec h
      · exact ExecSt.enter_sessions
      · exact ExecSt.enter_sessions
  · intro hc
    simp only [Unconnected, not_forall, not_not] at hc
    obtain ⟨p, hp, hnone, hok⟩ := hc
    cases o <;> simp only [connectArg, Option.mem_def, reduceCtorEq] at hp
    case mysqlRealConnect m option =>
      subst hp
      have hgo : (((s.enter a p).mysqls p).session.isNone && a.ok) = true := by rw [hnone, hok]; rfl
      simp only [clientExec, hgo, if_true] at h
      cases h
      exact congrArg (· + 1) ExecSt.enter_sessions

/-- **An execution that makes no session connects nowhere.** -/
theorem unconnected_of_run {α : Type} {p : XProg α} {x : α} {s' : ExecSt} {rest : List ClientAnswer} :
    ∀ {s as}, p.run clientExec s as = some (x, s', rest) →
      s.sessions ≤ s'.sessions ∧ (s'.sessions = s.sessions → p.Along clientExec Unconnected s as) := by
  induction p with
  | ret b =>
    intro s as h
    cases h
    exact ⟨le_rfl, fun _ => trivial⟩
  | act o k ih =>
    intro s as h
    cases as with
    | nil => cases h
    | cons a as =>
      simp only [Prog.run] at h
      cases he : clientExec o a s with
      | none => rw [he] at h; cases h
      | some y =>
        obtain ⟨r, s₁⟩ := y
        rw [he] at h
        obtain ⟨hle, hrest⟩ := ih r h
        obtain ⟨hsame, hmore⟩ := sessions_exec he
        by_cases hc : Unconnected o a s
        · have hs₁ := hsame hc
          refine ⟨by omega, fun heq => Prog.along_act.2 ⟨hc, fun r' s₂ he' => ?_⟩⟩
          rw [he] at he'
          cases he'
          exact hrest (by omega)
        · have hs₁ := hmore hc
          exact ⟨by omega, fun heq => by omega⟩

/-! ## The statement of a call -/

/-- Neither connects, nor binds or executes a statement. -/
def ClientOp.besides : ClientOp → Bool
  | mysqlRealConnect .. | mysqlStmtBindResult _ | mysqlStmtExecute _ => false
  | _ => true

theorem besides_statement {o : ClientOp} (ho : o.besides = true) : o.statement = none ∧ connectArg o = none := by
  cases o <;> first | exact ⟨rfl, rfl⟩ | cases ho

theorem besides_runsInSession {o : ClientOp} {a : ClientAnswer} {s : ExecSt} (ho : o.besides = true) :
    RunsInSession o a s := by
  intro q hq
  rw [(besides_statement ho).1] at hq
  cases hq

theorem besides_unconnected {o : ClientOp} {a : ClientAnswer} {s : ExecSt} (ho : o.besides = true) :
    Unconnected o a s := by
  intro p hp
  rw [(besides_statement ho).2] at hp
  cases hp

/-- The statement `q` is prepared in the current session, the last of `n` so far (`N`: they are numbered). -/
structure ReadyAt (N : Prop) (n : ℕ) (q : StmtPtr) (s : ExecSt) : Prop where
  mysql : s.this.mysql = some (s.stmts q).mysql
  sessions : s.sessions = n
  current : s.Current q
  behind : N → ∀ id, (s.stmts q).session = some id → id < n

/-- What is shown of `ExecuteStatement` holds of the whole call. -/
structure SessionRule (G P : ClientOp → ClientAnswer → ExecSt → Prop) (N : Prop) : Prop where
  besides : ∀ o a s, o.besides = true → P o a s
  execute : ∀ {n : ℕ} {b : Bool} {stmt : MysqlStatement} {q : StmtPtr} {s : ExecSt}, stmt.mysqlStmt = some q →
    ReadyAt N n q s → (MysqlExecutor.executeStatement b stmt).gwp clientExec G P (fun _ s' => N → s'.sessions = n) s

section Call

variable {G P : ClientOp → ClientAnswer → ExecSt → Prop} {N : Prop} {n : ℕ} {q : StmtPtr} {s : ExecSt} {α β : Type}

theorem ReadyAt.step {o : ClientOp} {a : ClientAnswer} {s' : ExecSt} {r : o.Reply} (h : ReadyAt N n q s)
    (hm : o.minor = true) (ho : o.prepares = false) (hmysql : (s'.stmts q).mysql = (s.stmts q).mysql)
    (he : clientExec o a s = some (r, s')) : ReadyAt N n q s' := by
  have hlasts := minor_lasts hm ho he
  refine ⟨?_, hlasts.sessions.trans h.sessions, hlasts.current h.current, fun hN id hid => ?_⟩
  · rw [(fades_exec hm he).this, hmysql]
    exact h.mysql
  · rw [hlasts.stmts] at hid
    exact h.behind hN id hid

/-- The parameters are bound. -/
theorem ReadyAt.bound {stmt : MysqlStatement} {args : List InputArg} {a : ClientAnswer} {s' : ExecSt}
    (h : ReadyAt N n q s) (hq : stmt.mysqlStmt = some q)
    (he : clientExec (.mysqlStmtBindParam stmt.mysqlStmt args) a s = some (true, s')) : ReadyAt N n q s' := by
  rw [hq] at he
  refine h.step rfl rfl ?_ he
  simp only [clientExec] at he
  split at he
  · cases he
    rfl
  · cases he

variable (hw : SessionRule G P N)
include hw

/-- The operations besides keep the number of sessions. -/
theorem besides_gwp {p : XProg α} (hp : p.Uses fun o => o.besides = true) (h : N → s.sessions = n) :
    p.gwp clientExec G P (fun _ s' => N → s'.sessions = n) s := by
  refine Prog.gwp_of_uses hp (fun o a s ho => hw.besides o a s ho) ?_
  refine hp.keeps (I := fun s' : ExecSt => N → s'.sessions = n) (fun o a s r s' ho hs he hN => ?_) h
  exact ((sessions_exec he).1 (besides_unconnected ho)).trans (hs hN)

/-- An operation besides, and what follows it. -/
theorem besides_op {o : ClientOp} {f : o.Reply → XProg β} {Q : β → ExecSt → Prop} (ho : o.besides = true)
    (hf : ∀ a r s', clientExec o a s = some (r, s') → (f r).gwp clientExec G P Q s') :
    (xop o >>= f).gwp clientExec G P Q s := fun a _ =>
  ⟨hw.besides o a s ho, fun r s' he => hf a r s' he⟩

omit hw

theorem aside_besides (o : ClientOp) (ho : o.aside = true) : o.besides = true := by
  cases o <;> first | rfl | cases ho

namespace MysqlExecutor

variable (stmt : MysqlStatement) (r : MysqlResults)

theorem besides_setStmtError : (setStmtError r stmt).Uses fun o => o.besides = true :=
  (uses_stmtError aside_besides stmt).bind fun _ => (uses_stmtErrno aside_besides stmt).bind fun _ => trivial

theorem besides_setMysqlError : (setMysqlError r).Uses fun o => o.besides = true :=
  (uses_mysqlError aside_besides).bind fun _ => (uses_mysqlErrno aside_besides).bind fun _ => trivial

/-- The statement's error and its end. -/
theorem besides_stmtFailure (x : α) : (do
    let r ← setStmtError r stmt
    endStatement stmt
    return (x, r) : XProg (α × MysqlResults)).Uses fun o => o.besides = true :=
  (besides_setStmtError stmt r).bind fun _ => (uses_endStatement aside_besides stmt).bind fun _ => trivial

/-- Statements without a `MysqlStatement`. -/
theorem besides_queryAllNative (sql : Sql) (args : List InputArg) :
    (queryAllNative r sql args).Uses fun o => o.besides = true := by
  have hformat : (formatQuery sql args).Uses fun o => o.besides = true :=
    uses_op rfl fun sent => by cases sent; exacts [⟨rfl, fun r => r.elim⟩, trivial]
  refine uses_op rfl fun freed => hformat.bind fun sent => uses_op rfl fun this => uses_op rfl fun ok => ?_
  cases ok
  · exact (besides_setMysqlError _).bind fun _ => trivial
  refine uses_op rfl fun this => uses_op rfl fun res => ?_
  cases res with
  | none => exact (besides_setMysqlError _).bind fun _ => trivial
  | some res => trivial

theorem besides_executeText (sql : Sql) : (executeText r sql).Uses fun o => o.besides = true := by
  refine uses_op rfl fun this => uses_op rfl fun ok => ?_
  cases ok
  · exact (besides_setMysqlError r).bind fun _ => trivial
  · exact uses_op rfl fun this => uses_op rfl fun n => trivial

theorem besides_fetchLoop : ∀ (n : ℕ) (handle : QueryHandle) (r : MysqlResults),
    (fetchLoop stmt n handle r).Uses fun o => o.besides = true := by
  intro n
  induction n with
  | zero =>
    intro handle r
    refine uses_op rfl fun f => ?_
    cases f with
    | noData => trivial
    | error => trivial
    | row row => exact ⟨rfl, fun e => e.elim⟩
  | succ n ih =>
    intro handle r
    refine uses_op rfl fun f => ?_
    cases f with
    | noData => trivial
    | error => trivial
    | row row =>
      exact (uses_fetchRow stmt handle row fun _ _ => rfl).bind fun handle => ih handle _

theorem besides_fetchResults (handle : QueryHandle) (r : MysqlResults) :
    (fetchResults handle stmt r).Uses fun o => o.besides = true := by
  refine uses_op rfl fun n => ?_
  cases n with
  | none => trivial
  | some n => exact besides_fetchLoop stmt n handle r

end MysqlExecutor

/-! ## The whole call -/

include hw

namespace MysqlExecutor

variable {stmt : MysqlStatement} {r : MysqlResults}

/-- `MysqlStatement(mysql_)` and `Init`: the statement is prepared in the session of that moment. -/
theorem init_gwp {f : Bool × MysqlStatement → XProg β} (sql : Sql) (hs : N → s.Numbered)
    (hfailed : ∀ stmt, (f (false, stmt)).Uses fun o => o.besides = true)
    (hready : ∀ stmt q s', stmt.mysqlStmt = some q → ReadyAt N s.sessions q s' →
      (f (true, stmt)).gwp clientExec G P (fun _ s' => N → s'.sessions = s.sessions) s') :
    (do f (← MysqlStatement.init { mysql := (← getThis).mysql } sql)).gwp clientExec G P
      (fun _ s' => N → s'.sessions = s.sessions) s := by
  refine besides_op hw rfl fun a this s₁ he => ?_
  cases he
  unfold MysqlStatement.init
  rw [Prog.bind_assoc]
  refine besides_op hw rfl fun a st s₁ he => ?_
  -- mysql_stmt_init of a null pointer has no run, so there is a connection
  cases hm : s.this.mysql with
  | none =>
    rw [hm] at he
    cases he
  | some p =>
    rw [hm] at he
    simp only [clientExec] at he
    split at he
    · cases he
      dsimp only
      set q := (s.enter a p).nextStmt
      set s₁ : ExecSt := { (s.enter a p).setStmt q { mysql := p } with nextStmt := q + 1 } with hs₁
      have hp : (s₁.stmts q).mysql = p := by simp [hs₁, ExecSt.setStmt]
      have hthis : s₁.this.mysql = some p := by simpa [hs₁, ExecSt.setStmt] using hm
      have hsessions : s₁.sessions = s.sessions := by simp [hs₁, ExecSt.setStmt]
      simp only [Option.isNone_some, Bool.false_eq_true, if_false]
      rw [Prog.bind_assoc]
      -- mysql_stmt_prepare: the statement gets the session of its connection
      refine besides_op hw rfl fun b done s₂ he => ?_
      simp only [clientExec, hp, ExecSt.enter_stmts] at he
      split at he
      · rename_i σ hσ _
        cases he
        refine besides_op hw rfl fun c n s₃ hc => besides_op hw rfl fun d k s₄ hd => ?_
        cases hc
        cases hd
        have hσ' := (ExecSt.ready_eq hσ).1
        refine hready _ q _ rfl ⟨?_, ?_, ?_, ?_⟩
        · simpa [ExecSt.setStmt, hp] using hthis
        · simpa [ExecSt.setStmt] using hsessions
        · intro τ hτ
          have hτ' : τ = σ := by simpa [ExecSt.session, ExecSt.setStmt, hthis, hσ', eq_comm] using hτ
          simp [ExecSt.setStmt, hτ']
        · intro hN id hid
          have hid' : σ.id = id := by simpa [ExecSt.setStmt] using hid
          have hσ₁ : (s₁.mysqls p).session = some σ := ExecSt.enter_session hσ'
          have hσ₂ : ((s.enter a p).mysqls p).session = some σ := hσ₁
          rw [← hid']
          exact hs hN p σ (ExecSt.enter_session hσ₂)
      · cases he
        exact besides_gwp hw (hfailed _) fun _ => by simpa [ExecSt.failStmt, ExecSt.note, ExecSt.setStmt] using hsessions
    · -- no statement is made
      cases he
      exact besides_gwp hw (hfailed _) fun _ => by simp [ExecSt.failMysql, ExecSt.note]

theorem executePrepared_gwp (sql : Sql) (args : List InputArg) (hs : N → s.Numbered) :
    (executePrepared r sql args).gwp clientExec G P (fun _ s' => N → s'.sessions = s.sessions) s := by
  refine besides_op hw rfl fun a freed s₁ he => ?_
  cases he
  refine init_gwp hw sql hs (fun stmt => besides_stmtFailure stmt _ _) fun stmt q s' hq h => ?_
  refine gwp_bindInputArgs (fun a => hw.besides _ a _ rfl) (besides_op hw rfl fun a bound s₁ he => ?_)
  cases bound
  · have hsame : s₁.sessions = s.sessions := ((sessions_exec he).1 (besides_unconnected rfl)).trans h.sessions
    exact besides_gwp hw (besides_stmtFailure stmt _ _) fun _ => hsame
  have h₁ : ReadyAt N s.sessions q s₁ := h.bound hq he
  refine Prog.gwp_bind.2 (Prog.gwp_mono (fun st s₂ hs₂ => ?_) (hw.execute hq h₁))
  dsimp only
  split
  · exact besides_gwp hw ((uses_endStatement aside_besides stmt).bind fun _ => trivial) hs₂
  · refine besides_gwp hw ?_ hs₂
    exact uses_op rfl fun this => uses_op rfl fun n => (uses_endStatement aside_besides stmt).bind fun _ => trivial

theorem queryBound_gwp (handle : QueryHandle) (hq : stmt.mysqlStmt = some q) (h : ReadyAt N n q s) :
    (queryBound handle stmt r).gwp clientExec G P (fun _ s' => N → s'.sessions = n) s := by
  refine Prog.gwp_bind.2 (Prog.gwp_mono (fun st s₂ hs₂ => ?_) (hw.execute hq h))
  dsimp only
  split
  · exact besides_gwp hw ((uses_endStatement aside_besides stmt).bind fun _ => trivial) hs₂
  · refine besides_gwp hw ((besides_fetchResults stmt _ r).bind fun ⟨fetched, r⟩ => ?_) hs₂
    split
    · exact besides_stmtFailure stmt _ _
    · exact uses_op rfl fun fields => (uses_endStatement aside_besides stmt).bind fun _ => trivial

theorem queryAllBind_gwp (outputs : List OutputArg) (sql : Sql) (args : List InputArg) (hs : N → s.Numbered) :
    (queryAllBind outputs r sql args).gwp clientExec G P (fun _ s' => N → s'.sessions = s.sessions) s := by
  refine besides_op hw rfl fun a freed s₁ he => ?_
  cases he
  refine init_gwp hw sql hs (fun stmt => besides_stmtFailure stmt _ _) fun stmt q s' hq h => ?_
  refine besides_op hw rfl fun a fields s₁ he => ?_
  rw [hq] at he
  cases he
  cases (s'.stmts q).columns with
  | none => exact fun a hG => ⟨hw.besides _ a s' rfl, fun e => e.elim⟩
  | some fields =>
    dsimp only
    split
    · exact besides_gwp hw ((uses_endStatement aside_besides stmt).bind fun _ => trivial) fun _ => h.sessions
    refine gwp_bindInputArgs (fun a => hw.besides _ a _ rfl) (besides_op hw rfl fun a bound s₁ he => ?_)
    cases bound
    · have hsame : s₁.sessions = s.sessions := ((sessions_exec he).1 (besides_unconnected rfl)).trans h.sessions
      exact besides_gwp hw (besides_stmtFailure stmt _ _) fun _ => hsame
    have h₁ : ReadyAt N s.sessions q s₁ := h.bound hq he
    refine besides_op hw rfl fun a fields s₂ he => ?_
    rw [hq] at he
    cases he
    cases (s₁.stmts q).columns with
    | none => exact fun a hG => ⟨hw.besides _ a s₁ rfl, fun e => e.elim⟩
    | some fields => exact queryBound_gwp hw _ hq h₁

/-- **What is shown of `ExecuteStatement` holds of `QueryAll` and `Execute`.** -/
theorem runStatement_gwp (sql : Sql) (args : List InputArg) (hs : N → s.Numbered) :
    (runStatement r sql args).gwp clientExec G P (fun _ s' => N → s'.sessions = s.sessions) s := by
  have hend : ∀ x : Bool × MysqlResults, (do
      if !x.1 then return (false, x.2)
      return (true, { x.2 with hasValue := true }) : XProg (Bool × MysqlResults)).Uses fun o => o.besides = true := by
    rintro ⟨ok, r⟩
    cases ok <;> trivial
  unfold runStatement MysqlExecutor.queryAll MysqlExecutor.execute
  cases r.mode with
  | bindType outputs =>
    refine Prog.gwp_bind.2 (Prog.gwp_mono (fun x s' hs' => ?_) (queryAllBind_gwp hw outputs sql args hs))
    exact besides_gwp hw (hend x) hs'
  | nativeString =>
    refine besides_gwp hw ((besides_queryAllNative r sql args).bind hend) fun _ => rfl
  | onlyExec =>
    dsimp only
    split
    · exact besides_gwp hw ((besides_executeText r sql).bind fun _ => trivial) fun _ => rfl
    · exact Prog.gwp_bind.2 (Prog.gwp_mono (fun x s' hs' => hs') (executePrepared_gwp hw sql args hs))

end MysqlExecutor

end Call

/-! ## `ExecuteStatement` -/

namespace MysqlExecutor

variable {n : ℕ} {b : Bool} {q : StmtPtr} {s : ExecSt} {stmt : MysqlStatement}

/-- The operations of `ExecuteStatement`. -/
def ofExecution (q : StmtPtr) (o : ClientOp) : Prop := o.prepares = false ∧ ∀ q' ∈ o.statement, q' = q

theorem aside_ofExecution (o : ClientOp) (ho : o.aside = true) : ofExecution q o := by
  cases o <;> first | cases ho; done | exact ⟨rfl, fun _ h => by cases h⟩

theorem connect_ofExecution (o : ClientOp) (ho : o.ofConnect = true) : ofExecution q o := by
  cases o <;> first | cases ho; done | exact ⟨rfl, fun _ h => by cases h⟩

/-- The part of `ExecuteStatement` after the connection was looked at. -/
def executeAlive (outputs : Bool) (stmt : MysqlStatement) : XProg Status := do
  if outputs then
    if !(← mysqlStmtBindResult stmt.mysqlStmt) then return ← stmtStatus stmt
  if !(← mysqlStmtExecute stmt.mysqlStmt) then return ← stmtStatus stmt
  return {}

theorem executeStatement_eq : executeStatement b stmt = (do
    if !(← checkAlive) then
      if !(← startReconnect) then return ← mysqlStatus
    executeAlive b stmt) := rfl

theorem uses_executeAlive {P : ClientOp → Prop} (hP : ∀ o : ClientOp, o.aside = true → P o)
    (hbind : P (.mysqlStmtBindResult stmt.mysqlStmt)) (hexec : P (.mysqlStmtExecute stmt.mysqlStmt)) :
    (executeAlive b stmt).Uses P := by
  have hstatus : (stmtStatus stmt).Uses P :=
    (uses_stmtErrno hP stmt).bind fun _ => (uses_stmtError hP stmt).bind fun _ => trivial
  have hexecute : (do
      if !(← mysqlStmtExecute stmt.mysqlStmt) then return ← stmtStatus stmt
      return {} : XProg Status).Uses P := by
    refine uses_op hexec fun done => ?_
    cases done
    · exact hstatus
    · trivial
  cases b
  · exact hexecute
  refine uses_op hbind fun bound => ?_
  cases bound
  · exact hstatus
  · exact hexecute

theorem uses_mysqlStatus {P : ClientOp → Prop} (hP : ∀ o : ClientOp, o.aside = true → P o) : mysqlStatus.Uses P :=
  (uses_mysqlErrno hP).bind fun _ => (uses_mysqlError hP).bind fun _ => trivial

theorem uses_executeStatement (hq : stmt.mysqlStmt = some q) : (executeStatement b stmt).Uses (ofExecution q) := by
  have hgiven : ∀ q', stmt.mysqlStmt = some q' → q' = q := fun q' hq' => Option.some.inj (hq'.symm.trans hq)
  have hrest : (executeAlive b stmt).Uses (ofExecution q) :=
    uses_executeAlive aside_ofExecution ⟨rfl, hgiven⟩ ⟨rfl, hgiven⟩
  rw [executeStatement_eq]
  refine (uses_checkAlive aside_ofExecution).bind fun alive => ?_
  cases alive
  · refine (uses_retry connect_ofExecution RECONNECT_MAX_RETRY).bind fun done => ?_
    cases done
    · exact uses_mysqlStatus aside_ofExecution
    · exact hrest
  · exact hrest

/-- A statement of another session is not bound or executed. -/
theorem executeAlive_stale {P : ClientOp → ClientAnswer → ExecSt → Prop} {Q : Status → ExecSt → Prop}
    (hq : stmt.mysqlStmt = some q) (h : ¬ s.Current q) : (executeAlive b stmt).gwp clientExec RunsInSession P Q s := by
  cases b
  · exact fun a hin => absurd (hin q hq) h
  · exact fun a hin => absurd (hin q hq) h

/-- While nothing connects, the statement stays the one of the session. -/
theorem current_rule : SessionRule Unconnected RunsInSession False := by
  refine ⟨fun o a s ho => besides_runsInSession ho, fun {n b stmt q s} hq h => ?_⟩
  have hk : (executeStatement b stmt).gwp clientExec Unconnected RunsInSession (fun _ s' => s'.Current q) s := by
    refine (uses_executeStatement hq).gwp (fun o a s ho hs hc => ⟨fun q' hq' => ?_, fun r s' he => ?_⟩) h.current
    · rw [ho.2 q' hq']
      exact hs
    · exact (lasts_exec ho.1 hc he).current hs
  exact Prog.gwp_mono (fun _ _ _ hN => hN.elim) hk

/-- An attempt that fails makes no session. -/
theorem connect_failed :
    connect.wp clientExec (fun done s' => done = false → s'.sessions = s.sessions) s := by
  have hreal : ∀ s₁ : ExecSt, s₁.sessions = s.sessions →
      realConnect.wp clientExec (fun done s' => done = false → s'.sessions = s.sessions) s₁ := by
    intro s₁ hs₁ a this s₂ he b done s₃ he'
    cases he
    obtain ⟨p, -, ⟨rfl, -⟩ | ⟨rfl, rfl⟩⟩ := realConnect_exec he'
    · exact fun c r s₄ he hd => by cases hd
    · intro c r s₄ he d r' s₅ he'' hd
      have h₄ := (sessions_exec he).1 (besides_unconnected rfl)
      have h₅ := (sessions_exec he'').1 (besides_unconnected rfl)
      rw [h₅, h₄]
      simpa using hs₁
  intro a this s₁ he
  cases he
  change Prog.wp clientExec (if s.this.isConnected = true then pure true else
    if s.this.mysql.isNone = true then initMysql >>= fun _ => realConnect else realConnect) _ s
  split
  · exact fun hd => by cases hd
  split
  · exact fun b r s₂ he => hreal s₂ ((sessions_exec he).1 (besides_unconnected rfl))
  · exact hreal s rfl

theorem retry_failed : ∀ n s, (retry n).wp clientExec (fun done s' => done = false → s'.sessions = s.sessions) s := by
  intro n
  induction n with
  | zero => exact fun s _ => rfl
  | succ n ih =>
    intro s
    refine Prog.wp_bind.2 (Prog.wp_mono (fun done s₁ h => ?_) connect_failed)
    cases done
    · exact Prog.wp_mono (fun done s₂ h₂ hd => (h₂ hd).trans (h rfl)) (ih s₁)
    · exact fun hd => by cases hd

/-- A statement that is bound and executed in its session is executed without a new one. -/
theorem same_rule : SessionRule RunsInSession (fun _ _ _ => True) True := by
  refine ⟨fun _ _ _ _ => trivial, fun {n b stmt q s} hq h => ?_⟩
  -- nothing but an attempt to connect makes a session
  have hquiet : ∀ {p : XProg Status} {s₁ : ExecSt}, (p.Uses fun o => connectArg o = none) →
      s₁.sessions = n → p.gwp clientExec RunsInSession (fun _ _ _ => True) (fun _ s' => True → s'.sessions = n) s₁ := by
    intro p s₁ hp hs₁
    refine hp.gwp (I := fun s' : ExecSt => True → s'.sessions = n) (fun o a s ho hs _ => ⟨trivial, fun r s' he _ => ?_⟩)
      fun _ => hs₁
    refine ((sessions_exec he).1 fun p hp => ?_).trans (hs trivial)
    rw [ho] at hp
    cases hp
  have haside : ∀ o : ClientOp, o.aside = true → connectArg o = none := fun o ho =>
    (besides_statement (aside_besides o ho)).2
  rw [executeStatement_eq]
  have hlook : Says (fun _ _ => True) checkAlive _ [] s := checkAlive_told h.mysql
  refine Prog.gwp_bind.2 (Prog.gwp_mono (fun alive s₁ h₁ => ?_) (Prog.gwp_of_wp hlook.wp))
  obtain ⟨tr, -, hmysql, hconn, hstmts, hsessions⟩ := h₁
  cases alive
  · have hretry : Says (fun _ _ => True) (retry RECONNECT_MAX_RETRY) _ [] s₁ := retry_told 4 hmysql hconn
    refine Prog.gwp_bind.2 (Prog.gwp_mono (fun done s₂ h₂ => ?_)
      (Prog.gwp_of_wp (Prog.wp_and hretry.wp (retry_failed RECONNECT_MAX_RETRY s₁))))
    obtain ⟨⟨tr, -, hnew⟩, hfailed⟩ := h₂
    cases done
    · exact hquiet (uses_mysqlStatus haside) ((hfailed rfl).trans (hsessions.trans h.sessions))
    · -- the session is a new one, of which the statement is not
      refine executeAlive_stale hq fun hcur => ?_
      obtain ⟨σ, hσ, hle⟩ := hnew.up rfl
      have hid : (s₂.stmts q).session = some σ.id := hcur σ (Option.bind_eq_some_iff.2 ⟨_, hnew.mysql, hσ⟩)
      rw [hnew.stmts, hstmts] at hid
      have hlt := h.behind trivial σ.id hid
      have hn := h.sessions
      omega
  · exact hquiet (uses_executeAlive haside rfl rfl) (hsessions.trans h.sessions)

end MysqlExecutor

/-- **When statements are executed in their session.** Of `QueryAll` and `Execute`, whatever happens: while no
attempt to connect succeeds, each statement is bound and executed in the session that prepared it; and an
execution in which that is so has connected nowhere. -/
theorem in_session_iff (r : MysqlResults) (sql : Sql) (args : List InputArg) (s : ExecSt) (as : List ClientAnswer) :
    ((MysqlExecutor.runStatement r sql args).Along clientExec Unconnected s as →
      (MysqlExecutor.runStatement r sql args).Along clientExec RunsInSession s as) ∧
    (s.Numbered → ∀ x s' rest, (MysqlExecutor.runStatement r sql args).run clientExec s as = some (x, s', rest) →
      (MysqlExecutor.runStatement r sql args).Along clientExec RunsInSession s as →
      (MysqlExecutor.runStatement r sql args).Along clientExec Unconnected s as) := by
  constructor
  · exact Prog.gwp_along (MysqlExecutor.runStatement_gwp MysqlExecutor.current_rule sql args fun h => h.elim)
  · intro hs x s' rest hrun hin
    have hsame : s'.sessions = s.sessions :=
      Prog.gwp_run (MysqlExecutor.runStatement_gwp MysqlExecutor.same_rule sql args fun _ => hs) hin hrun trivial
    exact (unconnected_of_run hrun).2 hsame

/-- The connection is lost after the statement was prepared; the first attempt to connect succeeds, and the statement
of the lost session is executed on the new one. -/
theorem stale_statement : ¬ ∀ (r : MysqlResults) (sql : Sql) (args : List InputArg) (s : ExecSt) (as : List ClientAnswer),
    s.Numbered → (MysqlExecutor.runStatement r sql args).Along clientExec RunsInSession s as := by
  intro h
  have hs : ExecSt.Numbered { this := { mysql := some 0, isConnected := true },
                              mysqls := fun _ => { session := some { id := 0 } }, sessions := 1 } := by
    intro p σ hσ
    cases hσ
    decide
  exact absurd (h { mode := .onlyExec } (.user (ascii "update")) [.string [49]] _
    [{}, {}, {}, {}, {}, {}, {}, {}, { lost := true }, {}, {}, {}, {}, {}, {}] hs) (by decide)

end TrpcMysql
