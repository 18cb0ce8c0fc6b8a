import TrpcMysql.Executor.Outcome

/-!
# Pending results

A result set that a statement left on its connection makes every later call on it fail
(`ExecSt.ready`). `drained_iff` tells which statements can leave one, as long as the server sends
one result for each (`RowsAs`): `Execute` without arguments, given a text that yields rows. Of the several
results of a procedure that is called the second stays on the line in every mode, since nothing asks for the
next result.

The prepared paths may have one in between, on the connection of their statement
(`PendingAt`); they end with `mysql_stmt_free_result`, or not at all (`endStatement_drained`).
-/

namespace TrpcMysql

open Function Conc MysqlExecutor

/-- No result is pending, and none comes after it. -/
def ExecSt.Drained (s : ExecSt) : Prop := ∀ p, (s.mysqls p).busy = false

theorem busy_eq_false {m : Mysql} : m.busy = false ↔ m.pending = none ∧ m.more = false := by
  simp [Mysql.busy]

/-- A result may be pending on the connection of the statement `q`, and on no other; none comes after it. -/
structure PendingAt (p : MysqlPtr) (q : StmtPtr) (s : ExecSt) : Prop where
  mysql : s.this.mysql = some p
  stmt : (s.stmts q).mysql = p
  made : q < s.nextStmt
  others : ∀ p', p' ≠ p → (s.mysqls p').busy = false
  single : (s.mysqls p).more = false

section Operations

variable {s s' : ExecSt} {p : MysqlPtr} {q : StmtPtr} {m : Mysql} {a : ClientAnswer} {o : ClientOp} {r : o.Reply}

theorem Fades.drained (h : Fades s s') (hs : s.Drained) : s'.Drained := by
  exact fun p => h.idle (hs p)

theorem ExecSt.Drained.setMysql (hs : s.Drained) (hm : m.busy = false) : (s.setMysql p m).Drained := by
  intro p'
  by_cases hp : p' = p
  · subst hp; simpa using hm
  · rw [setMysql_of_ne hp]; exact hs p'

theorem ExecSt.Drained.enter (hs : s.Drained) : (s.enter a p).Drained := (Fades.refl s).enter.drained hs

/-- Only a statement that the server acknowledges leaves a result set. -/
theorem drained_exec (h : clientExec o a s = some (r, s')) (hs : s.Drained)
    (hq : ∀ m sql, o ≠ .mysqlRealQuery m sql) (he : ∀ st, o ≠ .mysqlStmtExecute st) : s'.Drained := by
  by_cases ho : o.minor = true
  · exact (fades_exec ho h).drained hs
  cases o <;> simp only [ClientOp.minor, not_true_eq_false] at ho
  case mysqlRealConnect =>
    obtain ⟨p, -, ⟨-, -, -, rfl⟩ | ⟨-, rfl⟩⟩ := realConnect_exec h
    · exact fun p' => (hs.enter (a := a) (p := p)).setMysql (p := p) (m := { ((s.enter a p).mysqls p).clear with
        closed := false, session := some { id := (s.enter a p).sessions }, pending := none, more := false }) rfl p'
    · exact hs.enter.setMysql (hs.enter p)
  case mysqlRealQuery => exact absurd rfl (hq _ _)
  case mysqlStmtPrepare =>
    obtain ⟨q, -, ⟨-, id, rfl⟩ | ⟨-, rfl⟩⟩ := stmtPrepare_exec h
    · exact fun p' => hs.enter (a := a) p'
    · exact (Fades.refl s).enter.failStmt.drained hs
  case mysqlStmtExecute => exact absurd rfl (he _)
  case mysqlClose m =>
    cases m with
    | none => cases h; exact hs
    | some p => cases h; exact hs.enter.setMysql rfl
  case initMysql => cases h; exact fun p' => hs.setMysql (p := s.nextMysql) (m := {}) rfl p'
  case crash why => cases h
  all_goals cases h; exact hs

/-- The statements made so far stay on their connections. -/
structure SameStmts (s s' : ExecSt) : Prop where
  made : s.nextStmt ≤ s'.nextStmt
  mysql : ∀ q, q < s.nextStmt → (s'.stmts q).mysql = (s.stmts q).mysql

namespace SameStmts

theorem refl (s : ExecSt) : SameStmts s s := ⟨Nat.le_refl _, fun _ _ => rfl⟩

theorem of_stmts (hm : s'.nextStmt = s.nextStmt) (hs : s'.stmts = s.stmts) : SameStmts s s' :=
  ⟨Nat.le_of_eq hm.symm, fun q _ => by rw [hs]⟩

theorem enter (h : SameStmts s s') : SameStmts s (s'.enter a p) := by
  have hn : (s'.enter a p).nextStmt = s'.nextStmt := by unfold ExecSt.enter; split <;> rfl
  exact ⟨hn ▸ h.made, fun q hq => by rw [ExecSt.enter_stmts]; exact h.mysql q hq⟩

theorem setMysql (h : SameStmts s s') : SameStmts s (s'.setMysql p m) := ⟨h.made, h.mysql⟩

theorem note {e : SqlEvent} (h : SameStmts s s') : SameStmts s (s'.note e) := ⟨h.made, h.mysql⟩

theorem setStmt {st : Stmt} (h : SameStmts s s') (hst : st.mysql = (s'.stmts q).mysql) :
    SameStmts s (s'.setStmt q st) := by
  refine ⟨h.made, fun q' hq' => ?_⟩
  by_cases hqq : q' = q
  · subst hqq; rw [← h.mysql q' hq']; simpa [ExecSt.setStmt] using hst
  · simpa [ExecSt.setStmt, hqq] using h.mysql q' hq'

theorem newStmt {st : Stmt} (h : SameStmts s s') :
    SameStmts s { s'.setStmt s'.nextStmt st with nextStmt := s'.nextStmt + 1 } := by
  refine ⟨Nat.le_succ_of_le h.made, fun q' hq' => ?_⟩
  have hne : q' ≠ s'.nextStmt := Nat.ne_of_lt (Nat.lt_of_lt_of_le hq' h.made)
  simpa [ExecSt.setStmt, hne] using h.mysql q' hq'

end SameStmts

theorem sameStmts_exec (h : clientExec o a s = some (r, s')) : SameStmts s s' := by
  have h0 : SameStmts s s := .refl s
  unfold clientExec at h
  split at h
  all_goals try dsimp only at h
  all_goals repeat' (split at h)
  all_goals try contradiction
  all_goals simp only [Option.some.injEq, Prod.mk.injEq] at h
  all_goals obtain ⟨-, rfl⟩ := h
  all_goals first
    | exact h0
    | exact h0.enter
    | exact .of_stmts rfl rfl
    | exact .setMysql h0.enter
    | exact .setStmt h0.enter rfl
    | exact .setStmt h0 rfl
    | exact .note (.setMysql h0.enter)
    | exact .note (.setMysql (.setMysql h0.enter))
    | exact .note (.setStmt h0.enter rfl)
    | exact .note (.setStmt h0 rfl)
    | exact .newStmt h0.enter
    | exact .setStmt (.setMysql h0.enter) rfl
    | exact ⟨h0.enter.made, h0.enter.mysql⟩

end Operations

/-! ## Between the execution of a statement and its end -/

section Prepared

variable {s s' : ExecSt} {p : MysqlPtr} {q : StmtPtr} {sql : Sql} {stmt : MysqlStatement} {r : MysqlResults}
  {args : List InputArg}

/-- Without conditions on the environment. -/
abbrev Any (_ : ClientOp) (_ : ClientAnswer) (_ : ExecSt) : Prop := True

/-- The server sends one result for each statement: rows for the texts that yield them, and none for the others. -/
def RowsAs (yields : Bytes → Bool) : ClientOp → ClientAnswer → ExecSt → Prop
  | .mysqlRealQuery _ (.user sent), a, _ => a.rows.isSome = yields sent ∧ a.more = false
  | .mysqlStmtExecute _, a, _ => a.more = false
  | _, _, _ => True

variable {yields : Bytes → Bool} {t : Bytes}

namespace PendingAt

theorem of_drained (hd : s.Drained) (hm : s.this.mysql = some p) (hq : (s.stmts q).mysql = p)
    (hn : q < s.nextStmt) : PendingAt p q s := ⟨hm, hq, hn, fun p' _ => hd p', (busy_eq_false.1 (hd p)).2⟩

/-- What keeps the statements and the pointer, and leaves no result elsewhere. -/
theorem step (h : PendingAt p q s) (hm : s'.this.mysql = s.this.mysql) (hs : SameStmts s s')
    (hp : ∀ p', p' ≠ p → (s'.mysqls p').busy = false) (hmore : (s'.mysqls p).more = false) : PendingAt p q s' :=
  ⟨hm.trans h.mysql, (hs.mysql q h.made).trans h.stmt, Nat.lt_of_lt_of_le h.made hs.made, hp, hmore⟩

theorem fades (h : PendingAt p q s) (hf : Fades s s') (hs : SameStmts s s') : PendingAt p q s' :=
  h.step (by rw [hf.this]) hs (fun p' hp' => hf.idle (h.others p' hp')) ((hf.more p).elim (·.trans h.single) id)

/-- An update of the connection of the statement itself. -/
theorem setMysql_others {s : ExecSt} {m : Mysql} (h : ∀ p', p' ≠ p → (s.mysqls p').busy = false) :
    ∀ p', p' ≠ p → ((s.setMysql p m).mysqls p').busy = false := fun p' hp' => by
  rw [ExecSt.setMysql_of_ne hp']; exact h p' hp'

theorem enter_others {s : ExecSt} {a : ClientAnswer} (h : ∀ p', p' ≠ p → (s.mysqls p').busy = false) :
    ∀ p', p' ≠ p → ((s.enter a p).mysqls p').busy = false := by
  unfold ExecSt.enter
  split
  · exact setMysql_others h
  · exact h

/-- `Connect` works on the connection of the statement. -/
theorem keeps_connect {G : ClientOp → ClientAnswer → ExecSt → Prop} :
    Keeps clientExec G Any (PendingAt p q) connect := by
  intro s h a _
  refine ⟨trivial, fun this s₁ he => ?_⟩
  cases he
  change Prog.gwp clientExec G Any (if s.this.isConnected = true then pure true
    else if s.this.mysql.isNone = true then do initMysql; realConnect else realConnect) _ s
  split
  · exact h
  rw [h.mysql]
  simp only [Option.isNone_some, Bool.false_eq_true, if_false]
  refine fun a _ => ⟨trivial, fun this s₁ he => ?_⟩
  cases he
  dsimp only
  refine fun a₁ _ => ⟨trivial, fun b s₁ he => ?_⟩
  have hsame := sameStmts_exec he
  rw [h.mysql] at he
  obtain ⟨p', hp', ⟨rfl, -, -, rfl⟩ | ⟨rfl, rfl⟩⟩ := realConnect_exec he
  · obtain rfl : p = p' := Option.some.inj hp'
    refine fun a _ => ⟨trivial, fun u s₂ he => ?_⟩
    cases he
    exact (h.step (by simp [ExecSt.connected]) hsame (setMysql_others (enter_others h.others))
      (by simp [ExecSt.connected])).step rfl (.of_stmts rfl rfl) (setMysql_others (enter_others h.others))
      (by simp [ExecSt.connected])
  · obtain rfl : p = p' := Option.some.inj hp'
    have h₁ := h.fades (Fades.refl s).enter.fail hsame
    refine fun b _ => ⟨trivial, fun u s₂ he => ?_⟩
    have hsame₂ := sameStmts_exec he
    rw [h.mysql] at he
    cases he
    have h₂ := h₁.step (by simp) hsame₂ (setMysql_others (enter_others h₁.others))
      (by simp [Mysql.close, Mysql.lose])
    refine fun c _ => ⟨trivial, fun u s₃ he => ?_⟩
    cases he
    exact ⟨h₂.mysql, h₂.stmt, h₂.made, h₂.others, h₂.single⟩

end PendingAt

/-- **The operations of a user's statement leave a result set on its own connection only.** -/
theorem pendingAt_ops (p : MysqlPtr) (q : StmtPtr) : KeepsOps clientExec ExecSt.this (RowsAs yields) Any
    (fun s => s.Ok ∧ PendingAt p q s) fun o => o.OfStatement UserText ∨ o.ofCheck = true := by
  intro o a s ho harg hI hG
  obtain ⟨hok, h⟩ := hI
  refine ⟨trivial, fun r s' he => ?_⟩
  refine ⟨((tame_ops {} s ho harg ⟨hok, .refl s⟩ Given.allows_nothing).2 r s' he).1, ?_⟩
  have hsame := sameStmts_exec he
  by_cases hmin : o.minor = true
  · exact h.fades (fades_exec hmin he) hsame
  cases o <;> simp [ClientOp.OfStatement, ClientOp.ofStatement, ClientOp.text?, ClientOp.ofCheck,
    ClientOp.minor] at ho hmin
  case setConnected => cases he; exact ⟨h.mysql, h.stmt, h.made, h.others, h.single⟩
  case mysqlRealQuery m sql =>
    obtain ⟨t, rfl⟩ := ho
    obtain ⟨p', rfl, hend⟩ := realQuery_exec he
    obtain rfl : p' = p := by
      rcases harg with harg | harg
      · cases harg
      · exact Option.some.inj (harg.trans h.mysql)
    rcases hend with ⟨-, σ, -, rfl⟩ | ⟨-, rfl⟩
    · exact h.step (by simp) hsame (PendingAt.setMysql_others (PendingAt.enter_others h.others))
        (by simpa [ExecSt.acknowledge, ExecSt.note, ExecSt.moreOf] using hG.2)
    · exact h.fades (Fades.refl s).enter.failMysql hsame
  case mysqlStmtPrepare =>
    obtain ⟨q', -, ⟨-, id, rfl⟩ | ⟨-, rfl⟩⟩ := stmtPrepare_exec he
    · have hf := h.fades (Fades.refl s).enter (SameStmts.enter (.refl s) : SameStmts s (s.enter a (s.stmts q').mysql))
      exact h.step (by simp [ExecSt.setStmt]) hsame hf.others hf.single
    · exact h.fades (Fades.refl s).enter.failStmt hsame
  case mysqlStmtExecute =>
    obtain ⟨q', p', -, rfl, ⟨-, σ, hσ, -, rfl⟩ | ⟨-, rfl⟩⟩ := stmtExecute_exec he
    · -- only the current connection has a session
      have hf : Fades s (s.enter a (s.stmts q').mysql) := (Fades.refl s).enter
      obtain hp := (hf.ok hok).single _ σ (ExecSt.ready_eq hσ).1
      rw [hf.this, h.mysql] at hp
      rw [← Option.some.inj hp]
      refine h.step (by simp) (Option.some.inj hp ▸ hsame)
        (PendingAt.setMysql_others (PendingAt.enter_others h.others)) ?_
      obtain ⟨t, ht⟩ := hok.texts q'
      have hmore : a.more = false := hG
      simpa [ExecSt.acknowledge, ExecSt.note, ExecSt.moreOf, ht] using hmore
    · exact h.fades (Fades.refl s).enter.failStmt hsame
  case crash why => cases he

theorem pendingAt_walk (p : MysqlPtr) (q : StmtPtr) :
    Walk clientExec ExecSt.this (RowsAs yields) Any (fun s => s.Ok ∧ PendingAt p q s) UserText := by
  refine .ofOps (pendingAt_ops p q) ?_
  rintro s ⟨hok, h⟩
  refine Prog.gwp_and ?_ (PendingAt.keeps_connect s h)
  exact Prog.gwp_guard (fun _ _ _ _ => trivial) (Spec.any ((connect_spec hok).mono fun _ _ h => h.ok))

/-! ## The programs -/

/-- In every execution that agrees with `RowsAs`, `Q` holds at the end. -/
abbrev Leaves (yields : Bytes → Bool) {α : Type} (p : XProg α) (Q : ExecSt → Prop) (s : ExecSt) : Prop :=
  p.gwp clientExec (RowsAs yields) Any (fun _ => Q) s

/-- One operation. -/
theorem leaves_op {α : Type} {o : ClientOp} {f : o.Reply → XProg α} {Q : ExecSt → Prop}
    (h : ∀ a r s', RowsAs yields o a s → clientExec o a s = some (r, s') → Leaves yields (f r) Q s') :
    Leaves yields (xop o >>= f) Q s :=
  fun a ha => ⟨trivial, fun r s' he => h a r s' ha he⟩

/-- A part that keeps `I`. -/
theorem leaves_bind {α β : Type} {I Q : ExecSt → Prop} {piece : XProg α} {f : α → XProg β}
    (hk : Keeps clientExec (RowsAs yields) Any I piece) (hI : I s) (hf : ∀ x s', I s' → Leaves yields (f x) Q s') :
    Leaves yields (piece >>= f) Q s := by
  rw [Leaves, Prog.gwp_bind]
  exact Prog.gwp_mono hf (hk s hI)

theorem leaves_then {α β : Type} {Q Q' : ExecSt → Prop} {p : XProg α} {f : α → XProg β} (h : Leaves yields p Q s)
    (hf : ∀ x s', Q s' → Leaves yields (f x) Q' s') : Leaves yields (p >>= f) Q' s := by
  rw [Leaves, Prog.gwp_bind]
  exact Prog.gwp_mono hf h

/-- An operation of the statement. -/
theorem leaves_walk {α : Type} {I Q : ExecSt → Prop} {o : ClientOp} {f : o.Reply → XProg α}
    (hw : Walk clientExec ExecSt.this (RowsAs yields) Any I UserText) (hI : I s) (ho : o.OfStatement UserText)
    (hm : o.mysqlArg = none) (hf : ∀ x s', I s' → Leaves yields (f x) Q s') :
    Leaves yields (xop o >>= f) Q s :=
  leaves_bind (hw.run ho hm) hI hf

theorem leaves_crash {α : Type} {why : Crash} {k : Empty → XProg α} {Q : ExecSt → Prop} :
    Leaves yields (.act (.crash why) k) Q s := fun _ _ => ⟨trivial, fun r => r.elim⟩

/-- **The end of a statement takes its result set off the line**, or the process ends. -/
theorem endStatement_drained (hq : stmt.mysqlStmt = some q) (h : PendingAt p q s) :
    Leaves yields (endStatement stmt) ExecSt.Drained s := by
  unfold endStatement MysqlStatement.closeStatement
  simp only [hq, Option.isSome_some, if_true]
  refine leaves_op fun a freed s₁ _ he => ?_
  simp only [clientExec] at he
  have hothers := PendingAt.enter_others (a := a) h.others
  have hmysql := h.stmt
  have hsingle : ((s.enter a p).mysqls p).more = false :=
    ((Fades.refl s).enter.more p).elim (·.trans h.single) id
  split at he
  · cases he
    have hd : ExecSt.Drained (((s.enter a (s.stmts q).mysql).setMysql (s.stmts q).mysql
        { (s.enter a (s.stmts q).mysql).mysqls (s.stmts q).mysql with pending := none }).setStmt q
          { (s.enter a (s.stmts q).mysql).stmts q with rows := [] }) := by
      intro p'
      rw [hmysql]
      by_cases hp : p' = p
      · subst hp; simpa [ExecSt.setStmt, Mysql.busy] using hsingle
      · simpa [ExecSt.setStmt, ExecSt.setMysql_of_ne hp] using hothers p' hp
    refine leaves_op fun b u s₂ _ he₂ => ?_
    exact drained_exec he₂ hd (fun _ _ h => (by cases h)) fun _ h => (by cases h)
  · cases he
    -- the statement was not closed: its destructor asserts
    change Leaves yields (MysqlStatement.destroy stmt) ExecSt.Drained _
    simp only [MysqlStatement.destroy, hq, Option.isSome_some, if_true]
    exact leaves_crash

/-- The error of a statement, and its end. -/
theorem stmtFailure_drained {α : Type} (x : MysqlResults → α) (hq : stmt.mysqlStmt = some q)
    (h : s.Ok ∧ PendingAt p q s) : Leaves yields (do
      let r ← setStmtError r stmt
      endStatement stmt
      return x r) ExecSt.Drained s := by
  refine leaves_bind (keeps_setStmtError (pendingAt_walk p q) stmt r) h fun r s₁ h₁ => ?_
  rw [Leaves, Prog.gwp_bind]
  exact Prog.gwp_mono (fun _ _ hd => hd) (endStatement_drained hq h₁.2)

/-- A statement that was not even made. -/
theorem noStatement_drained {α : Type} (x : MysqlResults → α) (hq : stmt.mysqlStmt = none) (h : s.Drained) :
    Leaves yields (do
      let r ← setStmtError r stmt
      endStatement stmt
      return x r) ExecSt.Drained s := by
  have hrun : (do
      let r ← setStmtError r stmt
      endStatement stmt
      return x r) = (pure (x (r.setError "" 0)) : XProg α) := by
    simp [setStmtError, endStatement, MysqlStatement.getErrorMessage, MysqlStatement.getErrorNumber,
      MysqlStatement.closeStatement, MysqlStatement.destroy, hq, Prog.pure_eq]
  rw [hrun]
  exact h

/-- `MysqlStatement(mysql_)` and `Init`: no statement, or one on the executor's connection. -/
theorem init_pending {α : Type} (hs : s.Ok) (hd : s.Drained) {f : Bool × MysqlStatement → XProg α}
    (hnone : ∀ stmt s', stmt.mysqlStmt = none → s'.Drained → Leaves yields (f (false, stmt)) ExecSt.Drained s')
    (hsome : ∀ p q b stmt s', stmt.mysqlStmt = some q → s'.Ok ∧ PendingAt p q s' →
      Leaves yields (f (b, stmt)) ExecSt.Drained s') :
    Leaves yields (do f (← MysqlStatement.init { mysql := (← getThis).mysql } (.user t))) ExecSt.Drained s := by
  refine leaves_op fun a this s₁ _ he => ?_
  cases he
  unfold MysqlStatement.init
  rw [Prog.bind_assoc]
  refine leaves_op fun a st s₁ _ he => ?_
  have hf := fades_exec rfl he
  have hd₁ := hf.drained hd
  cases hm : s.this.mysql with
  | none => rw [hm] at he; cases he
  | some p =>
    rw [hm] at he
    simp only [clientExec] at he
    split at he
    · cases he
      set s₁ := { (s.enter a p).setStmt (s.enter a p).nextStmt { mysql := p } with
        nextStmt := (s.enter a p).nextStmt + 1 } with hs₁
      have h₁ : s₁.Ok ∧ PendingAt p (s.enter a p).nextStmt s₁ := by
        refine ⟨hf.ok hs, .of_drained hd₁ (by rw [hf.this, hm]) ?_ (Nat.lt_succ_self _)⟩
        simp [hs₁, ExecSt.setStmt]
      have hw : Walk clientExec ExecSt.this (RowsAs yields) Any
          (fun u => u.Ok ∧ PendingAt p (s.enter a p).nextStmt u) UserText := pendingAt_walk p _
      refine leaves_walk hw h₁ (.inr ⟨.user t, rfl, t, rfl⟩) rfl fun ok s₂ h₂ => ?_
      cases ok
      · exact hsome p _ false _ s₂ rfl h₂
      · refine leaves_walk hw h₂ (.inl rfl) rfl fun n s₃ h₃ => ?_
        refine leaves_walk hw h₃ (.inl rfl) rfl fun n s₄ h₄ => ?_
        exact hsome p _ true _ s₄ rfl h₄
    · cases he
      exact hnone _ _ rfl hd₁

/-- The end of a statement, whatever is returned. -/
theorem endStatement_return {α : Type} (x : α) (hq : stmt.mysqlStmt = some q) (h : s.Ok ∧ PendingAt p q s) :
    Leaves yields (do endStatement stmt; return x) ExecSt.Drained s := by
  rw [Leaves, Prog.gwp_bind]
  exact Prog.gwp_mono (fun _ _ hd => hd) (endStatement_drained hq h.2)

/-- `MysqlResults::Clear` leaves the connections alone. -/
theorem clear_first {α : Type} {f : MysqlResults → XProg α} (r : MysqlResults)
    (h : Leaves yields (f r.cleared) ExecSt.Drained s) : Leaves yields (clearResults r >>= f) ExecSt.Drained s :=
  leaves_op fun a u s₁ _ he => by cases he; exact h

theorem queryBound_drained (handle : QueryHandle) (hq : stmt.mysqlStmt = some q)
    (h : s.Ok ∧ PendingAt p q s) : Leaves yields (queryBound handle stmt r) ExecSt.Drained s := by
  have hw : Walk clientExec ExecSt.this (RowsAs yields) Any (fun u => u.Ok ∧ PendingAt p q u) UserText :=
    pendingAt_walk p q
  refine leaves_bind (keeps_executeStatement hw stmt true) h fun st s₁ h₁ => ?_
  dsimp only
  split
  · exact endStatement_return _ hq h₁
  refine leaves_bind (keeps_fetchResults hw stmt r _) h₁ fun x s₂ h₂ => ?_
  obtain ⟨fetched, r⟩ := x
  cases fetched
  · exact stmtFailure_drained _ hq h₂
  · exact leaves_walk hw h₂ (.inl rfl) rfl fun fields s₃ h₃ => endStatement_return _ hq h₃

theorem queryPrepared_drained (outputs : List OutputArg) (hq : stmt.mysqlStmt = some q)
    (h : s.Ok ∧ PendingAt p q s) : Leaves yields (queryPrepared outputs stmt r) ExecSt.Drained s :=
  leaves_walk (pendingAt_walk p q) h (.inl rfl) rfl fun fields s₁ h₁ => by
    cases fields with
    | none => exact leaves_crash
    | some fields => exact queryBound_drained _ hq h₁

theorem queryAllBind_drained (outputs : List OutputArg) (hs : s.Ok) (hd : s.Drained) :
    Leaves yields (queryAllBind outputs r (.user t) args) ExecSt.Drained s := by
  refine clear_first r (init_pending hs hd (fun stmt s₁ hn h₁ => noStatement_drained _ hn h₁)
    fun p q ok stmt s₁ hq h₁ => ?_)
  have hw : Walk clientExec ExecSt.this (RowsAs yields) Any (fun u => u.Ok ∧ PendingAt p q u) UserText :=
    pendingAt_walk p q
  cases ok
  · exact stmtFailure_drained _ hq h₁
  refine leaves_walk hw h₁ (.inl rfl) rfl fun fields s₂ h₂ => ?_
  cases fields with
  | none => exact leaves_crash
  | some fields =>
    dsimp only
    split
    · exact endStatement_return _ hq h₂
    refine gwp_bindInputArgs (fun _ => trivial) (leaves_walk hw h₂ (.inl rfl) rfl fun bound s₃ h₃ => ?_)
    cases bound
    · exact stmtFailure_drained _ hq h₃
    · exact queryPrepared_drained outputs hq h₃

theorem executePrepared_drained (hs : s.Ok) (hd : s.Drained) :
    Leaves yields (executePrepared r (.user t) args) ExecSt.Drained s := by
  refine clear_first r (init_pending hs hd (fun stmt s₁ hn h₁ => noStatement_drained _ hn h₁)
    fun p q ok stmt s₁ hq h₁ => ?_)
  have hw : Walk clientExec ExecSt.this (RowsAs yields) Any (fun u => u.Ok ∧ PendingAt p q u) UserText :=
    pendingAt_walk p q
  cases ok
  · exact stmtFailure_drained _ hq h₁
  refine gwp_bindInputArgs (fun _ => trivial) (leaves_walk hw h₁ (.inl rfl) rfl fun bound s₂ h₂ => ?_)
  cases bound
  · exact stmtFailure_drained _ hq h₂
  refine leaves_bind (keeps_executeStatement hw stmt false) h₂ fun st s₃ h₃ => ?_
  dsimp only
  split
  · exact endStatement_return _ hq h₃
  refine leaves_op fun a this s₄ _ he => ?_
  cases he
  refine leaves_op fun a n s₄ ha he => ?_
  have h₄ : s₄.Ok ∧ PendingAt p q s₄ := (hw.op (.inl rfl) (.inr rfl) h₃ ha).2 n s₄ he
  exact endStatement_return _ hq h₄

/-- The error of the MYSQL object. -/
theorem setMysqlError_drained {α : Type} (x : MysqlResults → α) (hd : s.Drained) :
    Leaves yields (do let r ← setMysqlError r; return x r) ExecSt.Drained s := by
  refine leaves_op fun a this s₁ _ he => leaves_op fun a message s₂ _ he₂ => leaves_op fun a this s₃ _ he₃ =>
    leaves_op fun a number s₄ _ he₄ => ?_
  have hd₁ := (fades_exec rfl he).drained hd
  have hd₂ := (fades_exec rfl he₂).drained hd₁
  have hd₃ := (fades_exec rfl he₃).drained hd₂
  exact (fades_exec rfl he₄).drained hd₃

/-- The result of a text is stored, or the attempt takes it off the line. -/
theorem storeResult_drained {m : Option MysqlPtr} {a : ClientAnswer} {res : Option StoredResult}
    (he : clientExec (.mysqlStoreResult m) a s = some (res, s')) (hm : m = some p)
    (hother : ∀ p', p' ≠ p → (s.mysqls p').busy = false) (hmore : (s.mysqls p).more = false) : s'.Drained := by
  subst hm
  simp only [clientExec] at he
  have henter := PendingAt.enter_others (a := a) hother
  have hmore' : ((s.enter a p).mysqls p).more = false := ((Fades.refl s).enter.more p).elim (·.trans hmore) id
  have hset : ∀ {m : Mysql}, m.busy = false → ((s.enter a p).setMysql p m).Drained := by
    intro m hm p'
    by_cases hpp : p' = p
    · subst hpp; simpa using hm
    · rw [ExecSt.setMysql_of_ne hpp]; exact henter p' hpp
  split at he
  · rename_i hnone
    cases he
    intro p'
    by_cases hpp : p' = p
    · subst hpp; exact busy_eq_false.2 ⟨hnone, hmore'⟩
    · exact henter p' hpp
  · have hd := hset (m := { (s.enter a p).mysqls p with pending := none }) (busy_eq_false.2 ⟨rfl, hmore'⟩)
    split at he
    · cases he; exact hd
    · cases he; exact (Fades.refl _).failMysql.drained hd

/-- The server's answer to a text leaves a result on the line of `mysql_` at most, and nothing after it. -/
theorem realQuery_pending {m : Option MysqlPtr} {t : Bytes} {a : ClientAnswer} {ok : Bool}
    (he : clientExec (.mysqlRealQuery m (.user t)) a s = some (ok, s'))
    (ha : RowsAs yields (.mysqlRealQuery m (.user t)) a s)
    (hd : s.Drained) : ok = true ∧ (∃ p, m = some p ∧ s'.this = s.this ∧ (∀ p', p' ≠ p → (s'.mysqls p').busy = false) ∧
      (s'.mysqls p).more = false ∧ ((s'.mysqls p).pending.isSome = yields t)) ∨ ok = false ∧ s'.Drained := by
  obtain ⟨p, rfl, ⟨rfl, σ, -, rfl⟩ | ⟨rfl, rfl⟩⟩ := realQuery_exec he
  · refine .inl ⟨rfl, p, rfl, by simp, PendingAt.setMysql_others (PendingAt.enter_others fun p' _ => hd p'), ?_, ?_⟩
    · simpa [ExecSt.acknowledge, ExecSt.note, ExecSt.moreOf] using ha.2
    · simpa [ExecSt.acknowledge, ExecSt.note, ExecSt.resultOf] using ha.1
  · exact .inr ⟨rfl, (Fades.refl s).enter.failMysql.drained hd⟩

theorem queryAllNative_drained (hd : s.Drained) : Leaves yields (queryAllNative r (.user t) args) ExecSt.Drained s := by
  refine clear_first r ?_
  unfold formatQuery
  rw [Prog.bind_assoc]
  refine leaves_op fun a sent s₁ _ he => ?_
  obtain rfl : s = s₁ := (Prod.mk.inj (Option.some.inj he)).2
  cases sent with
  | none => exact leaves_crash
  | some sent =>
    obtain ⟨sent, fmt, hsent⟩ := sent
    have hsent : Sql.Sent .nativeString (.user t) args sent := ⟨fmt, hsent⟩
    obtain ⟨t', rfl⟩ := hsent.user
    refine leaves_op fun a this s₁ _ he => ?_
    cases he
    refine leaves_op fun a ok s₁ ha he => ?_
    obtain ⟨rfl, p, hp, hthis, hother, hmore, -⟩ | ⟨rfl, hd₁⟩ := realQuery_pending he ha hd
    · refine leaves_op fun b fields s₂ _ he₂ => ?_
      cases he₂
      refine leaves_op fun c res s₂ _ he₂ => ?_
      have hd₂ := storeResult_drained he₂ (by rw [hthis]; exact hp) hother hmore
      cases res with
      | none => exact setMysqlError_drained _ hd₂
      | some res => exact hd₂
    · exact setMysqlError_drained _ hd₁

end Prepared

/-! ## Which statements leave a result set -/

section Statements

variable {yields : Bytes → Bool} {t : Bytes} {r : MysqlResults} {args : List InputArg} {s : ExecSt}

/-- A text that yields no rows leaves nothing to store. -/
theorem executeText_drained (hy : yields t = false) (hd : s.Drained) :
    Leaves yields (executeText r (.user t)) ExecSt.Drained s := by
  refine leaves_op fun a this s₁ _ he => ?_
  cases he
  refine leaves_op fun a ok s₁ ha he => ?_
  obtain ⟨rfl, p, -, -, hother, hmore, hpending⟩ | ⟨rfl, hd₁⟩ := realQuery_pending he ha hd
  · have hd₁ : s₁.Drained := by
      intro p'
      by_cases hp : p' = p
      · subst hp
        exact busy_eq_false.2 ⟨by simpa [hy] using hpending, hmore⟩
      · exact hother p' hp
    refine leaves_op fun b this s₂ _ he₂ => leaves_op fun c n s₃ _ he₃ => ?_
    exact (fades_exec rfl he₃).drained ((fades_exec rfl he₂).drained hd₁)
  · exact setMysqlError_drained (fun r => (0, r)) hd₁

/-- Statements other than texts for `Execute`. -/
theorem runStatement_drained (hs : s.Ok) (hd : s.Drained) (h : ¬ (r.mode = .onlyExec ∧ args = [])) :
    Leaves yields (runStatement r (.user t) args) ExecSt.Drained s := by
  have hquery : r.mode ≠ .onlyExec → Leaves yields (queryAll r (.user t) args) ExecSt.Drained s := by
    intro hm
    have hend : ∀ (x : Bool × MysqlResults) s', s'.Drained → Leaves yields (do
        if !x.1 then return (false, x.2)
        return (true, { x.2 with hasValue := true })) ExecSt.Drained s' := by
      rintro ⟨_ | _, r'⟩ s' h <;> exact h
    unfold queryAll
    cases hmode : r.mode with
    | bindType outputs => exact leaves_then (queryAllBind_drained outputs hs hd) hend
    | onlyExec => exact absurd hmode hm
    | nativeString => exact leaves_then (queryAllNative_drained hd) hend
  unfold runStatement
  cases hmode : r.mode with
  | bindType outputs => exact hquery (by simp [hmode])
  | nativeString => exact hquery (by simp [hmode])
  | onlyExec =>
    have hargs : args.isEmpty = false := by
      cases args with
      | nil => exact absurd ⟨hmode, rfl⟩ h
      | cons _ _ => rfl
    dsimp only
    unfold execute
    rw [hargs]
    exact leaves_then (executePrepared_drained hs hd) fun _ _ hd => hd

/-- **Which statements leave a result set on the line.** Let the server send one result for each statement, and let
`yields` tell the texts for which it sends rows. A statement on a connected executor leaves no result set
pending, whatever happens, if and only if it is not a text that yields rows, given to `Execute` without arguments. -/
theorem drained_iff (hs : s.Ok) (hd : s.Drained) (hl : ∃ σ, s.session = some σ) :
    (∀ as x s' rest, (runStatement r (.user t) args).Along clientExec (RowsAs yields) s as →
      (runStatement r (.user t) args).run clientExec s as = some (x, s', rest) → s'.Drained) ↔
    ¬ (r.mode = .onlyExec ∧ args = [] ∧ yields t = true) := by
  rw [← Prog.gwp_iff_run]
  constructor
  · rintro hall ⟨hm, rfl, hy⟩
    obtain ⟨σ, hσ⟩ := hl
    obtain ⟨p, hp, hσ⟩ := Option.bind_eq_some_iff.1 hσ
    have htext : Leaves yields (executeText r (.user t)) ExecSt.Drained s := by
      have hrun : runStatement r (.user t) [] =
          (executeText r (.user t) >>= fun x => pure (true, { x.2 with affectedRows := x.1 })) := by
        simp only [runStatement, hm]
        rfl
      rw [hrun, Prog.gwp_bind] at hall
      exact hall
    -- the statement is acknowledged with rows, and nothing is lost
    have hack : clientExec (.mysqlRealQuery s.this.mysql (.user t)) { rows := some {} } s =
        some (true, s.acknowledge p σ (.user t) { rows := some {} }) := by
      rw [hp]
      simp [clientExec, ExecSt.enter, ExecSt.ready, hσ, hd p]
    have h₁ := (htext {} trivial).2 _ _ rfl
    have h₂ := (h₁ { rows := some {} } ⟨hy.symm, rfl⟩).2 _ _ hack
    have h₃ := (h₂ {} trivial).2 _ _ rfl
    have hrows : clientExec (.mysqlAffectedRows s.this.mysql) {} (s.acknowledge p σ (.user t) { rows := some {} }) =
        some (0, s.acknowledge p σ (.user t) { rows := some {} }) := by
      rw [hp]; rfl
    have h₄ : ExecSt.Drained _ := (h₃ {} trivial).2 _ _ hrows
    have := h₄ p
    simp [ExecSt.acknowledge, ExecSt.note, ExecSt.resultOf, Mysql.busy] at this
  · intro hno
    by_cases htext : r.mode = .onlyExec ∧ args = []
    · obtain ⟨hm, rfl⟩ := htext
      have hy : yields t = false := by
        rw [Bool.eq_false_iff]
        exact fun hy => hno ⟨hm, rfl, hy⟩
      unfold runStatement
      rw [hm]
      unfold execute
      exact Prog.gwp_bind.2 (Prog.gwp_mono (fun _ _ hd => hd) (executeText_drained hy hd))
    · exact runStatement_drained hs hd htext

end Statements

/-- An executor after its first `Connect`. -/
def ExecSt.joined : ExecSt :=
  { this := { isConnected := true, mysql := some 0 }
    mysqls := update (fun _ => {}) 0 { session := some { id := 0 } }
    nextMysql := 1
    sessions := 1 }

theorem joined_ok : ExecSt.joined.Ok := by
  refine ⟨fun _ => ⟨0, rfl, rfl⟩, fun p σ hσ => ?_, fun _ => ⟨[], rfl⟩⟩
  by_cases hp : p = 0
  · subst hp; rfl
  · simp [ExecSt.joined, hp] at hσ

theorem joined_drained : ExecSt.joined.Drained := by
  intro p
  by_cases hp : p = 0
  · subst hp; rfl
  · simp [ExecSt.joined, hp, Mysql.busy]

/-- `QueryAll` of a text that yields rows takes them. -/
theorem drained_bind : ∃ x s' rest,
    (runStatement { mode := .bindType [] } (.user (ascii "select 1")) []).run clientExec ExecSt.joined
        (List.replicate 19 { rows := some {}, columns := some [] }) = some (x, s', rest) ∧ s'.Drained := by
  have hrows : (runStatement { mode := .bindType [] } (.user (ascii "select 1")) []).Along clientExec
      (RowsAs fun _ => true) ExecSt.joined (List.replicate 19 { rows := some {}, columns := some [] }) := by
    repeat' apply And.intro
    all_goals trivial
  have hno : ¬ (({ mode := .bindType [] } : MysqlResults).mode = .onlyExec ∧ ([] : List InputArg) = [] ∧
      (fun _ : Bytes => true) (ascii "select 1") = true) := fun h => by cases h.1
  exact ⟨_, _, _, rfl, (drained_iff joined_ok joined_drained ⟨_, rfl⟩).2 hno _ _ _ _ hrows rfl⟩

/-- The second result of a text stays on the line. -/
example : ((runStatement { mode := .onlyExec } (.user (ascii "call p()")) []).run clientExec ExecSt.joined
    [{}, { more := true }, {}, {}]).map (fun x => (x.2.1.mysqls 0).busy) = some true := rfl

/-- `Execute` of such a text leaves its rows on the line. -/
theorem pending_after_execute : ¬ ∀ (r : MysqlResults) (t : Bytes) (args : List InputArg) (s : ExecSt)
    (as : List ClientAnswer) (x : Bool × MysqlResults) (s' : ExecSt) (rest : List ClientAnswer), s.Ok → s.Drained →
      (runStatement r (.user t) args).run clientExec s as = some (x, s', rest) → s'.Drained := by
  intro hall
  have h := hall { mode := .onlyExec } (ascii "select 1") [] .joined [{}, { rows := some {} }, {}, {}] _ _ _ joined_ok
    joined_drained rfl 0
  cases h

end TrpcMysql
