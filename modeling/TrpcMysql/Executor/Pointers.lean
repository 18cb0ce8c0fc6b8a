import TrpcMysql.Executor.Closed
import TrpcMysql.Executor.Statements

/-!
# The pointers of an executor

No function of an executor gives the library a null pointer: not from a connected executor, which has its MYSQL object
(`ExecSt.Linked`), nor on a statement that was not made. A statement ends the process only in the ways that
`MysqlResultsMode.Stops` lists.
-/

namespace TrpcMysql

open Function Conc

/-- A connected executor has its MYSQL object. -/
def ExecSt.Linked (s : ExecSt) : Prop := s.this.isConnected = true → s.this.mysql ≠ none

/-- Where a statement may end the process: there are no columns to bind, an argument is a null C string,
`mysql_stmt_free_result` fails, or `FormatQuery` throws. -/
def MysqlResultsMode.Stops (mode : MysqlResultsMode) (args : List InputArg) : ClientOp → Prop
  | .crash .nullPointer => (∃ outputs, mode = .bindType outputs) ∨ mode = .onlyExec ∧ bindInputImpl args = none
  | .crash .assertion => mode ≠ .nativeString ∧ ¬ (mode = .onlyExec ∧ args = [])
  | .crash .exception => mode = .nativeString
  | _ => False

namespace ExecSt.Linked

variable {s : ExecSt}

theorem of_mysql (h : s.this.mysql ≠ none) : s.Linked := fun _ => h

theorem of_off (h : s.this.isConnected = false) : s.Linked := fun hc => by rw [h] at hc; cases hc

theorem of_ok (h : s.Ok) : s.Linked := by
  intro hc
  obtain ⟨p, hp, -⟩ := h.conn hc
  rw [hp]
  exact Option.some_ne_none p

end ExecSt.Linked

namespace MysqlExecutor

variable {R : List Heard → ClientOp → Prop} {tr : List Heard} {s : ExecSt} {p : MysqlPtr}

theorem says_last {o : ClientOp} {Q : List Heard → o.Reply → ExecSt → Prop} (ho : o.given = true)
    (hQ : ∀ a r s', clientExec o a s = some (r, s') → Q (tr ++ told o r) r s') : Says R (xop o) Q tr s :=
  fun a => ⟨fun h => absurd h (given_exec ho a s), hQ a⟩

/-! ## The connection -/

theorem construct_linked : Says R construct (fun _ _ s' => s'.this.mysql ≠ none) tr s := by
  refine says_op rfl fun a x s₁ he => ?_
  cases he
  refine says_getThis (says_op rfl fun a x s₂ h₂ => says_op rfl fun a x s₃ h₃ => says_op rfl fun a x s₄ h₄ =>
    says_last rfl fun a x s₅ h₅ => ?_)
  rw [(keepsMysql_exec rfl h₅).1, (keepsMysql_exec rfl h₄).1, (keepsMysql_exec rfl h₃).1, (keepsMysql_exec rfl h₂).1]
  exact Option.some_ne_none _

theorem realConnect_linked (hp : s.this.mysql = some p) : Says R realConnect (fun _ _ s' => s'.Linked) tr s := by
  refine says_getThis ?_
  rw [hp]
  refine says_op rfl fun a done s₁ h₁ => ?_
  cases done
  · refine says_op rfl fun b x s₂ h₂ => says_op rfl fun b x s₃ h₃ => Prog.tells_pure ?_
    cases h₃
    exact .of_off rfl
  · refine says_op rfl fun b x s₂ h₂ => Prog.tells_pure (.of_mysql ?_)
    rw [(keepsMysql_exec rfl h₂).1, (keepsMysql_exec rfl h₁).1, hp]
    exact Option.some_ne_none p

theorem connect_linked (hs : s.Linked) : Says R connect (fun _ _ s' => s'.Linked) tr s := by
  refine says_getThis ?_
  split
  · exact Prog.tells_pure hs
  cases hp : s.this.mysql with
  | none =>
    refine says_op rfl fun a x s₁ he => ?_
    cases he
    exact realConnect_linked rfl
  | some p => exact realConnect_linked hp

theorem checkAlive_linked (hs : s.Linked) : Says R checkAlive (fun _ _ s' => s'.Linked) tr s := by
  have hoff : ∀ {tr s}, Says R (do setConnected false; return false) (fun _ _ s' => s'.Linked) tr s := by
    intro tr s
    refine says_op rfl fun a x s₁ he => Prog.tells_pure ?_
    cases he
    exact .of_off rfl
  refine says_getThis ?_
  split
  · exact Prog.tells_pure hs
  cases hp : s.this.mysql with
  | none => exact hoff
  | some p =>
    refine says_op rfl fun a alive s₁ he => ?_
    cases alive
    · exact hoff
    · exact Prog.tells_pure (.of_mysql (by rw [(keepsMysql_exec rfl he).1, hp]; exact Option.some_ne_none p))

/-! ## Statements -/

section Statements

variable {α : Type} {P : ClientOp → Prop} {stmt : MysqlStatement} {q : StmtPtr} {r : MysqlResults}

/-- The end of a statement, after which nothing is done. -/
theorem ends_statement {x : α} (hP : P (.crash .assertion)) (hq : stmt.mysqlStmt = some q) :
    Says (fun _ => P) (do
      endStatement stmt
      return x) (fun _ _ _ => True) tr s := says_endStatement hq hP fun _ => Prog.tells_pure trivial

theorem ends_stmtFailure {x : α} (hP : P (.crash .assertion)) (hq : stmt.mysqlStmt = some q) :
    Says (fun _ => P) (do
      let r ← setStmtError r stmt
      endStatement stmt
      return (x, r)) (fun _ _ _ => True) tr s := says_stmtFailure hq hP fun _ _ => trivial

/-- There are as many rows as were stored. -/
theorem fetchLoop_ends (hq : stmt.mysqlStmt = some q) : ∀ (n : ℕ) (handle : QueryHandle) (r : MysqlResults) {tr s},
    (s.stmts q).rows.length = n → Says R (fetchLoop stmt n handle r) (fun _ _ _ => True) tr s := by
  intro n
  induction n with
  | zero =>
    intro handle r tr s hn
    unfold fetchLoop
    rw [hq]
    refine says_op rfl fun a f s' he => ?_
    simp only [clientExec, List.length_eq_zero_iff.1 hn] at he
    split at he <;> cases he <;> exact Prog.tells_pure trivial
  | succ n ih =>
    intro handle r tr s hn
    obtain ⟨row, rows, hrows⟩ := List.exists_cons_of_length_eq_add_one hn
    unfold fetchLoop
    rw [hq]
    refine says_op rfl fun a f s' he => ?_
    simp only [clientExec, hrows] at he
    split at he <;> cases he
    · rw [← hq]
      refine Prog.tells_call ?_ (fetchRow_told hq handle row)
      rintro tr₁ handle s₁ ⟨-, hrest⟩
      refine ih _ _ ?_
      rw [hrest]
      simp only [ExecSt.setStmt, update_self]
      rw [hrows, List.length_cons] at hn
      omega
    · exact Prog.tells_pure trivial

theorem fetchResults_ends (hq : stmt.mysqlStmt = some q) (handle : QueryHandle) :
    Says R (fetchResults handle stmt r) (fun _ _ _ => True) tr s := by
  unfold fetchResults
  rw [hq]
  refine says_op rfl fun a n s' he => ?_
  simp only [clientExec] at he
  split at he
  · cases he
    exact fetchLoop_ends hq _ _ _ (by simp [ExecSt.setStmt])
  · cases he
    exact Prog.tells_pure trivial

/-- A statement that was made is bound, executed and fetched without a null pointer. -/
theorem queryBound_ends (hP : P (.crash .assertion)) (hq : stmt.mysqlStmt = some q) (h : Stands False p q s)
    (handle : QueryHandle) : Says (fun _ => P) (queryBound handle stmt r) (fun _ _ _ => True) tr s := by
  unfold queryBound
  refine Prog.tells_call ?_ (executeStatement_told true hq h)
  intro tr₁ st s₁ _
  dsimp only
  split
  · exact ends_statement hP hq
  refine Prog.tells_call ?_ (fetchResults_ends hq handle.bindResult)
  rintro tr₂ ⟨fetched, r₂⟩ s₂ -
  cases fetched
  · exact ends_stmtFailure hP hq
  · have hgiven : (ClientOp.mysqlStmtResultMetadata stmt.mysqlStmt).given = true := by rw [hq]; rfl
    exact says_op hgiven fun a fields s₃ _ => ends_statement hP hq

theorem queryAllBind_ends (hP : P (.crash .assertion)) (hnull : P (.crash .nullPointer)) (hs : s.this.mysql ≠ none)
    (outputs : List OutputArg) (sql : Sql) (args : List InputArg) :
    Says (fun _ => P) (queryAllBind outputs r sql args) (fun _ _ _ => True) [] s := by
  have hno : False → s.Numbered := False.elim
  refine says_clearResults (says_getThis (says_init hno rfl sql (fun hm => absurd hm hs) ?_ ?_ ?_))
  · intro stmt s' hq
    exact says_noStatement hq trivial
  · intro stmt q s' hq _
    exact ends_stmtFailure hP hq
  · intro stmt q p s' hq h
    have hgiven : (ClientOp.mysqlStmtResultMetadata stmt.mysqlStmt).given = true := by rw [hq]; rfl
    refine says_op hgiven fun a fields s₁ h₁ => ?_
    rw [hq] at h₁
    cases h₁
    cases (s'.stmts q).columns with
    | none =>
      -- `mysql_num_fields` of null metadata
      exact fun b => ⟨fun _ => hnull, fun x => x.elim⟩
    | some fields =>
      dsimp only
      split
      · exact ends_statement hP hq
      have hbind : (ClientOp.mysqlStmtBindParam stmt.mysqlStmt args).given = true := by rw [hq]; rfl
      refine says_bindInputArgs (fun _ => hnull) fun _ => says_op hbind fun a bound s₂ h₂ => ?_
      rw [hq] at h₂
      simp only [clientExec] at h₂
      split at h₂
      · cases h₂
        refine says_op hgiven fun a fields' s₃ h₃ => ?_
        rw [hq] at h₃
        cases h₃
        cases (s'.stmts q).columns with
        | none => exact fun b => ⟨fun _ => hnull, fun x => x.elim⟩
        | some fields => exact queryBound_ends hP hq h _
      · cases h₂
        exact ends_stmtFailure hP hq

theorem executePrepared_ends {args : List InputArg} (hP : P (.crash .assertion))
    (hnull : bindInputImpl args = none → P (.crash .nullPointer)) (hs : s.this.mysql ≠ none) (sql : Sql) :
    Says (fun _ => P) (executePrepared r sql args) (fun _ _ _ => True) [] s := by
  have hno : False → s.Numbered := False.elim
  refine says_clearResults (says_getThis (says_init hno rfl sql (fun hm => absurd hm hs) ?_ ?_ ?_))
  · intro stmt s' hq
    exact says_noStatement hq trivial
  · intro stmt q s' hq _
    exact ends_stmtFailure hP hq
  · intro stmt q p s' hq h
    have hbind : (ClientOp.mysqlStmtBindParam stmt.mysqlStmt args).given = true := by rw [hq]; rfl
    refine says_bindInputArgs hnull fun _ => says_op hbind fun a bound s₂ h₂ => ?_
    rw [hq] at h₂
    simp only [clientExec] at h₂
    split at h₂
    · cases h₂
      refine Prog.tells_call ?_ (executeStatement_told false hq h)
      rintro tr₁ st s₁ ⟨new, rfl, -, hp, -⟩
      dsimp only
      split
      · exact ends_statement hP hq
      · refine says_getThis ?_
        rw [hp]
        exact says_op rfl fun a n s₂ _ => ends_statement hP hq
    · cases h₂
      exact ends_stmtFailure hP hq

/-- The text of a statement is sent, and its outcome is read from the same object. -/
theorem ends_realQuery {f : Bool → XProg α} (sql : Sql) (hs : s.this.mysql ≠ none)
    (hf : ∀ done tr s', s'.this.mysql ≠ none → Says R (f done) (fun _ _ _ => True) tr s') :
    Says R (do f (← mysqlRealQuery (← getThis).mysql sql)) (fun _ _ _ => True) tr s := by
  refine says_getThis ?_
  obtain ⟨p, hp⟩ := Option.ne_none_iff_exists'.1 hs
  rw [hp]
  refine says_op rfl fun a done s₁ h₁ => hf done _ s₁ ?_
  rw [(keepsMysql_exec rfl h₁).1]
  exact hs

theorem ends_setMysqlError {f : MysqlResults → XProg α} (hf : ∀ r tr s', Says R (f r) (fun _ _ _ => True) tr s') :
    Says R (setMysqlError r >>= f) (fun _ _ _ => True) tr s :=
  says_getThis (says_op rfl fun _ _ _ _ => says_getThis (says_op rfl fun _ _ _ _ => hf _ _ _))

theorem queryAllNative_ends (hthrow : P (.crash .exception)) (hs : s.this.mysql ≠ none) (sql : Sql)
    (args : List InputArg) :
    Says (fun _ => P) (queryAllNative r sql args) (fun _ _ _ => True) [] s := by
  refine says_clearResults (says_formatQuery hthrow fun sent => ends_realQuery sent hs fun done tr s₁ hs₁ => ?_)
  cases done
  · exact ends_setMysqlError fun r tr s' => Prog.tells_pure trivial
  refine says_getThis ?_
  obtain ⟨p, hp⟩ := Option.ne_none_iff_exists'.1 hs₁
  rw [hp]
  refine says_op rfl fun a res s₂ _ => ?_
  cases res with
  | none => exact ends_setMysqlError fun r tr s' => Prog.tells_pure trivial
  | some res => exact Prog.tells_pure trivial

theorem executeText_ends (hs : s.this.mysql ≠ none) (sql : Sql) :
    Says R (executeText r sql) (fun _ _ _ => True) tr s := by
  refine ends_realQuery sql hs fun done tr s₁ hs₁ => ?_
  cases done
  · exact ends_setMysqlError fun r tr s' => Prog.tells_pure trivial
  refine says_getThis ?_
  obtain ⟨p, hp⟩ := Option.ne_none_iff_exists'.1 hs₁
  rw [hp]
  exact says_op rfl fun a n s₂ _ => Prog.tells_pure trivial

/-- **A statement on an executor that has its MYSQL object** ends the process only as `Stops` says. -/
theorem runStatement_ends (hs : s.this.mysql ≠ none) (r : MysqlResults) (sql : Sql) (args : List InputArg) :
    Says (fun _ => r.mode.Stops args) (runStatement r sql args) (fun _ _ _ => True) [] s := by
  unfold runStatement queryAll execute
  cases hm : r.mode with
  | bindType outputs =>
    have hbound : Says (fun _ => (MysqlResultsMode.bindType outputs).Stops args) (queryAllBind outputs r sql args)
        (fun _ _ _ => True) [] s := queryAllBind_ends ⟨by simp, by simp⟩ (.inl ⟨outputs, rfl⟩) hs outputs sql args
    refine Prog.tells_call (fun tr x s' _ => ?_) hbound
    dsimp only
    split <;> exact Prog.tells_pure trivial
  | nativeString =>
    have hnative : Says (fun _ => MysqlResultsMode.nativeString.Stops args) (queryAllNative r sql args)
        (fun _ _ _ => True) [] s := queryAllNative_ends (show MysqlResultsMode.nativeString = _ from rfl) hs sql args
    refine Prog.tells_call (fun tr x s' _ => ?_) hnative
    dsimp only
    split <;> exact Prog.tells_pure trivial
  | onlyExec =>
    dsimp only
    split
    · exact Prog.tells_call (fun tr x s' _ => Prog.tells_pure trivial) (executeText_ends hs sql)
    · rename_i hargs
      have hprepared : Says (fun _ => MysqlResultsMode.onlyExec.Stops args) (executePrepared r sql args)
          (fun _ _ _ => True) [] s := by
        refine executePrepared_ends ⟨by simp, ?_⟩ (fun hnull => .inr ⟨rfl, hnull⟩) hs sql
        rintro ⟨-, rfl⟩
        exact hargs rfl
      exact Prog.tells_call (fun tr x s' _ => Prog.tells_pure trivial) hprepared

end Statements

end MysqlExecutor

end TrpcMysql
