import TrpcMysql.Executor.Calls
import TrpcMysql.Executor.Transcript

/-!
# What a whole statement tells

The rows of a result and the whole of `QueryAllInternal` and `ExecuteInternal`: `FetchTold`, `QueryTold`,
`NativeTold`, `ExecuteTold` and `TextTold` list what the calls tell when the function returns, with a constructor
for each way to return.
-/

namespace TrpcMysql

open Function Conc

/-! ## The rows -/

/-- What the loop of `FetchResults` tells, with what it returns and the number of rows. -/
inductive FetchTold : List Heard → Bool → ℕ → Prop
  | noData : FetchTold [.noData] true 0
  | failed : FetchTold [.fetchFailed] false 0
  | row {cols rest : List Heard} {ok : Bool} {n : ℕ} (hcols : ∀ c ∈ cols, ∃ b, c = .column b)
    (h : FetchTold rest ok n) : FetchTold (.fetched :: cols ++ rest) ok (n + 1)

/-- `n` rows were appended, and the error and the value are as they were. -/
structure Pushed (n : ℕ) (r r' : MysqlResults) : Prop where
  rows : r'.resultSet.length = r.resultSet.length + n
  flags : r'.nullFlags.length = r.nullFlags.length + n
  errorNumber : r'.errorNumber = r.errorNumber
  hasValue : r'.hasValue = r.hasValue

namespace FetchTold

variable {new : List Heard} {ok : Bool} {n : ℕ}

/-- It ends at the end of the rows, or at a fetch that failed. -/
theorem last (h : FetchTold new ok n) : (.noData ∈ new ↔ ok = true) ∧ (.fetchFailed ∈ new ↔ ok = false) := by
  induction h with
  | noData => simp
  | failed => simp
  | @row cols rest ok n hcols _ ih =>
    have hcol : ∀ c ∈ cols, c ≠ .noData ∧ c ≠ .fetchFailed := by
      intro c hc
      obtain ⟨b, rfl⟩ := hcols c hc
      simp
    have hdata : .noData ∉ cols := fun h => (hcol _ h).1 rfl
    have hfail : .fetchFailed ∉ cols := fun h => (hcol _ h).2 rfl
    simpa [hdata, hfail] using ih

/-- Nothing else fails, but for a column that is fetched again after its row. -/
theorem failures (h : FetchTold new ok n) : ∀ c ∈ new, c.failed = true → c = .fetchFailed ∨ c = .column false := by
  induction h with
  | noData => simp [Heard.failed]
  | failed => simp
  | row hcols _ ih =>
    intro c hc hf
    rcases List.mem_append.1 hc with hc | hc
    · rcases List.mem_cons.1 hc with rfl | hc
      · cases hf
      · obtain ⟨b, rfl⟩ := hcols c hc
        cases b
        · exact .inr rfl
        · cases hf
    · exact ih c hc hf

theorem rows (h : FetchTold new ok n) : (.fetched ∈ new ↔ 0 < n) ∧ (.column false ∈ new → 0 < n) := by
  induction h with
  | noData => simp
  | failed => simp
  | row _ _ _ => simp

theorem inner (h : FetchTold new ok n) :
    ∀ c ∈ new, c = .noData ∨ c = .fetchFailed ∨ c = .fetched ∨ ∃ b, c = .column b := by
  induction h with
  | noData => simp
  | failed => simp
  | row hcols _ ih =>
    intro c hc
    rcases List.mem_append.1 hc with hc | hc
    · rcases List.mem_cons.1 hc with rfl | hc
      · exact .inr (.inr (.inl rfl))
      · exact .inr (.inr (.inr (hcols c hc)))
    · exact ih c hc

end FetchTold

section Rows

variable {R : List Heard → ClientOp → Prop} {s : ExecSt} {q : StmtPtr} {stmt : MysqlStatement}

namespace MysqlExecutor

theorem fetchTruncatedResults_told (hq : stmt.mysqlStmt = some q) (row : ServerRow) :
    ∀ (h : QueryHandle) (i : ℕ) {tr s}, Says R (fetchTruncatedResults stmt row i h)
      (fun tr' _ s' => (∃ cols, tr' = tr ++ cols ∧
      ∀ c ∈ cols, ∃ b, c = .column b) ∧ (s'.stmts q).rows = (s.stmts q).rows) tr s := by
  intro h
  induction h with
  | nil =>
    intro i tr s
    exact Prog.tells_pure ⟨⟨[], by simp, by simp⟩, rfl⟩
  | cons c h ih =>
    intro i tr s
    unfold fetchTruncatedResults
    have hrest : ∀ {tr s} (c : OutputColumn), Says R (do
        let x ← fetchTruncatedResults stmt row (i + 1) h
        return (x.1, c :: x.2)) (fun tr' _ s' => (∃ cols, tr' = tr ++ cols ∧ ∀ c ∈ cols, ∃ b, c = .column b) ∧
          (s'.stmts q).rows = (s.stmts q).rows) tr s := fun c =>
      Prog.tells_call (fun tr' x s' h => h) (ih (i + 1))
    split
    · rw [hq]
      refine says_op rfl fun a ok s' he => ?_
      simp only [clientExec] at he
      split at he
      · cases he
        refine Prog.Tells.mono ?_ (hrest _)
        rintro tr' x s'' ⟨⟨cols, rfl, hcols⟩, hr⟩
        exact ⟨⟨.column true :: cols, by simp [told], by simpa using hcols⟩, hr⟩
      · cases he
        refine Prog.tells_pure ⟨⟨_, rfl, by simp [told]⟩, ?_⟩
        simp [ExecSt.setStmt, Stmt.fail]
    · exact hrest c

theorem fetchRow_told (hq : stmt.mysqlStmt = some q) (handle : QueryHandle) (row : ServerRow) {tr : List Heard} :
    Says R (fetchRow stmt handle row) (fun tr' _ s' => (∃ cols, tr' = tr ++ cols ∧
      ∀ c ∈ cols, ∃ b, c = .column b) ∧ (s'.stmts q).rows = (s.stmts q).rows) tr s := by
  unfold fetchRow
  dsimp only
  split
  · exact Prog.tells_call (fun tr' x s' h => h) (fetchTruncatedResults_told hq row _ 0)
  · exact Prog.tells_pure ⟨⟨[], by simp, by simp⟩, rfl⟩

theorem fetchLoop_told (hq : stmt.mysqlStmt = some q) : ∀ (n : ℕ) (handle : QueryHandle) (r : MysqlResults) {tr s},
    (s.stmts q).rows.length = n → Says R (fetchLoop stmt n handle r) (fun tr' x s' => ∃ new k, tr' = tr ++ new ∧
      FetchTold new x.1 k ∧ Pushed k r x.2 ∧ (x.1 = false → (s'.stmts q).errno ≠ 0)) tr s := by
  intro n
  -- on the rows that are left: each is pushed, and the loop goes on with one fewer
  induction n with
  | zero =>
    intro handle r tr s hn
    unfold fetchLoop
    rw [hq]
    refine says_op rfl fun a f s' he => ?_
    simp only [clientExec, List.length_eq_zero_iff.1 hn] at he
    split at he
    · cases he
      exact Prog.tells_pure ⟨_, 0, rfl, .noData, ⟨rfl, rfl, rfl, rfl⟩, fun h => (by cases h)⟩
    · cases he
      exact Prog.tells_pure ⟨_, 0, rfl, .failed, ⟨rfl, rfl, rfl, rfl⟩, fun _ => failStmt_errno⟩
  | succ n ih =>
    intro handle r tr s hn
    obtain ⟨row, rows, hrows⟩ := List.exists_cons_of_length_eq_add_one hn
    unfold fetchLoop
    rw [hq]
    refine says_op rfl fun a f s' he => ?_
    simp only [clientExec, hrows] at he
    split at he
    · cases he
      rw [← hq]
      refine Prog.tells_call ?_ (fetchRow_told hq handle row)
      rintro tr₁ handle s₁ ⟨⟨cols, rfl, hcols⟩, hr⟩
      have hlen : (s₁.stmts q).rows.length = n := by
        rw [hr]
        simp only [ExecSt.setStmt, update_self]
        rw [hrows, List.length_cons] at hn
        omega
      refine Prog.Tells.mono ?_ (ih handle _ hlen)
      rintro tr₂ x s₂ ⟨new, k, rfl, hnew, hpush, herr⟩
      refine ⟨.fetched :: cols ++ new, k + 1, by simp [told], .row hcols hnew, ?_, herr⟩
      have h1 := hpush.rows
      have h2 := hpush.flags
      simp only [MysqlResults.pushRow, List.length_append, List.length_singleton] at h1 h2
      exact ⟨by omega, by omega, hpush.errorNumber, hpush.hasValue⟩
    · cases he
      exact Prog.tells_pure ⟨_, 0, rfl, .failed, ⟨rfl, rfl, rfl, rfl⟩, fun _ => failStmt_errno⟩

theorem fetchResults_told {p : MysqlPtr} (hq : stmt.mysqlStmt = some q) (hm : (s.stmts q).mysql = p)
    (handle : QueryHandle) (r : MysqlResults) {tr : List Heard} :
    Says R (fetchResults handle stmt r) (fun tr' x s' => (x.1 = false → (s'.stmts q).errno ≠ 0) ∧
      ((tr' = tr ++ [.done false] ∧ x = (false, r)) ∨ ∃ rows k, (s.mysqls p).session ≠ none ∧
        tr' = tr ++ .done true :: rows ∧ FetchTold rows x.1 k ∧ Pushed k r x.2)) tr s := by
  unfold fetchResults
  rw [hq]
  refine says_op rfl fun a n s' he => ?_
  simp only [clientExec, hm] at he
  split at he
  · rename_i σ _ hσ _
    cases he
    have hs : (s.mysqls p).session ≠ none := by rw [ExecSt.enter_session hσ]; simp
    refine Prog.Tells.mono ?_ (fetchLoop_told hq _ handle r ?_)
    · rintro tr' x s' ⟨new, k, rfl, hnew, hpush, herr⟩
      exact ⟨herr, .inr ⟨new, k, hs, by simp [told], hnew, hpush⟩⟩
    · simp [ExecSt.setStmt]
  · cases he
    exact Prog.tells_pure ⟨fun _ => failStmt_errno, .inl ⟨rfl, rfl⟩⟩

end MysqlExecutor

end Rows

/-! ## Whole statements -/

/-- There are `k` rows with their null flags, and no value yet. -/
structure Holds (k : ℕ) (r : MysqlResults) : Prop where
  rows : r.resultSet.length = k
  flags : r.nullFlags.length = k
  hasValue : r.hasValue = false

/-- `BindInputArgs` comes upon a null C string: the statement was prepared, and the columns of a query fit its
outputs. -/
def NullArgument (mode : MysqlResultsMode) (args : List InputArg) (tr : List Heard) : Prop :=
  bindInputImpl args = none ∧ .done false ∉ tr ∧ match mode with
    | .bindType outputs => ∀ fields, .columns (some fields) ∈ tr → checkFieldsOutputArgs outputs fields = ""
    | _ => True

/-- What `QueryAllInternal` in bind mode tells and returns; what is as `E` does not return. -/
inductive QueryTold (N : Prop) (E : List Heard → Prop) (r : MysqlResults) : List Heard → Bool × MysqlResults → Prop
  | noStatement {r' : MysqlResults} (hr : Holds 0 r') (hn : r'.errorNumber = 0) :
    QueryTold N E r [.opened none] (false, r')
  | failed {q : StmtPtr} {steps : List Heard} {r' : MysqlResults} (hsteps : ∀ c ∈ steps, c.step = true)
    (hfail : (∃ c ∈ steps, c.failed = true) ∨ .executed true ∉ steps) (hr : Holds 0 r') (hn : r'.errorNumber ≠ 0)
    (hE : ¬ E (.opened (some q) :: steps ++ [.freed true, .closed (some q)])) :
    QueryTold N E r (.opened (some q) :: steps ++ [.freed true, .closed (some q)]) (false, r')
  | fetched {q : StmtPtr} {steps rows last : List Heard} {ok : Bool} {k : ℕ} {r' : MysqlResults}
    (hsteps : ∀ c ∈ steps, c.step = true) (hok : N → ∀ c ∈ steps, c.failed = false) (hexec : .executed true ∈ steps)
    (hrows : FetchTold rows ok k) (hlast : ∀ c ∈ last, ok = true ∧ ∃ b, c = .columns b) (hr : Holds k r')
    (hn : if ok then r'.errorNumber = r.errorNumber else r'.errorNumber ≠ 0)
    (hE : ¬ E (.opened (some q) :: steps ++ rows ++ last ++ [.freed true, .closed (some q)])) :
    QueryTold N E r (.opened (some q) :: steps ++ rows ++ last ++ [.freed true, .closed (some q)]) (ok, r')

/-- What `ExecuteInternal` with arguments tells and returns; what is as `E` does not return. -/
inductive ExecuteTold (E : List Heard → Prop) (r : MysqlResults) : List Heard → ℕ × MysqlResults → Prop
  | noStatement {r' : MysqlResults} : ExecuteTold E r [.opened none] (0, r')
  | ended {q : StmtPtr} {steps : List Heard} {n : ℕ} {r' : MysqlResults} (hsteps : ∀ c ∈ steps, c.step = true)
    (hok : (∀ c ∈ steps, c.failed = false) → .executed true ∈ steps ∧ r'.errorNumber = r.errorNumber)
    (hE : ¬ E (.opened (some q) :: steps ++ [.freed true, .closed (some q)])) :
    ExecuteTold E r (.opened (some q) :: steps ++ [.freed true, .closed (some q)]) (n, r')

/-- What `QueryAllInternal` for `NativeString` tells and returns. -/
inductive NativeTold (r : MysqlResults) : List Heard → Bool × MysqlResults → Prop
  | unsent {r' : MysqlResults} {n : ℤ} (hn : r'.errorNumber = n) :
    NativeTold r [.formatted true, .executed false, .errno n] (false, r')
  | unstored {r' : MysqlResults} {n : ℤ} (hn : r'.errorNumber = n) :
    NativeTold r [.formatted true, .executed true, .stored false, .errno n] (false, r')
  | stored {r' : MysqlResults} (hn : r'.errorNumber = r.errorNumber) :
    NativeTold r [.formatted true, .executed true, .stored true] (true, r')

/-- What `ExecuteInternal` without arguments tells and returns. -/
inductive TextTold (r : MysqlResults) : List Heard → ℕ × MysqlResults → Prop
  | unsent {r' : MysqlResults} {number : ℤ} : TextTold r [.executed false, .errno number] (0, r')
  | sent {n : ℕ} : TextTold r [.executed true] (n, r)

/-- Where the process ends during a statement, with `mysql_` as `m`: the assertion of `~MysqlStatement` fails
exactly after a `mysql_stmt_free_result` that failed. -/
structure Refused (m : Option MysqlPtr) (mode : MysqlResultsMode) (args : List InputArg)
    (tr : List Heard) (o : ClientOp) :
    Prop where
  assertion : o = .crash .assertion ↔ .freed false ∈ tr
  why : m = none ∨ .columns none ∈ tr ∨ .freed false ∈ tr ∨ NullArgument mode args tr

/-- The process ends without a `MysqlStatement`: there is no MYSQL object, or `E` tells why. -/
structure TextRefused (m : Option MysqlPtr) (E : List Heard → Prop) (tr : List Heard) (o : ClientOp) : Prop where
  why : m = none ∨ E tr
  op : o ≠ .crash .assertion
  freed : .freed false ∉ tr

theorem refused_freed {m : Option MysqlPtr} {mode : MysqlResultsMode} {args : List InputArg} (tr : List Heard) :
    Refused m mode args (tr ++ [.freed false]) (.crash .assertion) :=
  ⟨by simp, .inr (.inr (.inl (by simp)))⟩

section Whole

variable {N : Prop} {β : Type} {R : List Heard → ClientOp → Prop} {s : ExecSt} {Q : List Heard → β → ExecSt → Prop}
  {r : MysqlResults}  {stmt : MysqlStatement} {p : MysqlPtr} {q : StmtPtr}

namespace MysqlExecutor

/-- `MysqlStatement(mysql_)` and `Init`. -/
theorem says_init {m : Option MysqlPtr} {f : Bool × MysqlStatement → XProg β} (hs : N → s.Numbered)
    (hm : s.this.mysql = m) (sql : Sql) (hR : m = none → R [] (.mysqlStmtInit m))
    (hnone : ∀ stmt s', stmt.mysqlStmt = none → Says R (f (false, stmt)) Q [.opened none] s')
    (hfailed : ∀ stmt q s', stmt.mysqlStmt = some q → (s'.stmts q).errno ≠ 0 →
      Says R (f (false, stmt)) Q [.opened (some q), .done false] s')
    (hready : ∀ stmt q p s', stmt.mysqlStmt = some q → Stands N p q s' →
      Says R (f (true, stmt)) Q [.opened (some q), .done true] s') :
    Says R (MysqlStatement.init { mysql := m } sql >>= f) Q [] s := by
  unfold MysqlStatement.init
  rw [Prog.bind_assoc]
  refine Prog.tells_op (fun a he => ?_) fun a st s₁ he => ?_
  · -- without a MYSQL object
    have hm : m = none := by
      by_contra h
      exact given_exec (o := .mysqlStmtInit m) (Option.isSome_iff_ne_none.2 h) a s he
    exact hR hm
  cases m with
  | none => cases he
  | some p =>
    simp only [clientExec] at he
    split at he
    · cases he
      dsimp only
      set q := (s.enter a p).nextStmt
      set s₁ : ExecSt := { (s.enter a p).setStmt q { mysql := p } with nextStmt := q + 1 } with hs₁
      have hp : (s₁.stmts q).mysql = p := by simp [hs₁, ExecSt.setStmt]
      simp only [Option.isNone_some, Bool.false_eq_true, if_false]
      rw [Prog.bind_assoc]
      refine says_op rfl fun b done s₂ he => ?_
      simp only [clientExec, hp, ExecSt.enter_stmts] at he
      split at he
      · rename_i σ hσ _
        cases he
        refine says_op rfl fun c n s₃ hc => says_op rfl fun d k s₄ hd => ?_
        cases hc
        cases hd
        refine hready _ q p _ rfl ⟨by simpa [hs₁, ExecSt.setStmt] using hm, by simp [ExecSt.setStmt],
          fun hN id hid => ?_⟩
        -- the statement is of the session that is there now
        simp only [ExecSt.setStmt, update_self, Option.some.injEq] at hid
        subst hid
        have h1 : (s₁.mysqls p).session = some σ := ExecSt.enter_session (ExecSt.ready_eq hσ).1
        have h2 := hs hN p σ (ExecSt.enter_session h1)
        simpa [hs₁, ExecSt.setStmt] using h2
      · cases he
        exact hfailed _ q _ rfl failStmt_errno
    · cases he
      exact hnone _ _ rfl

/-- `BindInputArgs` tells nothing. -/
theorem says_bindInputArgs {args : List InputArg} {f : Unit → XProg β} {tr : List Heard}
    (hR : bindInputImpl args = none → R tr (.crash .nullPointer))
    (hf : (∀ mode tr, ¬ NullArgument mode args tr) → Says R (f ()) Q tr s) :
    Says R (bindInputArgs args >>= f) Q tr s := by
  unfold bindInputArgs
  split
  · rename_i hsome
    exact hf fun mode tr hnull => by simp [hnull.1] at hsome
  · rename_i hnull
    exact fun a => ⟨fun _ => hR (Option.not_isSome_iff_eq_none.1 hnull), fun x => x.elim⟩

/-- `Clear` tells nothing. -/
theorem says_clearResults {f : MysqlResults → XProg β} {tr : List Heard} (hf : Says R (f r.cleared) Q tr s) :
    Says R (clearResults r >>= f) Q tr s := by
  refine says_op rfl fun a x s' he => ?_
  cases he
  simpa [told] using hf

end MysqlExecutor

open MysqlExecutor

theorem Holds.cleared (r : MysqlResults) : Holds 0 r.cleared := ⟨rfl, rfl, rfl⟩

theorem Holds.setError {k : ℕ} (h : Holds k r) (message : String) (number : ℤ) :
    Holds k (r.setError message number) := ⟨h.rows, h.flags, h.hasValue⟩

theorem Holds.pushed {k : ℕ} {r' : MysqlResults} (h : Holds 0 r) (hp : Pushed k r r') : Holds k r' :=
  ⟨by rw [hp.rows, h.rows, Nat.zero_add], by rw [hp.flags, h.flags, Nat.zero_add], hp.hasValue.trans h.hasValue⟩

theorem Holds.setFieldsName {k : ℕ} (h : Holds k r) (told : Option (List Field)) :
    Holds k (r.setFieldsName told) := by cases told <;> exact ⟨h.rows, h.flags, h.hasValue⟩

namespace MysqlExecutor

/-- `QueryAllInternal` in bind mode, after `steps` that succeeded and that did not execute the statement. -/
theorem queryBound_told {r₀ : MysqlResults} {E : List Heard → Prop} {steps : List Heard} (hE : ∀ tr, ¬ E tr)
    (hq : stmt.mysqlStmt = some q) (h : Stands N p q s)
    (hsteps : ∀ c ∈ steps, c.step = true ∧ c.failed = false) (hr : Holds 0 r) (hn : r.errorNumber = r₀.errorNumber)
    (handle : QueryHandle) {m : Option MysqlPtr} {mode : MysqlResultsMode} {args : List InputArg} :
    Says (Refused m mode args) (queryBound handle stmt r) (fun tr x _ => QueryTold N E r₀ tr x)
      (.opened (some q) :: steps) s := by
  have hstep : ∀ {new : List Heard}, (∀ c ∈ new, c.step = true) → ∀ c ∈ steps ++ new, c.step = true := by
    intro new hnew c hc
    rcases List.mem_append.1 hc with hc | hc
    · exact (hsteps c hc).1
    · exact hnew c hc
  have hfail : ∀ {new : List Heard}, (∃ c ∈ new, c.failed = true) → ∃ c ∈ steps ++ new, c.failed = true := by
    rintro new ⟨c, hc, hf⟩
    exact ⟨c, List.mem_append_right _ hc, hf⟩
  unfold queryBound
  refine Prog.tells_call ?_ (executeStatement_told true hq h)
  rintro tr₁ st s₁ ⟨new, rfl, hnew, hp, hst⟩
  dsimp only
  by_cases hok : st.ok = true
  · simp only [hok, Bool.not_true, Bool.false_eq_true, if_false]
    have hm : (s₁.stmts q).mysql = p := by
      cases hst with
      | sent _ _ hstmt _ => exact hstmt
      | failed _ hne => simp [Status.ok, hne] at hok
      | gaveUp _ hstmt _ _ => exact hstmt
    refine Prog.tells_call ?_ (fetchResults_told hq hm handle.bindResult r)
    rintro tr₂ ⟨fetched, r₂⟩ s₂ ⟨herr, ⟨rfl, hx⟩ | ⟨rows, k, hs, rfl, hrows, hpush⟩⟩
    · -- nothing was stored
      cases hx
      refine says_stmtFailure hq (refused_freed _) fun message s' => ?_
      have hnew' : ∀ c ∈ new ++ [Heard.done false], c.step = true := by simpa [or_imp, forall_and, Heard.step] using hnew
      have h : QueryTold N E r₀ (.opened (some q) :: (steps ++ (new ++ [.done false])) ++
          [.freed true, .closed (some q)]) _ :=
        .failed (hstep hnew') (.inl (hfail ⟨.done false, by simp, rfl⟩)) (hr.setError message _) (herr rfl) (hE _)
      simpa using h
    · -- the rows were stored, so the statement was executed
      have hsent : .executed true ∈ new ∧ (N → ∀ c ∈ new, c.failed = false) := by
        cases hst with
        | sent hexec hok _ _ => exact ⟨hexec, hok⟩
        | failed _ hne => simp [Status.ok, hne] at hok
        | gaveUp _ _ hnone _ => exact absurd hnone hs
      have hnew' : ∀ c ∈ new ++ [Heard.done true], c.step = true := by simpa [or_imp, forall_and, Heard.step] using hnew
      have hsteps' : N → ∀ c ∈ steps ++ (new ++ [Heard.done true]), c.failed = false := by
        intro hN c hc
        simp only [List.mem_append, List.mem_singleton] at hc
        rcases hc with hc | hc | rfl
        · exact (hsteps c hc).2
        · exact hsent.2 hN c hc
        · rfl
      have hexec : .executed true ∈ steps ++ (new ++ [Heard.done true]) := by simp [hsent.1]
      -- every row was fetched, or a `mysql_stmt_fetch` failed
      cases fetched
      · refine says_stmtFailure hq (refused_freed _) fun message s' => ?_
        have h : QueryTold N E r₀ (.opened (some q) :: (steps ++ (new ++ [.done true])) ++ rows ++ [] ++
            [.freed true, .closed (some q)]) _ :=
          .fetched (hstep hnew') hsteps' hexec hrows (by simp) ((hr.pushed hpush).setError message _) (herr rfl) (hE _)
        simpa using h
      · have hgiven : (ClientOp.mysqlStmtResultMetadata stmt.mysqlStmt).given = true := by rw [hq]; rfl
        refine says_op hgiven fun a fields s₃ _ => says_endStatement hq (refused_freed _) fun s' => Prog.tells_pure ?_
        have h : QueryTold N E r₀ (.opened (some q) :: (steps ++ (new ++ [.done true])) ++ rows ++
            [.columns fields] ++ [.freed true, .closed (some q)]) (true, r₂.setFieldsName fields) := by
          have hlast : ∀ c ∈ [Heard.columns fields], true = true ∧ ∃ b, c = .columns b := fun c hc =>
            ⟨rfl, _, List.mem_singleton.1 hc⟩
          refine .fetched (hstep hnew') hsteps' hexec hrows hlast ((hr.pushed hpush).setFieldsName fields) ?_ (hE _)
          have hnum : (r₂.setFieldsName fields).errorNumber = r₂.errorNumber := by cases fields <;> rfl
          exact hnum.trans (hpush.errorNumber.trans hn)
        simpa [told] using h
  · -- `ExecuteStatement` failed
    simp only [hok, Bool.not_false, if_true]
    refine says_endStatement hq (refused_freed _) fun s' => Prog.tells_pure ?_
    have hbad : (∃ c ∈ new, c.failed = true) ∧ st.frameworkRetCode ≠ 0 := by
      cases hst with
      | sent _ _ _ hst => simp [hst] at hok
      | failed hfail hne => exact ⟨hfail, hne⟩
      | gaveUp hfail _ _ hfunc => exact ⟨hfail, fun h0 => hok (by simp [Status.ok, h0, hfunc])⟩
    have h : QueryTold N E r₀ (.opened (some q) :: (steps ++ new) ++ [.freed true, .closed (some q)])
        (false, r.setError st.errorMessage st.frameworkRetCode) :=
      .failed (hstep hnew) (.inl (hfail hbad.1)) (hr.setError _ _) hbad.2 (hE _)
    simpa using h

theorem queryAllBind_told (outputs : List OutputArg) (sql : Sql) (args : List InputArg) :
    Says (Refused s.this.mysql (.bindType outputs) args) (queryAllBind outputs r sql args)
      (fun tr x _ => QueryTold s.Numbered (NullArgument (.bindType outputs) args) r tr x) [] s := by
  refine says_clearResults (says_getThis (says_init id rfl sql (fun hm => ⟨by simp, .inl hm⟩) ?_ ?_ ?_))
  · intro stmt s' hq
    exact says_noStatement hq (.noStatement ((Holds.cleared r).setError "" 0) rfl)
  · intro stmt q s' hq herr
    refine says_stmtFailure hq (refused_freed _) fun message s'' => ?_
    exact .failed (show ∀ c ∈ [Heard.done false], c.step = true by simp [Heard.step]) (.inl ⟨.done false, by simp, rfl⟩)
      ((Holds.cleared r).setError message _) herr (by simp [NullArgument])
  · intro stmt q p s' hq h
    have hgiven : (ClientOp.mysqlStmtResultMetadata stmt.mysqlStmt).given = true := by rw [hq]; rfl
    refine says_op hgiven fun a fields s₁ he => ?_
    rw [hq] at he
    cases he
    cases hcol : (s'.stmts q).columns with
    | none =>
      -- `mysql_num_fields` of null metadata
      intro b
      exact ⟨fun _ => ⟨by simp [told], .inr (.inl (by simp [told]))⟩, fun x => x.elim⟩
    | some fields =>
      dsimp only
      split
      · refine says_endStatement hq (refused_freed _) fun s'' => Prog.tells_pure ?_
        rename_i hmisfit
        exact .failed (show ∀ c ∈ [Heard.done true, .columns (some fields)], c.step = true by simp [Heard.step])
          (.inr (by simp [told]))
          ((Holds.cleared r).setError _ _) (show TRPC_MYSQL_STMT_PARAMS_ERROR ≠ 0 by decide)
          fun hnull => hmisfit (hnull.2.2 fields (by simp [told]))
      · rename_i hfit
        have hbind : (ClientOp.mysqlStmtBindParam stmt.mysqlStmt args).given = true := by rw [hq]; rfl
        refine says_bindInputArgs (fun hnull => ⟨by simp [told], .inr (.inr (.inr ⟨hnull, by simp [told], ?_⟩))⟩)
          fun hE => says_op hbind fun a bound s₂ he => ?_
        · have hfit : checkFieldsOutputArgs outputs fields = "" := by simpa using hfit
          simpa [told] using hfit
        rw [hq] at he
        simp only [clientExec] at he
        split at he
        · cases he
          refine says_op hgiven fun a fields' s₃ he => ?_
          rw [hq] at he
          cases he
          rw [hcol]
          have hsteps : ∀ c ∈ [Heard.done true, .columns (some fields), .done true, .columns (some fields)],
              c.step = true ∧ c.failed = false := by
            simp [Heard.step, Heard.failed]
          have hnumber : r.cleared.errorNumber = r.errorNumber := rfl
          exact queryBound_told (hE _) hq h hsteps (Holds.cleared r) hnumber _
        · cases he
          refine says_stmtFailure hq (refused_freed _) fun message s'' => ?_
          exact .failed (show ∀ c ∈ [Heard.done true, .columns (some fields), .done false],
            c.step = true by simp [Heard.step])
            (.inl ⟨.done false, by simp [told], rfl⟩) ((Holds.cleared r).setError message _) failStmt_errno (hE _ _)

theorem executePrepared_told (sql : Sql) (args : List InputArg) :
    Says (Refused s.this.mysql .onlyExec args) (executePrepared r sql args)
      (fun tr x _ => ExecuteTold (NullArgument .onlyExec args) r tr x) [] s := by
  refine says_clearResults (says_getThis (says_init id rfl sql (fun hm => ⟨by simp, .inl hm⟩) ?_ ?_ ?_))
  · intro stmt s' hq
    exact says_noStatement hq .noStatement
  · intro stmt q s' hq herr
    refine says_stmtFailure hq (refused_freed _) fun message s'' => ?_
    exact .ended (show ∀ c ∈ [Heard.done false], c.step = true by simp [Heard.step]) (by simp [Heard.failed])
      (by simp [NullArgument])
  · intro stmt q p s' hq h
    have hbind : (ClientOp.mysqlStmtBindParam stmt.mysqlStmt args).given = true := by rw [hq]; rfl
    refine says_bindInputArgs (fun hnull => ⟨by simp, .inr (.inr (.inr ⟨hnull, by simp, trivial⟩))⟩)
      fun hE => says_op hbind fun a bound s₂ he => ?_
    rw [hq] at he
    simp only [clientExec] at he
    split at he
    · cases he
      refine Prog.tells_call ?_ (executeStatement_told false hq h)
      rintro tr₁ st s₁ ⟨new, rfl, hnew, hp, hst⟩
      have hsteps : ∀ c ∈ [Heard.done true, .done true] ++ new, c.step = true := by
        simpa [or_imp, forall_and, Heard.step] using hnew
      dsimp only
      -- no failure: the statement was executed, and the status is the default
      have hsent : (∀ c ∈ [Heard.done true, .done true] ++ new, c.failed = false) →
          .executed true ∈ [Heard.done true, .done true] ++ new ∧ st = {} := by
        intro hall
        have hnot : ¬ ∃ c ∈ new, c.failed = true := by
          rintro ⟨c, hc, hf⟩
          rw [hall c (List.mem_append_right _ hc)] at hf
          cases hf
        cases hst with
        | sent hexec _ _ hst => exact ⟨List.mem_append_right _ hexec, hst⟩
        | failed hfail _ => exact absurd hfail hnot
        | gaveUp hfail _ _ _ => exact absurd hfail hnot
      by_cases hok : st.ok = true
      · simp only [hok, Bool.not_true, Bool.false_eq_true, if_false]
        refine says_getThis ?_
        rw [hp]
        refine says_op rfl fun a n s₂ _ => says_endStatement hq (refused_freed _) fun s'' => Prog.tells_pure ?_
        have h : ExecuteTold (NullArgument .onlyExec args) r (.opened (some q) :: ([.done true, .done true] ++ new) ++
            [.freed true, .closed (some q)]) (n, r.cleared) := .ended hsteps (fun hall => ⟨(hsent hall).1, rfl⟩) (hE _ _)
        simpa [told] using h
      · simp only [hok, Bool.not_false, if_true]
        refine says_endStatement hq (refused_freed _) fun s'' => Prog.tells_pure ?_
        have h : ExecuteTold (NullArgument .onlyExec args) r (.opened (some q) :: ([.done true, .done true] ++ new) ++
            [.freed true, .closed (some q)]) (0, r.cleared.setError st.errorMessage st.frameworkRetCode) :=
          .ended hsteps (fun hall => absurd (by rw [(hsent hall).2]; rfl) hok) (hE _ _)
        simpa [told] using h
    · cases he
      refine says_stmtFailure hq (refused_freed _) fun message s'' => ?_
      exact .ended (show ∀ c ∈ [Heard.done true, .done false], c.step = true by simp [Heard.step])
        (by simp [told, Heard.failed]) (hE _ _)

theorem says_setMysqlError {f : MysqlResults → XProg β} {tr : List Heard} (hp : s.this.mysql = some p)
    (hf : ∀ message n s', Says R (f (r.setError message n)) Q (tr ++ [.errno n]) s') :
    Says R (setMysqlError r >>= f) Q tr s := by
  refine says_getThis ?_
  rw [hp]
  refine says_op rfl fun a message s₁ he => says_getThis ?_
  cases he
  rw [ExecSt.enter_this, hp]
  refine says_op rfl fun b n s₂ he => ?_
  simpa [told] using hf _ n s₂

/-- The text of a statement is sent. -/
theorem says_realQuery {f : Bool → XProg β} {E : List Heard → Prop} {tr : List Heard} (htr : .freed false ∉ tr)
    (hf : ∀ p done s', s'.this.mysql = some p →
      Says (TextRefused s.this.mysql E) (f done) Q (tr ++ [.executed done]) s') :
    Says (TextRefused s.this.mysql E) (do f (← mysqlRealQuery (← getThis).mysql sql)) Q tr s := by
  refine says_getThis (Prog.tells_op (fun a he => ?_) fun a done s₁ he => ?_)
  · have hm : s.this.mysql = none := by
      by_contra h
      exact given_exec (o := .mysqlRealQuery s.this.mysql sql) (Option.isSome_iff_ne_none.2 h) a s he
    exact ⟨.inl hm, by simp, htr⟩
  · obtain ⟨p, hp, ⟨rfl, σ, -, rfl⟩ | ⟨rfl, rfl⟩⟩ := realQuery_exec he
    · exact hf p true _ (by simpa using hp)
    · exact hf p false _ (by simpa [ExecSt.failMysql, ExecSt.note] using hp)

/-- The text of a statement is formatted. -/
theorem says_formatQuery {f : Sql → XProg β} {args : List InputArg}
    (hR : R [.formatted false] (.crash .exception)) (hf : ∀ sent, Says R (f sent) Q [.formatted true] s) :
    Says R (formatQuery sql args >>= f) Q [] s := by
  unfold formatQuery
  rw [Prog.bind_assoc]
  refine says_op rfl fun a sent s' he => ?_
  obtain rfl : s = s' := congrArg Prod.snd (Option.some.inj he)
  cases sent with
  | none => exact fun a => ⟨fun _ => hR, fun x => x.elim⟩
  | some sent => exact hf sent.1

theorem executeText_told : Says (TextRefused s.this.mysql fun _ => False) (executeText r sql)
    (fun tr x _ => TextTold r tr x) [] s := by
  refine says_realQuery (by simp) fun p done s' hp => ?_
  cases done
  · exact says_setMysqlError hp fun message n s'' => Prog.tells_pure .unsent
  · refine says_getThis ?_
    rw [hp]
    exact says_op rfl fun a n s'' _ => Prog.tells_pure .sent

theorem queryAllNative_told (args : List InputArg) :
    Says (TextRefused s.this.mysql (.formatted false ∈ ·)) (queryAllNative r sql args)
      (fun tr x _ => NativeTold r tr x) [] s := by
  refine says_clearResults (says_formatQuery ⟨.inr (by simp), by simp, by simp⟩ fun sent => ?_)
  refine says_realQuery (by simp) fun p done s' hp => ?_
  cases done
  · exact says_setMysqlError hp fun message n s'' => Prog.tells_pure (.unsent rfl)
  refine says_getThis ?_
  rw [hp]
  refine says_op rfl fun a res s₁ he => ?_
  cases res with
  | none =>
    have hp₁ : s₁.this.mysql = some p := by rw [(fades_exec rfl he).this, hp]
    exact says_setMysqlError hp₁ fun message n s'' => Prog.tells_pure (.unstored rfl)
  | some res =>
    refine Prog.tells_pure ?_
    rw [MysqlResults.foldl_pushRow]
    exact .stored rfl

end MysqlExecutor

/-- What `Execute` or `QueryAll` tells and returns. -/
inductive ReturnTold (N : Prop) (r : MysqlResults) (args : List InputArg) : List Heard → Bool × MysqlResults → Prop
  | query {outputs : List OutputArg} {tr : List Heard} {ok : Bool} {r' : MysqlResults} (hm : r.mode = .bindType outputs)
    (h : QueryTold N (NullArgument (.bindType outputs) args) r tr (ok, r')) :
    ReturnTold N r args tr (ok, if ok then { r' with hasValue := true } else r')
  | native {tr : List Heard} {ok : Bool} {r' : MysqlResults} (hm : r.mode = .nativeString)
    (h : NativeTold r tr (ok, r')) : ReturnTold N r args tr (ok, if ok then { r' with hasValue := true } else r')
  | text {tr : List Heard} {n : ℕ} {r' : MysqlResults} (hm : r.mode = .onlyExec) (ha : args = [])
    (h : TextTold r tr (n, r')) :
    ReturnTold N r args tr (true, { r' with affectedRows := n })
  | prepared {tr : List Heard} {n : ℕ} {r' : MysqlResults} (hm : r.mode = .onlyExec)
    (h : ExecuteTold (NullArgument .onlyExec args) r tr (n, r')) :
    ReturnTold N r args tr (true, { r' with affectedRows := n })

/-- Where the process ends in a statement of the mode. -/
structure Stopped (m : Option MysqlPtr) (mode : MysqlResultsMode) (args : List InputArg)
    (tr : List Heard) (o : ClientOp) :
    Prop where
  assertion : o = .crash .assertion ↔ .freed false ∈ tr
  why : m = none ∨ match mode with
    | .nativeString => .formatted false ∈ tr
    | _ => .columns none ∈ tr ∨ .freed false ∈ tr ∨ NullArgument mode args tr

theorem Refused.stopped {m : Option MysqlPtr} {mode : MysqlResultsMode} {args : List InputArg}
    {tr : List Heard} {o : ClientOp}
    (hm : mode ≠ .nativeString) (h : Refused m mode args tr o) : Stopped m mode args tr o := by
  refine ⟨h.assertion, ?_⟩
  cases mode <;> first | exact h.why | exact absurd rfl hm

namespace MysqlExecutor

variable (r : MysqlResults) (sql : Sql) (args : List InputArg)

theorem runStatement_told (s : ExecSt) : Says (Stopped s.this.mysql r.mode args) (runStatement r sql args)
    (fun tr x _ => ReturnTold s.Numbered r args tr x) [] s := by
  unfold runStatement queryAll execute
  cases hm : r.mode with
  | bindType outputs =>
    have h : Says (Stopped s.this.mysql (.bindType outputs) args) (queryAllBind outputs r sql args)
        (fun tr x _ => QueryTold s.Numbered (NullArgument (.bindType outputs) args) r tr x) [] s :=
      (queryAllBind_told outputs sql args).weaken fun tr o h => h.stopped (by simp)
    refine Prog.tells_call ?_ h
    rintro tr ⟨ok, r'⟩ s' hx
    cases ok
    · exact Prog.tells_pure (.query hm hx)
    · exact Prog.tells_pure (.query hm hx)
  | nativeString =>
    have h : Says (Stopped s.this.mysql .nativeString args) (queryAllNative r sql args)
      (fun tr x _ => NativeTold r tr x) [] s :=
      (queryAllNative_told args).weaken fun tr o h => ⟨by simp [h.op, h.freed], h.why⟩
    refine Prog.tells_call ?_ h
    rintro tr ⟨ok, r'⟩ s' hx
    cases ok
    · exact Prog.tells_pure (.native hm hx)
    · exact Prog.tells_pure (.native hm hx)
  | onlyExec =>
    dsimp only
    split
    · rename_i hargs
      have h : Says (Stopped s.this.mysql .onlyExec args) (executeText r sql) (fun tr x _ => TextTold r tr x) [] s :=
        executeText_told.weaken fun tr o h => ⟨by simp [h.op, h.freed], .inl (h.why.resolve_right id)⟩
      refine Prog.tells_call ?_ h
      rintro tr ⟨n, r'⟩ s' hx
      exact Prog.tells_pure (.text hm (List.isEmpty_iff.1 hargs) hx)
    · have h : Says (Stopped s.this.mysql .onlyExec args) (executePrepared r sql args)
          (fun tr x _ => ExecuteTold (NullArgument .onlyExec args) r tr x) [] s :=
        (executePrepared_told sql args).weaken fun tr o h => h.stopped (by simp)
      refine Prog.tells_call ?_ h
      rintro tr ⟨n, r'⟩ s' hx
      exact Prog.tells_pure (.prepared hm hx)

end MysqlExecutor

end Whole

end TrpcMysql
