import TrpcMysql.Executor.Statements

/-!
# Failed calls

What a statement leaves when a call of libmysqlclient fails in it.

* `statement_closed_iff`: the statement is closed exactly once, and the assertion of its destructor holds, if and
  only if no `mysql_stmt_free_result` fails: after one that fails `CloseStatement` returns without closing it.
* `query_all_or_nothing_iff`: a result in bind mode comes as a whole or not at all if and only if no
  `mysql_stmt_fetch_column` fails (`FetchResults` does not ask `FetchTruncatedResults`), and no `mysql_stmt_fetch`
  after the first row (the rows before it stay in the results).
* `failures_reported_iff`: when `Execute` and `QueryAll` report what failed.
-/

namespace TrpcMysql

open Conc

/-- An executor after its constructor and `Connect`. -/
def freshlyConnected : ExecSt :=
  { this := { isConnected := true, mysql := some 0 }
    mysqls := fun p => if p = 0 then { session := some { id := 0 } } else {}
    nextMysql := 1
    sessions := 1 }

/-- The answers to the calls of a statement whose result has two rows; the call at `i` fails. -/
def failingAt (i : Option ℕ) : List ClientAnswer :=
  let fields := [{ name := "name", type := .string }]
  let answer : ClientAnswer := { columns := some fields, rows := some ⟨fields, [[some [65, 66]], [some [67]]]⟩ }
  let answers := List.replicate 22 answer
  match i with
  | none => answers
  | some i => answers.set i { answer with ok := false }

/-- The results of a query for one string, with a buffer of one byte. -/
def oneString : MysqlResults := { mode := .bindType [.string], option := { dynamicBufferInitSize := 1 } }

section Failures

variable (r : MysqlResults) (sql : Sql) (args : List InputArg) (s : ExecSt) (as : List ClientAnswer)

/-- What the calls of a statement tell. -/
def transcript : List Heard := (MysqlExecutor.runStatement r sql args).seen clientExec told s as

/-- How a statement ends. -/
def statementEnd : Option (Ending ClientOp (Bool × MysqlResults) ExecSt) :=
  (MysqlExecutor.runStatement r sql args).ending clientExec s as

/-- The end of a statement on a fresh connection, when the call at `i` fails. -/
abbrev endFailing (i : Option ℕ) : Option (Ending ClientOp (Bool × MysqlResults) ExecSt) :=
  statementEnd r (.user []) args freshlyConnected (failingAt i)

/-- What its calls tell. -/
abbrev toldFailing (i : Option ℕ) : List Heard := transcript r (.user []) args freshlyConnected (failingAt i)

variable {r sql args s as}
variable {e : Ending ClientOp (Bool × MysqlResults) ExecSt} {x : Bool × MysqlResults}

theorem returnTold_of_result (he : statementEnd r sql args s as = some e) (hx : e.result = some x) :
    ReturnTold s.Numbered r args (transcript r sql args s as) x := by
  have h := (MysqlExecutor.runStatement_told r sql args s).ending he
  cases e with
  | returned a s' =>
    cases hx
    exact h
  | refused o => cases hx

theorem stopped_of_stop {o : ClientOp} (he : statementEnd r sql args s as = some e) (ho : e.stop = some o) :
    Stopped s.this.mysql r.mode args (transcript r sql args s as) o := by
  have h := (MysqlExecutor.runStatement_told r sql args s).ending he
  cases e with
  | returned a s' => cases ho
  | refused o' =>
    cases ho
    exact h

/-! ## The end of the statement -/

namespace Heard

/-- The call opens or closes a statement. -/
def lifecycle : Heard → Bool
  | opened q => q.isSome
  | closed _ => true
  | _ => false

/-- A call between `mysql_stmt_init` and `CloseStatement`. -/
def inner : Heard → Bool
  | opened _ | freed _ | closed _ => false
  | _ => true

theorem inner_of_step {c : Heard} (h : c.step = true) : c.inner = true := by cases c <;> first | rfl | cases h

theorem lifecycle_of_inner {c : Heard} (h : c.inner = true) : c.lifecycle = false := by
  cases c <;> simp_all [inner, lifecycle]

end Heard

/-- The statement, if there was one, was closed exactly once. -/
def ClosedOnce (tr : List Heard) : Prop :=
  tr.filter Heard.lifecycle = [] ∨ ∃ q, tr.filter Heard.lifecycle = [.opened (some q), .closed (some q)]

/-- At the end of the execution the statement is closed, and no assertion ended it. -/
structure ClosedAtEnd (e : Ending ClientOp (Bool × MysqlResults) ExecSt) (tr : List Heard) : Prop where
  assertion : e.stop ≠ some (.crash .assertion)
  closed : e.result.isSome = true → ClosedOnce tr

/-- The calls of a statement that returns: those of one MYSQL_STMT are between its opening and its closing. -/
theorem ReturnTold.shape {N : Prop} {tr : List Heard} (h : ReturnTold N r args tr x) :
    (tr = [.opened none] ∨ ∀ c ∈ tr, c.inner = true) ∨
      ∃ q inner, (∀ c ∈ inner, c.inner = true) ∧ tr = .opened (some q) :: inner ++ [.freed true, .closed (some q)] := by
  have hsteps : ∀ {l : List Heard}, (∀ c ∈ l, c.step = true) → ∀ c ∈ l, c.inner = true := fun h c hc =>
    Heard.inner_of_step (h c hc)
  cases h with
  | query _ h =>
    cases h with
    | noStatement => exact .inl (.inl rfl)
    | failed hsub => exact .inr ⟨_, _, hsteps hsub, rfl⟩
    | @fetched q steps rows last ok k r' hsub hok hexec hrows hlast hr hn _ =>
      refine .inr ⟨q, steps ++ rows ++ last, fun c hc => ?_, by simp⟩
      simp only [List.mem_append] at hc
      rcases hc with (hc | hc) | hc
      · exact hsteps hsub c hc
      · rcases hrows.inner c hc with rfl | rfl | rfl | ⟨b, rfl⟩ <;> rfl
      · obtain ⟨-, b, rfl⟩ := hlast c hc
        rfl
  | native _ h => cases h <;> exact .inl (.inr (by simp [Heard.inner]))
  | text _ _ h => cases h <;> exact .inl (.inr (by simp [Heard.inner]))
  | prepared _ h =>
    cases h with
    | noStatement => exact .inl (.inl rfl)
    | ended hsub => exact .inr ⟨_, _, hsteps hsub, rfl⟩

/-- What returns has closed its statement, and nothing failed in that. -/
theorem ReturnTold.closedOnce {N : Prop} {tr : List Heard} (h : ReturnTold N r args tr x) :
    ClosedOnce tr ∧ .freed false ∉ tr := by
  have hinner : ∀ {l : List Heard}, (∀ c ∈ l, c.inner = true) → l.filter Heard.lifecycle = [] ∧ .freed false ∉ l := by
    intro l hl
    refine ⟨List.filter_eq_nil_iff.2 fun c hc => ?_, fun hc => ?_⟩
    · simp [Heard.lifecycle_of_inner (hl c hc)]
    · cases hl _ hc
  rcases h.shape with (rfl | hl) | ⟨q, inner, hl, rfl⟩
  · exact ⟨.inl rfl, by simp⟩
  · exact ⟨.inl (hinner hl).1, (hinner hl).2⟩
  · refine ⟨.inr ⟨q, ?_⟩, by simpa using (hinner hl).2⟩
    simp [(hinner hl).1, Heard.lifecycle, List.filter_cons]

/-- **The statement is closed exactly once, and its destructor's assertion holds, if and only if no
`mysql_stmt_free_result` fails.** -/
theorem statement_closed_iff (he : statementEnd r sql args s as = some e) :
    ClosedAtEnd e (transcript r sql args s as) ↔ .freed false ∉ transcript r sql args s as := by
  cases e with
  | returned a s' =>
    obtain ⟨hclosed, hfreed⟩ := (returnTold_of_result he rfl).closedOnce
    exact ⟨fun _ => hfreed, fun _ => ⟨by simp [Ending.stop], fun _ => hclosed⟩⟩
  | refused o =>
    have hstop := (stopped_of_stop he rfl).assertion
    constructor
    · intro h hfreed
      exact h.assertion (congrArg some (hstop.2 hfreed))
    · intro hfreed
      refine ⟨fun h => ?_, fun h => by cases h⟩
      exact hfreed (hstop.1 (Option.some.inj h))

/-- `Execute` with an argument, and every call succeeds. -/
theorem statement_closed_executed :
    ∃ e, endFailing { mode := .onlyExec } [.string []] none = some e ∧
      (ClosedAtEnd e (toldFailing { mode := .onlyExec } [.string []] none) ↔
        .freed false ∉ toldFailing { mode := .onlyExec } [.string []] none) :=
  have he := (Option.some_get (x := endFailing { mode := .onlyExec } [.string []] none) (by decide +kernel)).symm
  ⟨_, he, statement_closed_iff he⟩

/-- `mysql_stmt_free_result` fails, and the destructor's assertion ends the process. -/
theorem statement_left_open : ¬ ∀ (r : MysqlResults) (sql : Sql) (args : List InputArg) (s : ExecSt)
    (as : List ClientAnswer) (e : Ending ClientOp (Bool × MysqlResults) ExecSt),
    ((∃ outputs, r.mode = .bindType outputs) ∨ r.mode = .onlyExec ∧ args ≠ []) →
      statementEnd r sql args s as = some e → ClosedAtEnd e (transcript r sql args s as) := by
  intro h
  have he := (Option.some_get (x := endFailing { mode := .onlyExec } [.string []] (some 12)) (by decide +kernel)).symm
  have hclosed := h _ _ _ _ _ _ (.inr ⟨rfl, by simp⟩) he
  have hstop := (Option.some_get (x := ((endFailing { mode := .onlyExec } [.string []] (some 12)).get
    (by decide +kernel)).stop) (by decide +kernel)).symm
  refine hclosed.assertion (hstop.trans (congrArg some ?_))
  exact (stopped_of_stop he hstop).assertion.2 (by decide +kernel)

/-! ## The rows -/

/-- A result in bind mode comes as a whole or not at all. -/
structure AllOrNothing (tr : List Heard) (ok : Bool) (r : MysqlResults) : Prop where
  failed : .fetchFailed ∈ tr ∨ .column false ∈ tr →
    ok = false ∧ r.errorNumber ≠ 0 ∧ r.getResultSet.1 = none ∧ r.resultSet = [] ∧ r.nullFlags = []
  done : ok = true → .noData ∈ tr ∧ r.resultSet.length = tr.count .fetched ∧ .fetchFailed ∉ tr ∧ .column false ∉ tr

/-- A call of the loop of `FetchResults`. -/
def Heard.ofRows : Heard → Bool
  | fetched | noData | fetchFailed | column _ => true
  | _ => false

theorem Heard.ofRows_of_step {c : Heard} (h : c.step = true) : c.ofRows = false := by
  cases c <;> simp_all [step, ofRows]

theorem FetchTold.count {rows : List Heard} {ok : Bool} {k : ℕ} (h : FetchTold rows ok k) : rows.count .fetched = k := by
  induction h with
  | noData => rfl
  | failed => rfl
  | @row cols rest ok n hcols _ ih =>
    have hzero : cols.count .fetched = 0 := by
      refine List.count_eq_zero.2 fun hc => ?_
      obtain ⟨b, hb⟩ := hcols _ hc
      cases hb
    simp [hzero, ih]

theorem FetchTold.not_mem {rows : List Heard} {ok : Bool} {k : ℕ} (h : FetchTold rows ok k) {c : Heard}
    (hc : c.ofRows = false) : c ∉ rows := by
  intro hmem
  rcases h.inner c hmem with rfl | rfl | rfl | ⟨b, rfl⟩ <;> cases hc

/-- The calls of the loop, among all of a query. -/
theorem QueryTold.rows_part {N : Prop} {E : List Heard → Prop} {tr : List Heard} {ok : Bool} {r' : MysqlResults}
    (h : QueryTold N E r tr (ok, r')) : (tr.filter Heard.ofRows = [] ∧ ok = false) ∨
      ∃ k, FetchTold (tr.filter Heard.ofRows) ok k ∧ Holds k r' ∧ (ok = false → r'.errorNumber ≠ 0) := by
  have hsteps : ∀ {l : List Heard}, (∀ c ∈ l, c.step = true) → l.filter Heard.ofRows = [] := by
    intro l hl
    exact List.filter_eq_nil_iff.2 fun c hc => by simp [Heard.ofRows_of_step (hl c hc)]
  cases h with
  | noStatement => exact .inl ⟨rfl, rfl⟩
  | failed hsub => exact .inl ⟨by simp [Heard.ofRows, hsteps hsub], rfl⟩
  | @fetched q steps rows last ok k r' hsub _ _ hrows hlast hr hn _ =>
    have hkeep : rows.filter Heard.ofRows = rows := by
      refine List.filter_eq_self.2 fun c hc => ?_
      rcases hrows.inner c hc with rfl | rfl | rfl | ⟨b, rfl⟩ <;> rfl
    have hdrop : last.filter Heard.ofRows = [] := by
      refine List.filter_eq_nil_iff.2 fun c hc => ?_
      obtain ⟨-, b, rfl⟩ := hlast c hc
      simp [Heard.ofRows]
    refine .inr ⟨k, ?_, hr, fun hok => by simpa [hok] using hn⟩
    simpa [List.filter_cons, Heard.ofRows, hsteps hsub, hkeep, hdrop] using hrows

/-- `mysql_stmt_fetch` fails for the second string, and the first one stays in the results. -/
example : ∃ e x, endFailing oneString [] (some 16) = some e ∧
    e.result = some x ∧ x.1 = false ∧ x.2.resultSet ≠ [] :=
  have he := (Option.some_get (x := endFailing oneString [] (some 16)) (by decide +kernel)).symm
  have hx := (Option.some_get (x := ((endFailing oneString [] (some 16)).get (by decide +kernel)).result)
    (by decide +kernel)).symm
  ⟨_, _, he, hx, by decide +kernel, by decide +kernel⟩

/-! ## What is reported -/

/-- The statement was executed and its results were delivered, and no call failed. -/
def Delivered (mode : MysqlResultsMode) (tr : List Heard) : Prop :=
  .executed true ∈ tr ∧ (match mode with
    | .bindType _ => .noData ∈ tr
    | .nativeString => .stored true ∈ tr
    | .onlyExec => True) ∧ ∀ c ∈ tr, c.failed = false

/-- What is returned agrees with `OK()`, and `OK()` with what happened. -/
def Agrees (mode : MysqlResultsMode) (tr : List Heard) (x : Bool × MysqlResults) : Prop :=
  (x.1 = true ↔ x.2.ok = true) ∧ (x.2.ok = true ↔ Delivered mode tr)

/-- The statement returns, and reports what happened. -/
def Reported (mode : MysqlResultsMode) (e : Ending ClientOp (Bool × MysqlResults) ExecSt) (tr : List Heard) : Prop :=
  ∃ x, e.result = some x ∧ Agrees mode tr x

/-- `Execute` reports no failure at all, with `true` for each. `QueryAll` for `NativeString` reports every one that
`mysql_errno` has a number for. `QueryAll` in bind mode reports none of `mysql_stmt_init` (which leaves no statement
to ask for the number) and of `mysql_stmt_fetch_column`. A statement without a result set or one that cannot be
closed ends the process, and so does a null C string that `BindInputArgs` comes upon, and a text that `FormatQuery`
throws for. -/
def Reportable (m : Option MysqlPtr) (mode : MysqlResultsMode) (args : List InputArg) (tr : List Heard) : Prop :=
  m ≠ none ∧ match mode with
    | .onlyExec => ¬ NullArgument mode args tr ∧ ∀ c ∈ tr, c.failed = false
    | .nativeString => .formatted false ∉ tr ∧ .errno 0 ∉ tr
    | .bindType _ => ¬ NullArgument mode args tr ∧ .opened none ∉ tr ∧ .columns none ∉ tr ∧ .freed false ∉ tr ∧
        (.column false ∈ tr → .fetchFailed ∈ tr)

/-- Without a MYSQL object no statement returns. -/
theorem mysql_of_result (he : statementEnd r sql args s as = some e) (hx : e.result.isSome = true) :
    s.this.mysql ≠ none := by
  intro hm
  have hinit : ∀ {β : Type} {f : Bool × MysqlStatement → XProg β} {tr : List Heard},
      Says (fun _ _ => True) (MysqlStatement.init { mysql := s.this.mysql } sql >>= f) (fun _ _ _ => False) tr s := by
    intro β f tr
    rw [hm]
    unfold MysqlStatement.init
    rw [Prog.bind_assoc]
    exact Prog.tells_op (fun _ _ => trivial) fun a st s' he => by cases he
  have hquery : ∀ {β : Type} {f : Bool → XProg β} {sql : Sql} {tr : List Heard},
      Says (fun _ _ => True) (do f (← mysqlRealQuery (← getThis).mysql sql)) (fun _ _ _ => False) tr s := by
    intro β f sql tr
    refine says_getThis ?_
    rw [hm]
    exact Prog.tells_op (fun _ _ => trivial) fun a done s' he => by cases he
  have hall : Says (fun _ _ => True) (MysqlExecutor.runStatement r sql args) (fun _ _ _ => False) [] s := by
    unfold MysqlExecutor.runStatement MysqlExecutor.queryAll MysqlExecutor.execute
    have hend : ∀ (tr : List Heard) (x : Bool × MysqlResults) (s : ExecSt), False →
        Says (fun _ _ => True) (do
          if !x.1 then return (false, x.2)
          return (true, { x.2 with hasValue := true })) (fun _ _ _ => False) tr s := fun _ _ _ h => h.elim
    cases r.mode with
    | bindType outputs =>
      exact Prog.tells_call hend (MysqlExecutor.says_clearResults (says_getThis hinit))
    | nativeString =>
      exact Prog.tells_call hend
        (MysqlExecutor.says_clearResults (MysqlExecutor.says_formatQuery trivial fun sent => hquery))
    | onlyExec =>
      dsimp only
      split
      · exact Prog.tells_call (P := fun _ _ _ => False) (fun _ _ _ h => h.elim) hquery
      · exact Prog.tells_call (P := fun _ _ _ => False) (fun _ _ _ h => h.elim)
          (MysqlExecutor.says_clearResults (says_getThis hinit))
  have h := hall.ending he
  cases e with
  | returned a s' => exact h
  | refused o => cases hx

section Agreement

variable {r' : MysqlResults} {tr : List Heard} {ok : Bool} {n : ℕ} {mode : MysqlResultsMode}

/-- A call that fails is not part of a delivery. -/
theorem not_delivered {c : Heard} (hc : c ∈ tr) (hf : c.failed = true) : ¬ Delivered mode tr := by
  rintro ⟨-, -, h⟩
  rw [h c hc] at hf
  cases hf

theorem agrees_failed (hr : r'.errorNumber ≠ 0) (hd : ¬ Delivered mode tr) : Agrees mode tr (false, r') := by
  have h : r'.ok = false := decide_eq_false hr
  simp [Agrees, h, hd]

/-- An error number of zero hides a failure. -/
theorem not_agrees (hr : r'.errorNumber = 0) (hd : ¬ Delivered mode tr) : ¬ Agrees mode tr (ok, r') := by
  have h : r'.ok = true := decide_eq_true hr
  simp [Agrees, h, hd]

theorem agrees_done (hr : r'.errorNumber = 0) : Agrees mode tr (true, r') ↔ Delivered mode tr := by
  have h : r'.ok = true := decide_eq_true hr
  simp [Agrees, h]

theorem NativeTold.agrees_iff (h : NativeTold r tr (ok, r')) (hr : r.errorNumber = 0) :
    Agrees .nativeString tr (ok, r') ↔ .formatted false ∉ tr ∧ .errno 0 ∉ tr := by
  cases h with
  | unsent hn =>
    have hd : ¬ Delivered .nativeString [.formatted true, .executed false, .errno r'.errorNumber] := by simp [Delivered]
    subst hn
    by_cases h0 : r'.errorNumber = 0
    · simpa [h0] using not_agrees h0 hd
    · simpa [Ne.symm h0] using agrees_failed h0 hd
  | unstored hn =>
    have hd : ¬ Delivered .nativeString [.formatted true, .executed true, .stored false,
      .errno r'.errorNumber] := by simp [Delivered]
    subst hn
    by_cases h0 : r'.errorNumber = 0
    · simpa [h0] using not_agrees h0 hd
    · simpa [Ne.symm h0] using agrees_failed h0 hd
  | stored hn =>
    rw [agrees_done (hn.trans hr)]
    simp [Delivered, Heard.failed]

theorem ReturnTold.agrees_exec {N : Prop} (h : ReturnTold N r args tr x) (hm : r.mode = .onlyExec)
    (hr : r.errorNumber = 0) :
    Agrees .onlyExec tr x ↔ ¬ NullArgument .onlyExec args tr ∧ ∀ c ∈ tr, c.failed = false := by
  -- where no call fails, the arguments were bound
  have hnull : (∀ c ∈ tr, c.failed = false) → ¬ NullArgument .onlyExec args tr := by
    intro hall
    cases h with
    | query hn _ => rw [hn] at hm; cases hm
    | native hn _ => rw [hn] at hm; cases hm
    | text _ ha _ =>
      subst ha
      exact fun h => by cases h.1
    | prepared _ h =>
      cases h with
      | noStatement => simp [Heard.failed] at hall
      | ended _ _ hE => exact hE
  rw [and_iff_right_of_imp hnull]
  constructor
  · -- `Execute` returns true
    intro h'
    have hx : x.1 = true := by
      cases h with
      | query hn _ => rw [hn] at hm; cases hm
      | native hn _ => rw [hn] at hm; cases hm
      | text => rfl
      | prepared => rfl
    exact (h'.2.1 (h'.1.1 hx)).2.2
  · intro hall
    cases h with
    | query hn _ => rw [hn] at hm; cases hm
    | native hn _ => rw [hn] at hm; cases hm
    | text _ _ h =>
      cases h with
      | unsent => simp [Heard.failed] at hall
      | sent =>
        refine (agrees_done ?_).2 ⟨by simp, trivial, hall⟩
        exact hr
    | prepared _ h =>
      cases h with
      | noStatement => simp [Heard.failed] at hall
      | @ended q steps n r' hsteps hok =>
        obtain ⟨hexec, hn⟩ := hok fun c hc => hall c (by simp [hc])
        refine (agrees_done ?_).2 ⟨by simp [hexec], trivial, hall⟩
        exact hn.trans hr

theorem QueryTold.agrees_iff {N : Prop} {E : List Heard → Prop} {outputs : List OutputArg}
    (h : QueryTold N E r tr (ok, r')) (hN : N) (hr : r.errorNumber = 0) : Agrees (.bindType outputs) tr (ok, r') ↔
      ¬ E tr ∧ .opened none ∉ tr ∧ .columns none ∉ tr ∧ .freed false ∉ tr ∧ (.column false ∈ tr → .fetchFailed ∈ tr) := by
  -- the steps before the rows tell nothing of the statement, the metadata, its end or the columns
  have hstep : ∀ {l : List Heard} {c : Heard}, (∀ c ∈ l, c.step = true) → c.step = false → c ∉ l := by
    intro l c hl hc hmem
    rw [hl c hmem] at hc
    cases hc
  cases h with
  -- without a statement the error number is 0, and the call is taken for a success
  | noStatement _ hn =>
    have hd : ¬ Delivered (.bindType outputs) [.opened none] := by simp [Delivered]
    simpa using not_agrees hn hd
  | @failed q steps r' hsteps hfail _ hn hE =>
    have hd : ¬ Delivered (.bindType outputs) (.opened (some q) :: steps ++ [.freed true, .closed (some q)]) := by
      rcases hfail with ⟨c, hc, hf⟩ | hexec
      · exact not_delivered (by simp [hc]) hf
      · simp [Delivered, hexec]
    have hagrees := agrees_failed hn hd
    have h1 := hstep (c := .opened none) hsteps rfl
    have h2 := hstep (c := .columns none) hsteps rfl
    have h3 := hstep (c := .freed false) hsteps rfl
    have h4 := hstep (c := .column false) hsteps rfl
    simpa [h1, h2, h3, h4] using iff_of_true hagrees (by simpa using hE)
  | @fetched q steps rows last ok k r' hsteps hok hexec hrows hlast _ hn hE =>
    obtain ⟨hdata, hfail⟩ := hrows.last
    have hfail' : .fetchFailed ∈ (Heard.opened (some q) :: steps ++ rows ++ last ++ [.freed true, .closed (some q)]) ↔
        ok = false := by
      have h1 := hstep (c := .fetchFailed) hsteps rfl
      have h2 : .fetchFailed ∉ last := fun hc => by
        obtain ⟨-, b, hb⟩ := hlast _ hc
        cases hb
      simpa [h1, h2] using hfail
    cases ok
    · -- a fetch failed
      have hnil : last = [] := List.eq_nil_iff_forall_not_mem.2 fun c hc => by cases (hlast c hc).1
      have hd : ¬ Delivered (.bindType outputs) _ := not_delivered (hfail'.2 rfl) rfl
      have hagrees := agrees_failed hn hd
      refine iff_of_true hagrees ⟨hE, ?_, ?_, ?_, fun _ => hfail'.2 rfl⟩ <;> subst hnil
      · have h1 := hstep (c := .opened none) hsteps rfl
        simpa [h1] using hrows.not_mem rfl
      · have h1 := hstep (c := .columns none) hsteps rfl
        simpa [h1] using hrows.not_mem rfl
      · have h1 := hstep (c := .freed false) hsteps rfl
        simpa [h1] using hrows.not_mem rfl
    · rw [agrees_done (show r'.errorNumber = 0 from hn.trans hr)]
      constructor
      · rintro ⟨-, -, hall⟩
        have hnot : ∀ {c : Heard}, c.failed = true →
            c ∉ (Heard.opened (some q) :: steps ++ rows ++ last ++ [.freed true, .closed (some q)]) := by
          intro c hf hc
          rw [hall c hc] at hf
          cases hf
        exact ⟨hE, hnot rfl, hnot rfl, hnot rfl, fun hc => absurd hc (hnot rfl)⟩
      · rintro ⟨-, -, hcolumns, -, hcolumn⟩
        refine ⟨by simp [hexec], by simp [hdata.2 rfl], fun c hc => ?_⟩
        by_contra hf
        rw [Bool.not_eq_false] at hf
        simp only [List.mem_append, List.mem_cons, List.not_mem_nil, or_false] at hc
        rcases hc with (((rfl | hc) | hc) | hc) | rfl | rfl
        · cases hf
        · rw [hok hN c hc] at hf
          cases hf
        · -- a failure among the rows
          rcases hrows.failures c hc hf with rfl | rfl
          · cases hfail.1 hc
          · cases hfail'.1 (hcolumn (by simp [hc]))
        · obtain ⟨-, fields, rfl⟩ := hlast c hc
          cases fields
          · exact hcolumns (by simp [hc])
          · cases hf
        · cases hf
        · cases hf

end Agreement

/-- **A statement returns and reports what happened if and only if it is `Reportable`.** -/
theorem failures_reported_iff (hs : s.Numbered) (hr : r.errorNumber = 0) (he : statementEnd r sql args s as = some e) :
    Reported r.mode e (transcript r sql args s as) ↔
      Reportable s.this.mysql r.mode args (transcript r sql args s as) := by
  cases e with
  | returned x s' =>
    have hm := mysql_of_result he rfl
    have h := returnTold_of_result he (x := x) rfl
    have hagrees : Reported r.mode (.returned x s' : Ending ClientOp _ _) (transcript r sql args s as) ↔
        Agrees r.mode (transcript r sql args s as) x := by
      simp [Reported, Ending.result]
    rw [hagrees]
    unfold Reportable
    rw [and_iff_right hm]
    generalize transcript r sql args s as = tr at h ⊢
    cases hmode : r.mode with
    | onlyExec => exact h.agrees_exec hmode hr
    | bindType outputs =>
      cases h with
      | @query outputs' tr ok r' hn h =>
        obtain rfl : outputs' = outputs := by rw [hn] at hmode; exact MysqlResultsMode.bindType.inj hmode
        cases ok <;> exact h.agrees_iff hs hr
      | native hn _ => rw [hn] at hmode; cases hmode
      | text hn _ _ => rw [hn] at hmode; cases hmode
      | prepared hn _ => rw [hn] at hmode; cases hmode
    | nativeString =>
      cases h with
      | query hn _ => rw [hn] at hmode; cases hmode
      | @native tr ok r' _ h => cases ok <;> exact h.agrees_iff hr
      | text hn _ _ => rw [hn] at hmode; cases hmode
      | prepared hn _ => rw [hn] at hmode; cases hmode
  -- a call that ends the process reports nothing, and what ended it is excluded
  | refused o =>
    have hstop := stopped_of_stop he (o := o) rfl
    refine iff_of_false (fun ⟨x, hx, _⟩ => by cases hx) ?_
    rintro ⟨hm, h⟩
    have hwhy := hstop.why.resolve_left hm
    cases hmode : r.mode with
    | onlyExec =>
      rw [hmode] at h hwhy
      rcases hwhy with hc | hc | hc
      · cases h.2 _ hc
      · cases h.2 _ hc
      · exact h.1 hc
    | bindType outputs =>
      rw [hmode] at h hwhy
      rcases hwhy with hc | hc | hc
      · exact h.2.2.1 hc
      · exact h.2.2.2.1 hc
      · exact h.1 hc
    | nativeString =>
      rw [hmode] at h hwhy
      exact h.1 hwhy

theorem freshlyConnected_numbered : freshlyConnected.Numbered := by
  intro p σ hσ
  simp only [freshlyConnected] at hσ ⊢
  split at hσ <;> cases hσ
  decide

/-- `Execute` with an argument, and every call succeeds. -/
theorem failures_reported_executed :
    ∃ e, endFailing { mode := .onlyExec } [.string []] none = some e ∧
      (Reported .onlyExec e (toldFailing { mode := .onlyExec } [.string []] none) ↔
        Reportable (some 0) .onlyExec [.string []] (toldFailing { mode := .onlyExec } [.string []] none)) :=
  have he := (Option.some_get (x := endFailing { mode := .onlyExec } [.string []] none) (by decide +kernel)).symm
  ⟨_, he, failures_reported_iff freshlyConnected_numbered rfl he⟩

/-- `Execute` of a statement that is refused returns true, and `OK()` is false. -/
theorem failure_not_reported : ¬ ∀ (r : MysqlResults) (sql : Sql) (args : List InputArg) (s : ExecSt)
    (as : List ClientAnswer) (e : Ending ClientOp (Bool × MysqlResults) ExecSt), s.Numbered → r.errorNumber = 0 →
      statementEnd r sql args s as = some e → Reported r.mode e (transcript r sql args s as) := by
  intro h
  have he := (Option.some_get (x := endFailing { mode := .onlyExec } [] (some 1)) (by decide +kernel)).symm
  obtain ⟨x, hx, hagrees⟩ := h _ _ _ _ _ _ freshlyConnected_numbered rfl he
  have hx' := (Option.some_get (x := ((endFailing { mode := .onlyExec } [] (some 1)).get (by decide +kernel)).result)
    (by decide +kernel)).symm
  obtain rfl := Option.some.inj (hx.symm.trans hx')
  exact absurd (hagrees.1.1 (by decide +kernel)) (by decide +kernel)

end Failures

end TrpcMysql
