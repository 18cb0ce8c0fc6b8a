import TrpcMysql.Executor.Fetch

/-!
# The library calls of a statement

Which of the calls that decide about a result `QueryAll` and `Execute` make, in which order and
with which replies, on every path of the code and whatever the replies are. Each function has one
lemma that lists its traces; a whole statement has one inductive type for them (`QueryBindTrace`,
`QueryNativeTrace`, `ExecuteTrace`), with a constructor for each way to return.
-/

namespace TrpcMysql

open Conc

/-- The calls that count, with what they tell. -/
inductive LibCall where
  /-- `mysql_stmt_param_count` -/
  | markers (n : ℕ)
  /-- `mysql_stmt_result_metadata` -/
  | metadata (fields : Option (List Field))
  /-- `mysql_stmt_bind_param`, with an array of `n` entries -/
  | bindParam (n : ℕ)
  | execute
  /-- `mysql_stmt_fetch`, when it fetches a row -/
  | fetched (row : ServerRow)
  /-- `mysql_stmt_fetch_column`, and whether it succeeds -/
  | refetched (ok : Bool)
  /-- `mysql_store_result`, when it yields one -/
  | stored (res : StoredResult)
  /-- `mysql_free_result` -/
  | freed (res : Option ResPtr)

def libCalls : (o : ClientOp) → o.Reply → List LibCall
  | .mysqlStmtParamCount _, n => [.markers n]
  | .mysqlStmtResultMetadata _, fields => [.metadata fields]
  | .mysqlStmtBindParam _ args, _ => [.bindParam args.length]
  | .mysqlStmtExecute _, _ => [.execute]
  | .mysqlStmtFetch _, .row row => [.fetched row]
  | .mysqlStmtFetchColumn .., ok => [.refetched ok]
  | .mysqlStoreResult _, some res => [.stored res]
  | .mysqlFreeResult r, _ => [.freed r]
  | _, _ => []

/-- The rows of a result that a call hands over. -/
def LibCall.rows : LibCall → List ServerRow
  | .fetched row => [row]
  | .stored res => res.set.rows
  | _ => []

/-- The rows that the server sent, as the library hands them over. -/
def servedRows (tr : List LibCall) : List ServerRow := tr.flatMap LibCall.rows

@[simp] theorem servedRows_append (tr tr' : List LibCall) : servedRows (tr ++ tr') = servedRows tr ++ servedRows tr' :=
  List.flatMap_append

theorem servedRows_cons (c : LibCall) (tr : List LibCall) : servedRows (c :: tr) = c.rows ++ servedRows tr :=
  List.flatMap_cons

/-- The calls tell of one result, with these columns: the statement's metadata stay the same, and every
row has a value for each column. -/
def OneResult (fields : List Field) (tr : List LibCall) : Prop :=
  ∀ c ∈ tr, match c with
    | .metadata told => told = some fields
    | .fetched row => row.length = fields.length
    | .stored res => res.set.fields = fields ∧ ∀ row ∈ res.set.rows, row.length = fields.length
    | _ => True

/-- No `mysql_stmt_fetch_column` fails. -/
def Refetched (tr : List LibCall) : Prop := .refetched false ∉ tr

/-- Every path of the program makes the calls `tr` and returns `a`, as `Q` says. -/
abbrev Calls {α : Type} (p : XProg α) (Q : List LibCall → α → Prop) : Prop := p.Shows libCalls Q

/-- A concrete execution is a path. -/
theorem path_of_run {α : Type} {p : XProg α} {a : α} {s' : ExecSt} {rest : List ClientAnswer} (as : List ClientAnswer)
    (s : ExecSt) (h : p.run clientExec s as = some (a, s', rest)) :
    p.Path libCalls (p.seen clientExec libCalls s as) a := Prog.run_path h

/-- A connected executor. -/
def connectedExecutor : ExecSt :=
  { this := { isConnected := true, mysql := some 0 }, mysqls := fun _ => { session := some { id := 0 } } }

/-- An operation that is none of these calls. -/
def ClientOp.Plain (o : ClientOp) : Prop := ∀ r, libCalls o r = []

section Rules

variable {α β : Type} {Q : List LibCall → β → Prop}

theorem calls_pure {b : β} (h : Q [] b) : Calls (pure b : XProg β) Q := Prog.shows_ret.2 h

theorem calls_op {o : ClientOp} {f : o.Reply → XProg β}
    (hf : ∀ r, Calls (f r) fun tr b => Q (libCalls o r ++ tr) b) : Calls (xop o >>= f) Q := Prog.shows_act.2 hf

theorem calls_plain {p : XProg α} {f : α → XProg β} (hp : p.Uses ClientOp.Plain) (hf : ∀ a, Calls (f a) Q) :
    Calls (p >>= f) Q := by
  rw [Calls, Prog.shows_bind]
  refine (hp.shows fun o r h => h r).mono fun tr a htr => ?_
  rw [htr]
  exact hf a

theorem calls_call {p : XProg α} {f : α → XProg β} {P : List LibCall → α → Prop} (hp : Calls p P)
    (hf : ∀ tr a, P tr a → Calls (f a) fun tr' b => Q (tr ++ tr') b) : Calls (p >>= f) Q := by
  rw [Calls, Prog.shows_bind]
  exact hp.mono hf

theorem calls_crash {why : Crash} : Calls (crash why : XProg β) Q := Prog.shows_act.2 fun r => r.elim

/-- The rest of a function. -/
theorem calls_rest {p : XProg β} (hp : p.Uses ClientOp.Plain) (h : ∀ b, Q [] b) : Calls p Q :=
  (hp.shows fun o r h => h r).mono fun tr b htr => by rw [htr]; exact h b

end Rules

/-! ## What the rows of a result leave -/

namespace QueryHandle

/-- The buffers that the statement is bound to. -/
def bound (outputs : List OutputArg) (dynamicBufferSize : ℕ) (fields : List Field) : QueryHandle :=
  ((new outputs dynamicBufferSize).bindOutputs fields).bindResult

/-- What is called for the rows. -/
def rowCalls : QueryHandle → List FetchedRow → List LibCall
  | _, [] => []
  | h, x :: rows =>
    .fetched x.row :: ((h.fetchRowCalls x).calls.map fun call => .refetched call.ok) ++
      rowCalls (h.fetchRowCalls x).handle rows

/-- The tuples of the rows, with their calls. -/
def tuplesWith : QueryHandle → List FetchedRow → List Row
  | _, [] => []
  | h, x :: rows => (h.fetchRowCalls x).handle.setResultTuple :: (h.fetchRowCalls x).handle.tuplesWith rows

/-- The null flags of the rows, with their calls. -/
def flagsWith : QueryHandle → List FetchedRow → List (List Bool)
  | _, [] => []
  | h, x :: rows => (h.fetchRowCalls x).handle.nullFlags :: (h.fetchRowCalls x).handle.flagsWith rows

/-! While no `mysql_stmt_fetch_column` fails: -/

/-- The buffers after the rows are fetched. -/
def fetchRows (h : QueryHandle) (rows : List ServerRow) : QueryHandle := rows.foldl fetchRow h

/-- The tuples of the rows. -/
def tuples : QueryHandle → List ServerRow → List Row
  | _, [] => []
  | h, row :: rows => (h.fetchRow row).setResultTuple :: (h.fetchRow row).tuples rows

@[simp] theorem servedRows_rowCalls (rows : List FetchedRow) : ∀ h : QueryHandle,
    servedRows (h.rowCalls rows) = rows.map FetchedRow.row := by
  induction rows with
  | nil => intro h; rfl
  | cons x rows ih =>
    intro h
    have hcalls : servedRows ((h.fetchRowCalls x).calls.map fun call => .refetched call.ok) = [] := by
      simp [servedRows, LibCall.rows]
    rw [rowCalls, List.cons_append, servedRows_cons, servedRows_append, hcalls, ih]
    rfl

theorem mem_rowCalls {c : LibCall} {rows : List FetchedRow} : ∀ {h : QueryHandle}, c ∈ h.rowCalls rows →
    (∃ row, c = .fetched row) ∨ ∃ ok, c = .refetched ok := by
  induction rows with
  | nil => intro h hc; cases hc
  | cons x rows ih =>
    intro h hc
    simp only [rowCalls, List.cons_append, List.mem_cons, List.mem_append, List.mem_map] at hc
    rcases hc with rfl | ⟨call, -, rfl⟩ | hc
    · exact .inl ⟨_, rfl⟩
    · exact .inr ⟨_, rfl⟩
    · exact ih hc

/-- While no call fails, the calls do not matter. -/
theorem tuplesWith_whole {rows : List FetchedRow} : ∀ {h : QueryHandle}, Refetched (h.rowCalls rows) →
    h.tuplesWith rows = h.tuples (rows.map FetchedRow.row) := by
  induction rows with
  | nil => exact fun _ => rfl
  | cons x rows ih =>
    intro h hok
    simp only [Refetched, rowCalls, List.cons_append, List.mem_cons, List.mem_append, List.mem_map, not_or,
      LibCall.refetched.injEq, not_exists, not_and, Bool.not_eq_false] at hok
    have hhandle : (h.fetchRowCalls x).handle = h.fetchRow x.row := fetchRowCalls_whole hok.2.1
    have htuples := ih hok.2.2
    rw [hhandle] at htuples
    simp [tuplesWith, tuples, hhandle, htuples]

end QueryHandle

namespace MysqlResults

/-- The results when the rows are fetched through the buffers. -/
def fetched (r : MysqlResults) (h : QueryHandle) (rows : List FetchedRow) : MysqlResults :=
  { r with resultSet := r.resultSet ++ h.tuplesWith rows, nullFlags := r.nullFlags ++ h.flagsWith rows }

@[simp] theorem fetched_nil (r : MysqlResults) (h : QueryHandle) : r.fetched h [] = r := by
  simp [fetched, QueryHandle.tuplesWith, QueryHandle.flagsWith]

theorem fetched_cons (r : MysqlResults) (h : QueryHandle) (x : FetchedRow) (rows : List FetchedRow) :
    r.fetched h (x :: rows) = (r.pushRow (h.fetchRowCalls x).handle.setResultTuple
      (h.fetchRowCalls x).handle.nullFlags).fetched (h.fetchRowCalls x).handle rows := by
  simp [fetched, pushRow, QueryHandle.tuplesWith, QueryHandle.flagsWith]

/-- The results when a stored result is copied and kept. -/
def native (r : MysqlResults) (res : StoredResult) : MysqlResults :=
  { r with
    resultSet := r.resultSet ++ res.set.rows.map fun row => row.map (·.getD [])
    nullFlags := r.nullFlags ++ res.set.rows.map fun row => row.map Option.isNone
    fieldsName := r.fieldsName ++ res.set.fields.map Field.name
    mysqlRes := some res.ptr }

@[simp] theorem setFieldsName_resultSet (r : MysqlResults) (told : Option (List Field)) :
    (r.setFieldsName told).resultSet = r.resultSet := by cases told <;> rfl

@[simp] theorem setFieldsName_nullFlags (r : MysqlResults) (told : Option (List Field)) :
    (r.setFieldsName told).nullFlags = r.nullFlags := by cases told <;> rfl

@[simp] theorem setFieldsName_mysqlRes (r : MysqlResults) (told : Option (List Field)) :
    (r.setFieldsName told).mysqlRes = r.mysqlRes := by cases told <;> rfl

theorem foldl_pushRow (rows : List ServerRow) : ∀ r : MysqlResults,
    rows.foldl (fun r row => r.pushRow (row.map (·.getD [])) (row.map Option.isNone)) r =
      { r with
        resultSet := r.resultSet ++ rows.map fun row => row.map (·.getD [])
        nullFlags := r.nullFlags ++ rows.map fun row => row.map Option.isNone } := by
  induction rows with
  | nil => intro r; simp
  | cons row rows ih =>
    intro r
    rw [List.foldl_cons, ih]
    simp [pushRow]

end MysqlResults

/-! ## The traces of a statement -/

/-- `QueryAllInternal` in bind mode. -/
inductive QueryBindTrace (outputs : List OutputArg) (r : MysqlResults) (args : List InputArg) :
    List LibCall → Bool × MysqlResults → Prop
  | unprepared {message : String} {number : ℤ} :
    QueryBindTrace outputs r args [.freed r.mysqlRes] (false, r.cleared.setError message number)
  | refused {n : ℕ} {fields : List Field} (h : checkFieldsOutputArgs outputs fields ≠ "") :
    QueryBindTrace outputs r args [.freed r.mysqlRes, .markers n, .metadata (some fields)]
      (false, r.cleared.setError (checkFieldsOutputArgs outputs fields) TRPC_MYSQL_STMT_PARAMS_ERROR)
  | unbound {n : ℕ} {fields : List Field} {message : String} {number : ℤ}
    (h : checkFieldsOutputArgs outputs fields = "") :
    QueryBindTrace outputs r args
      [.freed r.mysqlRes, .markers n, .metadata (some fields), .bindParam args.length]
      (false, r.cleared.setError message number)
  | failed {n : ℕ} {fields fields' : List Field} {exec : List LibCall} {rows : List FetchedRow} {message : String}
    {number : ℤ} (h : checkFieldsOutputArgs outputs fields = "") (hexec : exec = [] ∨ exec = [.execute]) :
    QueryBindTrace outputs r args
      ([.freed r.mysqlRes, .markers n, .metadata (some fields), .bindParam args.length,
        .metadata (some fields')] ++ exec ++
          QueryHandle.rowCalls (.bound outputs r.option.dynamicBufferInitSize fields') rows)
      (false, (r.cleared.fetched (.bound outputs r.option.dynamicBufferInitSize fields') rows).setError message
        number)
  | done {n : ℕ} {fields fields' : List Field} {exec : List LibCall} {rows : List FetchedRow}
    {last : Option (List Field)} (h : checkFieldsOutputArgs outputs fields = "")
    (hexec : exec = [] ∨ exec = [.execute]) :
    QueryBindTrace outputs r args
      ([.freed r.mysqlRes, .markers n, .metadata (some fields), .bindParam args.length,
        .metadata (some fields')] ++ exec ++
          QueryHandle.rowCalls (.bound outputs r.option.dynamicBufferInitSize fields') rows ++ [.metadata last])
      (true, (r.cleared.fetched (.bound outputs r.option.dynamicBufferInitSize fields') rows).setFieldsName last)

/-- What a successful query in bind mode returns, when the calls tell of one result. -/
theorem QueryBindTrace.success {outputs : List OutputArg} {r r' : MysqlResults} {args : List InputArg}
    {tr : List LibCall} {fields : List Field} (h : QueryBindTrace outputs r args tr (true, r'))
    (hone : OneResult fields tr) : checkFieldsOutputArgs outputs fields = "" ∧
      ∃ rows last, servedRows tr = rows.map FetchedRow.row ∧
        (Refetched tr → Refetched (QueryHandle.rowCalls (.bound outputs r.option.dynamicBufferInitSize fields) rows)) ∧
        r' = (r.cleared.fetched (.bound outputs r.option.dynamicBufferInitSize fields) rows).setFieldsName last := by
  cases h with
  | done hcheck hexec =>
    rename_i n f f' exec rows last
    obtain rfl : f = fields := Option.some.inj (hone (.metadata (some f)) (by simp))
    obtain rfl : f' = f := Option.some.inj (hone (.metadata (some f')) (by simp))
    have hexec : servedRows exec = [] := by rcases hexec with rfl | rfl <;> rfl
    refine ⟨hcheck, rows, last, ?_, fun hok hmem => hok (by simp [hmem]), rfl⟩
    rw [servedRows_append, servedRows_append, servedRows_append, hexec, QueryHandle.servedRows_rowCalls]
    simp [servedRows, LibCall.rows]

/-- `QueryAllInternal` for `NativeString`. -/
inductive QueryNativeTrace (r : MysqlResults) : List LibCall → Bool × MysqlResults → Prop
  | failed {message : String} {number : ℤ} :
    QueryNativeTrace r [.freed r.mysqlRes] (false, r.cleared.setError message number)
  | done {res : StoredResult} : QueryNativeTrace r [.freed r.mysqlRes, .stored res] (true, r.cleared.native res)

/-- `ExecuteInternal` with a prepared statement. -/
inductive ExecuteTrace (r : MysqlResults) (args : List InputArg) : List LibCall → ℕ × MysqlResults → Prop
  | unprepared {message : String} {number : ℤ} :
    ExecuteTrace r args [.freed r.mysqlRes] (0, r.cleared.setError message number)
  | failed {n : ℕ} {exec : List LibCall} {message : String} {number : ℤ}
    (hexec : exec = [] ∨ exec = [.execute]) :
    ExecuteTrace r args ([.freed r.mysqlRes, .markers n, .bindParam args.length] ++ exec)
      (0, r.cleared.setError message number)
  | done {n affected : ℕ} {exec : List LibCall} (hexec : exec = [] ∨ exec = [.execute]) :
    ExecuteTrace r args ([.freed r.mysqlRes, .markers n, .bindParam args.length] ++ exec) (affected, r.cleared)

/-- `QueryAllInternal`, as the mode of the results has it. -/
def QueryTrace (r : MysqlResults) (args : List InputArg) (tr : List LibCall) (x : Bool × MysqlResults) : Prop :=
  match r.mode with
  | .bindType outputs => QueryBindTrace outputs r args tr x
  | .nativeString => QueryNativeTrace r tr x
  | .onlyExec => False

namespace MysqlExecutor

/-! ## Functions without these calls -/

theorem plain_op {β : Type} {o : ClientOp} {f : o.Reply → XProg β} (ho : o.Plain)
    (hf : ∀ r, (f r).Uses ClientOp.Plain) : (xop o >>= f).Uses ClientOp.Plain := ⟨ho, hf⟩

theorem plain_crash {α : Type} {why : Crash} : (crash why : XProg α).Uses ClientOp.Plain :=
  ⟨fun _ => rfl, fun r => r.elim⟩

theorem plain_ofConnect (o : ClientOp) (ho : o.ofConnect = true) : o.Plain := by
  intro r
  cases o <;> first | rfl | cases ho

theorem plain_aside (o : ClientOp) (ho : o.aside = true) : o.Plain := by
  intro r
  cases o <;> first | rfl | cases ho

theorem plain_mysqlErrno : getErrorNumber.Uses ClientOp.Plain := uses_mysqlErrno plain_aside

theorem plain_mysqlError : getErrorMessage.Uses ClientOp.Plain := uses_mysqlError plain_aside

theorem plain_checkAlive : checkAlive.Uses ClientOp.Plain := uses_checkAlive plain_aside

theorem plain_connect : connect.Uses ClientOp.Plain := uses_connect plain_ofConnect

theorem plain_retry : ∀ n, (retry n).Uses ClientOp.Plain := uses_retry plain_ofConnect

variable (stmt : MysqlStatement)

theorem plain_stmtError : stmt.getErrorMessage.Uses ClientOp.Plain := uses_stmtError plain_aside stmt

theorem plain_stmtErrno : stmt.getErrorNumber.Uses ClientOp.Plain := uses_stmtErrno plain_aside stmt

theorem plain_bindInputArgs (args : List InputArg) : (bindInputArgs args).Uses ClientOp.Plain :=
  uses_bindInputArgs plain_aside args

theorem plain_formatQuery (sql : Sql) (args : List InputArg) : (formatQuery sql args).Uses ClientOp.Plain :=
  plain_op (fun _ => rfl) fun sent => by cases sent; exacts [plain_crash, trivial]

theorem plain_endStatement : (endStatement stmt).Uses ClientOp.Plain := uses_endStatement plain_aside stmt

/-! ## Functions with these calls -/

variable (r : MysqlResults) (sql : Sql) (args : List InputArg) (outputs : List OutputArg)

/-- `Clear` frees the result. -/
theorem calls_clearResults {β : Type} {f : MysqlResults → XProg β} {Q : List LibCall → β → Prop}
    (hf : Calls (f r.cleared) fun tr b => Q (.freed r.mysqlRes :: tr) b) : Calls (clearResults r >>= f) Q :=
  calls_op fun _ => hf

/-- The error of a statement is put in the results. -/
theorem calls_stmtFailure {α : Type} {a : α} {Q : List LibCall → α × MysqlResults → Prop}
    (h : ∀ message number, Q [] (a, r.setError message number)) :
    Calls (do let r ← setStmtError r stmt; endStatement stmt; return (a, r)) Q := by
  have herror : Calls (setStmtError r stmt) fun tr r' => tr = [] ∧ ∃ m n, r' = r.setError m n :=
    calls_plain (plain_stmtError stmt) fun m => calls_plain (plain_stmtErrno stmt) fun n =>
      calls_pure ⟨rfl, m, n, rfl⟩
  refine calls_call herror fun tr r' hr => ?_
  obtain ⟨rfl, m, n, rfl⟩ := hr
  exact calls_plain (plain_endStatement stmt) fun _ => calls_pure (h m n)

/-- The same with the error of the MYSQL object. -/
theorem calls_mysqlFailure {α : Type} {a : α} {Q : List LibCall → α × MysqlResults → Prop}
    (h : ∀ message number, Q [] (a, r.setError message number)) :
    Calls (do let r ← setMysqlError r; return (a, r)) Q := by
  have herror : Calls (setMysqlError r) fun tr r' => tr = [] ∧ ∃ m n, r' = r.setError m n :=
    calls_plain plain_mysqlError fun m => calls_plain plain_mysqlErrno fun n => calls_pure ⟨rfl, m, n, rfl⟩
  refine calls_call herror fun tr r' hr => ?_
  obtain ⟨rfl, m, n, rfl⟩ := hr
  exact calls_pure (h m n)

/-- `Init` asks for the number of markers when the statement is prepared. -/
theorem init_calls : Calls (stmt.init sql) fun tr x =>
    (x.1 = false ∧ tr = []) ∨ ∃ n, x.1 = true ∧ tr = [.markers n] := by
  refine calls_op fun st => ?_
  dsimp only
  split
  · exact calls_pure (.inl ⟨rfl, rfl⟩)
  refine calls_op fun prepared => ?_
  cases prepared
  · exact calls_pure (.inl ⟨rfl, rfl⟩)
  refine calls_op fun fieldCount => calls_op fun n => ?_
  exact calls_pure (.inr ⟨n, rfl, rfl⟩)

/-- `ExecuteStatement` executes the statement at most once. -/
theorem executeStatement_calls (b : Bool) :
    Calls (executeStatement b stmt) fun tr _ => tr = [] ∨ tr = [.execute] := by
  have hstatus : (stmtStatus stmt).Uses ClientOp.Plain :=
    (plain_stmtErrno stmt).bind fun _ => (plain_stmtError stmt).bind fun _ => trivial
  have hexec : Calls (do
      if !(← mysqlStmtExecute stmt.mysqlStmt) then return ← stmtStatus stmt
      return ({} : Status)) fun tr _ => tr = [] ∨ tr = [.execute] := by
    refine calls_op fun done => ?_
    cases done
    · exact calls_rest hstatus fun _ => .inr rfl
    · exact calls_pure (.inr rfl)
  have hbound : Calls (do
      if !(← mysqlStmtBindResult stmt.mysqlStmt) then return ← stmtStatus stmt
      if !(← mysqlStmtExecute stmt.mysqlStmt) then return ← stmtStatus stmt
      return ({} : Status)) fun tr _ => tr = [] ∨ tr = [.execute] := by
    refine calls_op fun done => ?_
    cases done
    · exact calls_rest hstatus fun _ => .inl rfl
    · exact hexec
  have hafter : Calls (do
      if b then
        if !(← mysqlStmtBindResult stmt.mysqlStmt) then return ← stmtStatus stmt
      if !(← mysqlStmtExecute stmt.mysqlStmt) then return ← stmtStatus stmt
      return ({} : Status)) fun tr _ => tr = [] ∨ tr = [.execute] := by
    cases b
    · exact hexec
    · exact hbound
  unfold executeStatement
  refine calls_plain plain_checkAlive fun alive => ?_
  cases alive
  · refine calls_plain (plain_retry _) fun connected => ?_
    cases connected
    · exact calls_rest (plain_mysqlErrno.bind fun _ => plain_mysqlError.bind fun _ => trivial) fun _ => .inl rfl
    · exact hafter
  · exact hafter

theorem fetchLoop_calls : ∀ (n : ℕ) (h : QueryHandle) (r : MysqlResults),
    Calls (fetchLoop stmt n h r) fun tr x => ∃ rows, tr = h.rowCalls rows ∧ x.2 = r.fetched h rows := by
  intro n
  induction n with
  | zero =>
    intro h r
    refine calls_op fun f => ?_
    cases f with
    | noData => exact calls_pure ⟨[], rfl, (r.fetched_nil h).symm⟩
    | error => exact calls_pure ⟨[], rfl, (r.fetched_nil h).symm⟩
    | row row => exact calls_crash
  | succ n ih =>
    intro h r
    refine calls_op fun f => ?_
    cases f with
    | noData => exact calls_pure ⟨[], rfl, (r.fetched_nil h).symm⟩
    | error => exact calls_pure ⟨[], rfl, (r.fetched_nil h).symm⟩
    | row row =>
      refine calls_call (fetchRow_shows (fun call => .refetched call.ok) stmt (fun _ => rfl) h row)
        fun tr h' hrow => ?_
      obtain ⟨ok, rfl, rfl⟩ := hrow
      refine (ih _ _).mono fun tr x hx => ?_
      obtain ⟨rows, rfl, hx⟩ := hx
      exact ⟨⟨row, ok⟩ :: rows, rfl, hx.trans (r.fetched_cons h ⟨row, ok⟩ rows).symm⟩

theorem fetchResults_calls (h : QueryHandle) :
    Calls (fetchResults h stmt r) fun tr x => ∃ rows, tr = h.rowCalls rows ∧ x.2 = r.fetched h rows := by
  refine calls_op fun n => ?_
  cases n with
  | none => exact calls_pure ⟨[], rfl, (r.fetched_nil h).symm⟩
  | some n => exact fetchLoop_calls stmt n h r

/-- What comes after the outputs are bound. -/
theorem queryBound_calls (h : QueryHandle) : Calls (queryBound h stmt r) fun tr x =>
    ∃ exec rows, (exec = [] ∨ exec = [.execute]) ∧
      ((∃ message number, tr = exec ++ h.bindResult.rowCalls rows ∧
          x = (false, (r.fetched h.bindResult rows).setError message number)) ∨
        ∃ last, tr = exec ++ h.bindResult.rowCalls rows ++ [.metadata last] ∧
          x = (true, (r.fetched h.bindResult rows).setFieldsName last)) := by
  refine calls_call (executeStatement_calls stmt true) fun exec s hexec => ?_
  dsimp only
  split
  · refine calls_plain (plain_endStatement stmt) fun _ => calls_pure ?_
    exact ⟨exec, [], hexec, .inl ⟨s.errorMessage, s.frameworkRetCode, rfl, by rw [r.fetched_nil]⟩⟩
  refine calls_call (fetchResults_calls stmt r h.bindResult) fun tr x hx => ?_
  obtain ⟨ok, r₁⟩ := x
  obtain ⟨rows, rfl, rfl⟩ := hx
  cases ok
  · refine calls_stmtFailure stmt _ fun message number => ?_
    exact ⟨exec, rows, hexec, .inl ⟨message, number, by simp, rfl⟩⟩
  · refine calls_op fun last => calls_plain (plain_endStatement stmt) fun _ => calls_pure ?_
    exact ⟨exec, rows, hexec, .inr ⟨last, by simp [libCalls], rfl⟩⟩

theorem queryAllBind_calls : Calls (queryAllBind outputs r sql args) (QueryBindTrace outputs r args) := by
  refine calls_clearResults r ?_
  refine calls_op fun this => calls_call (init_calls _ sql) fun tr x hx => ?_
  obtain ⟨ok, stmt⟩ := x
  obtain ⟨rfl, rfl⟩ | ⟨n, rfl, rfl⟩ := hx
  · exact calls_stmtFailure stmt _ fun message number => .unprepared
  refine calls_op fun fields => ?_
  cases fields with
  | none => exact calls_crash
  | some fields =>
    dsimp only
    split
    · rename_i hcheck
      exact calls_plain (plain_endStatement stmt) fun _ => calls_pure (.refused hcheck)
    rename_i hcheck
    rw [not_not] at hcheck
    refine calls_plain (plain_bindInputArgs args) fun _ => calls_op fun done => ?_
    cases done
    · exact calls_stmtFailure stmt _ fun message number => .unbound hcheck
    refine calls_op fun fields' => ?_
    cases fields' with
    | none => exact calls_crash
    | some fields' =>
      refine (queryBound_calls stmt r.cleared _).mono fun tr x hx => ?_
      obtain ⟨exec, rows, hexec, ⟨message, number, rfl, rfl⟩ | ⟨last, rfl, rfl⟩⟩ := hx
      · exact .failed hcheck hexec
      · have hdone : QueryBindTrace outputs r args
            ([.freed r.mysqlRes, .markers n, .metadata (some fields), .bindParam args.length,
              .metadata (some fields')] ++ exec ++
                QueryHandle.rowCalls (.bound outputs r.option.dynamicBufferInitSize fields') rows ++
                [.metadata last]) _ := .done hcheck hexec
        simp only [List.append_assoc] at hdone ⊢
        exact hdone

theorem queryAllNative_calls : Calls (queryAllNative r sql args) (QueryNativeTrace r) := by
  refine calls_clearResults r ?_
  refine calls_plain (plain_formatQuery sql args) fun sent => calls_op fun this => calls_op fun done => ?_
  cases done
  · exact calls_mysqlFailure _ fun message number => .failed
  refine calls_op fun this => calls_op fun res => ?_
  cases res with
  | none => exact calls_mysqlFailure _ fun message number => .failed
  | some res =>
    refine calls_pure ?_
    rw [MysqlResults.foldl_pushRow]
    exact .done

theorem executePrepared_calls : Calls (executePrepared r sql args) (ExecuteTrace r args) := by
  refine calls_clearResults r ?_
  refine calls_op fun this => calls_call (init_calls _ sql) fun tr x hx => ?_
  obtain ⟨ok, stmt⟩ := x
  obtain ⟨rfl, rfl⟩ | ⟨n, rfl, rfl⟩ := hx
  · exact calls_stmtFailure stmt _ fun message number => .unprepared
  refine calls_plain (plain_bindInputArgs args) fun _ => calls_op fun done => ?_
  cases done
  · have hfailed : ∀ message number, ExecuteTrace r args ([.freed r.mysqlRes, .markers n, .bindParam args.length] ++ [])
        (0, r.cleared.setError message number) := fun message number => .failed (.inl rfl)
    exact calls_stmtFailure stmt _ hfailed
  refine calls_call (executeStatement_calls stmt false) fun exec s hexec => ?_
  dsimp only
  split
  · refine calls_plain (plain_endStatement stmt) fun _ => calls_pure ?_
    have hfailed : ExecuteTrace r args ([.freed r.mysqlRes, .markers n, .bindParam args.length] ++ exec)
        (0, r.cleared.setError s.errorMessage s.frameworkRetCode) := .failed hexec
    simpa [libCalls] using hfailed
  · refine calls_op fun this => calls_op fun affected => calls_plain (plain_endStatement stmt) fun _ => calls_pure ?_
    have hdone : ExecuteTrace r args ([.freed r.mysqlRes, .markers n, .bindParam args.length] ++ exec)
        (affected, r.cleared) := .done hexec
    simpa [libCalls] using hdone

/-- **`QueryAll`.** -/
theorem queryAll_calls : Calls (queryAll r sql args) fun tr x =>
    ∃ r', QueryTrace r args tr (x.1, r') ∧ x.2 = if x.1 then { r' with hasValue := true } else r' := by
  have hend : ∀ {tr : List LibCall} {x : Bool × MysqlResults}, QueryTrace r args tr x →
      Calls (do
        if !x.1 then return (false, x.2)
        return (true, { x.2 with hasValue := true })) fun tr' y =>
          ∃ r', QueryTrace r args (tr ++ tr') (y.1, r') ∧ y.2 = if y.1 then { r' with hasValue := true } else r' := by
    intro tr x hx
    obtain ⟨ok, r'⟩ := x
    cases ok <;> exact calls_pure ⟨r', by rwa [List.append_nil], rfl⟩
  unfold queryAll
  cases hm : r.mode with
  | bindType outputs =>
    refine calls_call (queryAllBind_calls r sql args outputs) fun tr x hx => hend ?_
    rw [QueryTrace, hm]
    exact hx
  | onlyExec => exact calls_call (P := fun _ _ => False) calls_crash fun tr x hx => hx.elim
  | nativeString =>
    refine calls_call (queryAllNative_calls r sql args) fun tr x hx => hend ?_
    rw [QueryTrace, hm]
    exact hx

theorem executeText_calls : Calls (executeText r sql) fun tr x =>
    tr = [] ∧ (x.2 = r ∨ ∃ message number, x.2 = r.setError message number) := by
  refine calls_op fun this => calls_op fun done => ?_
  cases done
  · exact calls_mysqlFailure r fun message number => ⟨rfl, .inr ⟨message, number, rfl⟩⟩
  · exact calls_op fun this => calls_op fun n => calls_pure ⟨rfl, .inl rfl⟩

end MysqlExecutor

end TrpcMysql
