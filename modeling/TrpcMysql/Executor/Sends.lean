import TrpcMysql.Conc.Typestate
import TrpcMysql.Executor.Effects

/-!
# What an executor sends

A statement is sent as a text, by `mysql_real_query`, or as an object that was given the text, by
`mysql_stmt_execute`; the server acknowledges no more than one statement for each (`acks_exec`). The other
operations but those that open and prepare an object are silent.

`Execute` and `QueryAll` ping, make the connection anew and fetch in loops, but on every path they send one
statement at most, with their own text, or with what `FormatQuery` makes of it (`runStatement_obeys`): they prepare
and execute only the object that they opened. No other operation gives an object a text (`text_exec`), so a statement
that is acknowledged is one that was to be sent (`sendsOnce_exec`).
-/

namespace TrpcMysql

open Function Conc

/-- The operation sends a statement to be executed. -/
def ClientOp.sends : ClientOp → Bool
  | mysqlRealQuery .. | mysqlStmtExecute _ => true
  | _ => false

/-- The operation opens, prepares or sends a statement. -/
def ClientOp.speaks : ClientOp → Bool
  | mysqlRealQuery .. | mysqlStmtInit _ | mysqlStmtPrepare .. | mysqlStmtExecute _ => true
  | _ => false

/-- What has been done to send a statement. -/
structure Sending where
  sent : Bool := false
  opened : List StmtPtr := []

/-- A statement of `T`, if there is one, is sent once: as a text, or as an object that was opened for it. -/
def sendsOnce (T : Sql → Prop) : Typestate ClientOp ClientOp.Reply Sending where
  allows d
    | .mysqlRealQuery _ sql => d.sent = false ∧ T sql
    | .mysqlStmtPrepare st sql => T sql ∧ ∀ q ∈ st, q ∈ d.opened
    | .mysqlStmtExecute st => d.sent = false ∧ (∃ sql, T sql) ∧ ∀ q ∈ st, q ∈ d.opened
    | _ => True
  after d
    | .mysqlRealQuery .., _ | .mysqlStmtExecute _, _ => { d with sent := true }
    | .mysqlStmtInit _, some q => { d with opened := q :: d.opened }
    | _, _ => d

theorem idle_silent {T : Sql → Prop} {d : Sending} {o : ClientOp} (ho : o.speaks = false) :
    (sendsOnce T).Idle d o := by
  cases o <;> first | exact ⟨trivial, fun _ => rfl⟩ | cases ho

/-! ## Operations -/

def SqlEvent.isAck : SqlEvent → Bool
  | acked .. => true
  | failed => false

/-- The statement that was acknowledged. -/
def SqlEvent.text? : SqlEvent → Option Sql
  | acked _ sql => some sql
  | failed => none

/-- From `s` to `s'` object `q` kept its text and the session that it was prepared in. -/
structure SameText (q : StmtPtr) (s s' : ExecSt) : Prop where
  nextStmt : s.nextStmt ≤ s'.nextStmt
  session : (s'.stmts q).session = (s.stmts q).session
  sql : (s'.stmts q).sql = (s.stmts q).sql

namespace SameText

variable {s s' : ExecSt} {q q' : StmtPtr} {st : Stmt} {a : ClientAnswer} {p : MysqlPtr} {m : Mysql}

theorem refl (q : StmtPtr) (s : ExecSt) : SameText q s s := ⟨Nat.le_refl _, rfl, rfl⟩

theorem setMysql (h : SameText q s s') : SameText q s (s'.setMysql p m) := ⟨h.nextStmt, h.session, h.sql⟩

theorem enter (h : SameText q s s') : SameText q s (s'.enter a p) := by
  unfold ExecSt.enter
  split
  · exact h.setMysql
  · exact h

theorem note {e : SqlEvent} (h : SameText q s s') : SameText q s (s'.note e) := ⟨h.nextStmt, h.session, h.sql⟩

theorem setStmt (h : SameText q s s')
    (hst : q = q' → st.session = (s'.stmts q').session ∧ st.sql = (s'.stmts q').sql) :
    SameText q s (s'.setStmt q' st) := by
  refine ⟨h.nextStmt, ?_, ?_⟩
  all_goals
    by_cases hq : q = q'
    · subst hq
      simp [ExecSt.setStmt, hst rfl, h.session, h.sql]
    · simp [ExecSt.setStmt, update_of_ne hq, h.session, h.sql]

theorem failStmt (h : SameText q s s') : SameText q s (s'.failStmt q' a) := .note (.setStmt h fun _ => ⟨rfl, rfl⟩)

theorem newStmt (h : SameText q s s') (hlt : q < s'.nextStmt) :
    SameText q s { s'.setStmt s'.nextStmt st with nextStmt := s'.nextStmt + 1 } :=
  have h' : SameText q s (s'.setStmt s'.nextStmt st) := h.setStmt fun hq => absurd hq (Nat.ne_of_lt hlt)
  ⟨Nat.le_succ_of_le h.nextStmt, h'.session, h'.sql⟩

end SameText

section Exec

variable {o : ClientOp} {a : ClientAnswer} {s s' : ExecSt} {r : o.Reply} {q : StmtPtr}

-- the equations of `clientExec` are made here, once for the operations below
attribute [local simp] clientExec in
theorem minor_text (hm : o.minor = true) (hlt : q < s.nextStmt) (h : clientExec o a s = some (r, s')) :
    SameText q s s' := by
  have h0 : SameText q s s := .refl q s
  unfold clientExec at h
  split at h <;> simp only [ClientOp.minor, Bool.false_eq_true] at hm
  all_goals try dsimp only at h
  all_goals repeat' (split at h)
  all_goals try contradiction
  all_goals simp only [Option.some.injEq, Prod.mk.injEq] at h
  all_goals obtain ⟨-, rfl⟩ := h
  all_goals first
    | exact h0
    | exact h0.enter
    | exact h0.failStmt
    | exact .setStmt h0 fun _ => ⟨rfl, rfl⟩
    | exact h0.enter.setMysql
    | exact h0.enter.setMysql.note
    | exact h0.enter.setMysql.setMysql.note
    | exact h0.enter.failStmt
    | exact .newStmt h0.enter (Nat.lt_of_lt_of_le hlt h0.enter.nextStmt)
    | exact .setStmt h0.enter fun _ => ⟨rfl, rfl⟩
    | exact .setStmt h0.enter.setMysql fun _ => ⟨rfl, rfl⟩

/-- **Only `mysql_stmt_prepare` gives an object a text.** -/
theorem text_exec (hlt : q < s.nextStmt) (hq : ∀ sql, o ≠ .mysqlStmtPrepare (some q) sql)
    (h : clientExec o a s = some (r, s')) : SameText q s s' := by
  have h0 : SameText q s s := .refl q s
  by_cases hm : o.minor = true
  · exact minor_text hm hlt h
  cases o <;> simp only [ClientOp.minor, not_true_eq_false] at hm
  case mysqlRealConnect m o =>
    obtain ⟨p, -, ⟨-, -, -, rfl⟩ | ⟨-, rfl⟩⟩ := realConnect_exec h
    · exact ⟨h0.enter.nextStmt, h0.enter.session, h0.enter.sql⟩
    · exact h0.enter.setMysql
  case mysqlClose m =>
    cases m with
    | none => cases h; exact h0
    | some p => cases h; exact h0.enter.setMysql
  case mysqlRealQuery m sql =>
    obtain ⟨p, -, ⟨-, σ, -, rfl⟩ | ⟨-, rfl⟩⟩ := realQuery_exec h
    · exact h0.enter.setMysql.note
    · exact h0.enter.setMysql.note
  case mysqlStmtPrepare st sql =>
    obtain ⟨q', rfl, ⟨-, id, rfl⟩ | ⟨-, rfl⟩⟩ := stmtPrepare_exec h
    · exact .setStmt h0.enter fun heq => absurd (by rw [heq]) (hq sql)
    · exact h0.enter.failStmt
  case mysqlStmtExecute st =>
    obtain ⟨q', p, -, -, ⟨-, σ, -, -, rfl⟩ | ⟨-, rfl⟩⟩ := stmtExecute_exec h
    · exact h0.enter.setMysql.note
    · exact h0.enter.failStmt
  case crash why => cases h
  all_goals
    cases h
    exact ⟨Nat.le_refl _, rfl, rfl⟩

/-- Only an operation that sends a statement adds an acknowledgement to the history, and no more than one. -/
theorem acks_exec (h : clientExec o a s = some (r, s')) :
    ∃ new, s'.events = s.events ++ new ∧ new.countP SqlEvent.isAck ≤ o.sends.toNat := by
  have hsame : ∀ {t : ExecSt}, t.events = s.events →
      ∃ new, t.events = s.events ++ new ∧ new.countP SqlEvent.isAck ≤ o.sends.toNat := fun h =>
    ⟨[], by rw [h, List.append_nil], Nat.zero_le _⟩
  by_cases ho : o.minor = true
  · obtain ⟨n, hn⟩ := (fades_exec ho h).events
    refine ⟨_, hn, ?_⟩
    rw [List.countP_replicate]
    simp [SqlEvent.isAck]
  cases o <;> simp only [ClientOp.minor, not_true_eq_false] at ho
  case mysqlRealConnect m o =>
    obtain ⟨p, -, ⟨-, -, -, rfl⟩ | ⟨-, rfl⟩⟩ := realConnect_exec h
    · exact hsame (by simp [ExecSt.connected])
    · exact hsame (by simp)
  case mysqlClose m =>
    cases m with
    | none => cases h; exact hsame rfl
    | some p => cases h; exact hsame (by simp)
  case mysqlRealQuery m sql =>
    obtain ⟨p, -, ⟨-, σ, -, rfl⟩ | ⟨-, rfl⟩⟩ := realQuery_exec h
    · exact ⟨[.acked σ.id sql], by simp, by simp [SqlEvent.isAck, ClientOp.sends]⟩
    · exact ⟨[.failed], by simp [ExecSt.failMysql, ExecSt.note], by simp [SqlEvent.isAck]⟩
  case mysqlStmtPrepare st sql =>
    obtain ⟨q, -, ⟨-, id, rfl⟩ | ⟨-, rfl⟩⟩ := stmtPrepare_exec h
    · exact hsame (by simp [ExecSt.setStmt])
    · exact ⟨[.failed], by simp [ExecSt.failStmt, ExecSt.note, ExecSt.setStmt], by simp [SqlEvent.isAck]⟩
  case mysqlStmtExecute st =>
    obtain ⟨q, p, -, -, ⟨-, σ, -, -, rfl⟩ | ⟨-, rfl⟩⟩ := stmtExecute_exec h
    · exact ⟨[.acked σ.id (s.stmts q).sql], by simp, by simp [SqlEvent.isAck, ClientOp.sends]⟩
    · exact ⟨[.failed], by simp [ExecSt.failStmt, ExecSt.note, ExecSt.setStmt], by simp [SqlEvent.isAck]⟩
  case crash why => cases h
  all_goals
    cases h
    exact hsame rfl

/-- An object that was opened just now has no text. -/
theorem stmtInit_exec {m : Option MysqlPtr} (h : clientExec (.mysqlStmtInit m) a s = some (some q, s')) :
    s.nextStmt ≤ q ∧ q < s'.nextStmt ∧ (s'.stmts q).session = none := by
  cases m with
  | none => cases h
  | some p =>
    simp only [clientExec] at h
    split at h
    · cases h
      exact ⟨(SameText.refl 0 s).enter.nextStmt, Nat.lt_succ_self _, by simp [ExecSt.setStmt]⟩
    · cases h

/-- An object that is opened is a new one. -/
theorem opened_exec {d : Sending} {T : Sql → Prop} (h : clientExec o a s = some (r, s'))
    (hq : q ∈ ((sendsOnce T).after d o r).opened) : q ∈ d.opened ∨ s.nextStmt ≤ q := by
  cases o with
  | mysqlStmtInit m =>
    cases r with
    | none => exact .inl hq
    | some q' =>
      rcases List.mem_cons.1 hq with rfl | hq
      · exact .inr (stmtInit_exec h).1
      · exact .inl hq
  | _ => exact .inl hq

/-- The object has no other text than one of `T`. -/
def OwnText (T : Sql → Prop) (s : ExecSt) (q : StmtPtr) : Prop :=
  q < s.nextStmt ∧ ((s.stmts q).session = none ∨ T (s.stmts q).sql)

theorem OwnText.same {T : Sql → Prop} (h : OwnText T s q) (ht : SameText q s s') : OwnText T s' q := by
  refine ⟨Nat.lt_of_lt_of_le h.1 ht.nextStmt, ?_⟩
  rw [ht.session, ht.sql]
  exact h.2

/-- **What is acknowledged is the statement that was to be sent.** -/
theorem sendsOnce_exec {d : Sending} {T : Sql → Prop} (hd : ∀ q ∈ d.opened, OwnText T s q)
    (ho : (sendsOnce T).allows d o) (h : clientExec o a s = some (r, s')) :
    (∀ q ∈ ((sendsOnce T).after d o r).opened, OwnText T s' q) ∧
      ∃ new, s'.events = s.events ++ new ∧ ∀ sql ∈ new.filterMap SqlEvent.text?, T sql := by
  -- a statement keeps its text through every call but a prepare of its own
  have hkeep : ∀ q ∈ d.opened, (∀ sql, o ≠ .mysqlStmtPrepare (some q) sql) → OwnText T s' q := fun q hq hne =>
    (hd q hq).same (text_exec (hd q hq).1 hne h)
  -- a call that sends nothing adds no acknowledgement
  have hnone : o.sends = false →
      ∃ new, s'.events = s.events ++ new ∧ ∀ sql ∈ new.filterMap SqlEvent.text?, T sql := by
    intro hs
    obtain ⟨new, hev, hle⟩ := acks_exec h
    rw [hs] at hle
    refine ⟨new, hev, fun sql hm => ?_⟩
    obtain ⟨ev, hmem, htext⟩ := List.mem_filterMap.1 hm
    cases ev with
    | acked id sql' => exact absurd rfl (List.countP_eq_zero.1 (Nat.le_zero.1 hle) _ hmem)
    | failed => cases htext
  -- the calls that reach the server are looked at one by one
  cases hsp : o.speaks
  · have hs : o.sends = false := by cases o <;> first | rfl | cases hsp
    rw [(idle_silent hsp).2 r]
    refine ⟨fun q hq => hkeep q hq fun sql heq => ?_, hnone hs⟩
    subst heq
    cases hsp
  cases o <;> simp only [ClientOp.speaks, Bool.false_eq_true] at hsp
  case mysqlRealQuery m sql =>
    refine ⟨fun q hq => hkeep q hq (by simp), ?_⟩
    obtain ⟨p, -, ⟨-, σ, -, rfl⟩ | ⟨-, rfl⟩⟩ := realQuery_exec h
    · exact ⟨[.acked σ.id sql], by simp, by simpa [SqlEvent.text?] using ho.2⟩
    · exact ⟨[.failed], by simp [ExecSt.failMysql, ExecSt.note], by simp [SqlEvent.text?]⟩
  case mysqlStmtInit m =>
    refine ⟨?_, hnone rfl⟩
    cases r with
    | none => exact fun q hq => hkeep q hq (by simp)
    | some q =>
      obtain ⟨-, hlt, hsession⟩ := stmtInit_exec h
      intro q' hq'
      rcases List.mem_cons.1 hq' with rfl | hq'
      · exact ⟨hlt, .inl hsession⟩
      · exact hkeep q' hq' (by simp)
  case mysqlStmtPrepare st sql =>
    refine ⟨fun q hq => ?_, hnone rfl⟩
    by_cases hst : st = some q
    · subst hst
      obtain ⟨q', hst, hs⟩ := stmtPrepare_exec h
      obtain rfl := Option.some.inj hst
      rcases hs with ⟨-, id, rfl⟩ | ⟨-, rfl⟩
      · -- it has the statement for its text now
        exact ⟨Nat.lt_of_lt_of_le (hd q hq).1 (SameText.refl q s).enter.nextStmt,
          .inr (by simpa [ExecSt.setStmt] using ho.1)⟩
      · exact (hd q hq).same (SameText.refl q s).enter.failStmt
    · exact hkeep q hq (by simpa using hst)
  case mysqlStmtExecute st =>
    refine ⟨fun q hq => hkeep q hq (by simp), ?_⟩
    obtain ⟨q, p, rfl, -, ⟨-, σ, -, hσ, rfl⟩ | ⟨-, rfl⟩⟩ := stmtExecute_exec h
    · refine ⟨[.acked σ.id (s.stmts q).sql], by simp, ?_⟩
      -- a statement that was never prepared has no session to run on
      rcases (hd q (ho.2.2 q rfl)).2 with hnone | hown
      · rw [hσ] at hnone
        cases hnone
      · simpa [SqlEvent.text?] using hown
    · exact ⟨[.failed], by simp [ExecSt.failStmt, ExecSt.note, ExecSt.setStmt], by simp [SqlEvent.text?]⟩

end Exec

/-! ## The executor's functions -/

/-- The program neither opens nor prepares nor sends a statement. -/
abbrev Silent {α : Type} (p : XProg α) : Prop := p.Uses fun o => o.speaks = false

/-- The program sends a statement of `T` once at most, after what has been done. -/
abbrev SendsOnce {α : Type} (T : Sql → Prop) (d : Sending) (p : XProg α) : Prop :=
  p.Obeys (sendsOnce T) d fun _ _ => True

namespace MysqlExecutor

variable {α : Type} {r : MysqlResults} {stmt : MysqlStatement} {sql : Sql} {args : List InputArg} {T : Sql → Prop}
  {d : Sending}

theorem silent_op {o : ClientOp} {f : o.Reply → XProg α} (ho : o.speaks = false) (hf : ∀ x, Silent (f x)) :
    Silent (xop o >>= f) := uses_op ho hf

theorem silent_single {o : ClientOp} (ho : o.speaks = false) : Silent (xop o) := ⟨ho, fun _ => trivial⟩

theorem silent_bind {β : Type} {p : XProg α} {f : α → XProg β} {Q : Sending → β → Prop} (hp : Silent p)
    (hf : ∀ x, (f x).Obeys (sendsOnce T) d Q) : (p >>= f).Obeys (sendsOnce T) d Q :=
  (hp.mono fun _ ho => idle_silent ho).idle_bind hf

theorem silent_once {p : XProg α} (hp : Silent p) : SendsOnce T d p :=
  (hp.mono fun _ ho => idle_silent ho).idle.mono fun _ _ _ => trivial

/-- One operation. -/
theorem once_op {o : ClientOp} {f : o.Reply → XProg α} (ho : (sendsOnce T).allows d o)
    (hf : ∀ x, SendsOnce T ((sendsOnce T).after d o x) (f x)) : SendsOnce T d (xop o >>= f) := ⟨ho, hf⟩

theorem silent_aside (o : ClientOp) (ho : o.aside = true) : o.speaks = false := by
  cases o <;> first | rfl | cases ho

theorem silent_ofConnect (o : ClientOp) (ho : o.ofConnect = true) : o.speaks = false := by
  cases o <;> first | rfl | cases ho

theorem silent_crash {why : Crash} : Silent (crash why : XProg α) := ⟨rfl, fun e => e.elim⟩

theorem silent_construct : Silent construct :=
  silent_op rfl fun _ => silent_op rfl fun _ => silent_op rfl fun _ => silent_op rfl fun _ => silent_op rfl fun _ =>
    silent_op rfl fun _ => trivial

theorem silent_connect : Silent connect := uses_connect silent_ofConnect

theorem silent_close : Silent close := by
  have hoff : Silent (setConnected false) := silent_op rfl fun _ => trivial
  refine silent_op rfl fun this => ?_
  dsimp only
  split
  · exact silent_op rfl fun _ => silent_op rfl fun _ => hoff
  · exact hoff

theorem silent_checkAlive : Silent checkAlive := uses_checkAlive silent_aside

theorem silent_getErrorMessage : Silent getErrorMessage := uses_mysqlError silent_aside

theorem silent_getErrorNumber : Silent getErrorNumber := uses_mysqlErrno silent_aside

theorem silent_stmtMessage : Silent stmt.getErrorMessage := uses_stmtError silent_aside stmt

theorem silent_stmtNumber : Silent stmt.getErrorNumber := uses_stmtErrno silent_aside stmt

theorem silent_endStatement : Silent (endStatement stmt) := uses_endStatement silent_aside stmt

theorem silent_clearResults : Silent (clearResults r) := silent_op rfl fun _ => trivial

theorem silent_mysqlStatus : Silent mysqlStatus :=
  silent_getErrorNumber.bind fun _ => silent_getErrorMessage.bind fun _ => trivial

theorem silent_stmtStatus : Silent (stmtStatus stmt) :=
  silent_stmtNumber.bind fun _ => silent_stmtMessage.bind fun _ => trivial

theorem silent_setStmtError : Silent (setStmtError r stmt) :=
  silent_stmtMessage.bind fun _ => silent_stmtNumber.bind fun _ => trivial

theorem silent_setMysqlError : Silent (setMysqlError r) :=
  silent_getErrorMessage.bind fun _ => silent_getErrorNumber.bind fun _ => trivial

/-- A failure of the statement is reported, and the statement is closed. -/
theorem silent_stmtFailure {f : MysqlResults → XProg α} (hf : ∀ r, Silent (f r)) :
    Silent (setStmtError r stmt >>= fun r => endStatement stmt >>= fun _ => f r) :=
  silent_setStmtError.bind fun r => silent_endStatement.bind fun _ => hf r

theorem silent_bindInputArgs (args : List InputArg) : Silent (bindInputArgs args) := uses_bindInputArgs silent_aside args

theorem silent_fetchRow (handle : QueryHandle) (row : ServerRow) : Silent (fetchRow stmt handle row) :=
  uses_fetchRow stmt handle row fun _ _ => rfl

theorem silent_fetchLoop : ∀ (n : ℕ) (handle : QueryHandle) (r : MysqlResults), Silent (fetchLoop stmt n handle r) := by
  intro n
  induction n with
  | zero =>
    intro handle r
    refine silent_op rfl fun x => ?_
    cases x with
    | row cols => exact silent_crash
    | noData => trivial
    | error => trivial
  | succ n ih =>
    intro handle r
    refine silent_op rfl fun x => ?_
    cases x with
    | row cols => exact (silent_fetchRow handle cols).bind fun handle => ih handle _
    | noData => trivial
    | error => trivial

theorem silent_fetchResults {handle : QueryHandle} : Silent (fetchResults handle stmt r) := by
  refine silent_op rfl fun x => ?_
  cases x with
  | none => trivial
  | some n => exact silent_fetchLoop n handle r

/-- `Init` opens an object and gives it the text. -/
theorem init_obeys (hT : T sql) : (stmt.init sql).Obeys (sendsOnce T) d fun d' x =>
    d'.sent = d.sent ∧ ∀ q ∈ x.2.mysqlStmt, q ∈ d'.opened := by
  refine ⟨trivial, fun st => ?_⟩
  cases st with
  | none => exact ⟨rfl, by simp⟩
  | some q =>
    have hopened : ∀ q' ∈ some q, q' ∈ q :: d.opened := by simp
    refine ⟨⟨hT, hopened⟩, fun prepared => ?_⟩
    cases prepared
    · exact ⟨rfl, hopened⟩
    · exact ⟨trivial, fun _ => ⟨trivial, fun _ => ⟨rfl, hopened⟩⟩⟩

/-- The connection may be made anew, up to five times; the statement is sent once. -/
theorem once_executeStatement (outputs : Bool) (hT : T sql) (hd : d.sent = false)
    (hq : ∀ q ∈ stmt.mysqlStmt, q ∈ d.opened) : SendsOnce T d (executeStatement outputs stmt) := by
  have hsend : SendsOnce T d (do
      if !(← mysqlStmtExecute stmt.mysqlStmt) then return ← stmtStatus stmt
      return {} : XProg Status) := by
    refine once_op ⟨hd, ⟨sql, hT⟩, hq⟩ fun sent => ?_
    cases sent
    · exact silent_once silent_stmtStatus
    · trivial
  have hbind : SendsOnce T d (do
      if outputs then
        if !(← mysqlStmtBindResult stmt.mysqlStmt) then return ← stmtStatus stmt
      if !(← mysqlStmtExecute stmt.mysqlStmt) then return ← stmtStatus stmt
      return {} : XProg Status) := by
    cases outputs
    · exact hsend
    · refine once_op trivial fun bound => ?_
      cases bound
      · exact silent_once silent_stmtStatus
      · exact hsend
  refine silent_bind silent_checkAlive fun alive => ?_
  cases alive
  · refine silent_bind (uses_retry silent_ofConnect _) fun made => ?_
    cases made
    · exact silent_once silent_mysqlStatus
    · exact hbind
  · exact hbind

theorem once_queryBound (handle : QueryHandle) (hT : T sql) (hd : d.sent = false)
    (hq : ∀ q ∈ stmt.mysqlStmt, q ∈ d.opened) : SendsOnce T d (queryBound handle stmt r) := by
  refine (once_executeStatement true hT hd hq).bind fun d' s _ => silent_once ?_
  dsimp only
  split
  · exact silent_endStatement.bind fun _ => trivial
  · refine silent_fetchResults.bind fun x => ?_
    obtain ⟨fetched, r⟩ := x
    cases fetched
    · exact silent_stmtFailure fun _ => trivial
    · exact silent_op rfl fun _ => silent_endStatement.bind fun _ => trivial

theorem once_queryPrepared (outputs : List OutputArg) (hT : T sql) (hd : d.sent = false)
    (hq : ∀ q ∈ stmt.mysqlStmt, q ∈ d.opened) : SendsOnce T d (queryPrepared outputs stmt r) := by
  refine once_op trivial fun told => ?_
  cases told with
  | none => exact silent_once silent_crash
  | some fields => exact once_queryBound _ hT hd hq

theorem once_queryAllBind (outputs : List OutputArg) (hT : T sql) (hd : d.sent = false) :
    SendsOnce T d (queryAllBind outputs r sql args) := by
  refine silent_bind silent_clearResults fun r => once_op trivial fun this => (init_obeys hT).bind fun d' x hx => ?_
  obtain ⟨ok, stmt⟩ := x
  obtain ⟨hsent, hq⟩ := hx
  cases ok
  · exact silent_once (silent_stmtFailure fun _ => trivial)
  refine once_op trivial fun told => ?_
  cases told with
  | none => exact silent_once silent_crash
  | some fields =>
    dsimp only
    split
    · exact silent_once (silent_endStatement.bind fun _ => trivial)
    · refine silent_bind (silent_bindInputArgs args) fun _ => once_op trivial fun bound => ?_
      cases bound
      · exact silent_once (silent_stmtFailure fun _ => trivial)
      · exact once_queryPrepared outputs hT (hsent.trans hd) hq

/-- What is sent is what `FormatQuery` makes of the statement. -/
theorem once_queryAllNative (hT : ∀ fmt sent, Formatter.formatSql fmt args sql = some sent → T sent)
    (hd : d.sent = false) : SendsOnce T d (queryAllNative r sql args) := by
  refine silent_bind silent_clearResults fun r => once_op trivial fun sent => ?_
  cases sent with
  | none => exact ⟨trivial, fun e => e.elim⟩
  | some sent =>
  obtain ⟨sent, fmt, hsent⟩ := sent
  refine once_op trivial fun this => once_op ⟨hd, hT fmt sent hsent⟩ fun sent => silent_once ?_
  cases sent
  · exact silent_setMysqlError.bind fun _ => trivial
  · refine silent_op rfl fun this => silent_op rfl fun stored => ?_
    cases stored with
    | none => exact silent_setMysqlError.bind fun _ => trivial
    | some res => trivial

theorem once_executeText (hT : T sql) (hd : d.sent = false) : SendsOnce T d (executeText r sql) := by
  refine once_op trivial fun this => once_op ⟨hd, hT⟩ fun sent => silent_once ?_
  cases sent
  · exact silent_setMysqlError.bind fun _ => trivial
  · exact silent_op rfl fun _ => silent_op rfl fun _ => trivial

theorem once_executePrepared (hT : T sql) (hd : d.sent = false) : SendsOnce T d (executePrepared r sql args) := by
  refine silent_bind silent_clearResults fun r => once_op trivial fun this => (init_obeys hT).bind fun d' x hx => ?_
  obtain ⟨ok, stmt⟩ := x
  obtain ⟨hsent, hq⟩ := hx
  cases ok
  · exact silent_once (silent_stmtFailure fun _ => trivial)
  refine silent_bind (silent_bindInputArgs args) fun _ => once_op trivial fun bound => ?_
  cases bound
  · exact silent_once (silent_stmtFailure fun _ => trivial)
  refine (once_executeStatement false hT (hsent.trans hd) hq).bind fun d' s _ => silent_once ?_
  dsimp only
  split
  · exact silent_endStatement.bind fun _ => trivial
  · exact silent_op rfl fun _ => silent_op rfl fun _ => silent_endStatement.bind fun _ => trivial

/-- **`Execute` and `QueryAll`, in every mode, send their statement once at most.** -/
theorem runStatement_obeys (hT : ∀ sent, Sql.Sent r.mode sql args sent → T sent) (hd : d.sent = false) :
    SendsOnce T d (runStatement r sql args) := by
  have hquery : SendsOnce T d (queryAll r sql args) := by
    unfold queryAll
    dsimp only
    split
    · rename_i outputs hm
      refine (once_queryAllBind outputs (hT sql (.same (by simp [hm]))) hd).bind fun d' x _ => ?_
      obtain ⟨ok, r⟩ := x
      cases ok <;> trivial
    · rename_i hm
      refine (once_queryAllNative (fun fmt sent h => hT sent (by rw [hm]; exact ⟨fmt, h⟩)) hd).bind fun d' x _ => ?_
      obtain ⟨ok, r⟩ := x
      cases ok <;> trivial
    · refine silent_once (silent_crash.bind fun x => ?_)
      obtain ⟨ok, r⟩ := x
      cases ok <;> trivial
  have hexecute : r.mode = .onlyExec → SendsOnce T d (execute r sql args) := by
    intro hm
    have hown : T sql := hT sql (.same (by simp [hm]))
    unfold execute
    split
    · refine (once_executeText hown hd).bind fun d' x _ => ?_
      trivial
    · refine (once_executePrepared hown hd).bind fun d' x _ => ?_
      trivial
  unfold runStatement
  split
  · rename_i hm
    exact hexecute hm
  · exact hquery

end MysqlExecutor

end TrpcMysql
