import TrpcMysql.Proxy.Aside

/-!
# Filter points in balance

Which filter points a call runs, on every path and whatever the replies are. `balanced_iff`: the points
of a path are in balance (`Balanced`) exactly if the path stays clear of the exits that lose a
point or run it twice (`Call.Regular`):

* the asynchronous queries, with or without a handle, and the calls that end a transaction: the filters of
  CLIENT_PRE_SEND_MSG reject, and CLIENT_POST_RPC_INVOKE runs in `AsyncUnaryInvoke` and again in the
  continuation;
* `Begin`: no target is found;
* `AsyncBegin`: everything but a rejection by the filters, since its continuation runs no filters.

The functions between the filter points run no filters (`quiet_task`, `quiet_endTransaction`), and each
function with filter points has one lemma that lists its traces.
-/

namespace TrpcMysql

open Conc MysqlExecutorPool MysqlServiceProxy

/-- What counts of a path: the filter points with the filters' verdicts, and whether the selector found a
target. -/
inductive Seen where
  | filters (pt : FilterPoint) (pass : Bool)
  | target (found : Bool)
  deriving DecidableEq

def seenOf : (o : WorldOp) → o.Reply → List Seen
  | .runFilters pt _, pass => [.filters pt pass]
  | .selectTarget, addr => [.target addr.isOk]
  | _, _ => []

/-- The filter points of a path, in order. -/
def points (tr : List Seen) : List FilterPoint :=
  tr.filterMap fun
    | .filters pt _ => some pt
    | .target _ => none

/-- Every message sent is followed by its answer. -/
inductive Answered : List FilterPoint → Prop
  | nil : Answered []
  | send {pts : List FilterPoint} (h : Answered pts) : Answered (.preSendMsg :: .postRecvMsg :: pts)

/-- One CLIENT_PRE_RPC_INVOKE and one CLIENT_POST_RPC_INVOKE around the messages. -/
def Balanced (pts : List FilterPoint) : Prop :=
  ∃ msgs, Answered msgs ∧ pts = .preRpcInvoke :: msgs ++ [.postRpcInvoke]

/-- An operation that is neither a filter point nor the selector. -/
def Unseen : WorldOp → Prop
  | .runFilters .. | .selectTarget => False
  | _ => True

theorem seenOf_quiet {o : WorldOp} {r : o.Reply} (h : Unseen o) : seenOf o r = [] := by
  cases o <;> first | rfl | exact absurd h id

section Programs

variable {α : Type} {p : PoolId} {x : CtxId} {e : ExecId} {h : HandleId}

/-! ## Functions without filter points -/

theorem quiet_op {o : WorldOp} (ho : Unseen o) : (wop o).Uses Unseen := ⟨ho, fun _ => trivial⟩

theorem quiet_then {o : WorldOp} {f : o.Reply → WProg α} (ho : Unseen o) (hf : ∀ r, (f r).Uses Unseen) :
    (wop o >>= f).Uses Unseen := ⟨ho, hf⟩

theorem quiet_onExecutor (q : XProg α) : (onExecutor e q).Uses Unseen := Prog.uses_lift (fun _ => trivial) q

theorem quiet_crashed : (crashed : WProg α).Uses Unseen := ⟨trivial, fun r => r.elim⟩

/-- A program that touches no context. -/
theorem quiet_still {q : WProg α} (hq : q.Uses Still) : q.Uses Unseen :=
  (still_aside hq).mono fun o ho => by cases o <;> trivial

theorem quiet_get (addr : NodeAddr) : (MysqlExecutorPoolManager.get addr).Uses Unseen :=
  quiet_still (pooled_still (pooled_get addr))

theorem quiet_getExecutor : (getExecutor p).Uses Unseen := quiet_still (pooled_still pooled_getExecutor)

theorem quiet_reclaim (from? : Option HandleId) : (reclaim p e from?).Uses Unseen :=
  quiet_still (uses_reclaim (fun _ ho => ho.still) fun _ => ⟨trivial, rfl⟩)

theorem quiet_connectionFailed : (connectionFailed x e).Uses Unseen :=
  quiet_then trivial fun _ => (quiet_onExecutor _).bind fun _ => (quiet_onExecutor _).bind fun _ =>
    quiet_then trivial fun _ => trivial

theorem quiet_task (executor : Option ExecId) (r : MysqlResults) (sql : Sql) (args : List InputArg) :
    (task x executor r sql args).Uses Unseen := by
  cases executor with
  | none =>
    refine quiet_then trivial fun addr => (quiet_get addr).bind fun p => quiet_getExecutor.bind fun conn =>
      (quiet_onExecutor _).bind fun ok => ?_
    split
    · exact quiet_connectionFailed.bind fun _ => quiet_then trivial fun _ => trivial
    · refine (quiet_onExecutor _).bind fun out => (quiet_reclaim none).bind fun kept => ?_
      split
      · exact quiet_then trivial fun _ => trivial
      · trivial
  | some e =>
    refine (quiet_onExecutor _).bind fun ok => ?_
    split
    · exact quiet_connectionFailed.bind fun _ => trivial
    · exact (quiet_onExecutor _).bind fun out => trivial

theorem quiet_handleAlive : (handleAlive h).Uses Unseen := quiet_still still_handleAlive

theorem quiet_endTransaction (rollback : Bool) : (endTransaction h rollback).Uses Unseen :=
  quiet_still (still_endTransaction rollback)

/-! ## Functions with filter points -/

variable {Q : List Seen → α → Prop} {β : Type}

theorem shows_quiet {q : WProg β} {f : β → WProg α} (hq : q.Uses Unseen) (hf : ∀ b, (f b).Shows seenOf Q) :
    (q >>= f).Shows seenOf Q := by
  rw [Prog.shows_bind]
  refine (hq.shows fun _ _ => seenOf_quiet).mono fun tr b htr => ?_
  subst htr
  exact hf b

theorem shows_op {o : WorldOp} {f : o.Reply → WProg α} (ho : Unseen o) (hf : ∀ b, (f b).Shows seenOf Q) :
    (wop o >>= f).Shows seenOf Q := shows_quiet (quiet_op ho) hf

theorem shows_filters {pt : FilterPoint} {f : Bool → WProg α}
    (hf : ∀ pass, (f pass).Shows seenOf fun tr a => Q (.filters pt pass :: tr) a) :
    (wop (.runFilters pt x) >>= f).Shows seenOf Q := Prog.shows_act.2 hf

theorem shows_call {q : WProg β} {f : β → WProg α} {P : List Seen → Prop} (hq : q.Shows seenOf fun tr _ => P tr)
    (hf : ∀ tr b, P tr → (f b).Shows seenOf fun tr' a => Q (tr ++ tr') a) : (q >>= f).Shows seenOf Q := by
  rw [Prog.shows_bind]
  exact hq.mono fun tr b htr => hf tr b htr

theorem shows_pure {a : α} (h : Q [] a) : (pure a : WProg α).Shows seenOf Q := Prog.shows_ret.2 h

/-- The rest of a call. -/
theorem shows_rest {q : WProg α} (hq : q.Uses Unseen) (h : ∀ a, Q [] a) : q.Shows seenOf Q :=
  (hq.shows fun _ _ => seenOf_quiet).mono fun _ a ht => by rw [ht]; exact h a

/-- What a synchronous invocation shows: nothing, or a message and its answer. -/
def Sent (tr : List Seen) : Prop :=
  tr = [] ∨ ∃ a b, tr = [.filters .preSendMsg a, .filters .postRecvMsg b]

theorem unaryInvoke_shows (executor : Option ExecId) (r : MysqlResults) (sql : Sql) (args : List InputArg) :
    (unaryInvoke x executor r sql args).Shows seenOf fun tr _ => Sent tr := by
  refine shows_op trivial fun late => ?_
  split
  · exact shows_pure (.inl rfl)
  refine shows_filters fun sent => ?_
  split
  · exact shows_filters fun b => shows_pure (.inr ⟨_, b, rfl⟩)
  refine shows_op trivial fun _ => shows_quiet (quiet_task executor r sql args) fun out => ?_
  dsimp only
  split
  · exact shows_op trivial fun _ => shows_filters fun b => shows_pure (.inr ⟨_, b, rfl⟩)
  · exact shows_filters fun b => shows_pure (.inr ⟨_, b, rfl⟩)

/-- What an asynchronous invocation shows: when the filters reject the message, the end of a call. -/
def AsyncSent (tr : List Seen) : Prop :=
  tr = [] ∨ (∃ b, tr = [.filters .preSendMsg true, .filters .postRecvMsg b]) ∨
    ∃ b c, tr = [.filters .preSendMsg false, .filters .postRecvMsg b, .filters .postRpcInvoke c]

theorem asyncUnaryInvoke_shows (executor : Option ExecId) (mode : MysqlResultsMode) (sql : Sql)
    (args : List InputArg) : (asyncUnaryInvoke x executor mode sql args).Shows seenOf fun tr _ => AsyncSent tr := by
  refine shows_op trivial fun late => ?_
  split
  · exact shows_op trivial fun _ => shows_pure (.inl rfl)
  refine shows_filters fun sent => ?_
  cases sent with
  | false =>
    exact shows_filters fun b => shows_filters fun c => shows_op trivial fun _ =>
      shows_pure (.inr (.inr ⟨b, c, rfl⟩))
  | true =>
    refine shows_op trivial fun _ => shows_quiet (quiet_task executor _ sql args) fun out =>
      shows_filters fun b => ?_
    have hb : AsyncSent [.filters .preSendMsg true, .filters .postRecvMsg b] := .inr (.inl ⟨b, rfl⟩)
    cases out with
    | error message => exact shows_pure hb
    | ok r =>
      dsimp only
      split
      · exact shows_pure hb
      · exact shows_pure hb

/-- What a synchronous call shows. -/
def SyncTrace (tr : List Seen) : Prop :=
  ∃ a b msgs, Sent msgs ∧ tr = .filters .preRpcInvoke a :: (msgs ++ [.filters .postRpcInvoke b])

/-- What an asynchronous query shows. -/
def AsyncTrace (tr : List Seen) : Prop :=
  ∃ a b msgs, AsyncSent msgs ∧ tr = .filters .preRpcInvoke a :: (msgs ++ [.filters .postRpcInvoke b])

theorem query_shows (r : MysqlResults) (sql : Sql) (args : List InputArg) :
    (query x r sql args).Shows seenOf fun tr _ => SyncTrace tr := by
  refine shows_filters fun a => ?_
  cases a with
  | false =>
    exact shows_filters fun b => shows_op trivial fun _ => shows_pure ⟨false, b, [], .inl rfl, rfl⟩
  | true =>
    refine shows_call (unaryInvoke_shows none r sql args) fun msgs r' hm => ?_
    exact shows_filters fun b => shows_op trivial fun _ => shows_pure ⟨true, b, msgs, hm, rfl⟩

theorem handleInvoke_shows (r : MysqlResults) (sql : Sql) (args : List InputArg) :
    (handleInvoke x h r sql args).Shows seenOf fun tr _ => Sent tr := by
  refine shows_op trivial fun st => ?_
  split
  · exact shows_op trivial fun _ => shows_pure (.inl rfl)
  refine shows_quiet quiet_handleAlive fun alive => ?_
  split
  · exact shows_op trivial fun _ => shows_op trivial fun _ => shows_pure (.inl rfl)
  refine shows_op trivial fun executor => shows_call (unaryInvoke_shows executor r sql args) fun msgs r' hm => ?_
  cases executor with
  | none => exact shows_pure (by simpa using hm)
  | some e => exact shows_op trivial fun _ => shows_pure (by simpa using hm)

theorem queryTx_shows (r : MysqlResults) (sql : Sql) (args : List InputArg) :
    (queryTx x h r sql args).Shows seenOf fun tr _ => SyncTrace tr := by
  refine shows_filters fun a => ?_
  cases a with
  | false =>
    exact shows_filters fun b => shows_op trivial fun _ => shows_pure ⟨false, b, [], .inl rfl, rfl⟩
  | true =>
    refine shows_call (handleInvoke_shows r sql args) fun msgs r' hm => ?_
    exact shows_filters fun b => shows_op trivial fun _ => shows_pure ⟨true, b, msgs, hm, rfl⟩

theorem asyncQuery_shows (mode : MysqlResultsMode) (sql : Sql) (args : List InputArg) :
    (asyncQuery x mode sql args).Shows seenOf fun tr _ => AsyncTrace tr := by
  refine shows_filters fun a => ?_
  cases a with
  | false =>
    exact shows_op trivial fun _ => shows_filters fun b => shows_pure ⟨false, b, [], .inl rfl, rfl⟩
  | true =>
    refine shows_call (asyncUnaryInvoke_shows none mode sql args) fun msgs out hm => ?_
    exact shows_filters fun b => shows_pure ⟨true, b, msgs, hm, rfl⟩

theorem asyncQueryTx_shows (mode : MysqlResultsMode) (sql : Sql) (args : List InputArg) :
    (asyncQueryTx x h mode sql args).Shows seenOf fun tr _ => AsyncTrace tr := by
  refine shows_filters fun a => ?_
  cases a with
  | false =>
    exact shows_op trivial fun _ => shows_filters fun b => shows_pure ⟨false, b, [], .inl rfl, rfl⟩
  | true =>
    refine shows_op trivial fun st => ?_
    split
    · exact shows_op trivial fun _ => shows_filters fun b => shows_pure ⟨true, b, [], .inl rfl, rfl⟩
    refine shows_quiet quiet_handleAlive fun alive => ?_
    split
    · exact shows_op trivial fun _ => shows_op trivial fun _ => shows_filters fun b =>
        shows_pure ⟨true, b, [], .inl rfl, rfl⟩
    refine shows_op trivial fun executor =>
      shows_call (asyncUnaryInvoke_shows executor mode sql args) fun msgs out hm => shows_filters fun b => ?_
    cases executor with
    | none => exact shows_pure ⟨true, b, msgs, hm, rfl⟩
    | some e => exact shows_op trivial fun _ => shows_pure ⟨true, b, msgs, hm, rfl⟩

/-- The selector is asked, or the context has an address. -/
theorem beginAddr_shows : (beginAddr x).Shows seenOf fun tr addr =>
    (addr.toOption = none ∧ tr = [.target false]) ∨ (addr.toOption ≠ none ∧ (tr = [] ∨ tr = [.target true])) := by
  refine shows_op trivial fun addr => ?_
  split
  · refine Prog.shows_act.2 fun found => ?_
    cases found with
    | error text => exact shows_op trivial fun _ => shows_pure (.inl ⟨rfl, rfl⟩)
    | ok addr => exact shows_pure (.inr ⟨by simp [Except.toOption], .inr rfl⟩)
  · exact shows_pure (.inr ⟨by simp [Except.toOption], .inl rfl⟩)

/-- What `Begin` shows. -/
def BeginTrace (tr : List Seen) : Prop :=
  tr = [.filters .preRpcInvoke true, .target false] ∨ ∃ a b found msgs, (found = [] ∨ found = [.target true]) ∧
    Sent msgs ∧ tr = .filters .preRpcInvoke a :: (found ++ (msgs ++ [.filters .postRpcInvoke b]))

theorem beginOn_shows : (beginOn x e).Shows seenOf fun tr _ =>
    ∃ b msgs, Sent msgs ∧ tr = msgs ++ [.filters .postRpcInvoke b] := by
  -- the part after the statement
  have hend : ∀ handle : Option HandleId, Prog.Shows seenOf (do
      let _ ← wop (.runFilters .postRpcInvoke x)
      let s ← wop (.getStatus x)
      if handle.isNone then do
        wop (.release e)
        pure (s, handle)
      else pure (s, handle) : WProg (Status × Option HandleId)) fun tr _ =>
        ∃ b, tr = [.filters .postRpcInvoke b] := by
    intro handle
    refine shows_filters fun b => shows_op trivial fun s => ?_
    split
    · exact shows_op trivial fun _ => shows_pure ⟨b, rfl⟩
    · exact shows_pure ⟨b, rfl⟩
  refine shows_quiet (quiet_onExecutor _) fun ok => ?_
  dsimp only
  split
  · refine shows_quiet quiet_connectionFailed fun _ => shows_op trivial fun s => ?_
    split
    · exact shows_op trivial fun h => (hend (some h)).mono fun tr _ ⟨b, hb⟩ => ⟨b, [], .inl rfl, hb⟩
    · exact (hend none).mono fun tr _ ⟨b, hb⟩ => ⟨b, [], .inl rfl, hb⟩
  · refine shows_call (unaryInvoke_shows (some e) _ .begin []) fun msgs r hm => shows_op trivial fun s => ?_
    split
    · exact shows_op trivial fun h => (hend (some h)).mono fun tr _ ⟨b, hb⟩ => ⟨b, msgs, hm, by rw [hb]⟩
    · exact (hend none).mono fun tr _ ⟨b, hb⟩ => ⟨b, msgs, hm, by rw [hb]⟩

theorem begin_shows : (begin x).Shows seenOf fun tr _ => BeginTrace tr := by
  refine shows_filters fun a => ?_
  cases a with
  | false =>
    refine shows_filters fun b => shows_op trivial fun _ => shows_pure ?_
    exact .inr ⟨false, b, [], [], .inl rfl, .inl rfl, rfl⟩
  | true =>
    refine (Prog.shows_bind (p := beginAddr x)).2 (beginAddr_shows.mono fun found addr hf => ?_)
    cases addr with
    | error text =>
      obtain ⟨-, rfl⟩ := hf.resolve_right fun h => h.1 rfl
      exact shows_op trivial fun _ => shows_pure (.inl rfl)
    | ok addr =>
      obtain ⟨-, hf⟩ := hf.resolve_left fun h => by cases h.1
      refine shows_quiet (quiet_get addr) fun p => shows_quiet quiet_getExecutor fun e => ?_
      refine beginOn_shows.mono fun tr _ ⟨b, msgs, hm, ht⟩ => .inr ⟨true, b, found, msgs, hf, hm, ?_⟩
      rw [ht]

/-- What `AsyncBegin` shows. -/
def AsyncBeginTrace (tr : List Seen) : Prop :=
  tr = [.filters .preRpcInvoke true, .target false] ∨
    (∃ b, tr = [.filters .preRpcInvoke false, .filters .postRpcInvoke b]) ∨
    ∃ found msgs, (found = [] ∨ found = [.target true]) ∧ AsyncSent msgs ∧
      tr = .filters .preRpcInvoke true :: (found ++ msgs)

theorem asyncBeginOn_shows : (asyncBeginOn x e).Shows seenOf fun tr _ => AsyncSent tr := by
  refine shows_quiet (quiet_onExecutor _) fun ok => ?_
  split
  · exact shows_quiet quiet_connectionFailed fun _ => shows_op trivial fun _ => shows_pure (.inl rfl)
  refine shows_call (asyncUnaryInvoke_shows (some e) .onlyExec .begin []) fun msgs out hm => ?_
  cases out with
  | error message => exact shows_op trivial fun _ => shows_pure (by simpa using hm)
  | ok r => exact shows_op trivial fun _ => shows_pure (by simpa using hm)

theorem asyncBegin_shows : (asyncBegin x).Shows seenOf fun tr _ => AsyncBeginTrace tr := by
  refine shows_filters fun a => ?_
  cases a with
  | false =>
    exact shows_op trivial fun _ => shows_filters fun b => shows_pure (.inr (.inl ⟨b, rfl⟩))
  | true =>
    refine (Prog.shows_bind (p := beginAddr x)).2 (beginAddr_shows.mono fun found addr hf => ?_)
    cases addr with
    | error text =>
      obtain ⟨-, rfl⟩ := hf.resolve_right fun h => h.1 rfl
      exact shows_pure (.inl rfl)
    | ok addr =>
      obtain ⟨-, hf⟩ := hf.resolve_left fun h => by cases h.1
      refine shows_quiet (quiet_get addr) fun p => shows_quiet quiet_getExecutor fun e => ?_
      exact asyncBeginOn_shows.mono fun msgs _ hm => .inr (.inr ⟨found, msgs, hf, hm, rfl⟩)

theorem finish_shows (rollback : Bool) : (finish x h rollback).Shows seenOf fun tr _ => SyncTrace tr := by
  refine shows_call (queryTx_shows _ _ []) fun tr out ht => shows_rest ?_ fun _ => by rwa [List.append_nil]
  obtain ⟨s, r⟩ := out
  dsimp only
  split
  · exact quiet_then trivial fun _ => quiet_op trivial
  · exact (quiet_endTransaction rollback).bind fun _ => quiet_op trivial

theorem asyncCommit_shows : (asyncCommit x h).Shows seenOf fun tr _ => AsyncTrace tr := by
  refine shows_call (asyncQueryTx_shows .onlyExec .commit []) fun tr out ht =>
    shows_rest ?_ fun _ => by rwa [List.append_nil]
  cases out with
  | error message => trivial
  | ok r => exact (quiet_endTransaction false).bind fun _ => trivial

theorem asyncRollback_shows : (asyncRollback x h).Shows seenOf fun tr _ => AsyncTrace tr := by
  refine shows_call (asyncQueryTx_shows .onlyExec .rollback []) fun tr out ht =>
    shows_rest ?_ fun _ => by rwa [List.append_nil]
  cases out with
  | error message => exact quiet_crashed
  | ok r => exact (quiet_endTransaction true).bind fun _ => trivial

end Programs

/-! ## Balance -/

/-- A call of the proxy's own functions. -/
def Call.isRpc : Call → Bool
  | .moveHandle _ | .dropHandle _ | .stop _ | .destroy _ => false
  | _ => true

/-- The path stays clear of the exits that lose a filter point or run it twice. -/
def Call.Regular : Call → List Seen → Prop
  | .asyncQuery .., tr | .asyncQueryTx .., tr | .asyncFinish .., tr => .filters .preSendMsg false ∉ tr
  | .begin _, tr => .target false ∉ tr
  | .asyncBegin _, tr => .filters .preRpcInvoke false ∈ tr ∨ .filters .preSendMsg false ∈ tr
  | _, _ => True

theorem Balanced.post {pts : List FilterPoint} (h : Balanced pts) : pts.count .postRpcInvoke = 1 := by
  obtain ⟨msgs, hm, rfl⟩ := h
  have : msgs.count .postRpcInvoke = 0 := by
    induction hm with
    | nil => rfl
    | send _ ih => simpa using ih
  simp [this]

theorem balanced_sent {found m : List Seen} (a b : Bool) (hf : found = [] ∨ found = [.target true]) (hm : Sent m) :
    Balanced (points (.filters .preRpcInvoke a :: (found ++ (m ++ [.filters .postRpcInvoke b])))) := by
  rcases hm with rfl | ⟨c, d, rfl⟩
  · refine ⟨[], .nil, ?_⟩
    rcases hf with rfl | rfl <;> rfl
  · refine ⟨_, .send .nil, ?_⟩
    rcases hf with rfl | rfl <;> rfl

theorem SyncTrace.balanced {tr : List Seen} (h : SyncTrace tr) : Balanced (points tr) := by
  obtain ⟨a, b, msgs, hm, rfl⟩ := h
  exact balanced_sent a b (.inl rfl) hm

theorem AsyncTrace.balanced_iff {tr : List Seen} (h : AsyncTrace tr) :
    Balanced (points tr) ↔ Seen.filters .preSendMsg false ∉ tr := by
  obtain ⟨a, b, msgs, hm, rfl⟩ := h
  rcases hm with rfl | ⟨c, rfl⟩ | ⟨c, d, rfl⟩
  · exact ⟨fun _ => by simp, fun _ => balanced_sent a b (.inl rfl) (.inl rfl)⟩
  · exact ⟨fun _ => by simp, fun _ => balanced_sent a b (.inl rfl) (.inr ⟨_, _, rfl⟩)⟩
  · refine ⟨fun hb => ?_, fun hn => absurd (by simp) hn⟩
    have := hb.post
    simp [points] at this

theorem BeginTrace.balanced_iff {tr : List Seen} (h : BeginTrace tr) :
    Balanced (points tr) ↔ Seen.target false ∉ tr := by
  rcases h with rfl | ⟨a, b, found, msgs, hf, hm, rfl⟩
  · refine ⟨fun hb => ?_, fun hn => absurd (by simp) hn⟩
    have := hb.post
    simp [points] at this
  · refine ⟨fun _ => ?_, fun _ => balanced_sent a b hf hm⟩
    rcases hf with rfl | rfl <;> rcases hm with rfl | ⟨c, d, rfl⟩ <;> simp

theorem AsyncBeginTrace.balanced_iff {tr : List Seen} (h : AsyncBeginTrace tr) :
    Balanced (points tr) ↔ Seen.filters .preRpcInvoke false ∈ tr ∨ Seen.filters .preSendMsg false ∈ tr := by
  rcases h with rfl | ⟨b, rfl⟩ | ⟨found, msgs, hf, hm, rfl⟩
  · refine ⟨fun hb => ?_, fun hn => absurd hn (by simp)⟩
    have := hb.post
    simp [points] at this
  · exact ⟨fun _ => by simp, fun _ => balanced_sent _ b (.inl rfl) (.inl rfl)⟩
  · rcases hm with rfl | ⟨c, rfl⟩ | ⟨c, d, rfl⟩
    · refine ⟨fun hb => ?_, fun hn => absurd hn (by rcases hf with rfl | rfl <;> simp)⟩
      have := hb.post
      rcases hf with rfl | rfl <;> simp [points] at this
    · refine ⟨fun hb => ?_, fun hn => absurd hn (by rcases hf with rfl | rfl <;> simp)⟩
      have := hb.post
      rcases hf with rfl | rfl <;> simp [points] at this
    · refine ⟨fun _ => by simp, fun _ => ?_⟩
      exact balanced_sent (m := [.filters .preSendMsg false, .filters .postRecvMsg c]) true d hf (.inr ⟨_, _, rfl⟩)

/-- **The filter points of a path are in balance if and only if the path is regular.** -/
theorem filters_balanced_iff (c : Call) (hc : c.isRpc = true) {tr : List Seen} {r : Result}
    (hp : c.prog.Path seenOf tr r) : Balanced (points tr) ↔ c.Regular tr := by
  have hseq : ∀ {α : Type} {q : WProg α} {f : α → Result} {P : List Seen → Prop},
      q.Shows seenOf (fun tr _ => P tr) → (do return f (← q) : WProg Result).Path seenOf tr r → P tr := by
    intro α q f P hq hp
    have h : (do return f (← q) : WProg Result).Shows seenOf fun tr _ => P tr :=
      shows_call hq fun tr a ht => shows_pure (by rwa [List.append_nil])
    exact h tr r hp
  cases c with
  | query x r text args => exact iff_of_true (hseq (query_shows r _ args) hp).balanced trivial
  | queryTx x h r text args => exact iff_of_true (hseq (queryTx_shows r _ args) hp).balanced trivial
  | asyncQuery x mode text args => exact (hseq (asyncQuery_shows mode _ args) hp).balanced_iff
  | asyncQueryTx x h mode text args => exact (hseq (asyncQueryTx_shows mode _ args) hp).balanced_iff
  | begin x => exact (hseq begin_shows hp).balanced_iff
  | asyncBegin x => exact (hseq asyncBegin_shows hp).balanced_iff
  | finish x h rollback =>
    cases rollback with
    | false => exact iff_of_true (hseq (finish_shows false) hp).balanced trivial
    | true => exact iff_of_true (hseq (finish_shows true) hp).balanced trivial
  | asyncFinish x h rollback =>
    cases rollback with
    | false => exact (hseq asyncCommit_shows hp).balanced_iff
    | true => exact (hseq asyncRollback_shows hp).balanced_iff
  | moveHandle h => cases hc
  | dropHandle h => cases hc
  | stop p => cases hc
  | destroy p => cases hc

/-- A filter rejects the message of an asynchronous query. -/
theorem filters_twice : ¬ ∀ (c : Call), c.isRpc = true → ∀ tr r, c.prog.Path seenOf tr r → Balanced (points tr) := by
  intro h
  have hr : (Call.asyncQuery 0 .nativeString (ascii "select 1") []).prog.run (worldExec 0) {}
    [{}, {}, { pass := false }, {}, {}, {}, {}] = some (_, _, _) := rfl
  have := (h _ rfl _ _ (Prog.run_path hr)).post
  exact absurd this (by decide)

/-- A query whose filters let it pass. -/
theorem filters_balanced_query : Balanced [.preRpcInvoke, .preSendMsg, .postRecvMsg, .postRpcInvoke] := by
  have hr : (Call.query 0 { mode := .nativeString } (ascii "select 1") []).prog.run (worldExec 0) {}
    (List.replicate 60 {}) = some (_, _, _) := rfl
  exact (filters_balanced_iff (.query 0 { mode := .nativeString } (ascii "select 1") []) rfl (Prog.run_path hr)).2 trivial

end TrpcMysql
