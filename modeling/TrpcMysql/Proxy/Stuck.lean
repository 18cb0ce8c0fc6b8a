import TrpcMysql.Conc.Progress
import TrpcMysql.Executor.Pointers
import TrpcMysql.Proxy.Lifecycle

/-!
# Where a call gets stuck

A call in progress can take its next step in every state reached, whatever the server, the filters and the other calls
do, but for the few places that `Call.StuckAt` names (`stuck_only`). So no call gives the library a null pointer, uses
an executor that is not there, or divides by zero, as long as the calls on one handle follow each other and no pool is
stopped.

A call is followed through its view (`View`), which has its executor up to date.
-/

namespace TrpcMysql

open Function Conc MysqlExecutor MysqlExecutorPool MysqlServiceProxy

/-! ## Reasons -/

/-- How the statement of a call is sent, and its arguments. -/
def Call.sent : Call → MysqlResultsMode × List InputArg
  | query _ r _ args | queryTx _ _ r _ args => (r.mode, args)
  | asyncQuery _ mode _ args | asyncQueryTx _ _ mode _ args => (mode, args)
  | _ => (.onlyExec, [])

/-- The call cannot go on: its statement ends the process, the thread pool does not take its task, or it reads the
value of a future that failed. -/
def Call.StuckAt (c : Call) : WorldOp → Answer → Prop
  | .client _ o, _ => c.sent.1.Stops c.sent.2 o
  | .addTask, a => a.taken = false
  | .crash, _ => ∃ x h, c = .asyncFinish x h true
  | _, _ => False

/-- Every pool has a shard, and will have one. -/
structure World.Sharded (w : World) : Prop where
  option : w.poolOption.numShardGroup ≠ 0
  pools : ∀ p, (w.pools p).option.numShardGroup ≠ 0

variable {cf : ProxyConfig} {c : Call} {d : Doing} {w w' : World} {i : ℕ}

theorem sharded_setPool {p : PoolId} {q : Pool} (hI : w.Sharded) (hq : q.option.numShardGroup ≠ 0)
    (hw : w'.pools = update w.pools p q) (ho : w'.poolOption = w.poolOption) : w'.Sharded := by
  refine ⟨by rw [ho]; exact hI.option, fun p' => ?_⟩
  rw [hw]
  by_cases hp : p' = p
  · subst hp
    rwa [update_self]
  · rw [update_of_ne hp]
    exact hI.pools p'

theorem sharded_step {o : WorldOp} {a : Answer} {r : o.Reply} (hI : w.Sharded) (hm : c.rule.allows d o)
    (he : worldStep i o a w = some (r, w')) : w'.Sharded := by
  have hsame : ∀ {w' : World}, w'.pools = w.pools → w'.poolOption = w.poolOption → w'.Sharded := fun hw ho =>
    ⟨by rw [ho]; exact hI.option, fun p => by rw [hw]; exact hI.pools p⟩
  -- no step changes the option of a pool, so its number of shards stays
  have hset : ∀ {w' : World} {p : PoolId} {q : Pool}, w'.pools = update w.pools p q →
      w'.poolOption = w.poolOption → q.option = (w.pools p).option → w'.Sharded := fun {w' p q} hw ho hq =>
    sharded_setPool hI (by rw [hq]; exact hI.pools p) hw ho
  cases o
  case client e o =>
    simp only [worldStep, Option.map_eq_some_iff] at he
    obtain ⟨y, -, heq⟩ := he
    cases heq
    exact hsame rfl rfl
  case checkTimeout x =>
    simp only [worldStep] at he
    split at he <;> cases he <;> exact hsame rfl rfl
  case addTask =>
    simp only [worldStep] at he
    split at he
    · cases he
      exact hsame rfl rfl
    · cases he
  case poolsGetOrInsert key pool =>
    simp only [worldStep] at he
    split at he
    · cases he
      exact hsame rfl rfl
    · cases he
      exact sharded_setPool hI hm rfl rfl
  case popBack p k =>
    simp only [worldStep] at he
    split at he
    · cases he
      exact hsame rfl rfl
    · cases he
      exact hset rfl rfl rfl
  case pushBack p k e from? =>
    simp only [worldStep] at he
    split at he
    swap
    · cases he
    split at he
    · cases from? with
      | none =>
        cases he
        exact hset rfl rfl rfl
      | some h =>
        cases he
        exact hset rfl rfl rfl
    · cases he
      exact hsame rfl rfl
  case endHandle h =>
    cases he
    cases hex : (w.handles h).executor with
    | none => exact hsame rfl rfl
    | some e => exact hsame rfl rfl
  case fetchAddShardId p | fetchAddExecutorId p | fetchAddExecutorNum p | noteConnected p | noteDiscarded p
    | swapShard p k =>
    cases he
    exact hset rfl rfl rfl
  case crash => cases he
  all_goals
    cases he
    exact hsame rfl rfl

/-- What is known of the world besides its owners. -/
structure World.Sane (w : World) : Prop extends w.Sharded where
  held : w.Held

theorem sane_reach {w₀ : World} (h₀ : w₀.Sane) (hr : proxySystem.Reach Existing w₀ cf) : cf.world.Sane := by
  obtain ⟨vs, hI, -⟩ := orderly_reach h₀.held hr
  have hsharded : w₀.Sharded := h₀.toSharded
  obtain ⟨-, hI', -⟩ := hr.obeys (I := fun w _ => w.Sharded) Call.obeys hsharded (fun _ _ hI _ => hI)
    fun _ _ hI _ hallows he => by
      have he : worldExec _ _ _ _ = some (_, _) := he
      unfold worldExec at he
      split at he
      · cases he
      · exact sharded_step hI hallows he
  exact ⟨hI', hI.held⟩

/-! ## Steps -/

/-- From the view `v` on, the call gets stuck only for its reasons, and `Q` holds at the end. -/
abbrev Upright {α : Type} (i : ℕ) (c : Call) (v : View) (p : WProg α) (Q : View → α → Prop) : Prop :=
  Outline.Sturdy proxySystem ({} : Terms).outline World.Sane (fun c w o a => w.aborted = true ∨ c.StuckAt o a) i c v p Q

/-- The step is never refused. -/
def WorldOp.free : WorldOp → Bool
  | client .. | addTask | crash | pushBack _ _ _ (some _) => false
  | _ => true

/-- The step is never refused, and changes neither the executors nor which of them the call has. -/
def WorldOp.calm : WorldOp → Bool
  | popBack .. | pushBack .. | copyShard .. | swapShard .. | newExecutor _ | release _ | getExecutor _ | newHandle _
  | moveHandle _ | endHandle _ => false
  | o => o.free

theorem free_step {o : WorldOp} (ho : o.free = true) (a : Answer) (w : World) : worldStep i o a w ≠ none := by
  cases o
  case client | addTask | crash => cases ho
  case checkTimeout | poolsGetOrInsert | popBack =>
    simp only [worldStep]
    split <;> simp
  case pushBack p k e from? =>
    cases from? with
    | some h => cases ho
    | none =>
      simp only [worldStep, Option.all_none, if_pos]
      split <;> simp
  all_goals simp [worldStep]

theorem calm_step {o : WorldOp} {a : Answer} {r : o.Reply} (ho : o.calm = true)
    (he : worldStep i o a w = some (r, w')) : w'.execs = w.execs := by
  cases o
  case client | popBack | pushBack | copyShard | swapShard | newExecutor | release | getExecutor | newHandle
    | moveHandle | endHandle | addTask | crash => cases ho
  case checkTimeout | poolsGetOrInsert =>
    simp only [worldStep] at he
    split at he <;> cases he <;> rfl
  all_goals
    cases he
    rfl

/-- What is known of the call's executor is as it was. -/
structure View.Same (v v' : View) : Prop where
  hand : v'.hand = v.hand
  exec : v'.exec = v.exec
  copy : v'.copy = v.copy
  state : v'.state = v.state

/-- The call has the executor, which has its MYSQL object while it is connected. -/
structure View.Holds (v : View) (e : ExecId) : Prop where
  exec : v.exec = some e
  linked : v.state.Linked

section Steps

variable {v v' : View} {α β : Type} {Q : View → β → Prop} {e : ExecId} {h : HandleId}

theorem View.Same.trans {v'' : View} (h : v.Same v') (h' : v'.Same v'') : v.Same v'' :=
  ⟨h'.hand.trans h.hand, h'.exec.trans h.exec, h'.copy.trans h.copy, h'.state.trans h.state⟩

theorem View.Holds.same (hv : v.Holds e) (h : v.Same v') : v'.Holds e :=
  ⟨h.exec.trans hv.exec, by rw [h.state]; exact hv.linked⟩

theorem next_hand (v : View) (o : WorldOp) (r : o.Reply) (w : World) : (v.next {} i o r w).hand = v.hand := by
  change (v.move o r).hand = v.hand
  rw [View.move_eq]

theorem next_state {o : WorldOp} {r : o.Reply} (he : (v.move o r).exec = some e) :
    (v.next {} i o r w).state = w.execs e := by
  change (v.move o r).exec.elim (v.move o r).state w.execs = w.execs e
  rw [he]
  rfl

/-- A step that leaves the executors and the call's own leaves what is known of it. -/
theorem same_next {vs : ℕ → View} {owner : ExecId → Owner} {o : WorldOp} {r : o.Reply} (ho : Owned {} w vs owner)
    (hv : vs i = v) (hexecs : w'.execs = w.execs) (hexec : (v.move o r).exec = v.exec)
    (hcopy : (v.move o r).copy = v.copy) : v.Same (v.next {} i o r w') := by
  refine ⟨next_hand .., hexec, hcopy, ?_⟩
  cases he : v.exec with
  | none =>
    change (v.move o r).exec.elim (v.move o r).state w'.execs = v.state
    rw [hexec, he, View.move_eq]
    rfl
  | some e =>
    rw [next_state (hexec.trans he), hexecs]
    exact ((hv ▸ ho.synced i).state e he).symm

theorem upright_bind {p : WProg α} {f : α → WProg β} {R : View → α → Prop} (h : Upright i c v p R)
    (hf : ∀ v' x, R v' x → Upright i c v' (f x) Q) : Upright i c v (p >>= f) Q := Outline.sturdy_bind hf h

theorem upright_op {o : WorldOp} {f : o.Reply → WProg β}
    (hn : ∀ a w vs owner, Owned {} w vs owner → vs i = v → w.Sane → worldStep i o a w = none → c.StuckAt o a)
    (hf : ∀ a r w w' vs owner, Owned {} w vs owner → vs i = v → w.Sane → worldStep i o a w = some (r, w') →
      Upright i c (v.next {} i o r w') (f r) Q) : Upright i c v (wop o >>= f) Q := by
  rintro w vs a ⟨owner, ho⟩ hv hw
  have hexec : proxySystem.exec i o a w = if w.aborted then none else worldStep i o a w := rfl
  rw [hexec]
  split
  · rename_i ha
    exact ⟨fun _ => .inl ha, fun r w' he => (by cases he)⟩
  · exact ⟨fun h => .inr (hn a w vs owner ho hv hw h), fun r w' he => hf a r w w' vs owner ho hv hw he⟩

theorem upright_free {o : WorldOp} {f : o.Reply → WProg β} (ho : o.free = true)
    (hf : ∀ r v', Upright i c v' (f r) Q) : Upright i c v (wop o >>= f) Q :=
  upright_op (fun a w _ _ _ _ _ he => absurd he (free_step ho a w)) fun _ _ _ _ _ _ _ _ _ _ => hf _ _

theorem upright_last {o : WorldOp} (ho : o.free = true) : Upright i c v (wop o) fun _ _ => True := by
  rw [← bind_pure (wop o)]
  exact upright_free ho fun _ _ => trivial

/-- A call is made on one handle, or on none, from its start to its end. -/
theorem upright_hand {p : WProg α} {R : View → α → Prop} (h : Upright i c v p R) :
    Upright i c v p fun v' x => R v' x ∧ v'.hand = v.hand := by
  induction p generalizing v with
  | ret x => exact ⟨h, rfl⟩
  | act o k ih =>
    intro w vs a hI hv hw
    obtain ⟨hends, hrest⟩ := h w vs a hI hv hw
    refine ⟨hends, fun r w' he => ?_⟩
    have hrest' := ih r (hrest r w' he)
    rw [show (({} : Terms).outline.next i v o r w').hand = v.hand from next_hand ..] at hrest'
    exact hrest'

/-- A calm step, with what it tells of the world. -/
theorem upright_learn {o : WorldOp} {f : o.Reply → WProg β} (ho : o.calm = true)
    (hf : ∀ a r w w' v', w.Sane → worldStep i o a w = some (r, w') → v.Same v' → Upright i c v' (f r) Q) :
    Upright i c v (wop o >>= f) Q := by
  have hfree : o.free = true := by cases o <;> first | rfl | exact ho | cases ho
  refine upright_op (fun a w _ _ _ _ _ he => absurd he (free_step hfree a w)) fun a r w w' vs owner hown hv hw he => ?_
  have hmove : (v.move o r).exec = v.exec ∧ (v.move o r).copy = v.copy := by
    cases o <;> first | exact ⟨rfl, rfl⟩ | (cases r <;> exact ⟨rfl, rfl⟩) | cases ho
  exact hf a r w w' _ hw he (same_next hown hv (calm_step ho he) hmove.1 hmove.2)

theorem upright_calm {o : WorldOp} {f : o.Reply → WProg β} (ho : o.calm = true)
    (hf : ∀ r v', v.Same v' → Upright i c v' (f r) Q) : Upright i c v (wop o >>= f) Q :=
  upright_learn ho fun _ r _ _ v' _ _ hv => hf r v' hv

/-- The option of a pool has a shard. -/
theorem upright_poolOption {p : PoolId} {f : MysqlExecutorPoolOption → WProg β}
    (hf : ∀ option v', option.numShardGroup ≠ 0 → v.Same v' → Upright i c v' (f option) Q) :
    Upright i c v (wop (.poolOption p) >>= f) Q := by
  refine upright_learn rfl fun a r w w' v' hw he hv => ?_
  cases he
  exact hf _ v' (hw.pools p) hv

theorem upright_managerOption {f : MysqlExecutorPoolOption → WProg β}
    (hf : ∀ option v', option.numShardGroup ≠ 0 → v.Same v' → Upright i c v' (f option) Q) :
    Upright i c v (wop .managerOption >>= f) Q := by
  refine upright_learn rfl fun a r w w' v' hw he hv => ?_
  cases he
  exact hf _ v' hw.option hv

theorem upright_addTask {f : Unit → WProg β} (hf : ∀ v', v.Same v' → Upright i c v' (f ()) Q) :
    Upright i c v (wop .addTask >>= f) Q := by
  refine upright_op (fun a w _ _ _ _ _ he => ?_) fun a r w w' vs owner ho hv _ he => ?_
  · have ht : a.taken = false := by simpa [worldStep] using he
    exact ht
  · simp only [worldStep] at he
    split at he
    · cases he
      exact hf _ (same_next ho hv rfl rfl rfl)
    · cases he

/-! ## Steps on the executor of the call -/

/-- A program that has what it needs on every path. -/
theorem upright_given {p : XProg α} {f : α → WProg β} (hp : p.Uses fun o => o.given = true)
    (hf : ∀ x v', v'.hand = v.hand → v'.exec = v.exec → Upright i c v' (f x) Q) :
    Upright i c v (onExecutor e p >>= f) Q := by
  induction p generalizing v with
  | ret x => exact hf x v rfl rfl
  | act o k ih =>
    refine upright_op (fun a w _ _ _ _ _ he => ?_) fun a r w w' vs owner _ _ _ he => ?_
    · simp only [worldStep, Option.map_eq_none_iff] at he
      exact absurd he (given_exec hp.1 _ _)
    · exact ih r (hp.2 r) fun x v' hh he => hf x v' (hh.trans (next_hand ..)) (he.trans rfl)

/-- A program of the call's executor, by what it says of the state that the executor is in. -/
theorem upright_run {p : XProg α} {f : α → WProg β} {P : ClientOp → Prop} {R : α → ExecSt → Prop} {tr : List Heard}
    (hx : v.exec = some e) (hp : Says (fun _ => P) p (fun _ => R) tr v.state)
    (hP : ∀ o a, P o → c.StuckAt (.client e o) a)
    (hf : ∀ x v', v'.hand = v.hand → v'.exec = some e → v'.copy = v.copy → R x v'.state → Upright i c v' (f x) Q) :
    Upright i c v (onExecutor e p >>= f) Q := by
  induction p generalizing v tr with
  | ret x => exact hf x v rfl hx rfl hp
  | act o k ih =>
    have hstate : ∀ {w vs owner}, Owned {} w vs owner → vs i = v → v.state = w.execs e := fun ho hv =>
      (hv ▸ ho.synced i).state e hx
    refine upright_op (fun a w vs owner ho hv _ he => ?_) fun a r w w' vs owner ho hv _ he => ?_
    · simp only [worldStep, Option.map_eq_none_iff] at he
      refine hP o a ((hp a.toClientAnswer).1 ?_)
      rwa [hstate ho hv]
    · simp only [worldStep, Option.map_eq_some_iff] at he
      obtain ⟨⟨r', s'⟩, hexec, heq⟩ := he
      cases heq
      rw [← hstate ho hv] at hexec
      set w' := (w.setExec e s').record i ((s'.events.drop (w.execs e).events.length).map (.sql e))
      have hnext : (v.next {} i (.client e o) r' w').state = w'.execs e := next_state hx
      have hexecs : w'.execs e = s' := by simp [w', World.setExec, World.record]
      have hrest := (hp a.toClientAnswer).2 r' s' hexec
      rw [← hexecs, ← hnext] at hrest
      exact ih r' hx hrest fun x v' hh he hc hR => hf x v' (hh.trans (next_hand ..)) he (hc.trans rfl) hR

/-- The same for a program that is never refused. -/
theorem upright_sure {p : XProg α} {f : α → WProg β} {R : α → ExecSt → Prop} (hx : v.exec = some e)
    (hp : Says (fun _ _ => False) p (fun _ => R) [] v.state)
    (hf : ∀ x v', v'.hand = v.hand → v'.exec = some e → v'.copy = v.copy → R x v'.state → Upright i c v' (f x) Q) :
    Upright i c v (onExecutor e p >>= f) Q := upright_run hx hp (fun _ _ h => h.elim) hf

/-- The executor that is taken from a shard is idle. -/
theorem upright_popBack {p : PoolId} {k : ℕ} {f : Option ExecId → WProg β} (hnone : ∀ v', Upright i c v' (f none) Q)
    (hsome : ∀ e v', v'.Holds e → Upright i c v' (f (some e)) Q) : Upright i c v (wop (.popBack p k) >>= f) Q := by
  refine upright_op (fun a w _ _ _ _ _ he => absurd he (free_step rfl a w)) fun a r w w' vs owner ho hv _ he => ?_
  simp only [worldStep] at he
  split at he
  · cases he
    exact hnone _
  · rename_i e hlast
    cases he
    have hidle : owner e = .idle p k := (ho.idle e p k).1 (List.mem_of_getLast? hlast)
    refine hsome e _ ⟨rfl, ?_⟩
    have hok : ((v.next {} i (.popBack p k) (some e) (w.setShard p k ((w.pools p).shards k).dropLast)).state).Ok :=
      (ho.idleOk e p k hidle).1
    exact .of_ok hok

/-- The call gives an executor of its own to the pool: its handle's, or one that it has borrowed. -/
theorem upright_pushBack {k : ℕ} {p : PoolId} {from? : Option HandleId} {f : Bool → WProg β}
    (hx : ∀ h, from? = some h → v.hand = some h ∧ v.exec = some e) (hf : ∀ moved v', Upright i c v' (f moved) Q) :
    Upright i c v (wop (.pushBack p k e from?) >>= f) Q := by
  refine upright_op (fun a w vs owner ho hv _ he => ?_) fun _ _ _ _ _ _ _ _ _ _ => hf _ _
  cases from? with
  | none => exact absurd he (free_step rfl a w)
  | some h =>
    obtain ⟨hh, hx⟩ := hx h rfl
    obtain ⟨-, hexec, -⟩ := ho.hand i h (by rw [hv]; exact hh)
    rw [hv, hx] at hexec
    simp only [worldStep, Option.all_some, hexec, decide_true, if_pos] at he
    split at he <;> cases he

theorem upright_newExecutor {option : MysqlConnOption} {f : ExecId → WProg β}
    (hf : ∀ e v', v'.exec = some e → Upright i c v' (f e) Q) : Upright i c v (wop (.newExecutor option) >>= f) Q :=
  upright_op (fun a w _ _ _ _ _ he => absurd he (free_step rfl a w)) fun _ _ _ _ _ _ _ _ _ _ => hf _ _ rfl

/-- The call gives its copy of the reference up, and keeps the executor. -/
theorem upright_releaseCopy {f : Unit → WProg β} (hc : v.copy = some e)
    (hf : ∀ v', v'.hand = v.hand → v'.exec = v.exec → v'.state = v.state → Upright i c v' (f ()) Q) :
    Upright i c v (wop (.release e) >>= f) Q := by
  refine upright_op (fun a w _ _ _ _ _ he => absurd he (free_step rfl a w)) fun a r w w' vs owner ho hv _ he => ?_
  cases he
  have hmove : v.move (.release e) () = { v with copy := none } := if_pos hc
  have hexec : (v.move (.release e) ()).exec = v.exec := by rw [hmove]
  refine hf _ (next_hand ..) hexec ?_
  cases hx : v.exec with
  | none =>
    change (v.move (.release e) ()).exec.elim (v.move (.release e) ()).state _ = v.state
    rw [hexec, hx, hmove]
    rfl
  | some e' =>
    rw [next_state (hexec.trans hx)]
    exact ((hv ▸ ho.synced i).state e' hx).symm

/-- The state of the call's handle is read. -/
theorem upright_getState {f : TxState → WProg β} (hh : v.hand = some h)
    (hf : ∀ st v', v.Same v' → v'.data.state = st → Upright i c v' (f st) Q) :
    Upright i c v (wop (.getState h) >>= f) Q := by
  refine upright_op (fun a w _ _ _ _ _ he => absurd he (free_step rfl a w)) fun a r w w' vs owner ho hv _ he => ?_
  cases he
  refine hf _ _ (same_next ho hv rfl rfl rfl) ?_
  change (v.hand.elim v.data w.handles).state = _
  rw [hh]
  rfl

/-- The executor of the call's handle is the call's, and a started handle has one. -/
theorem upright_getExecutor {f : Option ExecId → WProg β} (hh : v.hand = some h)
    (hf : ∀ v', (v.data.state = .kStarted → v.exec ≠ none) → v'.hand = v.hand → v'.exec = v.exec →
      v'.copy = v.exec → v'.state = v.state → Upright i c v' (f v.exec) Q) :
    Upright i c v (wop (.getExecutor h) >>= f) Q := by
  refine upright_op (fun a w _ _ _ _ _ he => absurd he (free_step rfl a w)) fun a r w w' vs owner ho hv hw he => ?_
  cases he
  have hsync := hv ▸ ho.synced i
  obtain ⟨hlt, hexec, -⟩ := ho.hand i h (by rw [hv]; exact hh)
  rw [hv] at hexec
  rw [hexec]
  refine hf _ (fun hst => ?_) (next_hand ..) rfl rfl ?_
  · rw [← hexec]
    refine hw.held h hlt ?_
    rw [← hsync.data h hh]
    exact hst
  · cases hx : v.exec with
    | none =>
      change v.exec.elim v.state _ = v.state
      rw [hx]
      rfl
    | some e =>
      change v.exec.elim v.state w.execs = v.state
      rw [hx]
      exact (hsync.state e hx).symm

end Steps

/-! ## Functions -/

section Functions

variable {v : View} {α : Type} {e : ExecId} {h : HandleId} {p : PoolId} {x : CtxId} {r : MysqlResults} {sql : Sql}
  {args : List InputArg} {mode : MysqlResultsMode}

theorem given_getThis : getThis.Uses fun o => o.given = true := ⟨rfl, fun _ => trivial⟩

theorem given_getErrorMessage : getErrorMessage.Uses fun o => o.given = true := ⟨rfl, fun _ => ⟨rfl, fun _ => trivial⟩⟩

theorem given_getErrorNumber : getErrorNumber.Uses fun o => o.given = true := ⟨rfl, fun _ => ⟨rfl, fun _ => trivial⟩⟩

theorem given_close : MysqlExecutor.close.Uses fun o => o.given = true := by
  refine ⟨rfl, fun this => ?_⟩
  dsimp only [Prog.bind]
  split
  · exact ⟨rfl, fun _ => ⟨rfl, fun _ => ⟨rfl, fun _ => trivial⟩⟩⟩
  · exact ⟨rfl, fun _ => trivial⟩

/-! ### Pools -/

theorem upright_get (addr : NodeAddr) : Upright i c v (MysqlExecutorPoolManager.get addr) fun v' _ => v.Same v' := by
  refine upright_calm rfl fun r v₁ h₁ => ?_
  cases r with
  | some p => exact h₁
  | none =>
    refine upright_managerOption fun option v₂ hn h₂ => ?_
    rw [if_neg hn, ← bind_pure (wop _)]
    exact upright_calm rfl fun p v₃ h₃ => h₁.trans (h₂.trans h₃)

theorem upright_isIdleTimeout (hv : v.Holds e) : Upright i c v (isIdleTimeout p e) fun v' _ => v'.Holds e := by
  refine upright_calm rfl fun option v₁ h₁ => ?_
  split
  · exact hv.same h₁
  · refine upright_sure (hv.same h₁).exec (says_last rfl fun a r s' he => ?_) fun _ v₂ _ hx _ hs => ⟨hx, hs⟩
    cases he
    exact (hv.same h₁).linked

theorem upright_createExecutor (k : ℕ) : Upright i c v (createExecutor p k) fun v' e => v'.Holds e := by
  refine upright_free rfl fun n v₁ => upright_free rfl fun target v₂ => upright_free rfl fun option v₃ =>
    upright_newExecutor fun e v₄ hx => ?_
  refine upright_sure hx construct_linked fun _ v₅ _ hx _ hs => ?_
  refine upright_sure hx (says_last rfl fun a r s' he => ?_) fun _ v₆ _ hx _ hs => ⟨hx, hs⟩
  cases he
  exact .of_mysql hs

theorem upright_connectNew (k : ℕ) : Upright i c v (connectNew p k) fun v' e => v'.Holds e := by
  refine upright_bind (upright_createExecutor k) fun v₁ e hv => ?_
  refine upright_sure hv.exec (connect_linked hv.linked) fun connected v₂ _ hx _ hs => ?_
  cases connected
  · exact ⟨hx, hs⟩
  · refine upright_calm rfl fun _ v₃ h₃ => upright_calm rfl fun _ v₄ h₄ => ?_
    exact View.Holds.same ⟨hx, hs⟩ (h₃.trans h₄)

theorem upright_popAlive (k : ℕ) : ∀ (n : ℕ) {v : View},
    Upright i c v (popAlive p k n) fun v' r => ∀ e, r = some e → v'.Holds e := by
  intro n
  induction n with
  | zero =>
    intro v e he
    cases he
  | succ n ih =>
    intro v
    refine upright_popBack (fun v₁ e he => (by cases he)) fun e v₁ hv => ?_
    -- an executor that is dead, or idle for too long, is given up
    have hdrop : ∀ v', Upright i c v' (do
        onExecutor e MysqlExecutor.close
        wop (.noteDiscarded p)
        wop (.release e)
        popAlive p k n) fun v' r => ∀ e, r = some e → v'.Holds e := fun v' =>
      upright_given given_close fun _ _ _ _ => upright_free rfl fun _ _ => upright_free rfl fun _ _ => ih
    refine upright_sure hv.exec (checkAlive_linked hv.linked) fun alive v₂ _ hx _ hs => ?_
    cases alive
    · exact hdrop v₂
    · refine upright_bind (upright_isIdleTimeout ⟨hx, hs⟩) fun v₃ idle h₃ => ?_
      cases idle
      · intro e' he'
        cases he'
        exact h₃
      · exact hdrop v₃

theorem upright_getPooled : Upright i c v (getExecutor p) fun v' e => v'.Holds e := by
  refine upright_calm rfl fun k v₁ _ => upright_poolOption fun option v₂ hn _ => ?_
  rw [if_neg hn]
  refine upright_bind (upright_popAlive _ _) fun v₃ r h₃ => ?_
  cases r with
  | none => exact upright_connectNew k
  | some e => exact h₃ e rfl

theorem upright_reclaim {from? : Option HandleId} (hx : ∀ h, from? = some h → v.hand = some h ∧ v.exec = some e) :
    Upright i c v (reclaim p e from?) fun _ _ => True := by
  refine upright_given given_getThis fun this v₁ hh₁ hx₁ => upright_poolOption fun option v₂ hn h₂ => ?_
  dsimp only
  rw [if_neg hn]
  have hx₂ : ∀ h, from? = some h → v₂.hand = some h ∧ v₂.exec = some e := fun h hf =>
    ⟨h₂.hand.trans (hh₁.trans (hx h hf).1), h₂.exec.trans (hx₁.trans (hx h hf).2)⟩
  refine upright_pushBack hx₂ fun moved v₃ => ?_
  cases moved
  · exact upright_free rfl fun _ _ => upright_given given_close fun _ _ _ _ => upright_free rfl fun _ _ => trivial
  · trivial

/-! ### Invocations -/

theorem upright_connectionFailed : Upright i c v (connectionFailed x e) fun _ _ => True :=
  upright_free rfl fun _ _ => upright_given given_getErrorMessage fun _ _ _ _ =>
    upright_given given_getErrorNumber fun _ _ _ _ => upright_free rfl fun _ _ => trivial

/-- A connected executor has its MYSQL object. -/
theorem upright_isConnected (hv : v.Holds e) : Upright i c v (isConnected e) fun v' connected =>
    v'.Holds e ∧ (connected = true → v'.state.this.mysql ≠ none) := by
  have hsays : Says (fun _ _ => False) MysqlExecutor.isConnected
      (fun _ connected s' => s'.Linked ∧ (connected = true → s'.this.mysql ≠ none)) [] v.state :=
    says_getThis (Prog.tells_pure ⟨hv.linked, hv.linked⟩)
  rw [← bind_pure (isConnected e)]
  exact upright_sure hv.exec hsays fun _ _ _ hx _ hs => ⟨⟨hx, hs.1⟩, hs.2⟩

section Statement

variable (hsent : ∀ o, r.mode.Stops args o → c.sent.1.Stops c.sent.2 o)
include hsent

/-- **The statement is sent with the executor's MYSQL object.** -/
theorem upright_runStatement {β : Type} {f : Bool × MysqlResults → WProg β} {Q : View → β → Prop} (hx : v.exec = some e)
    (hm : v.state.this.mysql ≠ none) (hf : ∀ out v', Upright i c v' (f out) Q) :
    Upright i c v (onExecutor e (MysqlExecutor.runStatement r sql args) >>= f) Q :=
  upright_run hx (runStatement_ends hm r sql args) (fun o _ ho => hsent o ho) fun out v' _ _ _ _ => hf out v'

theorem upright_borrowTask : Upright i c v (borrowTask x r sql args) fun _ _ => True := by
  refine upright_free rfl fun addr v₁ => upright_bind (upright_get addr) fun v₂ p _ => ?_
  refine upright_bind upright_getPooled fun v₃ conn h₃ => ?_
  refine upright_bind (upright_isConnected h₃) fun v₄ connected h₄ => ?_
  cases connected
  · exact upright_bind upright_connectionFailed fun _ _ _ => upright_free rfl fun _ _ => trivial
  · refine upright_runStatement hsent h₄.1.exec (h₄.2 rfl) fun out v₅ => ?_
    refine upright_bind (upright_reclaim fun h hf => (by cases hf)) fun v₆ moved _ => ?_
    cases moved
    · exact upright_free rfl fun _ _ => trivial
    · trivial

theorem upright_ownTask (hv : v.Holds e) : Upright i c v (ownTask x e r sql args) fun _ _ => True := by
  refine upright_bind (upright_isConnected hv) fun v₁ connected h₁ => ?_
  cases connected
  · exact upright_bind upright_connectionFailed fun _ _ _ => trivial
  · exact upright_runStatement hsent h₁.1.exec (h₁.2 rfl) fun _ _ => trivial

theorem upright_task {executor : Option ExecId} (hv : ∀ e, executor = some e → v.Holds e) :
    Upright i c v (task x executor r sql args) fun _ _ => True := by
  cases executor with
  | none => exact upright_borrowTask hsent
  | some e => exact upright_ownTask hsent (hv e rfl)

theorem upright_unaryInvoke {executor : Option ExecId} (hv : ∀ e, executor = some e → v.Holds e) :
    Upright i c v (unaryInvoke x executor r sql args) fun _ _ => True := by
  refine upright_calm rfl fun timedOut v₁ h₁ => ?_
  cases timedOut
  · refine upright_calm rfl fun pass v₂ h₂ => ?_
    cases pass
    · exact upright_free rfl fun _ _ => trivial
    · refine upright_addTask fun v₃ h₃ => ?_
      have hv₃ : ∀ e, executor = some e → v₃.Holds e := fun e he => (hv e he).same ((h₁.trans h₂).trans h₃)
      refine upright_bind (upright_task hsent hv₃) fun v₄ out _ => ?_
      dsimp only
      split
      · exact upright_free rfl fun _ _ => upright_free rfl fun _ _ => trivial
      · exact upright_free rfl fun _ _ => trivial
  · trivial

end Statement

theorem upright_asyncUnaryInvoke (hsent : ∀ o, mode.Stops args o → c.sent.1.Stops c.sent.2 o)
    {executor : Option ExecId} (hv : ∀ e, executor = some e → v.Holds e) :
    Upright i c v (asyncUnaryInvoke x executor mode sql args) fun _ _ => True := by
  refine upright_calm rfl fun timedOut v₁ h₁ => ?_
  cases timedOut
  · refine upright_calm rfl fun pass v₂ h₂ => ?_
    cases pass
    · exact upright_free rfl fun _ _ => upright_free rfl fun _ _ => upright_free rfl fun _ _ => trivial
    · refine upright_addTask fun v₃ h₃ => ?_
      have hv₃ : ∀ e, executor = some e → v₃.Holds e := fun e he => (hv e he).same ((h₁.trans h₂).trans h₃)
      refine upright_bind (upright_task hsent hv₃) fun v₄ out _ => upright_free rfl fun _ v₅ => ?_
      cases out with
      | error message => trivial
      | ok r =>
        dsimp only
        split <;> trivial
  · exact upright_free rfl fun _ _ => trivial

/-! ### Calls -/

theorem upright_rejected {α : Type} : Upright i c v (rejected x : WProg (Future α)) fun _ _ => True :=
  upright_free rfl fun _ _ => upright_free rfl fun _ _ => trivial

theorem upright_query (hsent : ∀ o, r.mode.Stops args o → c.sent.1.Stops c.sent.2 o) :
    Upright i c v (query x r sql args) fun _ _ => True := by
  have hend : ∀ (v' : View) (r : MysqlResults), Upright i c v' (do
      let _ ← wop (.runFilters .postRpcInvoke x)
      return (← wop (.getStatus x), r)) fun _ _ => True := fun v' r =>
    upright_free rfl fun _ _ => upright_free rfl fun _ _ => trivial
  refine upright_free rfl fun pass v₁ => ?_
  dsimp only
  split
  · exact upright_bind (upright_unaryInvoke hsent fun e he => (by cases he)) fun v₂ r _ => hend v₂ r
  · exact hend v₁ r

theorem upright_asyncQuery (hsent : ∀ o, mode.Stops args o → c.sent.1.Stops c.sent.2 o) :
    Upright i c v (asyncQuery x mode sql args) fun _ _ => True := by
  refine upright_free rfl fun pass v₁ => ?_
  split
  · exact upright_rejected
  · exact upright_bind (upright_asyncUnaryInvoke hsent fun e he => (by cases he)) fun _ _ _ =>
      upright_free rfl fun _ _ => trivial

/-- The executor of a started handle is there. -/
theorem upright_handleAlive (hh : v.hand = some h) (hs : v.data.state = .kStarted)
    (hv : ∀ e, v.exec = some e → v.Holds e) :
    Upright i c v (handleAlive h) fun v' _ => v'.hand = some h ∧ ∀ e, v'.exec = some e → v'.Holds e := by
  refine upright_getExecutor hh fun v₁ hex hh₁ hx₁ hc₁ hs₁ => ?_
  cases hx : v.exec with
  | none => exact absurd hx (hex hs)
  | some e =>
    rw [hx] at hx₁ hc₁
    have hlinked : v₁.state.Linked := by rw [hs₁]; exact (hv e hx).linked
    refine upright_sure hx₁ (checkAlive_linked hlinked) fun alive v₂ hh₂ hx₂ hc₂ hs₂ => ?_
    refine upright_releaseCopy (hc₂.trans hc₁) fun v₃ hh₃ hx₃ hs₃ => ⟨hh₃.trans (hh₂.trans (hh₁.trans hh)), ?_⟩
    intro e' he'
    exact ⟨he', by rw [hs₃]; exact hs₂⟩

section OnHandle

variable (hh : v.hand = some h) (hv : ∀ e, v.exec = some e → v.Holds e)
include hh hv

theorem upright_handleInvoke (hsent : ∀ o, r.mode.Stops args o → c.sent.1.Stops c.sent.2 o) :
    Upright i c v (handleInvoke x h r sql args) fun _ _ => True := by
  refine upright_getState hh fun st v₁ h₁ hst => ?_
  split
  · exact upright_free rfl fun _ _ => trivial
  rename_i hne
  have hh₁ : v₁.hand = some h := h₁.hand.trans hh
  have hv₁ : ∀ e, v₁.exec = some e → v₁.Holds e := fun e he => (hv e (h₁.exec.symm.trans he)).same h₁
  refine upright_bind (upright_handleAlive hh₁ (hst.trans (not_not.1 hne)) hv₁) fun v₂ alive h₂ => ?_
  cases alive
  · exact upright_free rfl fun _ _ => upright_free rfl fun _ _ => trivial
  refine upright_getExecutor h₂.1 fun v₃ _ _ hx₃ _ hs₃ => ?_
  have hv₃ : ∀ e, v₂.exec = some e → v₃.Holds e := fun e he =>
    ⟨hx₃.trans he, by rw [hs₃]; exact (h₂.2 e he).linked⟩
  refine upright_bind (upright_unaryInvoke hsent hv₃) fun v₄ r _ => ?_
  cases v₂.exec with
  | none => trivial
  | some e => exact upright_free rfl fun _ _ => trivial

theorem upright_queryTx (hsent : ∀ o, r.mode.Stops args o → c.sent.1.Stops c.sent.2 o) :
    Upright i c v (queryTx x h r sql args) fun _ _ => True := by
  have hend : ∀ (v' : View) (r : MysqlResults), Upright i c v' (do
      let _ ← wop (.runFilters .postRpcInvoke x)
      return (← wop (.getStatus x), r)) fun _ _ => True := fun v' r =>
    upright_free rfl fun _ _ => upright_free rfl fun _ _ => trivial
  refine upright_calm rfl fun pass v₁ h₁ => ?_
  have hv₁ : ∀ e, v₁.exec = some e → v₁.Holds e := fun e he => (hv e (h₁.exec.symm.trans he)).same h₁
  dsimp only
  split
  · exact upright_bind (upright_handleInvoke (h₁.hand.trans hh) hv₁ hsent) fun v₂ r _ => hend v₂ r
  · exact hend v₁ r

theorem upright_asyncQueryTx (hsent : ∀ o, mode.Stops args o → c.sent.1.Stops c.sent.2 o) :
    Upright i c v (asyncQueryTx x h mode sql args) fun _ _ => True := by
  refine upright_calm rfl fun pass v₁ h₁ => ?_
  have hh₁ : v₁.hand = some h := h₁.hand.trans hh
  have hv₁ : ∀ e, v₁.exec = some e → v₁.Holds e := fun e he => (hv e (h₁.exec.symm.trans he)).same h₁
  split
  · exact upright_rejected
  refine upright_getState hh₁ fun st v₂ h₂ hst => ?_
  have hv₂ : ∀ e, v₂.exec = some e → v₂.Holds e := fun e he => (hv₁ e (h₂.exec.symm.trans he)).same h₂
  split
  · exact upright_free rfl fun _ _ => upright_free rfl fun _ _ => trivial
  rename_i hne
  refine upright_bind (upright_handleAlive (h₂.hand.trans hh₁) (hst.trans (not_not.1 hne)) hv₂) fun v₃ alive h₃ => ?_
  cases alive
  · exact upright_free rfl fun _ _ => upright_free rfl fun _ _ => upright_free rfl fun _ _ => trivial
  refine upright_getExecutor h₃.1 fun v₄ _ _ hx₄ _ hs₄ => ?_
  have hv₄ : ∀ e, v₃.exec = some e → v₄.Holds e := fun e he =>
    ⟨hx₄.trans he, by rw [hs₄]; exact (h₃.2 e he).linked⟩
  refine upright_bind (upright_asyncUnaryInvoke hsent hv₄) fun v₅ out _ => upright_free rfl fun _ v₆ => ?_
  cases v₃.exec with
  | none => trivial
  | some e => exact upright_free rfl fun _ _ => trivial

end OnHandle

/-- A statement without arguments whose results are not read never ends the process. -/
theorem stops_text {o : ClientOp} (ho : MysqlResultsMode.onlyExec.Stops [] o) : False := by
  cases o with
  | crash why =>
    cases why with
    | nullPointer =>
      obtain ⟨outputs, hm⟩ | ⟨-, hm⟩ := ho
      · cases hm
      · cases hm
    | assertion => exact ho.2 ⟨rfl, rfl⟩
    | exception => cases ho
    | unreachable => exact ho
  | _ => exact ho

theorem upright_beginAddr : Upright i c v (beginAddr x) fun _ _ => True := by
  refine upright_free rfl fun addr v₁ => ?_
  split
  · refine upright_free rfl fun found v₂ => ?_
    cases found with
    | error text => exact upright_free rfl fun _ _ => trivial
    | ok addr => trivial
  · trivial

theorem upright_beginOn (hv : v.Holds e) : Upright i c v (beginOn x e) fun _ _ => True := by
  have hend : ∀ v', Upright i c v' (do
      let handle ← if (← wop (.getStatus x)).ok then
          pure (some (← wop (.newHandle e)))
        else pure none
      let _ ← wop (.runFilters .postRpcInvoke x)
      let s ← wop (.getStatus x)
      if handle.isNone then wop (.release e)
      return (s, handle) : WProg (Status × Option HandleId)) fun _ _ => True := by
    intro v'
    refine upright_free rfl fun s v₁ => ?_
    dsimp only
    split
    · exact upright_free rfl fun _ _ => upright_free rfl fun _ _ => upright_free rfl fun _ _ => trivial
    · exact upright_free rfl fun _ _ => upright_free rfl fun _ _ => upright_free rfl fun _ _ => trivial
  refine upright_bind (upright_isConnected hv) fun v₁ connected h₁ => ?_
  cases connected
  · exact upright_bind upright_connectionFailed fun v₂ _ _ => hend v₂
  · have hv₁ : ∀ e', some e = some e' → v₁.Holds e' := fun e' he' => Option.some.inj he' ▸ h₁.1
    exact upright_bind (upright_unaryInvoke (fun o ho => (stops_text ho).elim) hv₁) fun v₂ _ _ => hend v₂

theorem upright_begin : Upright i c v (begin x) fun _ _ => True := by
  refine upright_free rfl fun pass v₁ => ?_
  split
  · exact upright_free rfl fun _ _ => upright_free rfl fun _ _ => trivial
  refine upright_bind upright_beginAddr fun v₂ addr _ => ?_
  cases addr with
  | error text => exact upright_free rfl fun _ _ => trivial
  | ok addr =>
    refine upright_bind (upright_get addr) fun v₃ p _ => ?_
    exact upright_bind upright_getPooled fun v₄ e h₄ => upright_beginOn h₄

theorem upright_asyncBeginOn (hv : v.Holds e) : Upright i c v (asyncBeginOn x e) fun _ _ => True := by
  refine upright_bind (upright_isConnected hv) fun v₁ connected h₁ => ?_
  cases connected
  · exact upright_bind upright_connectionFailed fun _ _ _ => upright_free rfl fun _ _ => trivial
  · have hv₁ : ∀ e', some e = some e' → v₁.Holds e' := fun e' he' => Option.some.inj he' ▸ h₁.1
    refine upright_bind (upright_asyncUnaryInvoke (fun o ho => (stops_text ho).elim) hv₁) fun v₂ out _ => ?_
    cases out with
    | error message => exact upright_free rfl fun _ _ => trivial
    | ok r => exact upright_free rfl fun _ _ => trivial

theorem upright_asyncBegin : Upright i c v (asyncBegin x) fun _ _ => True := by
  refine upright_free rfl fun pass v₁ => ?_
  split
  · exact upright_rejected
  refine upright_bind upright_beginAddr fun v₂ addr _ => ?_
  cases addr with
  | error text => trivial
  | ok addr =>
    refine upright_bind (upright_get addr) fun v₃ p _ => ?_
    exact upright_bind upright_getPooled fun v₄ e h₄ => upright_asyncBeginOn h₄

/-- **The executor goes from the handle to its pool.** -/
theorem upright_endTransaction (hh : v.hand = some h) (b : Bool) :
    Upright i c v (endTransaction h b) fun _ _ => True := by
  refine upright_calm rfl fun _ v₁ h₁ => upright_getExecutor (h₁.hand.trans hh) fun v₂ _ hh₂ hx₂ _ _ => ?_
  cases hx : v₁.exec with
  | none => trivial
  | some e =>
    refine upright_given given_getThis fun this v₃ hh₃ hx₃ => upright_bind (upright_get _) fun v₄ p h₄ => ?_
    have hx₄ : ∀ h', some h = some h' → v₄.hand = some h' ∧ v₄.exec = some e := by
      intro h' heq
      cases heq
      exact ⟨h₄.hand.trans (hh₃.trans (hh₂.trans (h₁.hand.trans hh))), h₄.exec.trans (hx₃.trans (hx₂.trans hx))⟩
    exact upright_bind (upright_reclaim hx₄) fun _ _ _ => upright_last rfl

theorem upright_dropHandle : Upright i c v (dropHandle h) fun _ _ => True := by
  refine upright_free rfl fun executor v₁ => ?_
  cases executor with
  | none => exact upright_last rfl
  | some e =>
    exact upright_given given_close fun _ _ _ _ => upright_free rfl fun _ _ => upright_last rfl

section OnHandle

variable (hh : v.hand = some h) (hv : ∀ e, v.exec = some e → v.Holds e)
include hh hv

theorem upright_finish (b : Bool) : Upright i c v (finish x h b) fun _ _ => True := by
  refine upright_bind (upright_hand (upright_queryTx hh hv fun o ho => (stops_text ho).elim)) fun v₁ out h₁ => ?_
  obtain ⟨s, r⟩ := out
  dsimp only
  split
  · exact upright_free rfl fun _ _ => upright_last rfl
  · exact upright_bind (upright_endTransaction (h₁.2.trans hh) b) fun _ _ _ => upright_last rfl

theorem upright_asyncCommit : Upright i c v (asyncCommit x h) fun _ _ => True := by
  refine upright_bind (upright_hand (upright_asyncQueryTx hh hv fun o ho => (stops_text ho).elim)) fun v₁ out h₁ => ?_
  cases out with
  | error message => trivial
  | ok r => exact upright_bind (upright_endTransaction (h₁.2.trans hh) false) fun _ _ _ => trivial

/-- The value of a future that failed is read. -/
theorem upright_asyncRollback (hc : ∃ x h, c = .asyncFinish x h true) :
    Upright i c v (asyncRollback x h) fun _ _ => True := by
  refine upright_bind (upright_hand (upright_asyncQueryTx hh hv fun o ho => (stops_text ho).elim)) fun v₁ out h₁ => ?_
  cases out with
  | error message => exact fun _ _ _ _ _ _ => ⟨fun _ => .inr hc, fun r => r.elim⟩
  | ok r => exact upright_bind (upright_endTransaction (h₁.2.trans hh) true) fun _ _ _ => trivial

end OnHandle

/-- **A call gets stuck only for its reasons**, from its start to its end. -/
theorem Call.upright (hc : c.shutdown = false) (hh : v.hand = c.handle) (hv : ∀ e, v.exec = some e → v.Holds e) :
    Upright i c v c.prog fun _ _ => True := by
  cases c with
  | query x r text args => exact upright_bind (upright_query fun o ho => ho) fun _ _ _ => trivial
  | asyncQuery x mode text args => exact upright_bind (upright_asyncQuery fun o ho => ho) fun _ _ _ => trivial
  | queryTx x h r text args => exact upright_bind (upright_queryTx hh hv fun o ho => ho) fun _ _ _ => trivial
  | asyncQueryTx x h mode text args =>
    exact upright_bind (upright_asyncQueryTx hh hv fun o ho => ho) fun _ _ _ => trivial
  | begin x => exact upright_bind upright_begin fun _ _ _ => trivial
  | asyncBegin x => exact upright_bind upright_asyncBegin fun _ _ _ => trivial
  | finish x h b =>
    cases b with
    | false => exact upright_bind (upright_finish hh hv false) fun _ _ _ => trivial
    | true => exact upright_bind (upright_finish hh hv true) fun _ _ _ => trivial
  | asyncFinish x h b =>
    cases b with
    | false => exact upright_bind (upright_asyncCommit hh hv) fun _ _ _ => trivial
    | true => exact upright_bind (upright_asyncRollback hh hv ⟨x, h, rfl⟩) fun _ _ _ => trivial
  | moveHandle h => exact upright_free rfl fun _ _ => trivial
  | dropHandle h => exact upright_bind upright_dropHandle fun _ _ _ => trivial
  | stop p => cases hc
  | destroy p => cases hc

end Functions

/-! ## Runs -/

theorem sane_fresh {serviceName : String} {option : MysqlExecutorPoolOption} {ctxs : CtxId → ClientContext}
    (hN : option.numShardGroup ≠ 0) : (World.fresh serviceName option ctxs).Sane where
  option := hN
  pools _ := show (4 : ℕ) ≠ 0 by decide
  held h hlt := absurd hlt (Nat.not_lt_zero h)

/-- A call starts with the executor of its handle. -/
theorem upright_start {cf : ProxyConfig} {vs : ℕ → View} {c : Call}
    (hG : ({} : Terms).outline.Good proxySystem ({} : Terms).guard cf vs) (hg : ({} : Terms).guard.start cf c) :
    Upright cf.frames.length c (View.begin {} cf.frames.length c cf.world) c.prog fun _ _ => True := by
  obtain ⟨owner, ho⟩ := hG.1
  obtain ⟨-, ⟨hsh, hfollow⟩, -⟩ := hg
  have hhand : ∀ h, c.handle = some h → h < cf.world.nextHandle ∧ ∀ j, (vs j).hand ≠ some h := by
    intro h hc
    refine ⟨(hfollow h hc).1, fun j hj => ?_⟩
    have hrest : vs j ≠ ({} : Terms).outline.rest := fun hrest => by rw [hrest] at hj; cases hj
    obtain ⟨c', hr, hfit, -⟩ := Outline.Sound.running hG hrest
    exact (hfollow h hc).2 j c' hr (hfit.symm.trans hj)
  have hstarts := ho.starts hhand trivial (hG.2.1 _ (Nat.le_refl cf.frames.length))
  exact Call.upright hsh rfl fun e he => ⟨he, .of_ok (hstarts.lent e he).1⟩

/-- **A call in progress can always go on**, in every state reached when the calls on one handle follow each other and
no pool is stopped: unless the process has ended, the thread pool refuses its task, its statement ends the process
(`MysqlResultsMode.Stops`), or it reads the value of a future that failed. -/
theorem stuck_only {serviceName : String} {option : MysqlExecutorPoolOption} {ctxs : CtxId → ClientContext}
    (hN : option.numShardGroup ≠ 0) (hr : proxySystem.Reach Sequenced (World.fresh serviceName option ctxs) cf)
    {o : WorldOp} {k : o.Reply → WProg Result} {a : Answer} (hf : cf.frames[i]? = some ⟨c, .act o k⟩)
    (hs : proxySystem.step cf (.act i a) = none) : cf.world.aborted = true ∨ c.StuckAt o a := by
  have hnone : proxySystem.exec i o a cf.world = none := by
    simpa [System.step, hf] using hs
  have hsane : ∀ {cf}, proxySystem.Reach ({} : Terms).guard (World.fresh serviceName option ctxs) cf → cf.world.Sane :=
    fun hr => sane_reach (sane_fresh hN) <|
      hr.mono (fun cf c hg h hc => (hg.2.1.2 h hc).1) fun _ _ _ _ _ _ => trivial
  exact (Terms.sound upheld_nothing serviceName option ctxs).stuck hsane upright_start (sequenced_nothing hr) hf hnone

/-- The thread pool refuses the task of a query. -/
theorem stuck_only_refused : ∃ cf k, proxySystem.Reach Sequenced newProxy cf ∧
    cf.frames[0]? = some ⟨.query 0 { mode := .onlyExec } (ascii "delete from t") [], .act .addTask k⟩ ∧
    proxySystem.step cf (.act 0 { taken := false }) = none ∧ (cf.world.aborted = true ∨
      (Call.query 0 { mode := .onlyExec } (ascii "delete from t") []).StuckAt .addTask { taken := false }) := by
  have hr : proxySystem.Reach Sequenced newProxy _ := System.Reach.init.of_steps
    (.start (.query 0 { mode := .onlyExec } (ascii "delete from t") []) :: List.replicate 3 (.act 0 {})) rfl
    ⟨.of_done rfl (fun h hc => (by cases hc)) (fun f hf => (by cases hf)), fun cf h₁ =>
      System.legal_of_steps (by cases h₁; exact sequenced_acts 3 0) (by cases h₁; rfl)⟩
  have hstuck : ∀ {cf : ProxyConfig} {c : Call} {k}, proxySystem.Reach Sequenced newProxy cf →
      cf.frames[0]? = some ⟨c, .act .addTask k⟩ → cf.world.aborted = false →
      proxySystem.step cf (.act 0 { taken := false }) = none ∧
        (cf.world.aborted = true ∨ c.StuckAt .addTask { taken := false }) := by
    intro cf c k hr hf ha
    have hs : proxySystem.step cf (.act 0 { taken := false }) = none := by
      simp [System.step, hf, proxySystem, worldExec, worldStep, ha]
    exact ⟨hs, stuck_only (by decide) hr hf hs⟩
  exact ⟨_, _, hr, rfl, hstuck hr rfl rfl⟩

end TrpcMysql
