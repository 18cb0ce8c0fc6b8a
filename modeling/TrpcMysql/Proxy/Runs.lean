import TrpcMysql.Proxy.Begin

/-!
# Runs of a proxy

Every call keeps the owners in order, from its start to its end, whatever the other calls do between its steps
(`Terms.sound`).
-/

namespace TrpcMysql

open Function Conc MysqlServiceProxy

variable {T : Terms} {i j : ℕ} {c : Call} {v : View} {w w' : World}

/-! ## What the steps of the other calls leave alone -/

/-- A step of call `j` adds to its own history only; no handle loses the session it was made with, or gets an
executor. -/
structure Beside (j : ℕ) (w w' : World) : Prop where
  nextHandle : w.nextHandle ≤ w'.nextHandle
  opened : ∀ h, h < w.nextHandle → (w'.handles h).opened = (w.handles h).opened
  executor : ∀ h, h < w.nextHandle → (w'.handles h).executor = (w.handles h).executor ∨ (w'.handles h).executor = none
  log : ∀ i, i ≠ j → w'.ownLog i = w.ownLog i

theorem Beside.of_same (hh : w'.handles = w.handles) (hn : w'.nextHandle = w.nextHandle) (hl : w'.log = w.log) :
    Beside j w w' where
  nextHandle := by rw [hn]
  opened h _ := by rw [hh]
  executor h _ := by rw [hh]; exact .inl rfl
  log i _ := by unfold World.ownLog; rw [hl]

theorem Beside.record (notes : List Note) (hh : w'.handles = w.handles) (hn : w'.nextHandle = w.nextHandle)
    (hl : w'.log = w.log) : Beside j w (w'.record j notes) where
  nextHandle := by rw [← hn]; exact Nat.le_refl _
  opened h _ := by rw [← hh]; rfl
  executor h _ := by rw [← hh]; exact .inl rfl
  log i hi := by
    rw [World.ownLog_record_ne hi]
    unfold World.ownLog
    rw [hl]

theorem Beside.setHandle {h : HandleId} {t : TransactionHandle} (hw : w'.handles = update w.handles h t)
    (ht : t.opened = (w.handles h).opened) (he : t.executor = (w.handles h).executor ∨ t.executor = none)
    (hn : w'.nextHandle = w.nextHandle) (hl : w'.log = w.log) : Beside j w w' where
  nextHandle := by rw [hn]
  opened h' _ := by
    rw [hw]
    by_cases hh : h' = h
    · subst hh; rw [update_self, ht]
    · rw [update_of_ne hh]
  executor h' _ := by
    rw [hw]
    by_cases hh : h' = h
    · subst hh; rw [update_self]; exact he
    · rw [update_of_ne hh]; exact .inl rfl
  log i _ := by unfold World.ownLog; rw [hl]

theorem beside_step {o : WorldOp} {a : Answer} {r : o.Reply} (he : worldStep j o a w = some (r, w')) : Beside j w w' := by
  cases o
  case client e o =>
    simp only [worldStep, Option.map_eq_some_iff] at he
    obtain ⟨y, -, heq⟩ := he
    cases heq
    exact .record _ rfl rfl rfl
  -- only the log entries of call `j` itself, its handle and what is new change
  case runFilters pt x =>
    cases he
    exact .record _ rfl rfl rfl
  case checkTimeout x =>
    simp only [worldStep] at he
    split at he
    · cases he
      exact .record _ rfl rfl rfl
    · cases he
      exact .of_same rfl rfl rfl
  case addTask =>
    simp only [worldStep] at he
    split at he
    · cases he
      exact .of_same rfl rfl rfl
    · cases he
  case poolsGetOrInsert key pool =>
    simp only [worldStep] at he
    split at he
    · cases he
      exact .of_same rfl rfl rfl
    · cases he
      exact .of_same rfl rfl rfl
  case popBack p k =>
    simp only [worldStep] at he
    split at he
    · cases he
      exact .of_same rfl rfl rfl
    · cases he
      exact .of_same rfl rfl rfl
  case pushBack p k e from? =>
    simp only [worldStep] at he
    split at he
    swap
    · cases he
    split at he
    · cases from? with
      | none =>
        cases he
        exact .of_same rfl rfl rfl
      | some h =>
        cases he
        exact .setHandle rfl rfl (.inr rfl) rfl rfl
    · cases he
      exact .of_same rfl rfl rfl
  case setState h st =>
    cases he
    exact .setHandle rfl rfl (.inl rfl) rfl rfl
  case endHandle h =>
    cases he
    cases hex : (w.handles h).executor with
    | none => exact .setHandle rfl rfl (.inr rfl) rfl rfl
    | some e => exact .setHandle rfl rfl (.inr rfl) rfl rfl
  -- the old handles stay, as the new one has a number of its own
  case newHandle e =>
    cases he
    refine ⟨Nat.le_succ _, fun h hlt => ?_, fun h hlt => ?_, fun i _ => rfl⟩
    · simp [World.setHandle, update_of_ne (Nat.ne_of_lt hlt)]
    · simp [World.setHandle, update_of_ne (Nat.ne_of_lt hlt)]
  -- what a handle opened stays with it
  case moveHandle h =>
    cases he
    refine ⟨Nat.le_succ _, fun h' hlt => ?_, fun h' hlt => ?_, fun i _ => rfl⟩
    · by_cases hh : h' = h
      · subst hh; simp [World.setHandle]
      · simp [World.setHandle, update_of_ne hh, update_of_ne (Nat.ne_of_lt hlt)]
    · by_cases hh : h' = h
      · subst hh; simp [World.setHandle]
      · simp [World.setHandle, update_of_ne hh, update_of_ne (Nat.ne_of_lt hlt)]
  case crash => cases he
  all_goals
    cases he
    exact .of_same rfl rfl rfl

/-! ## What a call tells -/

/-- What may be sent for a call: its statement, or what `FormatQuery` makes of it. -/
def Call.sends : Call → Sql → Prop
  | query _ r t args | queryTx _ _ r t args => Sql.Sent r.mode (.user t) args
  | asyncQuery _ mode t args | asyncQueryTx _ _ mode t args => Sql.Sent mode (.user t) args
  | begin _ | asyncBegin _ => (· = .begin)
  | finish _ _ b | asyncFinish _ _ b => (· = endingSql b)
  | _ => fun _ => False

/-- The results object that a call fills. -/
def Call.results : Call → MysqlResults
  | query _ r _ _ | queryTx _ _ r _ _ => r
  | _ => { mode := .onlyExec }

/-- The status that a synchronous call returns. -/
def Result.returned : Result → Option Status
  | status s _ | begun s _ | finished s => some s
  | _ => none

/-- The future of a query, or of the end of a transaction, is ready. -/
def Result.ready : Result → Bool
  | future (.ok _) | futureUnit (.ok _) => true
  | _ => false

/-- The context of the call has no error yet, and neither has its results object. -/
def Call.Fresh (c : Call) (w : World) : Prop :=
  (∀ x, c.ctx = some x → (w.ctxs x).status.ok = true) ∧ c.results.ok = true

/-- What is true of every call that returned: its status and its future tell whether its statement succeeded, and the
statements of a handle ran in the session of the handle. -/
structure CallReports (T : Terms) (c : Call) (res : Result) (log : List Note) (opened : Option (ExecId × ℕ)) : Prop where
  succeeded : T.contexts → (T.given c).numbers → ∀ s, res.returned = some s → s.ok = true → Succeeded c.sends log
  stays : T.contexts → (T.given c).numbers → (∀ w, T.start w c → c.Fresh w) → ∀ s, res.returned = some s →
    Succeeded c.sends log → s.ok = true
  ready : (T.given c).numbers → c.handle.isSome = true → res.ready = true →
    ∃ e id sent, c.sends sent ∧ .sql e (.acked id sent) ∈ log
  inTx : c.handle.isSome = true → InTx T opened log

/-- What is asked of a run agrees with what is to be kept in it. -/
structure Terms.Upheld (T : Terms) : Prop where
  session : T.session → ∀ c h, c.handle = some h → (T.given c).noConnect
  truth : T.truth → T.EndsTruly
  clean : T.clean → T.EndsCleanly
  kept : T.kept → T.BeginsWell
  done : ∀ c res log opened, CallReports T c res log opened → T.done c res log opened

/-- A synchronous call tells of its success. -/
theorem CallReports.of_told {res : Result} {r : MysqlResults} {v v' : View} {s : Status}
    {opened : Option (ExecId × ℕ)} (ht : Told T c c.sends r v v') (hres : res.returned = some s)
    (hs : T.contexts → s = v'.ctx.status) (hr : r = c.results) (hready : res.ready = false)
    (hfresh : T.contexts → (∀ w, T.start w c → c.Fresh w) → v.ctx.status.ok = true ∧ c.results.ok = true)
    (hin : c.handle.isSome = true → InTx T opened v'.log) : CallReports T c res v'.log opened where
  succeeded hT hn s' hs' hok := by
    obtain rfl := Option.some.inj (hres.symm.trans hs')
    rw [hs hT] at hok
    exact (ht.succeeded hT hn hok).2
  stays hT hn hf s' hs' hsu := by
    obtain rfl := Option.some.inj (hres.symm.trans hs')
    obtain ⟨hst, hrok⟩ := hfresh hT hf
    rw [hs hT]
    exact ht.stays hT hn (hr ▸ hrok) hst hsu
  ready _ _ h := by rw [hready] at h; cases h
  inTx := hin

/-- A call that returns no status. -/
theorem CallReports.of_future {res : Result} {log : List Note} {opened : Option (ExecId × ℕ)} (hres : res.returned = none)
    (hready : (T.given c).numbers → c.handle.isSome = true → res.ready = true →
      ∃ e id sent, c.sends sent ∧ .sql e (.acked id sent) ∈ log)
    (hin : c.handle.isSome = true → InTx T opened log) : CallReports T c res log opened where
  succeeded _ _ s hs _ := by rw [hres] at hs; cases hs
  stays _ _ _ s hs _ := by rw [hres] at hs; cases hs
  ready := hready
  inTx := hin

/-! ## Every call is safe -/

/-- How a call starts: it has the executor of its handle, and nothing else. -/
structure View.Starts (T : Terms) (c : Call) (v : View) : Prop where
  live : v.live = true
  hand : v.hand = c.handle
  copy : v.copy = none
  held : v.grip.held = none
  ctxId : v.ctxId = c.ctx
  log : v.log = []
  lent : v.Lent T
  executor : ∀ h, v.hand = some h → v.data.executor = v.exec
  own : v.hand = none → v.exec = none
  fresh : T.contexts → (∀ w, T.start w c → c.Fresh w) → ∀ x, v.ctxId = some x →
    v.ctx.status.ok = true ∧ c.results.ok = true

theorem View.Starts.free (h : v.Starts T c) (hc : c.handle = none) : v.Free :=
  ⟨⟨h.live, h.hand.trans hc, h.copy⟩, h.own (h.hand.trans hc)⟩

theorem View.Starts.onHandle {hd : HandleId} (h : v.Starts T c) (hc : c.handle = some hd) : v.OnHandle T hd :=
  ⟨h.live, h.hand.trans hc, h.copy, h.lent⟩

/-- What is left of the view of a call that returned. -/
abbrev View.Returns (T : Terms) (c : Call) (v : View) (res : Result) : Prop :=
  v.Finished T ∧ v.live = true ∧ v.hand = c.handle ∧ T.done c res v.log (v.hand.bind fun _ => v.data.opened)

theorem View.Free.returns {res : Result} (hv : v.Free) (hc : c.handle = none) (hT : T.Upheld)
    (hr : CallReports T c res v.log none) : v.Returns T c res := by
  refine ⟨hv.finished, hv.live, hv.hand.trans hc.symm, ?_⟩
  rw [hv.hand]
  exact hT.done c res v.log none hr

theorem View.OnHandle.returns {res : Result} {hd : HandleId} (hv : v.OnHandle T hd) (hc : c.handle = some hd)
    (hT : T.Upheld) (hr : CallReports T c res v.log v.data.opened) : v.Returns T c res := by
  refine ⟨hv.finished, hv.live, hv.hand.trans hc.symm, ?_⟩
  rw [hv.hand]
  exact hT.done c res v.log v.data.opened hr

/-- **A call is safe from its start to its end.** -/
theorem Call.safe (hT : T.Upheld) (hc : c.shutdown = false) (hv : v.Starts T c) :
    T.Safe i c v c.prog (View.Returns T c) := by
  cases c with
  | query x r text args =>
    refine safe_bind (query_safe (hv.free rfl) hv.ctxId hv.log) fun v₁ out h₁ => ?_
    obtain ⟨ha, hst⟩ := h₁
    exact ha.free.returns rfl hT (.of_told ha.told rfl hst rfl rfl (fun hC hf => hv.fresh hC hf x hv.ctxId)
      fun h => (by cases h))
  | asyncQuery x mode text args =>
    refine safe_bind (asyncQuery_safe (hv.free rfl) hv.ctxId hv.log) fun v₁ out h₁ => ?_
    exact h₁.returns rfl hT (.of_future rfl (fun _ h => (by cases h)) fun h => (by cases h))
  | queryTx x h r text args =>
    have hh := hv.onHandle rfl
    refine safe_bind (queryTx_safe hh hv.ctxId hv.log (.inl ⟨text, rfl⟩) fun hS => hT.session hS _ h rfl)
      fun v₁ out h₁ => ?_
    obtain ⟨res, hs, -, ht, hst⟩ := h₁
    have hin := hs.inTx hh (hv.executor h hh.hand) fun hS => hT.session hS _ h rfl
    rw [← hs.onTx.opened] at hin
    exact hs.onHandle.returns rfl hT (.of_told ht rfl hst rfl rfl (fun hC hf => hv.fresh hC hf x hv.ctxId)
      fun _ => hin)
  | asyncQueryTx x h mode text args =>
    have hh := hv.onHandle rfl
    refine safe_bind (asyncQueryTx_safe hh hv.ctxId hv.log (.inl ⟨text, rfl⟩) fun hS => hT.session hS _ h rfl)
      fun v₁ out h₁ => ?_
    obtain ⟨res, hs, hout⟩ := h₁
    have hin := hs.inTx hh (hv.executor h hh.hand) fun hS => hT.session hS _ h rfl
    rw [← hs.onTx.opened] at hin
    refine hs.onHandle.returns rfl hT (.of_future rfl (fun hn _ hready => ?_) fun _ => hin)
    cases out with
    | error m => cases hready
    | ok r' =>
      obtain ⟨rfl, hok⟩ := hout r' rfl
      obtain ⟨e, id, sent, -, hsent, hm⟩ := hs.onTx.acked (.inl hn) hok
      exact ⟨e, id, sent, hsent, hm⟩
  | begin x =>
    refine safe_bind (begin_safe (hv.free rfl) hv.ctxId hv.log hT.kept) fun v₁ out h₁ => ?_
    obtain ⟨ha, hst⟩ := h₁
    exact ha.free.returns rfl hT (.of_told ha.told rfl hst rfl rfl (fun hC hf => hv.fresh hC hf x hv.ctxId)
      fun h => (by cases h))
  | asyncBegin x =>
    refine safe_bind (asyncBegin_safe (hv.free rfl) hv.ctxId hv.log hT.kept) fun v₁ out h₁ => ?_
    exact h₁.returns rfl hT (.of_future rfl (fun _ h => (by cases h)) fun h => (by cases h))
  -- `Commit` and `Rollback` by their one lemma
  | finish x h b =>
    have hh := hv.onHandle rfl
    have hend := finish_safe (i := i) (b := b) hh hv.ctxId hv.log (hv.executor h hh.hand)
      (fun hS => hT.session hS _ h rfl) hT.truth hT.clean
    have hret : ∀ v₁ s, (v₁.OnHandle T h ∧ v₁.data.opened = v.data.opened ∧ InTx T v.data.opened v₁.log ∧
        Told T (.finish x h b) (· = endingSql b) { mode := .onlyExec } v v₁ ∧ (T.contexts → s = v₁.ctx.status)) →
        v₁.Returns T (.finish x h b) (.finished s) := by
      rintro v₁ s ⟨hh₁, hopened, hin, ht, hst⟩
      rw [← hopened] at hin
      exact hh₁.returns rfl hT (.of_told ht rfl hst rfl rfl (fun hC hf => hv.fresh hC hf x hv.ctxId) fun _ => hin)
    cases b with
    | false => exact safe_bind hend hret
    | true => exact safe_bind hend hret
  | asyncFinish x h b =>
    have hh := hv.onHandle rfl
    have hret : ∀ v₁ out, AsyncFinished T h b v v₁ out → v₁.Returns T (.asyncFinish x h b) (.futureUnit out) := by
      intro v₁ out hf
      have hin := hf.inTx
      rw [← hf.opened] at hin
      refine hf.onHandle.returns rfl hT (.of_future rfl (fun _ _ hready => ?_) fun _ => hin)
      cases out with
      | error m => cases hready
      | ok u =>
        obtain ⟨e, id, hm⟩ := hf.acked rfl
        exact ⟨e, id, _, rfl, hm⟩
    cases b with
    | false =>
      exact safe_bind (asyncCommit_safe hh hv.ctxId hv.log (hv.executor h hh.hand) fun hS => hT.session hS _ h rfl) hret
    | true =>
      exact safe_bind (asyncRollback_safe hh hv.ctxId hv.log (hv.executor h hh.hand) fun hS => hT.session hS _ h rfl) hret
  -- a call without a statement has nothing to tell
  | moveHandle h =>
    have hh := hv.onHandle rfl
    refine safe_bind (safe_moveHandle hv.live hh.hand hv.held hv.lent) fun v₁ h' h₁ => ?_
    obtain ⟨g, rfl⟩ := h₁
    have hun : Unsent v.log := fun e ev hm => by rw [hv.log] at hm; cases hm
    exact View.OnHandle.returns ⟨hv.live, hh.hand, hv.copy, fun e he => (by cases he)⟩ rfl hT
      (.of_future rfl (fun _ _ h => (by cases h)) fun _ => hun.inTx)
  | dropHandle h =>
    have hh := hv.onHandle rfl
    refine safe_bind (dropHandle_safe hh) fun v₁ _ h₁ => ?_
    have hun : Unsent v₁.log := fun e ev hm => by rw [h₁.2, hv.log] at hm; cases hm
    exact h₁.1.returns rfl hT (.of_future rfl (fun _ _ h => (by cases h)) fun _ => hun.inTx)
  | stop p => cases hc
  | destroy p => cases hc

/-! ## The outline is sound -/

variable {cf : ProxyConfig} {vs : ℕ → View} {owner : ExecId → Owner}

/-- The view that a call starts with. -/
theorem Owned.starts (ho : Owned T cf.world vs owner) (hh : ∀ h, c.handle = some h → h < cf.world.nextHandle ∧
    ∀ j, (vs j).hand ≠ some h) (hstart : T.start cf.world c) (hlog : cf.world.ownLog i = []) :
    (View.begin T i c cf.world).Starts T c where
  live := rfl
  hand := rfl
  copy := rfl
  held := rfl
  ctxId := rfl
  log := hlog
  lent := by
    intro e he
    obtain ⟨h, hc, hex, hown⟩ := ho.lent_owner (T := T) (i := i) hh he
    have := ho.handleOk e h hown
    have he : (c.handle.bind fun h => (cf.world.handles h).executor) = some e := he
    simpa [View.begin, View.sync, he, hc, hex] using this
  executor h hc := by
    have hc : c.handle = some h := hc
    simp [View.begin, View.sync, hc]
  own hc := by
    have hc : c.handle = none := hc
    simp [View.begin, View.sync, hc]
  fresh hT hf x hx := by
    have hx : c.ctx = some x := hx
    obtain ⟨h1, h2⟩ := hf cf.world hstart
    refine ⟨?_, h2⟩
    simpa [View.begin, View.sync, hx, hT] using h1 x hx

/-- **Every call keeps the owners in order.** -/
theorem Terms.sound (hT : T.Upheld) (serviceName : String) (option : MysqlExecutorPoolOption)
    (ctxs : CtxId → ClientContext) :
    T.outline.Sound proxySystem T.guard (World.fresh serviceName option ctxs) where
  init := ⟨_, owned_fresh serviceName option ctxs⟩
  unborn _ := rfl
  -- a step of another call writes nothing under the number of this one
  unborn_step := by
    intro i w j o a x w' hij hu he
    have he : worldExec j o a w = some (x, w') := he
    unfold worldExec at he
    split at he
    · cases he
    · exact ((beside_step he).log i hij).trans hu
  start := by
    intro cf vs c hI hg hv hu hrun
    obtain ⟨owner, ho⟩ := hI
    obtain ⟨hstart, ⟨hsh, hfollow⟩, halone⟩ := hg
    -- the views fit their calls, so the guard on the calls tells of the views
    have hhand : ∀ h, c.handle = some h → h < cf.world.nextHandle ∧ ∀ j, (vs j).hand ≠ some h := by
      intro h hc
      refine ⟨(hfollow h hc).1, fun j hj => ?_⟩
      obtain ⟨c', hr, hfit, -⟩ := hrun j fun hrest => by rw [hrest] at hj; cases hj
      exact (hfollow h hc).2 j c' hr (hfit.symm.trans hj)
    have hctx : T.contexts → ∀ x, c.ctx = some x → ∀ j, (vs j).ctxId ≠ some x := by
      intro hC x hx j hj
      obtain ⟨c', hr, -, hfit⟩ := hrun j fun hrest => by rw [hrest] at hj; cases hj
      exact halone hC x hx j c' hr (hfit.symm.trans hj)
    exact ⟨⟨_, ho.start hv hhand hctx⟩, Call.safe hT hsh (ho.starts hhand hstart hu)⟩
  fits _ _ _ := ⟨rfl, rfl⟩
  fits_next i c v o r w hf := by
    change (v.move o r).hand = c.handle ∧ (v.move o r).ctxId = c.ctx
    rw [View.move_eq]
    exact hf
  holds hg := Call.disc hg.2.1.1
  holds_next _ _ _ _ r _ h := h.2 r
  finish := by
    intro w vs i c res hI hp
    obtain ⟨owner, ho⟩ := hI
    obtain ⟨hfin, hl, hhand, hdone⟩ := hp
    refine ⟨⟨_, ho.finish hfin⟩, fun h hc => (ho.hand i h (hhand.trans hc)).1, ?_⟩
    have hs := ho.synced i
    rw [hs.log hl] at hdone
    -- what the handle opened, by the view and in the world
    have hopened : ((vs i).hand.bind fun _ => (vs i).data.opened) = c.opened w := by
      unfold Call.opened
      rw [← hhand]
      cases hh : (vs i).hand with
      | none => rfl
      | some h =>
        rw [Option.bind_some, Option.bind_some, hs.data h hh]
    rwa [hopened] at hdone
  stable := by
    intro i c res w j c' o a x w' hij hd he _
    have he : worldExec j o a w = some (x, w') := he
    unfold worldExec at he
    split at he
    · cases he
    · -- a call that has ended keeps what it told: the others write neither its log nor its session
      have hb := beside_step he
      obtain ⟨hlt, hdone⟩ := hd
      refine ⟨fun h hc => Nat.lt_of_lt_of_le (hlt h hc) hb.nextHandle, ?_⟩
      have hopened : c.opened w' = c.opened w := by
        unfold Call.opened
        cases hc : c.handle with
        | none => rfl
        | some h =>
          rw [Option.bind_some, Option.bind_some, hb.opened h (hlt h hc)]
      rw [hb.log i hij, hopened]
      exact hdone

end TrpcMysql
