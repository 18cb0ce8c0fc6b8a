import TrpcMysql.Proxy.Invoke

/-!
# Calls on transactions

What a call with a handle does to the handle and its executor. Both kinds of queries come to one of five
ends (`OnTx`): a filter rejects the call, the handle is not started, its connection is lost, the invocation is
turned away, or the statement runs. `Commit` and `Rollback` end the transaction whenever the results object
shows no error, however the query ended.
-/

namespace TrpcMysql

open Function Conc

variable {T : Terms} {i : ℕ} {c : Call} {v v' v'' : View} {e : ExecId} {x : CtxId} {h : HandleId} {q : Sql}
  {args : List InputArg} {r : MysqlResults}

/-- The executor of a handle is well formed, and in the session of the handle. -/
abbrev View.Lent (T : Terms) (v : View) : Prop :=
  ∀ e, v.exec = some e → v.state.Ok ∧ (T.session → InSession v.data v.state)

/-- A call on the handle `h`, without a copy of a reference. -/
structure View.OnHandle (T : Terms) (h : HandleId) (v : View) : Prop where
  live : v.live = true
  hand : v.hand = some h
  copy : v.copy = none
  lent : v.Lent T

theorem View.OnHandle.finished (hv : v.OnHandle T h) : v.Finished T where
  copy := hv.copy
  exec hn := by rw [hv.hand] at hn; cases hn
  held := hv.lent

/-- The executor went on without a new session. -/
theorem View.Lent.mono (hv : v.Lent T) (hexec : v'.exec = v.exec) (hdata : v'.data.executor = v.data.executor)
    (hopened : v'.data.opened = v.data.opened) (hok : ∀ e, v.exec = some e → v'.state.Ok)
    (hs : T.session → ∀ id, v'.state.HasSession id → v.state.HasSession id) : v'.Lent T := by
  intro e he
  rw [hexec] at he
  refine ⟨hok e he, fun hT e' he' id hid => ?_⟩
  rw [hopened]
  exact (hv e he).2 hT e' (hdata.symm.trans he') id (hs hT id hid)

/-- A step that leaves the executor as it was. -/
theorem View.OnHandle.same (hv : v.OnHandle T h) (hs : v.Stays v') (hstate : v'.state = v.state) : v'.OnHandle T h where
  live := hs.live.trans hv.live
  hand := hs.hand.trans hv.hand
  copy := hs.copy.trans hv.copy
  lent := by
    intro e he
    rw [hstate, hs.data]
    exact hv.lent e (hs.exec.symm.trans he)

namespace MysqlServiceProxy

open MysqlExecutor (Ran Proper)

/-- How a query with a handle ended; `res` is the result of its statement, if it ran. -/
inductive OnTx (T : Terms) (c : Call) (x : CtxId) (h : HandleId) (q : Sql) (args : List InputArg) (r : MysqlResults)
    (v : View) (res : Option MysqlResults) (v' : View) : Prop
  | rejected (hres : res = none) (hrough : T.Rough c v (.runFilters .preRpcInvoke x)) (hstate : v'.state = v.state)
      (hdata : v'.data = v.data) (hlog : Unsent v'.log)
  | invalid (hres : res = none) (hfit : v.Meets fun w => T.fit c w (.getState h)) (hst : v.data.state ≠ .kStarted)
      (hstate : v'.state = v.state) (hdata : v'.data = v.data) (hlog : Unsent v'.log)
  | lost {e : ExecId} (hres : res = none) (hexec : v.exec = some e)
      (hfit : v.Meets fun w => T.fit c w (.getState h)) (hst : v.data.state = .kStarted)
      (hcheck : Checked (T.given c) v.state false v'.state) (hdata : v'.data = { v.data with state := .kRollBacked })
      (hlog : Unsent v'.log)
  | away {s : ExecSt} (hres : res = none) (hfit : v.Meets fun w => T.fit c w (.getState h))
      (hst : v.data.state = .kStarted) (hcheck : Checked (T.given c) v.state true s)
      (hrough : T.Rough c { v with state := s } (.checkTimeout x) ∨
        T.Rough c { v with state := s } (.runFilters .preSendMsg x))
      (hstate : v'.state = s) (hdata : v'.data = v.data) (hlog : Unsent v'.log)
  | ran {e : ExecId} {s : ExecSt} {new : List SqlEvent} {r' : MysqlResults} {post : List Note} (hres : res = some r')
      (hexec : v.exec = some e) (hst : v.data.state = .kStarted) (hcheck : Checked (T.given c) v.state true s)
      (hran : TaskRan T c q args r e s r' v'.state new) (hlog : v'.log = new.map (.sql e) ++ post)
      (hpost : Rejections post) (hdata : v'.data = v.data)

/-- A filter's verdict after the invocation. -/
theorem Told.filtered {pt : FilterPoint} {pass : Bool} (ht : Told T c sends r v v')
    (hf : Filtered T c v' pt x v'' pass) : Told T c sends r v v'' := by
  have hlog := hf.log
  cases pass with
  | true =>
    rw [if_pos rfl, List.append_nil] at hlog
    refine ⟨fun hT hn hok => ?_, fun hT hn hr hok hs => ?_⟩
    · rw [hf.passed hT rfl] at hok
      rw [hlog]
      exact ht.succeeded hT hn hok
    · rw [hf.passed hT rfl]
      exact ht.stays hT hn hr hok (by rwa [hlog] at hs)
  | false =>
    refine .failed (fun hT _ => hf.rejected hT rfl) fun hs => ?_
    have := hs.1 (.rejected pt) (by rw [hlog]; simp)
    cases this

theorem Unsent.filtered {pt : FilterPoint} {pass : Bool} (h : Unsent v'.log) (hf : Filtered T c v' pt x v'' pass) :
    Unsent v''.log := by
  intro e ev hm
  rw [hf.log] at hm
  rcases List.mem_append.1 hm with hm | hm
  · exact h e ev hm
  · cases pass with
    | true => cases hm
    | false => cases List.mem_singleton.1 hm

/-- How a query ended shows in the executor, the handle and the history. -/
theorem OnTx.congr {res : Option MysqlResults} (ho : OnTx T c x h q args r v res v') (hstate : v''.state = v'.state)
    (hdata : v''.data = v'.data) (hlog : v''.log = v'.log) : OnTx T c x h q args r v res v'' := by
  cases ho with
  | rejected hres hrough hs hd hl =>
    exact .rejected hres hrough (hstate.trans hs) (hdata.trans hd) (hlog ▸ hl)
  | invalid hres hfit hst hs hd hl =>
    exact .invalid hres hfit hst (hstate.trans hs) (hdata.trans hd) (hlog ▸ hl)
  | lost hres hexec hfit hst hcheck hd hl =>
    exact .lost hres hexec hfit hst (hstate ▸ hcheck) (hdata.trans hd) (hlog ▸ hl)
  | away hres hfit hst hcheck hrough hs hd hl =>
    exact .away hres hfit hst hcheck hrough (hstate.trans hs) (hdata.trans hd) (hlog ▸ hl)
  | ran hres hexec hst hcheck hran hl hpost hd =>
    exact .ran hres hexec hst hcheck (hstate ▸ hran) (hlog.trans hl) hpost (hdata.trans hd)

/-- Filters that run after the statement change nothing of how the query ended. -/
theorem OnTx.filtered {res : Option MysqlResults} {pt : FilterPoint} {pass : Bool}
    (ho : OnTx T c x h q args r v res v') (hf : Filtered T c v' pt x v'' pass) : OnTx T c x h q args r v res v'' := by
  obtain ⟨⟨cx, l, rfl⟩, hl, -, -, -⟩ := id hf
  cases ho with
  | rejected hres hrough hstate hdata hlog => exact .rejected hres hrough hstate hdata (hlog.filtered hf)
  | invalid hres hfit hst hstate hdata hlog => exact .invalid hres hfit hst hstate hdata (hlog.filtered hf)
  | lost hres hexec hfit hst hcheck hdata hlog => exact .lost hres hexec hfit hst hcheck hdata (hlog.filtered hf)
  | away hres hfit hst hcheck hrough hstate hdata hlog =>
    exact .away hres hfit hst hcheck hrough hstate hdata (hlog.filtered hf)
  | ran hres hexec hst hcheck hran hlog hpost hdata =>
    refine .ran hres hexec hst hcheck hran (hl.trans (by rw [hlog, List.append_assoc])) (fun n hn => ?_) hdata
    rcases List.mem_append.1 hn with hn | hn
    · exact hpost n hn
    · cases pass with
      | true => cases hn
      | false => exact ⟨pt, List.mem_singleton.1 hn⟩

/-- The connection of the handle is checked. -/
theorem handleAlive_safe (hv : v.OnHandle T h) : T.Safe i c v (handleAlive h) fun v' alive =>
    ∃ e s g, v.exec = some e ∧ Checked (T.given c) v.state alive s ∧ v' = { v with state := s, grip := g } ∧
      g.held = none := by
  refine safe_bind (safe_getExecutor hv.live hv.hand) fun v₁ ex h₁ => ?_
  obtain ⟨hex, ⟨g, rfl⟩, -⟩ := h₁
  rcases Option.eq_none_or_eq_some v.exec with he | ⟨e, he⟩
  · rw [he] at hex
    subst hex
    exact safe_crashed
  · rw [he] at hex
    subst hex
    refine safe_bind (safe_silent (v := { v with copy := v.exec, grip := g }) hv.live he
      (MysqlExecutor.checkAlive_spec (hv.lent e he).1) fun _ _ h => h.events) fun v₂ alive h₂ => ?_
    obtain ⟨s, hs, rfl⟩ := h₂
    refine safe_bind (safe_dropCopy (e := e) hv.live he fun hn => ?_) fun v₃ _ h₃ => ?_
    · have hhand : v.hand = none := hn
      rw [hv.hand] at hhand
      cases hhand
    · obtain ⟨⟨g', rfl⟩, hheld⟩ := h₃
      exact ⟨e, s, g', he, hs, by rw [← hv.copy], hheld⟩

/-- However the query ended, the handle keeps its executor in its session. -/
theorem OnTx.lent {res : Option MysqlResults} (ho : OnTx T c x h q args r v res v') (hv : v.Lent T)
    (hexec : v'.exec = v.exec) (hs : T.session → (T.given c).noConnect) : v'.Lent T := by
  cases ho with
  | rejected _ _ hstate hdata _ =>
    exact hv.mono hexec (by rw [hdata]) (by rw [hdata]) (fun e he => by rw [hstate]; exact (hv e he).1)
      fun _ id hid => by rwa [hstate] at hid
  | invalid _ _ _ hstate hdata _ =>
    exact hv.mono hexec (by rw [hdata]) (by rw [hdata]) (fun e he => by rw [hstate]; exact (hv e he).1)
      fun _ id hid => by rwa [hstate] at hid
  | lost _ _ _ _ hcheck hdata _ =>
    exact hv.mono hexec (by rw [hdata]) (by rw [hdata]) (fun _ _ => hcheck.ok) fun _ _ => hcheck.keeps.hasSession
  | away _ _ _ hcheck _ hstate hdata _ =>
    subst hstate
    exact hv.mono hexec (by rw [hdata]) (by rw [hdata]) (fun _ _ => hcheck.ok) fun _ _ => hcheck.keeps.hasSession
  | ran _ _ _ hcheck hran _ _ hdata =>
    exact hv.mono hexec (by rw [hdata]) (by rw [hdata]) (fun _ _ => hran.ran.ok) fun hT id hid =>
      hcheck.keeps.hasSession (hran.ran.sessions (hs hT) id hid)

/-- What a query with a handle leaves. -/
structure Served (T : Terms) (c : Call) (x : CtxId) (h : HandleId) (q : Sql) (args : List InputArg) (r : MysqlResults)
    (v : View) (res : Option MysqlResults) (v' : View) : Prop where
  onHandle : v'.OnHandle T h
  ctxId : v'.ctxId = v.ctxId
  exec : v'.exec = v.exec
  onTx : OnTx T c x h q args r v res v'

theorem Served.filtered {res : Option MysqlResults} {pt : FilterPoint} {pass : Bool}
    (hs : Served T c x h q args r v res v') (hf : Filtered T c v' pt x v'' pass) : Served T c x h q args r v res v'' := by
  have ho := hs.onTx.filtered hf
  obtain ⟨⟨cx, l, rfl⟩, -, -, -, -⟩ := hf
  exact ⟨hs.onHandle.same rfl rfl, hs.ctxId, hs.exec, ho⟩

/-- A query with a handle, after the first filters. -/
theorem handleInvoke_safe (hv : v.OnHandle T h) (hx : v.ctxId = some x) (hlog : v.log = []) (hq : Proper r q args)
    (hses : T.session → (T.given c).noConnect) : T.Safe i c v (handleInvoke x h r q args) fun v' r' =>
      ∃ res, Served T c x h q args r v res v' ∧ r' = res.getD r ∧ Told T c (Sql.Sent r.mode q args) r v v' := by
  have hunsent : Unsent v.log := fun e ev hm => by rw [hlog] at hm; cases hm
  refine safe_bind (safe_getState hv.live hv.hand) fun v₁ st h₁ => ?_
  obtain ⟨rfl, rfl, hfit⟩ := h₁
  have hfit := hfit.meets
  split
  · rename_i hst
    refine safe_bind (safe_setStatus hv.live hx) fun v₂ _ h₂ => ?_
    obtain ⟨cx, rfl, hcx⟩ := h₂
    refine ⟨none, ⟨hv.same rfl rfl, rfl, rfl, .invalid rfl hfit hst rfl rfl hunsent⟩, rfl,
      .failed (fun hT _ => ?_) hunsent.not_succeeded⟩
    rw [hcx hT]
    rfl
  rename_i hst
  have hst : v₁.data.state = .kStarted := by simpa using hst
  refine safe_bind (handleAlive_safe hv) fun v₂ alive h₂ => ?_
  obtain ⟨e, s, g, he, hcheck, rfl, -⟩ := h₂
  cases alive with
  | false =>
    refine safe_bind (safe_setState (v := { v₁ with state := s, grip := g }) hv.live hv.hand fun _ _ => ?_)
      fun v₃ _ h₃ => ?_
    · refine ⟨fun h => (by cases h), fun _ => ⟨?_, e, he, .inl ?_⟩, .inr rfl⟩
      · rw [show ({ v₁ with state := s, grip := g } : View).data.state = .kStarted from hst]
        simp
      · rw [show ({ v₁ with state := s, grip := g } : View).state = s from rfl, hcheck.this]
    · subst h₃
      refine safe_bind (safe_setStatus
        (v := { v₁ with data := { v₁.data with state := .kRollBacked }, state := s, grip := g })
        hv.live hx) fun v₄ _ h₄ => ?_
      obtain ⟨cx, rfl, hcx⟩ := h₄
      have ho : OnTx T c x h q args r v₁ none
          { v₁ with data := { v₁.data with state := .kRollBacked }, state := s, grip := g, ctx := cx } :=
        .lost rfl he hfit hst hcheck rfl hunsent
      refine ⟨none, ⟨⟨hv.live, hv.hand, hv.copy, ho.lent hv.lent rfl hses⟩, rfl, rfl, ho⟩, rfl,
        .failed (fun hT _ => ?_) hunsent.not_succeeded⟩
      rw [hcx hT]
      rfl
  | true =>
    refine safe_bind (safe_getExecutor (v := { v₁ with state := s, grip := g }) hv.live hv.hand) fun v₃ ex h₃ => ?_
    obtain ⟨hex, ⟨g₃, rfl⟩, -⟩ := h₃
    obtain rfl : ex = some e := hex.trans he
    have hc : s.this.isConnected = true := by rw [hcheck.this]
    refine safe_bind (unaryInvoke_safe (v := { v₁ with state := s, copy := v₁.exec, grip := g₃ }) hv.live hx hlog
      fun cx => task_own hv.live he hcheck.ok hc hq) fun v₄ r₄ h₄ => ?_
    obtain ⟨hs, -, hinv⟩ := h₄
    refine safe_bind (safe_dropCopy (e := e) (hs.live.trans hv.live) (hs.copy.trans he) fun hn => ?_) fun v₅ _ h₅ => ?_
    · have := hs.hand.symm.trans hn
      rw [show ({ v₁ with state := s, copy := v₁.exec, grip := g₃ } : View).hand = some h from hv.hand] at this
      cases this
    obtain ⟨⟨g₅, rfl⟩, -⟩ := h₅
    have hdata : v₄.data = v₁.data := hs.data
    have hexec : v₄.exec = v₁.exec := hs.exec
    -- what is left to show is how the invocation ended
    have hend : ∀ {res}, OnTx T c x h q args r v₁ res { v₄ with copy := none, grip := g₅ } →
        Served T c x h q args r v₁ res { v₄ with copy := none, grip := g₅ } := fun ho =>
      ⟨⟨hs.live.trans hv.live, hs.hand.trans hv.hand, rfl, ho.lent hv.lent hexec hses⟩, hs.ctxId, hexec, ho⟩
    have htold : Told T c (Sql.Sent r.mode q args) r v₁ { v₄ with copy := none, grip := g₅ } :=
      ⟨hinv.told.succeeded, hinv.told.stays⟩
    cases hinv with
    | away hr hstate _ hlog₄ hrough =>
      exact ⟨none, hend (.away rfl hfit hst hcheck hrough hstate hdata hlog₄), hr, htold⟩
    | refused _ hno _ _ =>
      have hno : v₁.exec = none := hno
      rw [he] at hno; cases hno
    | ran hran hlog₄ hpost _ hown =>
      rcases hown with hno | ⟨he', rfl, rfl⟩
      · have hno : v₁.exec = none := hno
        rw [he] at hno; cases hno
      · obtain rfl := Option.some.inj (he.symm.trans he')
        refine ⟨some r₄, hend (.ran rfl he hst hcheck hran hlog₄ (fun n hn => ?_) hdata), rfl, htold⟩
        rcases hpost with rfl | ⟨rfl, -⟩
        · cases hn
        · exact ⟨_, List.mem_singleton.1 hn⟩

/-- The verdict of the first filters. -/
theorem served_rejected {pass : Bool} (hv : v.OnHandle T h) (hlog : v.log = [])
    (hf : Filtered T c v .preRpcInvoke x v' pass) (hpass : pass = false) :
    Served T c x h q args r v none v' ∧ Told T c sends r v v' := by
  subst hpass
  have hun : Unsent v'.log := by
    intro e ev hm
    rw [hf.log, hlog] at hm
    simp at hm
  have hst := hf.rejected
  have hrough := hf.rough rfl
  obtain ⟨⟨cx, l, rfl⟩, -, -, -, -⟩ := hf
  exact ⟨⟨hv.same rfl rfl, rfl, rfl, .rejected rfl hrough rfl rfl hun⟩,
    .failed (fun hT _ => hst hT rfl) hun.not_succeeded⟩

/-- A query that the first filters let pass, seen from before them. -/
theorem Served.passed {res : Option MysqlResults} (hs : Served T c x h q args r v' res v'')
    (hf : Filtered T c v .preRpcInvoke x v' true) : Served T c x h q args r v res v'' := by
  obtain ⟨⟨cx, l, rfl⟩, -, -, -, -⟩ := hf
  obtain ⟨h1, h2, h3, ho⟩ := hs
  refine ⟨h1, h2, h3, ?_⟩
  cases ho with
  | rejected hres hrough hstate hdata hlog => exact .rejected hres hrough hstate hdata hlog
  | invalid hres hfit hst hstate hdata hlog => exact .invalid hres hfit hst hstate hdata hlog
  | lost hres hexec hfit hst hcheck hdata hlog => exact .lost hres hexec hfit hst hcheck hdata hlog
  | away hres hfit hst hcheck hrough hstate hdata hlog =>
    exact .away hres hfit hst hcheck hrough hstate hdata hlog
  | ran hres hexec hst hcheck hran hlog hpost hdata => exact .ran hres hexec hst hcheck hran hlog hpost hdata

theorem Told.passed (ht : Told T c sends r v' v'') (hf : Filtered T c v .preRpcInvoke x v' true) :
    Told T c sends r v v'' where
  succeeded hT hn hok := by
    rw [← hf.passed hT rfl]
    exact ht.succeeded hT hn hok
  stays hT hn hr hok hs := ht.stays hT hn hr (by rw [hf.passed hT rfl]; exact hok) hs

/-- **A synchronous query with a handle.** -/
theorem queryTx_safe (hv : v.OnHandle T h) (hx : v.ctxId = some x) (hlog : v.log = []) (hq : Proper r q args)
    (hses : T.session → (T.given c).noConnect) : T.Safe i c v (queryTx x h r q args) fun v' out =>
      ∃ res, Served T c x h q args r v res v' ∧ out.2 = res.getD r ∧ Told T c (Sql.Sent r.mode q args) r v v' ∧
        (T.contexts → out.1 = v'.ctx.status) := by
  -- the last filters, and the status
  have hend : ∀ {v₁ r' res}, Served T c x h q args r v res v₁ → r' = res.getD r →
      Told T c (Sql.Sent r.mode q args) r v v₁ →
      T.Safe i c v₁ (do
        let _ ← wop (.runFilters .postRpcInvoke x)
        return (← wop (.getStatus x), r')) fun v' out =>
          ∃ res, Served T c x h q args r v res v' ∧ out.2 = res.getD r ∧ Told T c (Sql.Sent r.mode q args) r v v' ∧
            (T.contexts → out.1 = v'.ctx.status) := by
    intro v₁ r' res hs hr ht
    refine safe_bind (safe_runFilters hs.onHandle.live (hs.ctxId.trans hx)) fun v₂ pass h₂ => ?_
    have hs₂ := hs.filtered h₂
    refine safe_bind (safe_getStatus hs₂.onHandle.live (hs₂.ctxId.trans hx)) fun v₃ st h₃ => ?_
    obtain ⟨rfl, hst⟩ := h₃
    exact ⟨res, hs₂, hr, ht.filtered h₂, hst⟩
  refine safe_bind (safe_runFilters hv.live hx) fun v₁ pass h₁ => ?_
  cases pass with
  | false =>
    have hrej : Served T c x h q args r v none v₁ ∧ Told T c (Sql.Sent r.mode q args) r v v₁ :=
      served_rejected hv hlog h₁ rfl
    obtain ⟨hs, ht⟩ := hrej
    exact hend hs rfl ht
  | true =>
    have hlog₁ : v₁.log = [] := by rw [h₁.log, hlog]; rfl
    have hv₁ : v₁.OnHandle T h ∧ v₁.ctxId = some x := by
      obtain ⟨⟨cx, l, rfl⟩, -, -, -, -⟩ := h₁
      exact ⟨hv.same rfl rfl, hx⟩
    refine safe_bind (handleInvoke_safe hv₁.1 hv₁.2 hlog₁ hq hses) fun v₂ r₂ h₂ => ?_
    obtain ⟨res, hs, hr, ht⟩ := h₂
    exact hend (hs.passed h₁) hr (ht.passed h₁)

/-- **An asynchronous query with a handle.** -/
theorem asyncQueryTx_safe {mode : MysqlResultsMode} (hv : v.OnHandle T h) (hx : v.ctxId = some x) (hlog : v.log = [])
    (hq : Proper { mode := mode } q args) (hses : T.session → (T.given c).noConnect) :
    T.Safe i c v (asyncQueryTx x h mode q args) fun v' out => ∃ res, Served T c x h q args { mode := mode } v res v' ∧
      ∀ r', out = .ok r' → res = some r' ∧ r'.ok = true := by
  refine safe_bind (safe_runFilters hv.live hx) fun v₁ pass h₁ => ?_
  have hv₁ : v₁.OnHandle T h ∧ v₁.ctxId = some x := by
    obtain ⟨⟨cx, l, rfl⟩, -, -, -, -⟩ := id h₁
    exact ⟨hv.same rfl rfl, hx⟩
  cases pass with
  | false =>
    have hrej : Served T c x h q args { mode := mode } v none v₁ ∧
        Told T c (Sql.Sent mode q args) { mode := mode } v v₁ := served_rejected hv hlog h₁ rfl
    obtain ⟨hs, -⟩ := hrej
    refine safe_bind (safe_getStatus hv₁.1.live hv₁.2) fun v₂ st h₂ => ?_
    obtain ⟨rfl, -⟩ := h₂
    refine safe_bind (safe_runFilters hv₁.1.live hv₁.2) fun v₃ pass₃ h₃ => ?_
    exact ⟨none, hs.filtered h₃, fun r' hr' => (by cases hr')⟩
  | true =>
    have hlog₁ : v₁.log = [] := by rw [h₁.log, hlog]; rfl
    have hun : Unsent v₁.log := fun e ev hm => by rw [hlog₁] at hm; cases hm
    obtain ⟨hv₁, hx₁⟩ := hv₁
    refine safe_bind (safe_getState hv₁.live hv₁.hand) fun v₂ st h₂ => ?_
    obtain ⟨rfl, rfl, hfit⟩ := h₂
    have hfit := hfit.meets
    split
    · rename_i hst
      refine safe_bind (safe_setStatus hv₁.live hx₁) fun v₃ _ h₃ => ?_
      obtain ⟨cx, rfl, -⟩ := h₃
      have hs : Served T c x h q args { mode := mode } v₂ none { v₂ with ctx := cx } :=
        ⟨hv₁.same rfl rfl, rfl, rfl, .invalid rfl hfit hst rfl rfl hun⟩
      refine safe_bind (safe_runFilters (v := { v₂ with ctx := cx }) hv₁.live hx₁) fun v₄ pass₄ h₄ => ?_
      exact ⟨none, (hs.passed h₁).filtered h₄, fun r' hr' => (by cases hr')⟩
    rename_i hst
    have hst : v₂.data.state = .kStarted := by simpa using hst
    refine safe_bind (handleAlive_safe hv₁) fun v₃ alive h₃ => ?_
    obtain ⟨e, s, g, he, hcheck, rfl, -⟩ := h₃
    cases alive with
    | false =>
      refine safe_bind (safe_setState (v := { v₂ with state := s, grip := g }) hv₁.live hv₁.hand fun _ _ => ?_)
        fun v₄ _ h₄ => ?_
      · refine ⟨fun h => (by cases h), fun _ => ⟨?_, e, he, .inl ?_⟩, .inr rfl⟩
        · rw [show ({ v₂ with state := s, grip := g } : View).data.state = .kStarted from hst]
          simp
        · rw [show ({ v₂ with state := s, grip := g } : View).state = s from rfl, hcheck.this]
      · subst h₄
        refine safe_bind (safe_setStatus
          (v := { v₂ with data := { v₂.data with state := .kRollBacked }, state := s, grip := g })
          hv₁.live hx₁) fun v₅ _ h₅ => ?_
        obtain ⟨cx, rfl, -⟩ := h₅
        have ho : OnTx T c x h q args { mode := mode } v₂ none
            { v₂ with data := { v₂.data with state := .kRollBacked }, state := s, grip := g, ctx := cx } :=
          .lost rfl he hfit hst hcheck rfl hun
        have hs : Served T c x h q args { mode := mode } v₂ none
            { v₂ with data := { v₂.data with state := .kRollBacked }, state := s, grip := g, ctx := cx } :=
          ⟨⟨hv₁.live, hv₁.hand, hv₁.copy, ho.lent hv₁.lent rfl hses⟩, rfl, rfl, ho⟩
        refine safe_bind (safe_runFilters hs.onHandle.live (hs.ctxId.trans hx₁)) fun v₆ pass₆ h₆ => ?_
        exact ⟨none, (hs.passed h₁).filtered h₆, fun r' hr' => (by cases hr')⟩
    | true =>
      refine safe_bind (safe_getExecutor (v := { v₂ with state := s, grip := g }) hv₁.live hv₁.hand) fun v₄ ex h₄ => ?_
      obtain ⟨hex, ⟨g₄, rfl⟩, -⟩ := h₄
      obtain rfl : ex = some e := hex.trans he
      have hc : s.this.isConnected = true := by rw [hcheck.this]
      refine safe_bind (asyncUnaryInvoke_safe (v := { v₂ with state := s, copy := v₂.exec, grip := g₄ }) hv₁.live hx₁
        hlog₁ fun cx => task_own hv₁.live he hcheck.ok hc hq) fun v₅ out h₅ => ?_
      obtain ⟨hs, hinv⟩ := h₅
      refine safe_bind (safe_runFilters (hs.live.trans hv₁.live) (hs.ctxId.trans hx₁)) fun v₆ pass₆ h₆ => ?_
      obtain ⟨⟨cx₆, l₆, rfl⟩, -, -, -, -⟩ := id h₆
      refine safe_bind (safe_dropCopy (e := e) (v := { v₅ with ctx := cx₆, log := l₆ }) (hs.live.trans hv₁.live)
        (hs.copy.trans he) fun hn => ?_) fun v₇ _ h₇ => ?_
      · have := hs.hand.symm.trans hn
        rw [show ({ v₂ with state := s, copy := v₂.exec, grip := g₄ } : View).hand = some h from hv₁.hand] at this
        cases this
      obtain ⟨⟨g₇, rfl⟩, -⟩ := h₇
      have hdata : v₅.data = v₂.data := hs.data
      have hexec : v₅.exec = v₂.exec := hs.exec
      -- what is left to show is how the invocation ended
      have hend : ∀ {res}, OnTx T c x h q args { mode := mode } v₂ res v₅ →
          Served T c x h q args { mode := mode } v res { v₅ with copy := none, grip := g₇, ctx := cx₆, log := l₆ } := by
        intro res ho
        have ho' : OnTx T c x h q args { mode := mode } v₂ res
            { v₅ with copy := none, grip := g₇, ctx := cx₆, log := l₆ } := (ho.filtered h₆).congr rfl rfl rfl
        have hs' : Served T c x h q args { mode := mode } v₂ res
            { v₅ with copy := none, grip := g₇, ctx := cx₆, log := l₆ } :=
          ⟨⟨hs.live.trans hv₁.live, hs.hand.trans hv₁.hand, rfl, ho'.lent hv₁.lent hexec hses⟩, hs.ctxId, hexec, ho'⟩
        exact hs'.passed h₁
      cases hinv with
      | away hout hstate hlog₅ hrough =>
        subst hout
        exact ⟨none, hend (.away rfl hfit hst hcheck hrough hstate hdata hlog₅), fun r' hr' => (by cases hr')⟩
      | refused _ hno =>
        have hno : v₂.exec = none := hno
        rw [he] at hno; cases hno
      | @ran e' s₁ s' new r' post hran hlog₅ hpost hout hown =>
        rcases hown with hno | ⟨he', rfl, rfl⟩
        · have hno : v₂.exec = none := hno
          rw [he] at hno; cases hno
        · obtain rfl := Option.some.inj (he.symm.trans he')
          refine ⟨some r', hend (.ran rfl he hst hcheck hran hlog₅ hpost hdata), fun r'' hr'' => ?_⟩
          rw [hout] at hr''
          split at hr''
          · rename_i hok
            cases hr''
            exact ⟨rfl, hok⟩
          · cases hr''

/-! ## What a query leaves of the session -/

/-- Every statement that the server acknowledged ran in the session of the handle. -/
def InTx (T : Terms) (opened : Option (ExecId × ℕ)) (log : List Note) : Prop :=
  T.session → ∀ e id q, .sql e (.acked id q) ∈ log → opened = some (e, id)

theorem Unsent.inTx {opened : Option (ExecId × ℕ)} {log : List Note} (h : Unsent log) : InTx T opened log :=
  fun _ e _ _ hm => absurd hm (h e _)

theorem OnTx.opened {res : Option MysqlResults} (ho : OnTx T c x h q args r v res v') :
    v'.data.opened = v.data.opened := by
  cases ho with
  | rejected _ _ _ hdata _ => rw [hdata]
  | invalid _ _ _ _ hdata _ => rw [hdata]
  | lost _ _ _ _ _ hdata _ => rw [hdata]
  | away _ _ _ _ _ _ hdata _ => rw [hdata]
  | ran _ _ _ _ _ _ _ hdata => rw [hdata]

/-- **A statement of the handle runs in the session of the handle.** -/
theorem Served.inTx {res : Option MysqlResults} (hs : Served T c x h q args r v res v') (hv : v.OnHandle T h)
    (hex : v.data.executor = v.exec) (hses : T.session → (T.given c).noConnect) : InTx T v.data.opened v'.log := by
  cases hs.onTx with
  | rejected _ _ _ _ hlog => exact hlog.inTx
  | invalid _ _ _ _ _ hlog => exact hlog.inTx
  | lost _ _ _ _ _ _ hlog => exact hlog.inTx
  | away _ _ _ _ _ _ _ hlog => exact hlog.inTx
  | @ran e s new r' post hres hexec hst hcheck hran hlog hpost hdata =>
    intro hT e' id q' hm
    rw [hlog] at hm
    rcases List.mem_append.1 hm with hm | hm
    · obtain ⟨ev, hev, heq⟩ := List.mem_map.1 hm
      cases heq
      obtain ⟨new', hnew', hsess⟩ := hran.ran.events
      obtain rfl := List.append_cancel_left (hran.events.symm.trans hnew')
      exact (hv.lent e hexec).2 hT e (hex.trans hexec) id (hcheck.keeps.hasSession (hsess (hses hT) id q' hev))
    · obtain ⟨pt, heq⟩ := hpost _ hm
      cases heq

/-- A statement that ran without an error was acknowledged. -/
theorem OnTx.acked {r' : MysqlResults} (ho : OnTx T c x h q args r v (some r') v')
    (hn : (T.given c).numbers ∨ r.mode = .onlyExec ∧ args = []) (hok : r'.ok = true) :
    ∃ e id sent, v.exec = some e ∧ Sql.Sent r.mode q args sent ∧ .sql e (.acked id sent) ∈ v'.log := by
  cases ho with
  | rejected hres => cases hres
  | invalid hres => cases hres
  | lost hres => cases hres
  | away hres => cases hres
  | @ran e s new r'' post hres hexec hst hcheck hran hlog hpost hdata =>
    obtain rfl := Option.some.inj hres
    obtain ⟨id, sent, hsent, hid⟩ := hran.acked hn hok
    refine ⟨e, id, sent, hexec, hsent, ?_⟩
    rw [hlog]
    exact List.mem_append_left _ (List.mem_map.2 ⟨_, hid, rfl⟩)

/-! ## The end of a transaction -/

/-- The state of a handle whose transaction is at its end. -/
def ending (rollback : Bool) : TxState := if rollback then .kRollBacked else .kCommitted

/-- The text that ends a transaction. -/
def endingSql (rollback : Bool) : Sql := if rollback then .rollback else .commit

/-- The steps at which a call with a handle may be turned away before its statement. -/
def TurnsAway (x : CtxId) (o : WorldOp) : Prop :=
  o = .runFilters .preRpcInvoke x ∨ o = .checkTimeout x ∨ o = .runFilters .preSendMsg x

end MysqlServiceProxy

open MysqlServiceProxy

/-- `Commit` and `Rollback` are turned away only where the state of the handle stays: the handle is there already, or a
`Rollback` found the connection lost. -/
structure Known.EndsTruly (K : Known) : Prop where
  smooth : ∀ x h b w o, TurnsAway x o → (w.handles h).state ≠ ending b → K.smooth (.finish x h b) w o
  started : ∀ x h b w, K.fit (.finish x h b) w (.getState h) →
    (w.handles h).state = .kStarted ∨ (w.handles h).state = ending b
  alive : ∀ x h, (K.given (.finish x h false)).alive
  connected : ∀ x h w e, K.fit (.finish x h false) w (.getState h) → (w.handles h).state = .kStarted →
    (w.handles h).executor = some e → (w.execs e).this.isConnected = true

/-- `Commit` and `Rollback` are not turned away while the handle's executor has an open transaction. -/
structure Known.EndsCleanly (K : Known) : Prop where
  smooth : ∀ x h b w o e, TurnsAway x o → (w.handles h).executor = some e → (w.execs e).inTx = true →
    K.smooth (.finish x h b) w o
  ready : ∀ x h b w e, K.fit (.finish x h b) w (.getState h) → (w.handles h).executor = some e →
    (w.execs e).inTx = true → (w.handles h).state = .kStarted ∧ (w.execs e).this.isConnected = true ∧
      ∀ p ∈ (w.execs e).this.mysql, ((w.execs e).mysqls p).busy = false

namespace MysqlServiceProxy

open MysqlExecutorPool (getThis_safe reclaim_handle_safe)

section Ends

variable {b : Bool} {res : Option MysqlResults}

/-- A statement that ended the transaction. -/
theorem OnTx.tellsTruth {r' : MysqlResults} (ho : OnTx T c x h (endingSql b) [] { mode := .onlyExec } v (some r') v')
    (hexec : v'.exec = v.exec) (hok : r'.ok = true) : TellsTruth v' (ending b) := by
  obtain ⟨e, id, _, he, rfl, hm⟩ := ho.acked (.inr ⟨rfl, rfl⟩) hok
  have hst : v'.data.state = .kStarted := by
    cases ho with
    | rejected hres => cases hres
    | invalid hres => cases hres
    | lost hres => cases hres
    | away hres => cases hres
    | ran _ _ hst _ _ _ _ hdata => rw [hdata]; exact hst
  refine ⟨fun hb => ⟨by simp [hst], e, id, hexec.trans he, ?_⟩,
    fun hb => ⟨by simp [hst], e, hexec.trans he, .inr ⟨id, ?_⟩⟩, ?_⟩
  · cases b with
    | false => exact hm
    | true => cases hb
  · cases b with
    | false => cases hb
    | true => exact hm
  · cases b with
    | false => exact .inl rfl
    | true => exact .inr rfl

/-- The new state of the handle tells the truth, if it is new. -/
theorem OnTx.truth (ho : OnTx T (.finish x h b) x h (endingSql b) [] { mode := .onlyExec } v res v')
    (hexec : v'.exec = v.exec) (hhand : v.hand = some h) (hK : T.EndsTruly)
    (hok : (res.getD { mode := .onlyExec }).ok = true) (hne : v'.data.state ≠ ending b) : TellsTruth v' (ending b) := by
  -- a step that may turn the call away does not, while the state is another one
  have hturn : ∀ {v₀ : View} {o : WorldOp}, v₀.hand = some h → v₀.data.state ≠ ending b → TurnsAway x o →
      ¬ T.Rough (.finish x h b) v₀ o := by
    rintro v₀ o hh hst ho ⟨w, ⟨-, hk⟩, hno⟩
    rw [(hk h hh).1] at hst
    exact hno (hK.smooth x h b w o ho hst)
  cases hres : res with
  | some r' =>
    rw [hres] at ho hok
    exact ho.tellsTruth hexec hok
  | none =>
    cases ho with
    | rejected _ hrough _ hdata _ =>
      rw [hdata] at hne
      exact absurd hrough (hturn hhand hne (.inl rfl))
    | invalid _ hfit hst _ hdata _ =>
      obtain ⟨w, ⟨-, hk⟩, hf⟩ := hfit
      rw [hdata, (hk h hhand).1] at hne
      rw [(hk h hhand).1] at hst
      rcases hK.started x h b w hf with h' | h'
      · exact absurd h' hst
      · exact absurd h' hne
    | lost _ he hfit hst hcheck hdata _ =>
      cases b with
      | true =>
        rw [hdata] at hne
        exact absurd rfl hne
      | false =>
        obtain ⟨w, ⟨hs, hk⟩, hf⟩ := hfit
        obtain ⟨hd, hex⟩ := hk h hhand
        have hup : v.state.this.isConnected = true := by
          rw [hs _ he]
          exact hK.connected x h w _ hf (hd ▸ hst) (hex.trans he)
        have := hcheck.answered (hK.alive x h) hup
        cases this
    | away _ _ hst _ hrough _ hdata _ =>
      rw [hdata] at hne
      rcases hrough with hrough | hrough
      · exact absurd hrough (hturn hhand hne (.inr (.inl rfl)))
      · exact absurd hrough (hturn hhand hne (.inr (.inr rfl)))
    | ran hr => rw [hres] at hr; cases hr

/-- **The executor has no open transaction at the end.** -/
theorem OnTx.clean (ho : OnTx T (.finish x h b) x h (endingSql b) [] { mode := .onlyExec } v res v')
    (hexec : v.exec = some e) (hhand : v.hand = some h) (hv : v.state.Ok) (hK : T.EndsCleanly)
    (hok : (res.getD { mode := .onlyExec }).ok = true) : ¬ v'.state.TxOpen := by
  have hturn : ∀ (v₀ : View) {o : WorldOp}, v₀.hand = some h → v₀.exec = some e → v₀.state.Ok → TurnsAway x o →
      T.Rough (.finish x h b) v₀ o → ¬ v₀.state.TxOpen := by
    rintro v₀ o hh he hok ho ⟨w, ⟨hs, hk⟩, hno⟩ htx
    have hin := hok.inTx htx
    rw [hs e he] at hin
    exact hno (hK.smooth x h b w o e ho ((hk h hh).2.trans he) hin)
  -- what is known of the handle when its state is read
  have hready : (v.Meets fun w => T.fit (.finish x h b) w (.getState h)) → v.state.TxOpen →
      v.data.state = .kStarted ∧ v.state.this.isConnected = true ∧
        ∀ p ∈ v.state.this.mysql, (v.state.mysqls p).busy = false := by
    rintro ⟨w, ⟨hs, hk⟩, hf⟩ htx
    obtain ⟨hd, hex⟩ := hk h hhand
    have hin := hv.inTx htx
    rw [hs e hexec] at hin ⊢
    rw [hd]
    exact hK.ready x h b w e hf (hex.trans hexec) hin
  cases ho with
  | rejected _ hrough hstate _ _ =>
    rw [hstate]
    exact hturn v hhand hexec hv (.inl rfl) hrough
  | invalid _ hfit hst hstate _ _ =>
    rw [hstate]
    exact fun htx => hst (hready hfit htx).1
  | lost _ _ hfit _ hcheck _ _ =>
    intro htx
    obtain ⟨-, hup, hpend⟩ := hready hfit (hcheck.keeps.txOpen htx)
    obtain ⟨p, σ, hσ, -⟩ := htx
    rw [hcheck.lost rfl hup hpend p] at hσ
    cases hσ
  | @away s _ _ _ hcheck hrough hstate _ _ =>
    rw [hstate]
    rcases hrough with hrough | hrough
    · exact hturn { v with state := s } hhand hexec hcheck.ok (.inr (.inl rfl)) hrough
    · exact hturn { v with state := s } hhand hexec hcheck.ok (.inr (.inr rfl)) hrough
  | ran hres _ _ _ hran _ _ _ =>
    rw [hres] at hok
    refine hran.ran.ended ⟨rfl, rfl⟩ ?_ hok
    cases b with
    | false => exact .inl rfl
    | true => exact .inr rfl

end Ends

/-- What the end of a transaction leaves alone. -/
structure Ended (T : Terms) (h : HandleId) (v v' : View) : Prop where
  onHandle : v'.OnHandle T h
  ctxId : v'.ctxId = v.ctxId
  ctx : v'.ctx = v.ctx
  log : v'.log = v.log
  opened : v'.data.opened = v.data.opened

theorem endTransaction_safe {b : Bool} (hv : v.OnHandle T h)
    (htruth : T.truth → v.data.state ≠ ending b → TellsTruth v (ending b))
    (hclean : T.clean → ∀ e, v.exec = some e → ¬ v.state.TxOpen) :
    T.Safe i c v (endTransaction h b) fun v' _ => Ended T h v v' := by
  refine safe_bind (safe_setState hv.live hv.hand htruth) fun v₁ _ h₁ => ?_
  have hv₁ : v₁.OnHandle T h := by
    rw [h₁]
    exact ⟨hv.live, hv.hand, hv.copy, fun e he => hv.lent e he⟩
  have hend₁ : v₁.exec = v.exec ∧ v₁.state = v.state ∧ v₁.ctxId = v.ctxId ∧ v₁.ctx = v.ctx ∧ v₁.log = v.log ∧
      v₁.data.opened = v.data.opened := by
    rw [h₁]
    exact ⟨rfl, rfl, rfl, rfl, rfl, rfl⟩
  obtain ⟨hexec, hstate, hctxId, hctx, hlog, hopened⟩ := hend₁
  refine safe_bind (safe_getExecutor hv₁.live hv₁.hand) fun v₂ ex h₂ => ?_
  obtain ⟨hex, ⟨g, rfl⟩, -⟩ := h₂
  rcases Option.eq_none_or_eq_some v₁.exec with he | ⟨e, he⟩
  · rw [he] at hex
    subst hex
    exact ⟨⟨hv₁.live, hv₁.hand, he, fun e' he' => hv₁.lent e' he'⟩, hctxId, hctx, hlog, hopened⟩
  rw [he] at hex
  subst hex
  obtain ⟨hok, hses⟩ := hv₁.lent e he
  refine safe_bind (getThis_safe (v := { v₁ with copy := v₁.exec, grip := g }) hv₁.live he) fun v₃ this h₃ => ?_
  obtain ⟨rfl, -⟩ := h₃
  refine safe_bind (MysqlExecutorPoolManager.get_safe (v := { v₁ with copy := v₁.exec, grip := g }) hv₁.live _)
    fun v₄ p h₄ => ?_
  subst h₄
  have hsober : v₁.state.Sober T := ⟨hok, fun hT => by rw [hstate]; exact hclean hT e (hexec ▸ he)⟩
  refine safe_bind (reclaim_handle_safe (v := { v₁ with copy := v₁.exec, grip := g, pool := some p }) hv₁.live hv₁.hand
    he rfl hsober) fun v₅ moved h₅ => ?_
  -- the copy of the reference goes; the handle may have kept its own
  have hdrop : ∀ {v₅ : View}, v₅.live = true → v₅.hand = some h → v₅.copy = some e → v₅.ctxId = v₁.ctxId →
      v₅.ctx = v₁.ctx → v₅.log = v₁.log → v₅.data.opened = v₁.data.opened → v₅.Lent T →
      T.Safe i c v₅ (wop (.release e)) fun v' _ => Ended T h v v' := by
    intro v₅ hl hh hc hx hcx hlg ho hlent
    refine safe_mono (safe_dropCopy hl hc fun hn => ?_) fun v₆ _ h₆ => ?_
    · rw [hh] at hn; cases hn
    · obtain ⟨⟨g₆, rfl⟩, -⟩ := h₆
      exact ⟨⟨hl, hh, rfl, hlent⟩, hx.trans hctxId, hcx.trans hctx, hlg.trans hlog, ho.trans hopened⟩
  rcases h₅ with ⟨rfl, ⟨g₅, rfl⟩⟩ | ⟨rfl, s, hcl, rfl⟩
  · exact hdrop hv₁.live hv₁.hand he rfl rfl rfl rfl fun e' he' => (by cases he')
  · refine hdrop hv₁.live hv₁.hand he rfl rfl rfl rfl fun e' he' => ⟨hcl.ok, fun hT e'' he'' id hid => ?_⟩
    exact (hv₁.lent e' he').2 hT e'' he'' id (hcl.keeps.hasSession hid)

/-! ## `Commit` and `Rollback` -/

section Finish

variable {b : Bool}

/-- The results object of a statement that failed. -/
theorem Served.failed {res : Option MysqlResults} (hs : Served T c x h q args r v res v')
    (hn : (T.given c).numbers ∨ r.mode = .onlyExec ∧ args = []) (hr : r.ok = true)
    (hok : (res.getD r).ok = false) : ¬ Succeeded sends v'.log := by
  cases hs.onTx with
  | rejected _ _ _ _ hlog => exact hlog.not_succeeded
  | invalid _ _ _ _ _ hlog => exact hlog.not_succeeded
  | lost _ _ _ _ _ _ hlog => exact hlog.not_succeeded
  | away _ _ _ _ _ _ _ hlog => exact hlog.not_succeeded
  | ran hres _ _ _ hran hlog hpost _ =>
    intro hsucc
    rw [hlog] at hsucc
    rw [hres, Option.getD_some, (hran.ok_of_succeeded hn hr hpost hsucc).1] at hok
    cases hok

/-- **`Commit` and `Rollback`.** -/
theorem finish_safe (hv : v.OnHandle T h) (hx : v.ctxId = some x) (hlog : v.log = [])
    (hex : v.data.executor = v.exec) (hses : T.session → (T.given (.finish x h b)).noConnect)
    (htruth : T.truth → T.EndsTruly) (hclean : T.clean → T.EndsCleanly) :
    T.Safe i (.finish x h b) v (finish x h b) fun v' s => v'.OnHandle T h ∧ v'.data.opened = v.data.opened ∧
      InTx T v.data.opened v'.log ∧ Told T (.finish x h b) (· = endingSql b) { mode := .onlyExec } v v' ∧
        (T.contexts → s = v'.ctx.status) := by
  refine safe_bind (queryTx_safe (q := endingSql b) (r := { mode := .onlyExec }) hv hx hlog (.inr ⟨rfl, rfl⟩) hses)
    fun v₁ out h₁ => ?_
  obtain ⟨res, hs, hres, ht, -⟩ := h₁
  have hin := hs.inTx hv hex hses
  have hopened := hs.onTx.opened
  dsimp only
  rw [hres]
  split
  · rename_i hbad
    have hbad : (res.getD { mode := .onlyExec }).ok = false := by simpa using hbad
    refine safe_bind (safe_setStatus hs.onHandle.live (hs.ctxId.trans hx)) fun v₂ _ h₂ => ?_
    obtain ⟨cx, rfl, hcx⟩ := h₂
    refine safe_mono (safe_getStatus (v := { v₁ with ctx := cx }) hs.onHandle.live (hs.ctxId.trans hx)) fun v₃ s h₃ => ?_
    obtain ⟨rfl, hst⟩ := h₃
    refine ⟨hs.onHandle.same rfl rfl, hopened, hin, .failed (fun hT _ => ?_) ?_, hst⟩
    · rw [hcx hT]
      rfl
    · exact hs.failed (.inr ⟨rfl, rfl⟩) rfl hbad
  · rename_i hok
    have hok : (res.getD { mode := .onlyExec }).ok = true := by simpa using hok
    refine safe_bind (endTransaction_safe hs.onHandle
      (fun hT => hs.onTx.truth hs.exec hv.hand (htruth hT) hok)
      fun hT e he => hs.onTx.clean (hs.exec.symm.trans he) hv.hand (hv.lent e (hs.exec.symm.trans he)).1 (hclean hT)
        hok) fun v₂ _ h₂ => ?_
    refine safe_mono (safe_getStatus h₂.onHandle.live ((h₂.ctxId.trans hs.ctxId).trans hx)) fun v₃ s h₃ => ?_
    obtain ⟨rfl, hst⟩ := h₃
    refine ⟨h₂.onHandle, h₂.opened.trans hopened, by rw [h₂.log]; exact hin,
      ⟨fun hT hn hok => ?_, fun hT hn hr hok hsu => ?_⟩,
      hst⟩
    · rw [h₂.ctx] at hok
      rw [h₂.log]
      exact ht.succeeded hT hn hok
    · rw [h₂.ctx]
      exact ht.stays hT hn hr hok (by rwa [h₂.log] at hsu)

/-- A call with a handle whose statement ended its transaction. -/
theorem Served.finish {r' : MysqlResults}
    (hs : Served T c x h (endingSql b) [] { mode := .onlyExec } v (some r') v') (hok : r'.ok = true) :
    T.Safe i c v' (endTransaction h b) fun v'' _ => Ended T h v' v'' := by
  refine endTransaction_safe hs.onHandle (fun _ _ => hs.onTx.tellsTruth hs.exec hok) fun _ e he => ?_
  cases hs.onTx with
  | rejected hres => cases hres
  | invalid hres => cases hres
  | lost hres => cases hres
  | away hres => cases hres
  | ran hres _ _ _ hran _ _ _ =>
    obtain rfl := Option.some.inj hres
    refine hran.ran.ended ⟨rfl, rfl⟩ ?_ hok
    cases b with
    | false => exact .inl rfl
    | true => exact .inr rfl

/-- What `AsyncCommit` and `AsyncRollback` leave. -/
structure AsyncFinished (T : Terms) (h : HandleId) (b : Bool) (v : View) (v' : View) (out : Future Unit) : Prop where
  onHandle : v'.OnHandle T h
  opened : v'.data.opened = v.data.opened
  inTx : InTx T v.data.opened v'.log
  acked : out = .ok () → ∃ e id, .sql e (.acked id (endingSql b)) ∈ v'.log

theorem asyncCommit_safe (hv : v.OnHandle T h) (hx : v.ctxId = some x) (hlog : v.log = [])
    (hex : v.data.executor = v.exec) (hses : T.session → (T.given c).noConnect) :
    T.Safe i c v (asyncCommit x h) (AsyncFinished T h false v) := by
  refine safe_bind (asyncQueryTx_safe (q := endingSql false) hv hx hlog (.inr ⟨rfl, rfl⟩) hses) fun v₁ out h₁ => ?_
  obtain ⟨res, hs, hout⟩ := h₁
  have hin := hs.inTx hv hex hses
  cases out with
  | error m => exact ⟨hs.onHandle, hs.onTx.opened, hin, fun h => (by cases h)⟩
  | ok r' =>
    obtain ⟨rfl, hok⟩ := hout r' rfl
    refine safe_bind (hs.finish hok) fun v₂ _ h₂ => ?_
    refine ⟨h₂.onHandle, h₂.opened.trans hs.onTx.opened, by rw [h₂.log]; exact hin, fun _ => ?_⟩
    obtain ⟨e, id, _, -, rfl, hm⟩ := hs.onTx.acked (.inr ⟨rfl, rfl⟩) hok
    exact ⟨e, id, by rw [h₂.log]; exact hm⟩

theorem asyncRollback_safe (hv : v.OnHandle T h) (hx : v.ctxId = some x) (hlog : v.log = [])
    (hex : v.data.executor = v.exec) (hses : T.session → (T.given c).noConnect) :
    T.Safe i c v (asyncRollback x h) (AsyncFinished T h true v) := by
  refine safe_bind (asyncQueryTx_safe (q := endingSql true) hv hx hlog (.inr ⟨rfl, rfl⟩) hses) fun v₁ out h₁ => ?_
  obtain ⟨res, hs, hout⟩ := h₁
  have hin := hs.inTx hv hex hses
  cases out with
  | error m => exact safe_crashed
  | ok r' =>
    obtain ⟨rfl, hok⟩ := hout r' rfl
    refine safe_bind (hs.finish hok) fun v₂ _ h₂ => ?_
    refine ⟨h₂.onHandle, h₂.opened.trans hs.onTx.opened, by rw [h₂.log]; exact hin, fun _ => ?_⟩
    obtain ⟨e, id, _, -, rfl, hm⟩ := hs.onTx.acked (.inr ⟨rfl, rfl⟩) hok
    exact ⟨e, id, by rw [h₂.log]; exact hm⟩

end Finish

/-! ## The end of a handle -/

/-- `~TransactionHandle` closes the executor before it gives it up. -/
theorem dropHandle_safe (hv : v.OnHandle T h) : T.Safe i c v (dropHandle h) fun v' _ =>
    v'.OnHandle T h ∧ v'.log = v.log := by
  -- the handle ends when its executor is not connected, and the copy is given up
  have hend : ∀ {v₁ : View}, v₁.live = true → v₁.hand = some h → v₁.copy = none → v₁.grip.held = none →
      v₁.log = v.log → (∀ e, v₁.exec = some e → v₁.state.this.isConnected = false) →
      T.Safe i c v₁ (wop (.endHandle h)) fun v' _ => v'.OnHandle T h ∧ v'.log = v.log := by
    intro v₁ hl hh hc hheld hlog hfree
    refine safe_mono (safe_endHandle hl hh hheld fun _ => hfree) fun v₂ _ h₂ => ?_
    obtain ⟨g, rfl⟩ := h₂
    exact ⟨⟨hl, hh, hc, fun e he => (by cases he)⟩, hlog⟩
  refine safe_bind (safe_getExecutor hv.live hv.hand) fun v₁ ex h₁ => ?_
  obtain ⟨hex, ⟨g, rfl⟩, hheld⟩ := h₁
  rcases Option.eq_none_or_eq_some v.exec with he | ⟨e, he⟩
  · rw [he] at hex
    subst hex
    refine hend hv.live hv.hand he (hheld.trans he) rfl fun e he' => ?_
    have he' : v.exec = some e := he'
    rw [he] at he'; cases he'
  · rw [he] at hex
    subst hex
    refine safe_bind (safe_silent (v := { v with copy := v.exec, grip := g }) hv.live he
      (MysqlExecutor.close_spec (hv.lent e he).1) fun _ _ h => h.events) fun v₂ _ h₂ => ?_
    obtain ⟨s, hs, rfl⟩ := h₂
    refine safe_bind (safe_dropCopy (e := e) hv.live he fun hn => ?_) fun v₃ _ h₃ => ?_
    · have hhand : v.hand = none := hn
      rw [hv.hand] at hhand
      cases hhand
    · obtain ⟨⟨g₃, rfl⟩, hheld₃⟩ := h₃
      exact hend hv.live hv.hand rfl hheld₃ rfl fun _ _ => hs.isConnected

end MysqlServiceProxy

end TrpcMysql
