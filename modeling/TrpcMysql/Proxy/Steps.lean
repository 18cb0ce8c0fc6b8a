import TrpcMysql.Proxy.Rules

/-!
# Safe steps

One rule for each kind of step: what it may reply to the call, and the view of the call after it. The rules
turn the lemmas about owners into steps of a proof that follows a program. `safe_onExecutor` takes a whole
program of the call's executor, with its specification.

A view after a step is given up to the grip (`View.Is`): that is read off the program alone.
-/

namespace TrpcMysql

open Function Conc

/-- From the view `v`, every step of `p` in call `i` keeps the invariant, and `Q` holds at the end. -/
abbrev Terms.Safe {α : Type} (T : Terms) (i : ℕ) (c : Call) (v : View) (p : WProg α) (Q : View → α → Prop) :
    Prop := T.outline.Safe proxySystem T.guard i c v p Q

variable {T : Terms} {i : ℕ} {c : Call} {v : View} {α β : Type} {Q : View → α → Prop}

theorem safe_mono {p : WProg α} {Q' : View → α → Prop} (h : T.Safe i c v p Q) (hQ : ∀ v x, Q v x → Q' v x) :
    T.Safe i c v p Q' := Outline.safe_mono hQ h

theorem safe_bind {p : WProg β} {f : β → WProg α} {R : View → β → Prop} (h : T.Safe i c v p R)
    (hf : ∀ v' x, R v' x → T.Safe i c v' (f x) Q) : T.Safe i c v (p >>= f) Q :=
  Outline.safe_bind.2 (Outline.safe_mono hf h)

/-- The states of the handles stay. -/
theorem truthful_of_state {w w' : World} (h : ∀ hd, hd < w.nextHandle → (w'.handles hd).state = (w.handles hd).state) :
    Truthful i w w' := fun hd hlt hne => absurd (h hd hlt) hne

theorem truthful_of_handles {w w' : World} (h : w'.handles = w.handles) : Truthful i w w' :=
  truthful_of_state fun hd _ => by rw [h]

/-- The views are the same up to the grip. -/
def View.Is (v' v : View) : Prop := ∃ g, v' = { v with grip := g }

/-- An operation and its reply move the executor, the copy and the pool only. -/
theorem View.move_eq (v : View) (o : WorldOp) (r : o.Reply) :
    v.move o r = { v with exec := (v.move o r).exec, copy := (v.move o r).copy, pool := (v.move o r).pool } := by
  cases o <;> first | rfl | (cases r <;> rfl) | (simp only [View.move]; split <;> rfl)

/-- The view `v'` comes after the operation `o` with the reply `r`; what is followed is as in the world. -/
structure View.After (T : Terms) (v : View) (o : WorldOp) (r : o.Reply) (v' : View) : Prop where
  moved : v' = { v with
    exec := (v.move o r).exec, copy := (v.move o r).copy, pool := (v.move o r).pool, grip := v.grip.after o r
    state := v'.state, data := v'.data, ctx := v'.ctx, log := v'.log }
  state : v'.exec = none → v'.state = v.state
  data : v'.hand = none → v'.data = v.data
  ctx : (T.contexts → v'.ctxId = none) → v'.ctx = v.ctx

/-- Nothing else changed in the view. -/
theorem View.After.of_eq {o : WorldOp} {r : o.Reply} {v' : View} (h : v' = { v with
    exec := (v.move o r).exec, copy := (v.move o r).copy, pool := (v.move o r).pool, grip := v.grip.after o r
    log := v'.log }) : v.After T o r v' where
  moved := by rw [h]
  state _ := by rw [h]
  data _ := by rw [h]
  ctx _ := by rw [h]

open Classical in
/-- At most the context and the history changed. -/
theorem View.After.setCtx {o : WorldOp} {r : o.Reply} {x : CtxId} {cx : ClientContext} {l : List Note}
    (hm : v.move o r = v) (hg : v.grip.after o r = v.grip) (hx : v.ctxId = some x) :
    v.After T o r { v with ctx := if T.contexts then cx else v.ctx, log := l } where
  moved := by rw [hm, hg]
  state _ := rfl
  data _ := rfl
  ctx hn := if_neg fun hT => by
    have := hn hT
    rw [hx] at this
    cases this

open Classical in
/-- A view that is up to date is the next one. -/
theorem View.After.next_eq {w : World} {o : WorldOp} {r : o.Reply} {v' : View} (h : v.After T o r v')
    (hs : v'.Synced T i w) (hl : v.live = true) : v.next T i o r w = v' := by
  have hstate : v'.exec.elim v.state w.execs = v'.state := by
    cases he : v'.exec with
    | none => exact (h.state he).symm
    | some e => exact (hs.state e he).symm
  have hdata : v'.hand.elim v.data w.handles = v'.data := by
    cases hh : v'.hand with
    | none => exact (h.data hh).symm
    | some hd => exact (hs.data hd hh).symm
  have hctx : (if T.contexts then v'.ctxId.elim v.ctx w.ctxs else v.ctx) = v'.ctx := by
    split
    · rename_i hT
      cases hx : v'.ctxId with
      | none => exact (h.ctx fun _ => hx).symm
      | some x => exact (hs.ctx hT x hx).symm
    · rename_i hT
      exact (h.ctx fun h => absurd h hT).symm
  have hlive : v'.live = v.live := by rw [h.moved]
  have hhand : v'.hand = v.hand := by rw [h.moved]
  have hctxId : v'.ctxId = v.ctxId := by rw [h.moved]
  have hexec : v'.exec = (v.move o r).exec := by rw [h.moved]
  have hcopy : v'.copy = (v.move o r).copy := by rw [h.moved]
  have hpool : v'.pool = (v.move o r).pool := by rw [h.moved]
  have hgrip : v'.grip = v.grip.after o r := by rw [h.moved]
  unfold View.next View.sync
  rw [View.move_eq]
  dsimp only
  rw [← hexec, ← hcopy, ← hpool, ← hgrip, ← hhand, ← hctxId, ← hlive, hstate, hdata, hctx,
    ← hs.log (hlive.trans hl)]

/-- One operation, with the view after it. -/
theorem safe_op {o : WorldOp} {Q : View → o.Reply → Prop} (hl : v.live = true)
    (h : ∀ w vs owner a r w', Owned T w vs owner → vs i = v → T.Allows c w o a →
      worldStep i o a w = some (r, w') → ∃ v' owner', v.After T o r v' ∧ Owned T w' (update vs i v') owner' ∧
        (T.truth → Truthful i w w') ∧ Q v' r) : T.Safe i c v (wop o) Q := by
  refine Outline.safe_next fun w vs a r w' hI hv hg he => ?_
  obtain ⟨owner, ho⟩ := hI
  have he : worldExec i o a w = some (r, w') := he
  unfold worldExec at he
  split at he
  · cases he
  obtain ⟨v', owner', hafter, ho', ht, hQ⟩ := h w vs owner a r w' ho hv hg he
  have hsy := ho'.synced i
  rw [update_self] at hsy
  exact ⟨v', hafter.next_eq hsy hl, ⟨owner', ho'⟩, ht, hQ⟩

/-! ## Quiet steps -/

/-- An operation that changes at most the executor, the context, the history and the pool of the call. -/
theorem safe_quiet {o : WorldOp} {Q : View → o.Reply → Prop} (hl : v.live = true)
    (h : ∀ w vs owner a r w', Owned T w vs owner → vs i = v → T.Allows c w o a →
      worldStep i o a w = some (r, w') → Quiet i v w w' ∧ ∃ v', v.After T o r v' ∧ v'.Synced T i w' ∧
        v'.exec = v.exec ∧ v'.copy = v.copy ∧ Q v' r) : T.Safe i c v (wop o) Q := by
  refine safe_op hl fun w vs owner a r w' ho hv hg he => ?_
  obtain ⟨hq, v', hafter, hs, hve, hvc, hQ⟩ := h w vs owner a r w' ho hv hg he
  subst hv
  have hhand : v'.hand = (vs i).hand := by rw [hafter.moved]
  have hctxId : v'.ctxId = (vs i).ctxId := by rw [hafter.moved]
  exact ⟨v', owner, hafter, ho.quiet hq hs hve hhand hvc hctxId,
    fun _ => truthful_of_handles hq.handles, hQ⟩

/-- A step without any trace. -/
theorem Quiet.refl {w : World} (hmap : ∀ key p, w.executorPools key = some p → p < w.nextPool) : Quiet i v w w :=
  ⟨fun _ _ => rfl, Nat.le_refl _, hmap, rfl, rfl, rfl, rfl, rfl, fun _ _ => rfl, fun _ _ => rfl, fun _ _ => rfl⟩

/-- Operations that read, or count in a pool. -/
def WorldOp.plain : WorldOp → Bool
  | getServiceName | getNodeAddr _ | selectTarget | addTask | managerOption | poolOption _ | poolTarget _
  | fetchAddShardId _ | fetchAddExecutorId _ | fetchAddExecutorNum _ | noteConnected _ | noteDiscarded _ => true
  | _ => false

theorem plain_quiet {o : WorldOp} (ho : o.plain = true) {a : Answer} {w w' : World} {r : o.Reply}
    (h : worldStep i o a w = some (r, w')) (hmap : ∀ key p, w.executorPools key = some p → p < w.nextPool) :
    Quiet i v w w' ∧ w'.execs = w.execs ∧ w'.ctxs = w.ctxs ∧ w'.log = w.log ∧ w'.nextPool = w.nextPool := by
  have hpool : ∀ p q, q.shards = (w.pools p).shards →
      ∀ p' k, ((w.setPool p q).pools p').shards k = (w.pools p').shards k := by
    intro p q hq p' k
    by_cases hp : p' = p
    · subst hp; simp [World.setPool, hq]
    · simp [World.setPool, hp]
  have hset : ∀ p q, q.shards = (w.pools p).shards → Quiet i v w (w.setPool p q) := fun p q hq =>
    ⟨hpool p q hq, Nat.le_refl _, hmap, rfl, rfl, rfl, rfl, rfl, fun _ _ => rfl, fun _ _ => rfl, fun _ _ => rfl⟩
  cases o <;> simp only [WorldOp.plain, Bool.false_eq_true] at ho
  case addTask =>
    simp only [worldStep] at h
    split at h
    · cases h; exact ⟨.refl hmap, rfl, rfl, rfl, rfl⟩
    · cases h
  all_goals
    cases h
    first
      | exact ⟨.refl hmap, rfl, rfl, rfl, rfl⟩
      | exact ⟨hset _ _ rfl, rfl, rfl, rfl, rfl⟩

theorem safe_plain {o : WorldOp} (hl : v.live = true) (ho : o.plain = true) :
    T.Safe i c v (wop o) fun v' _ => v' = v := by
  refine safe_quiet hl fun w vs owner a r w' hO hv _ he => ?_
  subst hv
  obtain ⟨hq, hex, hcx, hlog, hpool⟩ := plain_quiet (v := vs i) ho he hO.map
  have hs := hO.synced i
  have hs' : (vs i).Synced T i w' := ⟨fun e h => by rw [hex]; exact hs.state e h,
    fun hd h => by rw [hq.handles]; exact hs.data hd h, fun hT x h => by rw [hcx]; exact hs.ctx hT x h,
    fun hl => by rw [World.ownLog, hlog]; exact hs.log hl, fun p h => by rw [hpool]; exact hs.pool p h,
    hs.held, hs.mine⟩
  refine ⟨hq, vs i, ?_, hs', rfl, rfl, rfl⟩
  cases o <;> simp only [WorldOp.plain, Bool.false_eq_true] at ho <;> exact .of_eq rfl

/-! ## Contexts and filters -/

section Contexts

variable {x : CtxId}

theorem safe_getStatus (hl : v.live = true) (hx : v.ctxId = some x) :
    T.Safe i c v (wop (.getStatus x)) fun v' r => v' = v ∧ (T.contexts → r = v.ctx.status) := by
  refine safe_quiet hl fun w vs owner a r w' hO hv _ he => ?_
  subst hv
  cases he
  exact ⟨.refl hO.map, vs i, .of_eq rfl, hO.synced i, rfl, rfl, rfl, fun hT => by rw [(hO.synced i).ctx hT x hx]⟩

open Classical in
/-- The context of the call changes, and its history grows. -/
theorem Owned.quiet_ctx {w : World} {vs : ℕ → View} {owner : ExecId → Owner} (h : Owned T w vs owner)
    (hx : (vs i).ctxId = some x) (hl : (vs i).live = true) (cx : ClientContext) (notes : List Note) :
    Quiet i (vs i) w ((w.setCtx x cx).record i notes) ∧
      { vs i with ctx := if T.contexts then cx else (vs i).ctx, log := (vs i).log ++ notes }.Synced T i
        ((w.setCtx x cx).record i notes) := by
  have hs := h.synced i
  refine ⟨⟨fun _ _ => rfl, Nat.le_refl _, h.map, rfl, rfl, rfl, rfl, rfl, fun _ _ => rfl, fun y hy => ?_,
    fun j hj => World.ownLog_record_ne hj notes⟩, ⟨hs.state, hs.data, fun hT y hy => ?_, fun _ => ?_, hs.pool, hs.held,
    hs.mine⟩⟩
  · have hyx : y ≠ x := by rintro rfl; exact hy hx
    exact update_of_ne hyx ..
  · obtain rfl : x = y := Option.some.inj (hx.symm.trans hy)
    simp [hT, World.record, World.setCtx]
  · rw [World.ownLog_record]
    exact congrArg (· ++ notes) (hs.log hl)

theorem safe_setStatus (hl : v.live = true) (hx : v.ctxId = some x) {st : Status} :
    T.Safe i c v (wop (.setStatus x st)) fun v' _ =>
      ∃ cx, v' = { v with ctx := cx } ∧ (T.contexts → cx.status = st) := by
  classical
  refine safe_quiet hl fun w vs owner a r w' hO hv _ he => ?_
  subst hv
  cases he
  obtain ⟨hq, hs⟩ := hO.quiet_ctx hx hl { w.ctxs x with status := st } []
  have hw : (w.setCtx x { w.ctxs x with status := st }).record i [] = w.setCtx x { w.ctxs x with status := st } := by
    simp [World.record]
  rw [hw, List.append_nil] at hs
  rw [hw] at hq
  exact ⟨hq, _, .setCtx rfl rfl hx, hs, rfl, rfl, _, rfl,
    fun hT => by rw [if_pos hT]⟩

/-- The executor and the handle that the call knows are as in the world. -/
def View.Knows (v : View) (w : World) : Prop :=
  (∀ e, v.exec = some e → v.state = w.execs e) ∧
    ∀ h, v.hand = some h → v.data = w.handles h ∧ (w.handles h).executor = v.exec

theorem Owned.knows {w : World} {vs : ℕ → View} {owner : ExecId → Owner} (h : Owned T w vs owner) (i : ℕ) :
    (vs i).Knows w :=
  ⟨(h.synced i).state, fun hd hh => ⟨(h.synced i).data hd hh, (h.hand i hd hh).2.1⟩⟩

/-- `P` holds of a state of the world that the call knows as `v`. -/
def View.Meets (v : View) (P : World → Prop) : Prop := ∃ w : World, v.Knows w ∧ P w

/-- The same, with the context of the call. -/
def Terms.Sees (T : Terms) (v : View) (P : World → Prop) : Prop :=
  v.Meets fun w => (T.contexts → ∀ x, v.ctxId = some x → v.ctx = w.ctxs x) ∧ P w

theorem Terms.Sees.meets {P : World → Prop} (h : T.Sees v P) : v.Meets P := by
  obtain ⟨w, hk, -, hP⟩ := h
  exact ⟨w, hk, hP⟩

/-- The step is not among the smooth ones. -/
abbrev Terms.Rough (T : Terms) (c : Call) (v : View) (o : WorldOp) : Prop := v.Meets fun w => ¬ T.smooth c w o

/-- A filter's verdict, as the call sees it. -/
structure Filtered (T : Terms) (c : Call) (v : View) (pt : FilterPoint) (x : CtxId) (v' : View) (pass : Bool) :
    Prop where
  view : ∃ cx l, v' = { v with ctx := cx, log := l }
  log : v'.log = v.log ++ if pass then [] else [.rejected pt]
  passed : T.contexts → pass = true → v'.ctx.status = v.ctx.status
  rejected : T.contexts → pass = false → v'.ctx.status.ok = false
  rough : pass = false → T.Rough c v (.runFilters pt x)

theorem safe_runFilters (hl : v.live = true) (hx : v.ctxId = some x) {pt : FilterPoint} :
    T.Safe i c v (wop (.runFilters pt x)) (Filtered T c v pt x) := by
  classical
  refine safe_quiet hl fun w vs owner a r w' hO hv hg he => ?_
  subst hv
  cases he
  obtain ⟨hq, hs⟩ := hO.quiet_ctx hx hl
    { status := a.status.getD (w.ctxs x).status, nodeAddr := a.addr.getD (w.ctxs x).nodeAddr }
    (if a.pass then [] else [.rejected pt])
  refine ⟨hq, _, .setCtx rfl rfl hx, hs, rfl, rfl, ⟨_, _, rfl⟩, rfl,
    fun hT hp => ?_, fun hT hp => ?_, fun hp => ⟨w, hO.knows i, fun hsm => ?_⟩⟩
  · have := hg.1 hT
    rw [FilterKeeps, if_pos hp] at this
    rw [(hO.synced i).ctx hT x hx]
    simpa [hT] using this
  · have := hg.1 hT
    rw [FilterKeeps, if_neg (by simp [hp])] at this
    simpa [hT] using this
  · rw [hg.2 hsm] at hp; cases hp

/-- What `CheckTimeout` tells, as the call sees it. -/
structure Timed (T : Terms) (c : Call) (v : View) (x : CtxId) (v' : View) (late : Bool) : Prop where
  view : ∃ cx l, v' = { v with ctx := cx, log := l }
  log : v'.log = v.log ++ if late then [.timedOut] else []
  status : T.contexts → v'.ctx.status = if late then timeoutStatus else v.ctx.status
  rough : late = true → T.Rough c v (.checkTimeout x)
  fit : T.Sees v fun w => T.fit c w (.checkTimeout x)

theorem safe_checkTimeout (hl : v.live = true) (hx : v.ctxId = some x) :
    T.Safe i c v (wop (.checkTimeout x)) (Timed T c v x) := by
  classical
  refine safe_quiet hl fun w vs owner a r w' hO hv hg he => ?_
  subst hv
  simp only [worldStep] at he
  have hs := hO.synced i
  have hfit : T.Sees (vs i) fun w => T.fit c w (.checkTimeout x) := ⟨w, hO.knows i, hs.ctx, hg.1⟩
  split at he
  · rename_i ht
    cases he
    obtain ⟨hq, hs'⟩ := hO.quiet_ctx hx hl { w.ctxs x with status := timeoutStatus } [.timedOut]
    refine ⟨hq, _, .setCtx rfl rfl hx, hs', rfl, rfl, ⟨_, _, rfl⟩,
      rfl, fun hT => by simp [hT], fun _ => ⟨w, hO.knows i, fun hsm => ?_⟩, hfit⟩
    rw [hg.2 hsm] at ht; cases ht
  · cases he
    exact ⟨.refl hO.map, vs i, .of_eq rfl, hs, rfl, rfl, ⟨(vs i).ctx, (vs i).log, rfl⟩, by simp, fun _ => by simp,
      fun h => (by cases h), hfit⟩

end Contexts

/-! ## The map of the pools -/

theorem safe_poolsGet (hl : v.live = true) (key : Bytes) : T.Safe i c v (wop (.poolsGet key)) fun v' r =>
    match r with
    | none => v' = v
    | some p => v' = { v with pool := some p } := by
  refine safe_quiet hl fun w vs owner a r w' hO hv _ he => ?_
  subst hv
  have hs := hO.synced i
  cases he
  cases hk : w.executorPools key with
  | none => exact ⟨.refl hO.map, vs i, .of_eq rfl, hs, rfl, rfl, rfl⟩
  | some p =>
    refine ⟨.refl hO.map, { vs i with pool := some p }, .of_eq rfl,
      ⟨hs.state, hs.data, hs.ctx, hs.log, fun q hq => ?_, hs.held,
      hs.mine⟩, rfl, rfl, rfl⟩
    obtain rfl : p = q := Option.some.inj hq
    exact hO.map key p hk

theorem safe_poolsGetOrInsert (hl : v.live = true) (key : Bytes) {pool : Pool} (hp : ∀ k, pool.shards k = []) :
    T.Safe i c v (wop (.poolsGetOrInsert key pool)) fun v' p => v' = { v with pool := some p } := by
  refine safe_quiet hl fun w vs owner a r w' hO hv _ he => ?_
  subst hv
  have hs := hO.synced i
  simp only [worldStep] at he
  split at he
  · rename_i hk
    cases he
    refine ⟨.refl hO.map, { vs i with pool := some r }, .of_eq rfl,
      ⟨hs.state, hs.data, hs.ctx, hs.log, fun q hq => ?_, hs.held,
      hs.mine⟩, rfl, rfl, rfl⟩
    obtain rfl : r = q := Option.some.inj hq
    exact hO.map key r hk
  · cases he
    refine ⟨⟨fun p k => ?_, Nat.le_succ _, fun key' p hk' => ?_, rfl, rfl, rfl, rfl, rfl, fun _ _ => rfl, fun _ _ => rfl,
      fun _ _ => rfl⟩, { vs i with pool := some w.nextPool }, .of_eq rfl,
        ⟨hs.state, hs.data, hs.ctx, hs.log, fun q hq => ?_,
      hs.held, hs.mine⟩, rfl, rfl, rfl⟩
    · by_cases hpn : p = w.nextPool
      · subst hpn
        simp [World.setPool, hp, hO.freshPool _ (Nat.le_refl _)]
      · simp [World.setPool, hpn]
    · dsimp only at hk'
      by_cases hkk : key' = key
      · subst hkk
        rw [update_self] at hk'
        cases hk'
        exact Nat.lt_succ_self _
      · rw [update_of_ne hkk] at hk'
        exact Nat.lt_succ_of_lt (hO.map key' p hk')
    · obtain rfl : w.nextPool = q := Option.some.inj hq
      exact Nat.lt_succ_self _

/-! ## Programs of the executor -/

section Executor

variable {e : ExecId}

/-- The call's executor went on to `s`, and its history by `new`. -/
def View.ran (v : View) (e : ExecId) (s : ExecSt) (new : List SqlEvent) : View :=
  { v with state := s, log := v.log ++ new.map (.sql e) }

theorem safe_client (hl : v.live = true) (he : v.exec = some e) (o : ClientOp) :
    T.Safe i c v (wop (.client e o)) fun v' r => ∃ a s' new, (T.given c).Allows o a v.state ∧
      clientExec o a v.state = some (r, s') ∧ s'.events = v.state.events ++ new ∧ v' = v.ran e s' new := by
  refine safe_quiet hl fun w vs owner a r w' hO hv hg hex => ?_
  subst hv
  have hs := hO.synced i
  have hstate := hs.state e he
  simp only [worldStep, Option.map_eq_some_iff] at hex
  obtain ⟨⟨r', s'⟩, hc, heq⟩ := hex
  cases heq
  rw [← hstate] at hc
  obtain ⟨new, hnew⟩ := events_exec hc
  have hdrop : s'.events.drop (w.execs e).events.length = new := by rw [← hstate, hnew, List.drop_left]
  have hg : (T.given c).Allows o a.toClientAnswer (vs i).state := by rw [hstate]; exact hg
  simp only [hdrop]
  refine ⟨⟨fun _ _ => rfl, Nat.le_refl _, hO.map, rfl, rfl, rfl, rfl, rfl, fun e' he' => ?_, fun _ _ => rfl,
    fun j hj => World.ownLog_record_ne hj _⟩, (vs i).ran e s' new, ⟨rfl, fun hn => ?_, fun _ => rfl, fun _ => rfl⟩,
    ⟨fun e' he' => ?_, hs.data, hs.ctx, fun _ => ?_, hs.pool, hs.held, hs.mine⟩, rfl, rfl, _, s', new, hg, hc, hnew, rfl⟩
  · have hee : e' ≠ e := by rintro rfl; exact he' he
    exact update_of_ne hee ..
  · rw [show (vs i).exec = none from hn] at he; cases he
  · obtain rfl : e = e' := Option.some.inj (he.symm.trans he')
    simp [View.ran, World.record, World.setExec]
  · rw [World.ownLog_record]
    exact congrArg (· ++ new.map (.sql e)) (hs.log hl)

/-- **A program of the call's executor, with its specification.** -/
theorem safe_onExecutor {p : XProg α} {P : α → ExecSt → Prop} (hl : v.live = true) (he : v.exec = some e)
    (hp : Spec (T.given c) p P v.state) : T.Safe i c v (onExecutor e p) fun v' x =>
      ∃ s' new, P x s' ∧ s'.events = v.state.events ++ new ∧ v' = v.ran e s' new := by
  induction p generalizing v with
  | ret x => exact ⟨v.state, [], hp, (List.append_nil _).symm, by simp [View.ran]⟩
  | act o k ih =>
    refine safe_bind (p := wop (.client e o)) (f := fun r => onExecutor e (k r)) (safe_client hl he o)
      fun v' r h => ?_
    obtain ⟨a, s', new, ha, hc, hnew, rfl⟩ := h
    refine safe_mono (ih r (v := v.ran e s' new) hl he ((hp a ha).2 r s' hc)) fun v'' x h => ?_
    obtain ⟨s'', new', hP, hnew', rfl⟩ := h
    refine ⟨s'', new ++ new', hP, ?_, ?_⟩
    · rw [hnew', ← List.append_assoc, ← hnew]; rfl
    · simp [View.ran]

end Executor

/-! ## Executors that come and go -/

section Executors

variable {e : ExecId} {p : PoolId} {k : ℕ} {hd : HandleId}

theorem safe_crashed : T.Safe i c v (crashed : WProg α) Q := by
  intro w vs a r w' _ _ _ he
  simp only [proxySystem, worldExec] at he
  split at he <;> cases he

/-- The executors of the pools are well formed, and have no open transaction where the pools are clean. -/
def ExecSt.Sober (T : Terms) (s : ExecSt) : Prop := s.Ok ∧ (T.clean → ¬ s.TxOpen)

theorem safe_popBack (hl : v.live = true) (hexec : v.exec = none) (hhand : v.hand = none) :
    T.Safe i c v (wop (.popBack p k)) fun v' r =>
      match r with
      | none => v' = v
      | some e => ∃ s, s.Sober T ∧ v'.Is { v with exec := some e, state := s } := by
  refine safe_op hl fun w vs owner a r w' hO hv _ he => ?_
  subst hv
  simp only [worldStep] at he
  split at he
  · cases he
    refine ⟨vs i, owner, .of_eq rfl, ?_, fun _ => truthful_of_handles rfl, rfl⟩
    rw [update_eq_self]; exact hO
  · rename_i e hlast
    cases he
    have hlist : (w.pools p).shards k = ((w.pools p).shards k).dropLast ++ [e] :=
      (List.dropLast_append_getLast? e hlast).symm
    have hidle : owner e = .idle p k := (hO.idle e p k).1 (List.mem_of_getLast? hlast)
    exact ⟨{ vs i with exec := some e, state := w.execs e, grip := .own e }, _,
      ⟨rfl, fun hn => (by cases hn), fun _ => rfl, fun _ => rfl⟩,
      hO.popBack hlist hexec hhand rfl, fun _ => truthful_of_handles rfl, w.execs e, hO.idleOk e p k hidle, _, rfl⟩

theorem safe_newExecutor (hl : v.live = true) (hexec : v.exec = none) (hhand : v.hand = none) (option : MysqlConnOption) :
    T.Safe i c v (wop (.newExecutor option)) fun v' e =>
      v'.Is { v with exec := some e, state := { this := { option := option } } } := by
  refine safe_op hl fun w vs owner a r w' hO hv _ he => ?_
  subst hv
  cases he
  exact ⟨{ vs i with exec := some w.nextExec, state := { this := { option := option } }, grip := .own w.nextExec }, _,
    ⟨rfl, fun hn => (by cases hn), fun _ => rfl, fun _ => rfl⟩, hO.newExecutor hexec hhand rfl,
      fun _ => truthful_of_handles rfl, _, rfl⟩

/-- The refreshed alive time is no matter. -/
theorem ExecSt.Ok.refresh {s : ExecSt} (h : s.Ok) (t : ℕ) :
    ExecSt.Ok { s with this := { s.this with aliveTime := t } } := ⟨h.conn, h.single, h.texts⟩

theorem safe_pushBack (hl : v.live = true) (hexec : v.exec = some e) (hhand : v.hand = none) (hp : v.pool = some p)
    (hs : v.state.Sober T) : T.Safe i c v (wop (.pushBack p k e none)) fun v' r =>
      v'.Is { v with exec := if r then none else some e } := by
  refine safe_op hl fun w vs owner a r w' hO hv _ he => ?_
  subst hv
  have hstate := (hO.synced i).state e hexec
  simp only [worldStep] at he
  split at he
  swap
  · cases he
  split at he
  · cases he
    rw [hstate] at hs
    exact ⟨{ vs i with exec := none, grip := {} }, _, .of_eq rfl,
      hO.pushBack hexec hhand hp (hs.1.refresh a.now) hs.2 rfl,
      fun _ => truthful_of_handles rfl, _, rfl⟩
  · cases he
    refine ⟨vs i, owner, .of_eq rfl, by rw [update_eq_self]; exact hO, fun _ => truthful_of_handles rfl, (vs i).grip, ?_⟩
    simp only [Bool.false_eq_true, if_false, ← hexec]

theorem safe_pushBackHandle (hl : v.live = true) (hexec : v.exec = some e) (hhand : v.hand = some hd)
    (hp : v.pool = some p) (hs : v.state.Sober T) :
    T.Safe i c v (wop (.pushBack p k e (some hd))) fun v' r =>
      if r then v'.Is { v with exec := none, data := { v.data with executor := none } } else v' = v := by
  refine safe_op hl fun w vs owner a r w' hO hv _ he => ?_
  subst hv
  have hstate := (hO.synced i).state e hexec
  simp only [worldStep] at he
  split at he
  swap
  · cases he
  split at he
  · cases he
    rw [hstate] at hs
    refine ⟨{ vs i with exec := none, data := { (vs i).data with executor := none }, grip := {} }, _,
      ⟨rfl, fun _ => rfl, fun hn => (by rw [show (vs i).hand = none from hn] at hhand; cases hhand), fun _ => rfl⟩,
      hO.pushBackHandle hexec hhand hp (hs.1.refresh a.now) hs.2 rfl, fun _ => truthful_of_state fun h' _ => ?_, _, rfl⟩
    by_cases hh : h' = hd
    · subst hh; simp [World.setHandle, World.setExec, World.setShard, World.setPool]
    · simp [World.setHandle, update_of_ne hh, World.setExec, World.setShard, World.setPool]
  · cases he
    exact ⟨vs i, owner, .of_eq rfl, by rw [update_eq_self]; exact hO, fun _ => truthful_of_handles rfl, rfl⟩

/-- The call gives up its executor. -/
theorem safe_release (hl : v.live = true) (hexec : v.exec = some e) (hhand : v.hand = none) (hcopy : v.copy = none)
    (hfree : T.kept → v.state.this.isConnected = false) :
    T.Safe i c v (wop (.release e)) fun v' _ => v'.Is { v with exec := none } := by
  refine safe_op hl fun w vs owner a r w' hO hv _ he => ?_
  subst hv
  cases he
  have hs := hO.synced i
  have hmine : (vs i).grip.mine = some e := by rw [hs.mine, hhand]; exact hexec
  have hmove : (vs i).move (.release e) () = { vs i with exec := none } := by simp [View.move, hcopy]
  refine ⟨{ vs i with exec := none, grip := ⟨none, none⟩ }, _,
    .of_eq (by simp [hmove, Grip.after, hmine]),
    hO.release hexec hhand (fun hT => by rw [← hs.state e hexec]; exact hfree hT) rfl,
    fun _ => truthful_of_handles rfl, _, rfl⟩

/-- The call gives up the reference that it copied. -/
theorem safe_dropCopy (hl : v.live = true) (hcopy : v.copy = some e) (hmine : v.hand = none → v.exec ≠ some e) :
    T.Safe i c v (wop (.release e)) fun v' _ => v'.Is { v with copy := none } ∧ v'.grip.held = none := by
  refine safe_op hl fun w vs owner a r w' hO hv _ he => ?_
  subst hv
  cases he
  have hs := hO.synced i
  have hne : (vs i).grip.mine ≠ some e := by
    rw [hs.mine]
    cases hh : (vs i).hand with
    | none => exact hmine hh
    | some hd => simp
  have hmove : (vs i).move (.release e) () = { vs i with copy := none } := by simp [View.move, hcopy]
  refine ⟨{ vs i with copy := none, grip := ⟨none, (vs i).grip.mine⟩ }, _,
    .of_eq (by simp [hmove, Grip.after, hne]),
    hO.dropCopy hcopy rfl, fun _ => truthful_of_handles rfl, ⟨_, rfl⟩, rfl⟩

end Executors

/-! ## Handles -/

section Handles

variable {e : ExecId} {hd : HandleId} {st : TxState}

theorem safe_getState (hl : v.live = true) (hhand : v.hand = some hd) :
    T.Safe i c v (wop (.getState hd)) fun v' r =>
      v' = v ∧ r = v.data.state ∧ T.Sees v fun w => T.fit c w (.getState hd) := by
  refine safe_quiet hl fun w vs owner a r w' hO hv hg he => ?_
  subst hv
  cases he
  have hs := hO.synced i
  exact ⟨.refl hO.map, vs i, .of_eq rfl, hs, rfl, rfl, rfl, by rw [hs.data hd hhand], w, hO.knows i, hs.ctx, hg⟩

/-- The new state of the handle tells the truth. -/
structure TellsTruth (v : View) (st : TxState) : Prop where
  committed : st = .kCommitted → v.data.state ≠ .kRollBacked ∧
    ∃ e id, v.exec = some e ∧ .sql e (.acked id .commit) ∈ v.log
  rolledBack : st = .kRollBacked → v.data.state ≠ .kCommitted ∧
    ∃ e, v.exec = some e ∧ (v.state.this.isConnected = false ∨ ∃ id, .sql e (.acked id .rollback) ∈ v.log)
  known : st = .kCommitted ∨ st = .kRollBacked

theorem safe_setState (hl : v.live = true) (hhand : v.hand = some hd)
    (ht : T.truth → v.data.state ≠ st → TellsTruth v st) :
    T.Safe i c v (wop (.setState hd st)) fun v' _ => v' = { v with data := { v.data with state := st } } := by
  refine safe_op hl fun w vs owner a r w' hO hv _ he => ?_
  subst hv
  cases he
  have hs := hO.synced i
  have hdata := hs.data hd hhand
  obtain ⟨-, hex, -⟩ := hO.hand i hd hhand
  set H := update w.handles hd { w.handles hd with state := st } with hH
  have hself : H hd = { w.handles hd with state := st } := by rw [hH, update_self]
  have hother : ∀ h', h' ≠ hd → H h' = w.handles h' := fun h' hne => by rw [hH, update_of_ne hne]
  have hO' := hO.handles hhand (H := H) (n := w.nextHandle) (Nat.le_refl _) (fun h' hne _ => hother h' hne)
    (fun h' hge hlt => absurd hge (Nat.not_le.2 hlt)) (by rw [hself]; exact hex) rfl
  refine ⟨{ vs i with data := H hd }, owner, ⟨rfl, fun _ => rfl, fun hn => ?_, fun _ => rfl⟩, hO',
    fun hT h' hlt hne => ?_, ?_⟩
  · rw [show (vs i).hand = none from hn] at hhand; cases hhand
  · by_cases hh : h' = hd
    · subst hh
      change (H h').state ≠ _ at hne
      change ((H h').state = _ → _) ∧ ((H h').state = _ → _) ∧ ((H h').state = _ ∨ (H h').state = _ ∨ _)
      rw [hself] at hne ⊢
      have htruth := ht hT (by rw [hdata]; exact fun h => hne h.symm)
      refine ⟨fun hst => ?_, fun hst => ?_, htruth.known.imp_right .inl⟩
      · obtain ⟨h1, e, id, he, hm⟩ := htruth.committed hst
        exact ⟨by rw [← hdata]; exact h1, e, id, hex.trans he, by rw [← hs.log hl]; exact hm⟩
      · obtain ⟨h1, e, he, hm⟩ := htruth.rolledBack hst
        refine ⟨by rw [← hdata]; exact h1, e, hex.trans he, ?_⟩
        rw [← hs.state e he, ← hs.log hl]
        exact hm
    · exact absurd (congrArg TransactionHandle.state (hother h' hh)) hne
  · rw [hself, hdata]

/-- The call copies the reference of its handle. -/
theorem safe_getExecutor (hl : v.live = true) (hhand : v.hand = some hd) :
    T.Safe i c v (wop (.getExecutor hd)) fun v' r =>
      r = v.exec ∧ v'.Is { v with copy := v.exec } ∧ v'.grip.held = v.exec := by
  refine safe_op hl fun w vs owner a r w' hO hv _ he => ?_
  subst hv
  cases he
  obtain ⟨-, hex, -⟩ := hO.hand i hd hhand
  have hv' : ({ vs i with copy := (vs i).exec, grip := { (vs i).grip with held := (vs i).exec } } : View) =
      { vs i with copy := (w.handles hd).executor,
                  grip := (vs i).grip.after (.getExecutor hd) (w.handles hd).executor } := by rw [hex]; rfl
  refine ⟨{ vs i with copy := (vs i).exec, grip := { (vs i).grip with held := (vs i).exec } }, owner,
    .of_eq (by simp [View.move, Grip.after, hex]), ?_, fun _ => truthful_of_handles rfl, hex, ⟨_, rfl⟩, rfl⟩
  rcases Option.eq_none_or_eq_some (vs i).exec with hexec | ⟨e, hexec⟩
  · have hw : w.retain (w.handles hd).executor.toList = w := by rw [hex, hexec]; simp [World.retain]
    rw [hw]
    refine hO.recount (b := w.aborted) rfl (fun e h => ?_) (fun e h => h) rfl (fun e L hL hc => ?_) hO.alive
    · rw [hexec] at h; cases h
    · refine hO.refs e L hL fun j hj => ?_
      have := hc j hj
      by_cases hji : j = i
      · subst hji
        rw [update_self] at this
        exact absurd (hexec.symm.trans this) (by simp)
      · rwa [update_of_ne hji] at this
  · have hw : (w.handles hd).executor.toList = [e] := by rw [hex, hexec]; rfl
    rw [hw]
    exact hO.getExecutor hexec (by rw [hexec])

/-- The handle that is made of an executor. -/
theorem inSession_new {s : ExecSt} (hs : s.Ok) (st : TxState) :
    InSession { state := st, executor := some e, opened := s.session.map fun σ => (e, σ.id) } s := by
  intro e' he' id hid
  obtain rfl : e = e' := Option.some.inj he'
  obtain ⟨p, σ, hσ, rfl⟩ := hid
  simp only [ExecSt.session, hs.single p σ hσ, Option.bind_some, hσ, Option.map_some]

theorem safe_newHandle (hl : v.live = true) (hexec : v.exec = some e) (hhand : v.hand = none) (hs : v.state.Ok) :
    T.Safe i c v (wop (.newHandle e)) fun v' _ => v'.Is { v with exec := none } := by
  refine safe_op hl fun w vs owner a r w' hO hv _ he => ?_
  subst hv
  cases he
  rw [(hO.synced i).state e hexec] at hs
  refine ⟨{ vs i with exec := none, grip := {} }, _, .of_eq rfl,
    hO.newHandle hexec hhand rfl hs (fun _ => inSession_new hs .kStarted) rfl,
    fun _ => truthful_of_state fun h' hlt => ?_, _, rfl⟩
  simp [World.setHandle, update_of_ne (Nat.ne_of_lt hlt)]

/-- A call that holds no reference of its handle's executor has nothing in hand. -/
theorem View.Synced.no_grip {w : World} (h : v.Synced T i w) (hhand : v.hand = some hd) (hheld : v.grip.held = none) :
    v.grip = {} := by
  have hmine := h.mine
  rw [hhand] at hmine
  cases hg : v.grip with
  | mk held mine =>
    rw [hg] at hheld hmine
    subst hheld hmine
    rfl

/-- What is left of a handle that is moved, or at its end. -/
def TransactionHandle.invalid (t : TransactionHandle) : TransactionHandle :=
  { t with state := .kInValid, executor := none }

/-- A handle is moved; the old one is no longer valid. -/
theorem safe_moveHandle (hl : v.live = true) (hhand : v.hand = some hd) (hheld : v.grip.held = none)
    (hs : ∀ e, v.exec = some e → v.state.Ok ∧ (T.session → InSession v.data v.state)) :
    T.Safe i c v (wop (.moveHandle hd)) fun v' _ => v'.Is { v with exec := none, data := v.data.invalid } := by
  refine safe_op hl fun w vs owner a r w' hO hv _ he => ?_
  subst hv
  cases he
  have hsy := hO.synced i
  have hgrip := hsy.no_grip hhand hheld
  obtain ⟨hlt, hex, -⟩ := hO.hand i hd hhand
  have hdata := hsy.data hd hhand
  set H := update (update w.handles w.nextHandle (w.handles hd)) hd (w.handles hd).invalid with hH
  have hself : H hd = (w.handles hd).invalid := by rw [hH, update_self]
  have hother : ∀ h', h' ≠ hd → h' < w.nextHandle → H h' = w.handles h' := fun h' hne hlt' => by
    rw [hH, update_of_ne hne, update_of_ne (Nat.ne_of_lt hlt')]
  have htruth : Truthful i w { w with handles := H, nextHandle := w.nextHandle + 1 } := by
    intro h' hlt' hne
    have hh : h' = hd := by
      by_contra hh
      exact hne (congrArg TransactionHandle.state (hother h' hh hlt'))
    subst hh
    change ((H h').state = _ → _) ∧ ((H h').state = _ → _) ∧ (_ ∨ _ ∨ (H h').executor = none)
    rw [hself]
    exact ⟨fun h => (by cases h), fun h => (by cases h), .inr (.inr rfl)⟩
  have hafter : (vs i).After T (.moveHandle hd) w.nextHandle
      { vs i with exec := none, data := (vs i).data.invalid, grip := {} } :=
    ⟨by simp [View.move, Grip.after, hgrip], fun _ => rfl,
      fun hn => (by rw [show (vs i).hand = none from hn] at hhand; cases hhand), fun _ => rfl⟩
  refine ⟨_, if (vs i).exec = none then owner else update owner ((vs i).exec.getD 0) (.handle w.nextHandle), hafter,
    ?_, fun _ => htruth, _, rfl⟩
  rcases Option.eq_none_or_eq_some (vs i).exec with hexec | ⟨e, hexec⟩
  · rw [if_pos hexec]
    have := hO.handles (n := w.nextHandle + 1) hhand (Nat.le_succ _) hother (fun h' hge hlt' => ?_)
      (by rw [hself, hexec]; rfl) rfl
    · have hv' : ({ vs i with data := H hd } : View) =
          { vs i with exec := none, data := (vs i).data.invalid, grip := {} } := by
        rw [hself, ← hdata, ← hgrip, ← hexec]
      rwa [hv'] at this
    · obtain rfl : h' = w.nextHandle := Nat.le_antisymm (Nat.le_of_lt_succ hlt') hge
      rw [hH, update_of_ne (Nat.ne_of_gt hlt), update_self, hex, hexec]
  · obtain ⟨hok, hin⟩ := hs e hexec
    rw [hsy.state e hexec] at hok hin
    rw [hdata] at hin
    rw [if_neg (by rw [hexec]; simp), hexec, Option.getD_some]
    exact hO.moveHandle hexec hhand (hex.trans hexec) rfl hok hin (by rw [hdata]; rfl)

/-- The end of a handle. -/
theorem safe_endHandle (hl : v.live = true) (hhand : v.hand = some hd) (hheld : v.grip.held = none)
    (hfree : T.kept → ∀ e, v.exec = some e → v.state.this.isConnected = false) :
    T.Safe i c v (wop (.endHandle hd)) fun v' _ => v'.Is { v with exec := none, data := v.data.invalid } := by
  refine safe_op hl fun w vs owner a r w' hO hv _ he => ?_
  subst hv
  cases he
  have hsy := hO.synced i
  have hgrip := hsy.no_grip hhand hheld
  obtain ⟨hlt, hex, -⟩ := hO.hand i hd hhand
  have hdata := hsy.data hd hhand
  set H := update w.handles hd (w.handles hd).invalid with hH
  have hself : H hd = (w.handles hd).invalid := by rw [hH, update_self]
  have hother : ∀ h', h' ≠ hd → H h' = w.handles h' := fun h' hne => by rw [hH, update_of_ne hne]
  have htruth : ∀ {w' : World}, w'.handles = H → Truthful i w w' := by
    intro w' hw h' hlt' hne
    rw [hw] at hne ⊢
    have hh : h' = hd := by
      by_contra hh
      exact hne (congrArg TransactionHandle.state (hother h' hh))
    subst hh
    rw [hself]
    exact ⟨fun h => (by cases h), fun h => (by cases h), .inr (.inr rfl)⟩
  have hafter : (vs i).After T (.endHandle hd) ()
      { vs i with exec := none, data := (vs i).data.invalid, grip := {} } :=
    ⟨by simp [View.move, Grip.after, hgrip], fun _ => rfl,
      fun hn => (by rw [show (vs i).hand = none from hn] at hhand; cases hhand), fun _ => rfl⟩
  refine ⟨_, if (vs i).exec = none then owner else update owner ((vs i).exec.getD 0) .nobody, hafter,
    ?_, fun _ => htruth ?_, _, rfl⟩
  · rcases Option.eq_none_or_eq_some (vs i).exec with hexec | ⟨e, hexec⟩
    · rw [if_pos hexec, hex, hexec]
      have := hO.handles (H := H) (n := w.nextHandle) hhand (Nat.le_refl _) (fun h' hne _ => hother h' hne)
        (fun h' hge hlt' => absurd hge (Nat.not_le.2 hlt')) (by rw [hself, hexec]; rfl) rfl
      have hv' : ({ vs i with data := H hd } : View) =
          { vs i with exec := none, data := (vs i).data.invalid, grip := {} } := by
        rw [hself, ← hdata, ← hgrip, ← hexec]
      rwa [hv'] at this
    · rw [if_neg (by rw [hexec]; simp), hex, hexec, Option.getD_some]
      refine hO.endHandle hexec hhand (fun hT => ?_) rfl (by rw [hdata]; rfl)
      rw [← hsy.state e hexec]
      exact hfree hT e hexec
  · cases (w.handles hd).executor <;> rfl

end Handles

end TrpcMysql
