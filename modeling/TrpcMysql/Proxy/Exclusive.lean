import TrpcMysql.Proxy.Runs

/-!
# The owners of an executor, in every state reached

An executor has one owner at a time (`Exclusive`), as long as the calls on one handle follow each other and no
pool is stopped. And no connected executor is dropped (`Kept`), as long as no call of `Begin` fails once it has
an executor that is connected.
-/

namespace TrpcMysql

open Function Conc MysqlServiceProxy

variable {cf : ProxyConfig} {T : Terms} {vs : ℕ → View} {owner : ExecId → Owner} {e : ExecId}

/-- The calls on one handle follow each other, and no pool is stopped or destroyed. -/
def Sequenced : Guard World WorldOp Answer Call Result WorldOp.Reply where
  start := Follows
  act _ _ _ _ _ := True

/-- The guard lets every step of a call in progress through. -/
theorem sequenced_acts (n i : ℕ) : ∀ l ∈ List.replicate n (.act i {}), ∀ cf cf', proxySystem.step cf l = some cf' →
    Sequenced.Allows cf l := by
  intro l hl cf cf' hs
  obtain rfl := List.eq_of_mem_replicate hl
  obtain ⟨c, o, k, r, w', hf, -, -⟩ := System.step_act hs
  simp only [Guard.Allows, hf]
  trivial

/-- Call `i` still uses the executor. -/
def Config.Uses (cf : ProxyConfig) (i : ℕ) (c : Call) (e : ExecId) : Prop :=
  ∃ p, cf.frames[i]? = some ⟨c, p⟩ ∧ WillUse e p

/-- Each executor has at most one owner. -/
structure Exclusive (cf : ProxyConfig) : Prop where
  /-- it occurs once in all shards together -/
  nodup : ∀ p k, ((cf.world.pools p).shards k).Nodup
  shards : ∀ e p k p' k', e ∈ (cf.world.pools p).shards k → e ∈ (cf.world.pools p').shards k' → p = p' ∧ k = k'
  /-- no handle holds an idle executor, and no call will use one -/
  handle : ∀ e h, h < cf.world.nextHandle → (cf.world.handles h).executor = some e →
    ∀ p k, e ∉ (cf.world.pools p).shards k
  task : ∀ e i c, Config.Uses cf i c e → ∀ p k, e ∉ (cf.world.pools p).shards k
  /-- no two handles hold the same executor, and no two calls use the same -/
  handles : ∀ e h h', h < cf.world.nextHandle → h' < cf.world.nextHandle → (cf.world.handles h).executor = some e →
    (cf.world.handles h').executor = some e → h = h'
  tasks : ∀ e i j c c', Config.Uses cf i c e → Config.Uses cf j c' e → i = j
  /-- a call that uses the executor of a handle works on that handle -/
  lent : ∀ e i c h, Config.Uses cf i c e → h < cf.world.nextHandle → (cf.world.handles h).executor = some e →
    c.handle = some h

/-- A call that will use an executor holds it. -/
theorem good_uses {i : ℕ} {c : Call} (hG : T.outline.Good proxySystem T.guard cf vs)
    (hu : Config.Uses cf i c e) : (vs i).grip.held = some e ∧ (vs i).hand = c.handle := by
  obtain ⟨p, hf, hw⟩ := hu
  have hframe := hG.2.2 i
  rw [hf] at hframe
  cases p with
  | ret r => cases hw
  | act o k =>
    obtain ⟨hfit, hhold, -⟩ := hframe
    exact ⟨Disc.willUse hhold hw, hfit.1⟩

/-- The owner of a handle's executor is the handle, or the call that works on it. -/
theorem Owned.holder {w : World} (ho : Owned T w vs owner) {h : HandleId} (hlt : h < w.nextHandle)
    (hex : (w.handles h).executor = some e) :
    owner e = .handle h ∨ ∃ i, (vs i).hand = some h ∧ (vs i).exec = some e ∧ owner e = .call i := by
  by_cases hno : ∀ i, (vs i).hand ≠ some h
  · exact .inl ((ho.handle e h).1 ⟨hlt, hex, hno⟩)
  · obtain ⟨i, hi⟩ := not_forall.1 hno
    have hi : (vs i).hand = some h := not_not.1 hi
    have hexec := (ho.hand i h hi).2.1.symm.trans hex
    exact .inr ⟨i, hi, hexec, (ho.call e i).1 hexec⟩

theorem Owned.exclusive (ho : Owned T cf.world vs owner) (hG : T.outline.Good proxySystem T.guard cf vs) :
    Exclusive cf := by
  have huses : ∀ {i c e}, Config.Uses cf i c e → owner e = .call i := fun hu =>
    (ho.call _ _).1 ((ho.synced _).held _ (good_uses hG hu).1)
  have hidle : ∀ {e p k}, e ∈ (cf.world.pools p).shards k → owner e = .idle p k := fun h => (ho.idle _ _ _).1 h
  refine ⟨ho.nodup, fun e p k p' k' h h' => ?_, fun e h hlt hex p k hm => ?_, fun e i c hu p k hm => ?_,
    fun e h h' hlt hlt' hex hex' => ?_, fun e i j c c' hu hu' => ?_, fun e i c h hu hlt hex => ?_⟩
  · have := (hidle h).symm.trans (hidle h')
    cases this
    exact ⟨rfl, rfl⟩
  · rcases ho.holder hlt hex with hh | ⟨i, -, -, hh⟩
    · have := hh.symm.trans (hidle hm)
      cases this
    · have := hh.symm.trans (hidle hm)
      cases this
  · have := (huses hu).symm.trans (hidle hm)
    cases this
  · rcases ho.holder hlt hex with hh | ⟨i, hi, -, hh⟩ <;> rcases ho.holder hlt' hex' with hh' | ⟨j, hj, -, hh'⟩
    · have := hh.symm.trans hh'
      cases this
      rfl
    · have := hh.symm.trans hh'
      cases this
    · have := hh.symm.trans hh'
      cases this
    · have := hh.symm.trans hh'
      cases this
      exact Option.some.inj (hi.symm.trans hj)
  · have := (huses hu).symm.trans (huses hu')
    cases this
    rfl
  · rcases ho.holder hlt hex with hh | ⟨j, hj, -, hh⟩
    · have := hh.symm.trans (huses hu)
      cases this
    · have := hh.symm.trans (huses hu)
      cases this
      exact (good_uses hG hu).2.symm.trans hj

/-- Nothing is asked of a run, and nothing but the owners is kept. -/
theorem upheld_nothing : Terms.Upheld {} where
  session h := h.elim
  truth h := h.elim
  clean h := h.elim
  kept h := h.elim
  done _ _ _ _ _ := trivial

/-- **Each executor has at most one owner, in every state reached.** -/
theorem exclusive_ownership (serviceName : String) (option : MysqlExecutorPoolOption) (ctxs : CtxId → ClientContext)
    (hr : proxySystem.Reach Sequenced (World.fresh serviceName option ctxs) cf) : Exclusive cf := by
  have hr' : proxySystem.Reach ({} : Terms).guard (World.fresh serviceName option ctxs) cf := by
    refine hr.mono (fun cf c hf => ⟨trivial, hf, fun h => h.elim⟩) fun i c w o a _ => ?_
    cases o with
    | client e o => exact Given.allows_nothing
    | runFilters pt x => exact ⟨fun h => h.elim, fun h => h.elim⟩
    | checkTimeout x => exact ⟨trivial, fun h => h.elim⟩
    | _ => trivial
  obtain ⟨vs, hG⟩ := (Terms.sound upheld_nothing serviceName option ctxs).reach hr'
  obtain ⟨owner, ho⟩ := hG.1
  exact ho.exclusive hG

/-- A new proxy with contexts of one address. -/
def newProxy : World :=
  World.fresh "mysql" { maxSize := 8, numShardGroup := 4 } fun _ => { nodeAddr := { ip := ascii "host", port := 3306 } }

/-- All goes well, but for the answer at one step. -/
def answers : ℕ → Answer → List Answer
  | 0, a => a :: List.replicate 60 {}
  | n + 1, a => {} :: answers n a

/-- A query gives its executor back, and a transaction holds another one. -/
theorem exclusive_ownership_two : ∃ cf, proxySystem.Reach Sequenced newProxy cf ∧
    (cf.world.pools 0).shards 0 = [0] ∧ (cf.world.handles 0).executor = some 1 ∧ Exclusive cf := by
  have h₁ : proxySystem.Reach Sequenced newProxy _ :=
    System.Reach.init.call (c := .query 0 { mode := .onlyExec } (ascii "delete from t") []) (List.replicate 60 {})
      (.of_done rfl (by decide) (by decide)) Prog.along_true rfl
  have h₂ := h₁.call (c := .begin 1) (List.replicate 60 {}) (.of_done rfl (by decide) (by decide)) Prog.along_true rfl
  exact ⟨_, h₂, by decide, by decide, exclusive_ownership _ _ _ h₂⟩

/-! ## Connected executors -/

/-- Every connected executor is idle, held by a handle, or owed by a call in progress; and none was destroyed. -/
structure Kept (cf : ProxyConfig) : Prop where
  alive : cf.world.aborted = false
  owned : ∀ e, (cf.world.execs e).this.isConnected = true → (∃ p k, e ∈ (cf.world.pools p).shards k) ∨
    (∃ h, h < cf.world.nextHandle ∧ (cf.world.handles h).executor = some e) ∨
    ∃ (i : ℕ) (c : Call) (p : WProg Result), cf.frames[i]? = some ⟨c, p⟩ ∧ Owes e p

theorem Owned.kept (ho : Owned T cf.world vs owner) (hG : T.outline.Good proxySystem T.guard cf vs) (hT : T.kept) :
    Kept cf := by
  refine ⟨ho.alive hT, fun e hc => ?_⟩
  cases hown : owner e with
  | nobody =>
    rw [ho.free hT e hown] at hc
    cases hc
  | idle p k => exact .inl ⟨p, k, (ho.idle e p k).2 hown⟩
  | handle h =>
    obtain ⟨hlt, hex, -⟩ := (ho.handle e h).2 hown
    exact .inr (.inl ⟨h, hlt, hex⟩)
  | call i =>
    have hexec := (ho.call e i).2 hown
    cases hh : (vs i).hand with
    | some h =>
      obtain ⟨hlt, hex, -⟩ := ho.hand i h hh
      exact .inr (.inl ⟨h, hlt, hex.trans hexec⟩)
    | none =>
      -- the executor is the call's own, and the call owes it back
      refine .inr (.inr ?_)
      have hmine : (vs i).grip.mine = some e := by
        rw [(ho.synced i).mine, hh]
        exact hexec
      have hframe := hG.2.2 i
      cases hf : cf.frames[i]? with
      | none =>
        rw [hf] at hframe
        rw [show vs i = {} from hframe] at hexec
        cases hexec
      | some f =>
        obtain ⟨c, p⟩ := f
        rw [hf] at hframe
        cases p with
        | ret r =>
          rw [show vs i = {} from hframe.1] at hexec
          cases hexec
        | act o k => exact ⟨i, c, .act o k, hf, Disc.owes hframe.2.1 hmine⟩

/-- The calls that begin a transaction. -/
def Call.begins : Call → Bool
  | begin _ | asyncBegin _ => true
  | _ => false

/-- Once a call of `Begin` or `AsyncBegin` has an executor that is connected, it is not late, no filter rejects it, its
'begin' succeeds, and for `Begin` the context holds no error from an earlier call. Filters that pass leave the status
as it was, and no two calls share a context. -/
def smoothBegins : Known where
  contexts := True
  given c := { succeed := c.begins = true }
  smooth c _ o :=
    match c, o with
    | .begin _, .checkTimeout _ | .begin _, .runFilters .preSendMsg _ | .begin _, .runFilters .postRecvMsg _
    | .asyncBegin _, .checkTimeout _ | .asyncBegin _, .runFilters .preSendMsg _ => True
    | _, _ => False
  fit c w o :=
    match c, o with
    | .begin _, .checkTimeout x => (w.ctxs x).status.ok = true
    | _, _ => True

instance : Decidable smoothBegins.contexts := isTrue trivial

instance (c : Call) (w : World) (o : WorldOp) : Decidable (smoothBegins.smooth c w o) := by
  induction c using Call.casesOn with
  | begin _ | asyncBegin _ =>
    induction o using WorldOp.casesOn with
    | checkTimeout _ => exact isTrue trivial
    | runFilters pt _ => induction pt using FilterPoint.casesOn <;> first | exact isTrue trivial | exact isFalse id
    | _ => exact isFalse id
  | _ => exact isFalse id

instance (c : Call) (w : World) (o : WorldOp) : Decidable (smoothBegins.fit c w o) := by
  induction c using Call.casesOn with
  | begin _ =>
    induction o using WorldOp.casesOn with
    | checkTimeout x => exact inferInstanceAs (Decidable ((w.ctxs x).status.ok = true))
    | _ => exact isTrue trivial
  | _ => exact isTrue trivial

instance (c : Call) (o : ClientOp) (a : ClientAnswer) (s : ExecSt) :
    Decidable ((smoothBegins.given c).Allows o a s) :=
  inferInstanceAs (Decidable (Given.Allows { succeed := c.begins = true } o a s))

/-- The terms under which connected executors have owners. -/
def keptTerms : Terms := { smoothBegins with kept := True }

theorem upheld_kept : keptTerms.Upheld where
  session h := h.elim
  truth h := h.elim
  clean h := h.elim
  kept _ :=
    { contexts := trivial
      smooth := by rintro x w o ((rfl | rfl) | rfl) <;> trivial
      succeed := fun _ => rfl
      status := fun _ _ h => h
      asyncSmooth := by rintro x w o (rfl | rfl) <;> trivial
      asyncSucceed := fun _ => rfl }
  done _ _ _ _ _ := trivial

/-- **No connected executor is dropped, in every run in which no `Begin` fails once it has one.** -/
theorem connected_kept (serviceName : String) (option : MysqlExecutorPoolOption) (ctxs : CtxId → ClientContext)
    (hr : proxySystem.Reach smoothBegins.guard (World.fresh serviceName option ctxs) cf) : Kept cf := by
  obtain ⟨vs, hG⟩ := (Terms.sound upheld_kept serviceName option ctxs).reach hr
  obtain ⟨owner, ho⟩ := hG.1
  exact ho.kept hG trivial

/-- A transaction begins and is committed, and the executor goes back into the pool. -/
theorem connected_kept_commit : ∃ cf, proxySystem.Reach smoothBegins.guard newProxy cf ∧
    (cf.world.execs 0).this.isConnected = true ∧ Kept cf := by
  have h₁ : proxySystem.Reach smoothBegins.guard newProxy _ :=
    System.Reach.init.call (c := .begin 0) (List.replicate 60 {})
      (Known.start_of_done trivial rfl (by decide) (by decide))
      (by decide) rfl
  have h₂ := h₁.call (c := .finish 1 0 false) (List.replicate 60 {})
    (Known.start_of_done trivial rfl (by decide) (by decide)) (by decide) rfl
  exact ⟨_, h₂, by decide, connected_kept _ _ _ h₂⟩

/-- A `Begin` that is late once it has an executor drops it, and the process ends. -/
theorem begin_drops_connected : ¬ ∀ (serviceName : String) (option : MysqlExecutorPoolOption)
    (ctxs : CtxId → ClientContext) (cf : ProxyConfig),
    proxySystem.Reach Sequenced (World.fresh serviceName option ctxs) cf → Kept cf := by
  intro h
  have hr : proxySystem.Reach Sequenced newProxy _ :=
    System.Reach.init.call (c := .begin 0) (answers 26 { timedOut := true })
      (.of_done rfl (by decide) (by decide)) Prog.along_true rfl
  exact absurd (h _ _ _ _ hr).alive (by decide)

end TrpcMysql
