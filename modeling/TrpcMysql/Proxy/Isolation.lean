import TrpcMysql.Proxy.Once

/-!
# A transaction has its connection to itself

From the moment a handle has its executor until it gives it up, nothing reaches the connection but the calls on
this handle, however many other calls run at the same time: what the executor did in between is just what these
calls noted (`transaction_isolated`). The executor is the same all the while, since a handle never gets a second
one.
-/

namespace TrpcMysql

open Function Conc

variable {cf cf' : ProxyConfig} {h : HandleId} {e : ExecId}

/-- The event of executor `e` that an entry of the history tells of. -/
def Note.event? (e : ExecId) : ℕ × Note → Option SqlEvent
  | (_, .sql e' ev) => if e' = e then some ev else none
  | _ => none

/-- Between `cf` and `cf'` handle `h` kept executor `e`, and nothing happened on `e` but what the calls on `h` did and
noted. -/
structure Isolated (cf cf' : ProxyConfig) (h : HandleId) (e : ExecId) : Prop where
  kept : (cf.world.handles h).executor = some e
  only : ∃ new, cf'.world.log = cf.world.log ++ new ∧
    (cf'.world.execs e).events = (cf.world.execs e).events ++ new.filterMap (Note.event? e) ∧
    ∀ i ev, (i, .sql e ev) ∈ new → ∃ c p, cf'.frames[i]? = some ⟨c, p⟩ ∧ c.handle = some h

/-- Executors have one owner, and those of handles and of calls are made. -/
structure Owns (cf : ProxyConfig) : Prop where
  exclusive : Exclusive cf
  handle : ∀ h e, h < cf.world.nextHandle → (cf.world.handles h).executor = some e → e < cf.world.nextExec
  call : ∀ i c e, Config.Uses cf i c e → e < cf.world.nextExec

/-- Where nothing is asked of a run, the calls on one handle follow each other. -/
theorem sequenced_nothing {w₀ : World} (hr : proxySystem.Reach Sequenced w₀ cf) :
    proxySystem.Reach ({} : Terms).guard w₀ cf := by
  refine hr.mono (fun cf c hf => ⟨trivial, hf, fun h => h.elim⟩) fun i c w o a _ => ?_
  cases o with
  | client e o => exact Given.allows_nothing
  | runFilters pt x => exact ⟨fun h => h.elim, fun h => h.elim⟩
  | checkTimeout x => exact ⟨trivial, fun h => h.elim⟩
  | _ => trivial

/-- So it is when the calls on one handle follow each other. -/
theorem sequenced_owns {serviceName : String} {option : MysqlExecutorPoolOption} {ctxs : CtxId → ClientContext}
    (hr : proxySystem.Reach Sequenced (World.fresh serviceName option ctxs) cf) : Owns cf := by
  obtain ⟨vs, hG⟩ := (Terms.sound upheld_nothing serviceName option ctxs).reach (sequenced_nothing hr)
  obtain ⟨owner, ho⟩ := hG.1
  -- an executor that is not made yet has no owner
  have hmade : ∀ {e}, owner e ≠ .nobody → e < cf.world.nextExec := fun hne => by
    by_contra hle
    exact hne (ho.freshExec _ (Nat.le_of_not_lt hle)).1
  refine ⟨ho.exclusive hG, fun h e hlt hex => hmade ?_, fun i c e hu => hmade ?_⟩
  · rcases ho.holder hlt hex with hown | ⟨i, -, -, hown⟩ <;> rw [hown] <;> exact Owner.noConfusion
  · rw [(ho.call _ _).1 ((ho.synced _).held _ (good_uses hG hu).1)]
    exact Owner.noConfusion

/-- A call that starts takes the next number. -/
theorem call_stays {c : Call} {ls : List (Label Answer Call)} (hs : proxySystem.steps cf (.start c :: ls) = some cf') :
    ∃ p, cf'.frames[cf.frames.length]? = some ⟨c, p⟩ :=
  System.calls_stay ls (show proxySystem.steps ⟨cf.world, cf.frames ++ [⟨c, c.prog⟩]⟩ ls = some cf' from hs)
    List.getElem?_concat_length

theorem handles_stay {i : ℕ} {a : Answer} (hs : proxySystem.step cf (.act i a) = some cf') :
    cf.world.nextHandle ≤ cf'.world.nextHandle := by
  obtain ⟨c, o, k, r, w', -, he, rfl⟩ := System.step_act hs
  have he : worldExec i o a cf.world = some (r, w') := he
  unfold worldExec at he
  split at he
  · cases he
  · exact (beside_step he).nextHandle

theorem Isolated.refl (hex : (cf.world.handles h).executor = some e) : Isolated cf cf h e :=
  ⟨hex, [], by simp, by simp, by simp⟩

/-- **One step**: a call that is not on the handle does nothing to its executor. -/
theorem isolated_step {serviceName : String} {option : MysqlExecutorPoolOption} {ctxs : CtxId → ClientContext}
    {cf₁ : ProxyConfig} {i : ℕ} {a : Answer} (hr : proxySystem.Reach Sequenced (World.fresh serviceName option ctxs) cf)
    (hs : proxySystem.step cf (.act i a) = some cf₁) (hlt : h < cf.world.nextHandle)
    (hex : (cf₁.world.handles h).executor = some e) : Isolated cf cf₁ h e := by
  obtain ⟨c, o, k, r, w', hf, he, rfl⟩ := System.step_act hs
  have howns := sequenced_owns hr
  have hlen : i < cf.frames.length := (List.getElem?_eq_some_iff.1 hf).1
  have he : worldExec i o a cf.world = some (r, w') := he
  unfold worldExec at he
  split at he
  · cases he
  have hb := beside_step he
  -- an executor that is there after the step was there before
  have hkept : (cf.world.handles h).executor = some e := by
    rcases hb.executor h hlt with hsame | hnone
    · exact hsame.symm.trans hex
    · rw [hnone] at hex
      cases hex
  refine ⟨hkept, ?_⟩
  obtain ⟨-, new, hlog, hnew⟩ := logs_step he
  refine ⟨new.map (i, ·), hlog, ?_⟩
  have hother : (∀ e ev, Note.sql e ev ∉ new) → ∀ e, (new.map (i, ·)).filterMap (Note.event? e) = [] := by
    intro hn e
    rw [List.filterMap_eq_nil_iff]
    intro x hx
    obtain ⟨n, hm, rfl⟩ := List.mem_map.1 hx
    cases n with
    | sql e' ev => exact absurd hm (hn e' ev)
    | _ => rfl
  cases o with
  | client e' o =>
    obtain ⟨evs, rfl, hevents, -, hrest⟩ := hnew
    by_cases hee : e' = e
    · subst hee
      -- the call uses the executor of the handle, so it works on the handle
      have hlent : c.handle = some h := howns.exclusive.lent e' i c h ⟨_, hf, .here rfl⟩ hlt hkept
      refine ⟨?_, fun j ev hm => ?_⟩
      · rw [hevents, List.map_map, List.filterMap_map]
        simp [Note.event?, Function.comp_def]
      · simp only [List.map_map, List.mem_map, Function.comp_apply, Prod.mk.injEq] at hm
        obtain ⟨ev', -, rfl, -⟩ := hm
        exact ⟨c, _, List.getElem?_set_self hlen, hlent⟩
    · refine ⟨?_, fun j ev hm => ?_⟩
      · rw [hrest e (Ne.symm hee), List.map_map, List.filterMap_map]
        simp [Note.event?, Function.comp_def, hee]
      · simp only [List.map_map, List.mem_map, Function.comp_apply, Prod.mk.injEq, Note.sql.injEq] at hm
        obtain ⟨ev', -, -, heq, -⟩ := hm
        exact absurd heq hee
  | _ =>
    obtain ⟨hnone, hexecs⟩ := hnew
    refine ⟨?_, fun j ev hm => ?_⟩
    · obtain ⟨this, hthis⟩ := hexecs e (howns.handle h e hlt hkept)
      rw [hthis, hother hnone, List.append_nil]
    · obtain ⟨n, hn, heq⟩ := List.mem_map.1 hm
      cases heq
      exact absurd hn (hnone e ev)

/-- **A run**: the calls that are not on the handle do nothing to its executor. -/
theorem isolated_steps {serviceName : String} {option : MysqlExecutorPoolOption} {ctxs : CtxId → ClientContext} :
    ∀ (ls : List (Label Answer Call)) {cf cf' : ProxyConfig},
      proxySystem.Reach Sequenced (World.fresh serviceName option ctxs) cf → proxySystem.Legal Sequenced cf ls →
      proxySystem.steps cf ls = some cf' → ∀ {h e}, h < cf.world.nextHandle →
      (cf'.world.handles h).executor = some e → Isolated cf cf' h e := by
  intro ls
  induction ls with
  | nil =>
    intro cf cf' _ _ hs h e _ hex
    simp only [System.steps, Option.some.injEq] at hs
    subst hs
    exact .refl hex
  | cons l ls ih =>
    intro cf cf' hr hg hs h e hlt hex
    simp only [System.steps, Option.bind_eq_some_iff] at hs
    obtain ⟨cf₁, h₁, h₂⟩ := hs
    have hr₁ := hr.step l hg.1 h₁
    have hg₁ := hg.2 cf₁ h₁
    cases l with
    | start c =>
      cases h₁
      obtain ⟨hkept, hrest⟩ := ih hr₁ hg₁ h₂ hlt hex
      exact ⟨hkept, hrest⟩
    | act i a =>
      have hlt₁ := Nat.lt_of_lt_of_le hlt (handles_stay h₁)
      obtain ⟨hkept₁, new₁, hlog₁, hevents₁, hcalls₁⟩ := ih hr₁ hg₁ h₂ hlt₁ hex
      obtain ⟨hkept, new, hlog, hevents, hcalls⟩ := isolated_step hr h₁ hlt hkept₁
      refine ⟨hkept, new ++ new₁, ?_, ?_, fun j ev hm => ?_⟩
      · rw [hlog₁, hlog, List.append_assoc]
      · rw [hevents₁, hevents, List.filterMap_append, List.append_assoc]
      · rcases List.mem_append.1 hm with hm | hm
        · obtain ⟨c, p, hf, hc⟩ := hcalls j ev hm
          obtain ⟨p', hf'⟩ := System.calls_stay ls h₂ hf
          exact ⟨c, p', hf', hc⟩
        · exact hcalls₁ j ev hm

/-- **Isolation.** While a handle has its executor, the executor does and sends only what the calls on the handle make
it do, in every interleaving with other calls; and it is one executor all the while. -/
theorem transaction_isolated {serviceName : String} {option : MysqlExecutorPoolOption} {ctxs : CtxId → ClientContext}
    (ls : List (Label Answer Call)) (hr : proxySystem.Reach Sequenced (World.fresh serviceName option ctxs) cf)
    (hg : proxySystem.Legal Sequenced cf ls) (hs : proxySystem.steps cf ls = some cf') (hlt : h < cf.world.nextHandle)
    (hex : (cf'.world.handles h).executor = some e) : Isolated cf cf' h e :=
  isolated_steps ls hr hg hs hlt hex

/-- The guard lets every step of a call in progress through. -/
theorem sequenced_act {i : ℕ} {a : Answer} (hs : proxySystem.step cf (.act i a) = some cf') :
    Sequenced.Allows cf (.act i a) := by
  obtain ⟨c, o, k, r, w', hf, -, -⟩ := System.step_act hs
  simp only [Guard.Allows, hf]
  trivial

/-- A call that starts, and goes on by itself. -/
theorem sequenced_alone {c : Call} {i n : ℕ} (hc : Follows cf c)
    (hs : (proxySystem.steps cf (.start c :: List.replicate n (.act i {}))).isSome = true) :
    proxySystem.Legal Sequenced cf (.start c :: List.replicate n (.act i {})) := by
  refine ⟨hc, fun cf₁ h₁ => ?_⟩
  cases h₁
  refine System.legal_of_steps (fun l hl cf cf' hs => ?_) (Option.some_get hs).symm
  obtain rfl := List.eq_of_mem_replicate hl
  exact sequenced_act hs

/-- Calls `i` and `j` go on in turn. -/
def inTurn (i j n : ℕ) : List (Label Answer Call) := (List.replicate n [.act i {}, .act j {}]).flatten

theorem inTurn_acts {i j n : ℕ} {l : Label Answer Call} (hl : l ∈ inTurn i j n) : l = .act i {} ∨ l = .act j {} := by
  obtain ⟨ls, hls, hl⟩ := List.mem_flatten.1 hl
  rw [List.eq_of_mem_replicate hls] at hl
  simpa using hl

/-- A statement of a transaction is acknowledged while a plain query makes its own connection. -/
theorem transaction_isolated_inTurn : ∃ cf cf', proxySystem.Reach Sequenced newProxy cf ∧
    proxySystem.steps cf (.start (.queryTx 1 0 { mode := .onlyExec } (ascii "delete from t") []) ::
      .start (.query 0 { mode := .onlyExec } (ascii "delete from s") []) :: inTurn 1 2 14) = some cf' ∧
    (cf'.world.execs 0).events.length = 2 ∧ cf'.world.nextExec = 2 ∧ Isolated cf cf' 0 0 := by
  have h₁ : proxySystem.Reach Sequenced newProxy _ := System.Reach.init.call_get (c := .begin 0) (List.replicate 60 {})
    (Follows.of_done rfl (by decide) (by decide)) Prog.along_true (by decide +kernel)
  refine ⟨_, (proxySystem.steps _ _).get (by decide +kernel), h₁, (Option.some_get _).symm, by decide +kernel,
    by decide +kernel, transaction_isolated _ h₁ ?_ (Option.some_get _).symm (by decide +kernel) (by decide +kernel)⟩
  refine ⟨Follows.of_done rfl (by decide +kernel) (by decide +kernel), fun cf₁ h₂ => ?_⟩
  refine ⟨⟨rfl, fun h hc => (by cases hc)⟩, fun cf₂ h₃ => ?_⟩
  cases h₂
  cases h₃
  refine System.legal_of_steps (fun l hl cf cf' hs => ?_) (Option.some_get (by decide +kernel)).symm
  rcases inTurn_acts hl with rfl | rfl
  · exact sequenced_act hs
  · exact sequenced_act hs

end TrpcMysql
