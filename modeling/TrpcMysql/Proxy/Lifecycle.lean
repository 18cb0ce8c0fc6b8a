import TrpcMysql.Proxy.Isolation

/-!
# What becomes of a handle

A call reads and writes the handle that it is made on and the context that it is made with, and takes the executor
out of its handle only when it has ended the transaction (`Call.rule`). So in every interleaving, also of calls on one
handle: a started handle has an executor, and no handle is started again or gets another executor (`handles_live`); and
what no call in between is made on or with stays as it is (`calls_apart`).
-/

namespace TrpcMysql

open Function Conc

variable {cf cf' : ProxyConfig} {c : Call} {d : Doing} {w w' : World} {i : ℕ}

/-! ## Steps -/

/-- Every started handle has its executor. -/
def World.Held (w : World) : Prop :=
  ∀ h, h < w.nextHandle → (w.handles h).state = .kStarted → (w.handles h).executor ≠ none

/-- From `w` to `w'` no handle was started again, and none got an executor. -/
structure Lives (w w' : World) : Prop where
  nextHandle : w.nextHandle ≤ w'.nextHandle
  state : ∀ h, h < w.nextHandle → (w'.handles h).state = .kStarted → (w.handles h).state = .kStarted
  executor : ∀ h, h < w.nextHandle → (w'.handles h).executor = (w.handles h).executor ∨ (w'.handles h).executor = none

/-- From `w` to `w'` only the handle and the context of the call may have changed, but for handles that are new. -/
structure Touches (c : Call) (w w' : World) : Prop where
  handles : ∀ h, h < w.nextHandle → c.handle ≠ some h → w'.handles h = w.handles h
  ctxs : ∀ x, c.ctx ≠ some x → w'.ctxs x = w.ctxs x

namespace Lives

theorem refl (w : World) : Lives w w := ⟨Nat.le_refl _, fun _ _ hs => hs, fun _ _ => .inl rfl⟩

theorem trans {w'' : World} (h : Lives w w') (h' : Lives w' w'') : Lives w w'' where
  nextHandle := Nat.le_trans h.nextHandle h'.nextHandle
  state hd hlt hs := h.state hd hlt (h'.state hd (Nat.lt_of_lt_of_le hlt h.nextHandle) hs)
  executor hd hlt := by
    rcases h'.executor hd (Nat.lt_of_lt_of_le hlt h.nextHandle) with he | he
    · rw [he]
      exact h.executor hd hlt
    · exact .inr he

end Lives

namespace Touches

theorem of_same (hh : w'.handles = w.handles) (hx : w'.ctxs = w.ctxs) : Touches c w w' :=
  ⟨fun h _ _ => by rw [hh], fun x _ => by rw [hx]⟩

theorem setCtx {x : CtxId} {t : ClientContext} (hc : c.ctx = some x) (hh : w'.handles = w.handles)
    (hx : w'.ctxs = update w.ctxs x t) : Touches c w w' := by
  refine ⟨fun h _ _ => by rw [hh], fun x' hne => ?_⟩
  rw [hx, update_of_ne]
  rintro rfl
  exact hne hc

theorem setHandle {h : HandleId} {t : TransactionHandle} (hc : c.handle = some h)
    (hh : w'.handles = update w.handles h t) (hx : w'.ctxs = w.ctxs) : Touches c w w' := by
  refine ⟨fun h' _ hne => ?_, fun x _ => by rw [hx]⟩
  rw [hh, update_of_ne]
  rintro rfl
  exact hne hc

end Touches

/-- **A step that a call may take changes its own handle and its own context only.** -/
theorem touches_step {o : WorldOp} {a : Answer} {r : o.Reply} (hm : c.rule.allows d o)
    (he : worldStep i o a w = some (r, w')) : Touches c w w' := by
  -- only the steps that write a handle or a context are more than a reflexivity
  cases o
  case client e o =>
    simp only [worldStep, Option.map_eq_some_iff] at he
    obtain ⟨y, -, heq⟩ := he
    cases heq
    exact .of_same rfl rfl
  case setStatus x s =>
    cases he
    exact .setCtx hm rfl rfl
  case runFilters pt x =>
    cases he
    exact .setCtx hm rfl rfl
  case checkTimeout x =>
    simp only [worldStep] at he
    split at he
    · cases he
      exact .setCtx hm rfl rfl
    · cases he
      exact .of_same rfl rfl
  case addTask =>
    simp only [worldStep] at he
    split at he
    · cases he
      exact .of_same rfl rfl
    · cases he
  case poolsGetOrInsert key pool =>
    simp only [worldStep] at he
    split at he <;> cases he <;> exact .of_same rfl rfl
  case popBack p k =>
    simp only [worldStep] at he
    split at he <;> cases he <;> exact .of_same rfl rfl
  case pushBack p k e from? =>
    simp only [worldStep] at he
    split at he
    swap
    · cases he
    split at he
    · -- the executor leaves the handle, where it comes from one
      cases from? with
      | none =>
        cases he
        exact .of_same rfl rfl
      | some h =>
        cases he
        exact .setHandle (hm h rfl).1 rfl rfl
    · cases he
      exact .of_same rfl rfl
  case setState h st =>
    cases he
    exact .setHandle hm.1 rfl rfl
  case endHandle h =>
    cases he
    cases hex : (w.handles h).executor with
    | none => exact .setHandle hm rfl rfl
    | some e => exact .setHandle hm rfl rfl
  case newHandle e =>
    cases he
    refine ⟨fun h hlt _ => ?_, fun x _ => rfl⟩
    simp [World.setHandle, update_of_ne (Nat.ne_of_lt hlt)]
  case moveHandle h =>
    cases he
    refine ⟨fun h' hlt hne => ?_, fun x _ => rfl⟩
    have hne : h' ≠ h := by
      rintro rfl
      exact hne hm
    simp [World.setHandle, update_of_ne hne, update_of_ne (Nat.ne_of_lt hlt)]
  case crash => cases he
  all_goals
    cases he
    exact .of_same rfl rfl

/-- A handle that is not started any more. -/
theorem held_setHandle {h : HandleId} {t : TransactionHandle} (hI : w.Held) (hw : w'.handles = update w.handles h t)
    (hn : w'.nextHandle = w.nextHandle) (ht : t.state ≠ .kStarted) : w'.Held := by
  intro h' hlt hs
  rw [hn] at hlt
  rw [hw] at hs ⊢
  by_cases hh : h' = h
  · subst hh
    rw [update_self] at hs
    exact absurd hs ht
  · rw [update_of_ne hh] at hs ⊢
    exact hI h' hlt hs

/-- **A step that a call may take leaves every started handle its executor**, and starts none again. -/
theorem held_step {o : WorldOp} {a : Answer} {r : o.Reply} (hI : w.Held) (hm : c.rule.allows d o)
    (hc : ∀ h, c.handle = some h → h < w.nextHandle)
    (hb : d.ended = true → ∀ h, c.handle = some h → (w.handles h).state ≠ .kStarted)
    (he : worldStep i o a w = some (r, w')) :
    w'.Held ∧ Lives w w' ∧
      ((c.rule.after d o r).ended = true → ∀ h, c.handle = some h → (w'.handles h).state ≠ .kStarted) := by
  have hbeside := beside_step he
  have hsame : ∀ {w' : World}, w'.handles = w.handles → w'.nextHandle = w.nextHandle →
      w'.Held ∧ ∀ h, h < w.nextHandle → (w'.handles h).state = .kStarted → (w.handles h).state = .kStarted := by
    intro w' hh hn
    refine ⟨fun h hlt hs => ?_, fun h _ hs => by rwa [hh] at hs⟩
    rw [hh] at hs ⊢
    exact hI h (hn ▸ hlt) hs
  -- a step that writes one handle keeps the rest, and the one it writes is not left started
  have hset : ∀ {w' : World} {h : HandleId} {t : TransactionHandle}, w'.handles = update w.handles h t →
      w'.nextHandle = w.nextHandle → t.state ≠ .kStarted →
      w'.Held ∧ ∀ h, h < w.nextHandle → (w'.handles h).state = .kStarted → (w.handles h).state = .kStarted := by
    intro w' h t hw hn ht
    refine ⟨held_setHandle hI hw hn ht, fun h' _ hs => ?_⟩
    rw [hw] at hs
    by_cases hh : h' = h
    · subst hh
      rw [update_self] at hs
      exact absurd hs ht
    · rwa [update_of_ne hh] at hs
  have hall : w'.Held ∧ ∀ h, h < w.nextHandle → (w'.handles h).state = .kStarted → (w.handles h).state = .kStarted := by
    cases o
    case setState h st =>
      cases he
      exact hset rfl rfl hm.2
    case pushBack p k e from? =>
      simp only [worldStep] at he
      split at he
      swap
      · cases he
      split at he
      · cases from? with
        | none =>
          cases he
          exact hsame rfl rfl
        | some h =>
          -- the executor leaves the handle, whose transaction has ended
          cases he
          exact hset rfl rfl (hb (hm h rfl).2 h (hm h rfl).1)
      · cases he
        exact hsame rfl rfl
    case newHandle e =>
      cases he
      refine ⟨fun h hlt hs => ?_, fun h hlt hs => ?_⟩
      · by_cases hh : h = w.nextHandle
        · subst hh
          simp [World.setHandle]
        · have hlt : h < w.nextHandle + 1 := hlt
          have hlt : h < w.nextHandle := by omega
          simp only [World.setHandle, update_of_ne hh] at hs ⊢
          exact hI h hlt hs
      · simpa [World.setHandle, update_of_ne (Nat.ne_of_lt hlt)] using hs
    case moveHandle h =>
      cases he
      -- the new handle takes over what the old one held, which is left with nothing
      have hown := hc h hm
      refine ⟨fun h' hlt hs => ?_, fun h' hlt hs => ?_⟩
      · by_cases hh : h' = h
        · subst hh
          simp [World.setHandle] at hs
        by_cases hn : h' = w.nextHandle
        · subst hn
          simp only [World.setHandle, update_of_ne hh, update_self] at hs ⊢
          exact hI h hown hs
        · have hlt : h' < w.nextHandle + 1 := hlt
          have hlt : h' < w.nextHandle := by omega
          simp only [World.setHandle, update_of_ne hh, update_of_ne hn] at hs ⊢
          exact hI h' hlt hs
      · by_cases hh : h' = h
        · subst hh
          simp [World.setHandle] at hs
        · simpa [World.setHandle, update_of_ne hh, update_of_ne (Nat.ne_of_lt hlt)] using hs
    case endHandle h =>
      cases he
      cases hex : (w.handles h).executor with
      | none => exact hset rfl rfl (by simp)
      | some e => exact hset rfl rfl (by simp)
    case client e o =>
      simp only [worldStep, Option.map_eq_some_iff] at he
      obtain ⟨y, -, heq⟩ := he
      cases heq
      exact hsame rfl rfl
    case checkTimeout x =>
      simp only [worldStep] at he
      split at he <;> cases he <;> exact hsame rfl rfl
    case addTask =>
      simp only [worldStep] at he
      split at he
      · cases he
        exact hsame rfl rfl
      · cases he
    case poolsGetOrInsert key pool =>
      simp only [worldStep] at he
      split at he <;> cases he <;> exact hsame rfl rfl
    case popBack p k =>
      simp only [worldStep] at he
      split at he <;> cases he <;> exact hsame rfl rfl
    case crash => cases he
    all_goals
      cases he
      exact hsame rfl rfl
  refine ⟨hall.1, ⟨hbeside.nextHandle, hall.2, hbeside.executor⟩, fun hd h hh => ?_⟩
  -- a handle that was ended before stays so
  have hkept : d.ended = true → (w'.handles h).state ≠ .kStarted := fun hd hs => hb hd h hh (hall.2 h (hc h hh) hs)
  -- only SetState could start the handle again, and the rule lets it end one only
  cases o with
  | setState h' st =>
    obtain rfl : h = h' := Option.some.inj (hh.symm.trans hm.1)
    cases he
    simpa [World.setHandle] using hm.2
  | _ => exact hkept hd

/-! ## Runs -/

/-- Calls are made on handles that there are; nothing else is asked, so several calls may work on one handle. -/
def Existing : Guard World WorldOp Answer Call Result WorldOp.Reply where
  start cf c := ∀ h, c.handle = some h → h < cf.world.nextHandle
  act _ _ _ _ _ := True

/-- Started handles have their executors, calls work on handles that there are, and a call that has ended its
transaction finds its handle ended. -/
structure Orderly (w : World) (vs : ℕ → Option (Call × Doing)) : Prop where
  held : w.Held
  exist : ∀ i c d, vs i = some (c, d) → ∀ h, c.handle = some h → h < w.nextHandle
  ended : ∀ i c d, vs i = some (c, d) → d.ended = true → ∀ h, c.handle = some h → (w.handles h).state ≠ .kStarted

theorem orderly_start {vs : ℕ → Option (Call × Doing)} {n : ℕ} (hI : Orderly w vs)
    (hc : ∀ h, c.handle = some h → h < w.nextHandle) : Orderly w (update vs n (some (c, {}))) := by
  refine ⟨hI.held, fun i c' d' hv => ?_, fun i c' d' hv hd => ?_⟩
  · rcases of_update hv with ⟨-, heq⟩ | ⟨-, hv⟩
    · cases heq
      exact hc
    · exact hI.exist i c' d' hv
  · rcases of_update hv with ⟨-, heq⟩ | ⟨-, hv⟩
    · cases heq
      cases hd
    · exact hI.ended i c' d' hv hd

theorem orderly_step {vs : ℕ → Option (Call × Doing)} {o : WorldOp} {a : Answer} {r : o.Reply} (hI : Orderly w vs)
    (hv : vs i = some (c, d)) (hm : c.rule.allows d o) (he : worldStep i o a w = some (r, w')) :
    Orderly w' (update vs i (some (c, c.rule.after d o r))) ∧ Lives w w' := by
  obtain ⟨hheld, hlives, hended⟩ := held_step hI.held hm (hI.exist i c d hv) (hI.ended i c d hv) he
  refine ⟨⟨hheld, fun j c' d' hv' h hh => ?_, fun j c' d' hv' hd h hh => ?_⟩, hlives⟩
  · refine Nat.lt_of_lt_of_le ?_ hlives.nextHandle
    rcases of_update hv' with ⟨-, heq⟩ | ⟨-, hv'⟩
    · cases heq
      exact hI.exist i c d hv h hh
    · exact hI.exist j c' d' hv' h hh
  · rcases of_update hv' with ⟨-, heq⟩ | ⟨-, hv'⟩
    · cases heq
      exact hended hd h hh
    · exact fun hs => hI.ended j c' d' hv' hd h hh (hlives.state h (hI.exist j c' d' hv' h hh) hs)

theorem orderly_reach {w₀ : World} (h₀ : w₀.Held) (hr : proxySystem.Reach Existing w₀ cf) :
    ∃ vs, Orderly cf.world vs ∧ ∀ i c p, cf.frames[i]? = some ⟨c, p⟩ → ∃ d, vs i = some (c, d) ∧ KeepsTo c d p := by
  have hinit : Orderly w₀ fun _ => none := ⟨h₀, fun i c d hv => (by cases hv), fun i c d hv => (by cases hv)⟩
  obtain ⟨vs, hI, -, hin⟩ := hr.obeys Call.obeys hinit (fun _ hg hI _ => orderly_start hI hg)
    fun _ _ hI hv hallows he => by
      have he : worldExec _ _ _ _ = some (_, _) := he
      unfold worldExec at he
      split at he
      · cases he
      · exact (orderly_step hI hv hallows he).1
  exact ⟨vs, hI, hin⟩

/-- One step of a run, with what it leaves of the handles and the contexts. -/
theorem reach_act {w₀ : World} {a : Answer} (h₀ : w₀.Held) (hr : proxySystem.Reach Existing w₀ cf)
    (hs : proxySystem.step cf (.act i a) = some cf') :
    Lives cf.world cf'.world ∧ ∃ c p, cf.frames[i]? = some ⟨c, p⟩ ∧ Touches c cf.world cf'.world := by
  obtain ⟨vs, hI, hin⟩ := orderly_reach h₀ hr
  obtain ⟨c, o, k, r, w', hf, he, rfl⟩ := System.step_act hs
  obtain ⟨d, hv, hallows, -⟩ := hin i c _ hf
  have he : worldExec i o a cf.world = some (r, w') := he
  unfold worldExec at he
  split at he
  · cases he
  · exact ⟨(orderly_step hI hv hallows he).2, c, _, hf, touches_step hallows he⟩

/-- **A handle lives once.** In every interleaving, also of calls on one handle, a started handle has its executor; and
from any state on no handle is started again, and none gets another executor. -/
theorem handles_live {w₀ : World} (h₀ : w₀.Held) (hr : proxySystem.Reach Existing w₀ cf) : cf.world.Held ∧
    ∀ ls cf', proxySystem.Legal Existing cf ls → proxySystem.steps cf ls = some cf' → Lives cf.world cf'.world := by
  obtain ⟨vs, hI, -⟩ := orderly_reach h₀ hr
  refine ⟨hI.held, fun ls => ?_⟩
  clear hI
  induction ls generalizing cf with
  | nil =>
    intro cf' _ hs
    simp only [System.steps, Option.some.injEq] at hs
    subst hs
    exact .refl _
  | cons l ls ih =>
    intro cf' hg hs
    simp only [System.steps, Option.bind_eq_some_iff] at hs
    obtain ⟨cf₁, h₁, h₂⟩ := hs
    have hrest := ih (hr.step l hg.1 h₁) cf' (hg.2 cf₁ h₁) h₂
    cases l with
    | start c =>
      cases h₁
      exact hrest
    | act i a => exact (reach_act h₀ hr h₁).1.trans hrest

theorem existing_act {a : Answer} (hs : proxySystem.step cf (.act i a) = some cf') :
    Existing.Allows cf (.act i a) := by
  obtain ⟨c, o, k, r, w', hf, -, -⟩ := System.step_act hs
  simp only [Guard.Allows, hf]
  trivial

/-- A query and the `Commit` of one handle at the same time. -/
theorem handles_live_race : ∃ cf cf', proxySystem.Reach Existing newProxy cf ∧
    proxySystem.steps cf (.start (.queryTx 1 0 { mode := .onlyExec } (ascii "delete from t") []) ::
      .start (.finish 2 0 false) :: (inTurn 1 2 19 ++ List.replicate 9 (.act 2 {}))) = some cf' ∧
    (cf.world.handles 0).state = .kStarted ∧ (cf'.world.handles 0).state = .kCommitted ∧
    cf.world.Held ∧ Lives cf.world cf'.world := by
  have h₁ : proxySystem.Reach Existing newProxy _ := System.Reach.init.call_get (c := .begin 0) (List.replicate 60 {})
    (fun h hc => (by cases hc)) Prog.along_true (by decide +kernel)
  obtain ⟨hheld, hlives⟩ := handles_live (fun h hlt => absurd hlt (Nat.not_lt_zero h)) h₁
  refine ⟨_, (proxySystem.steps _ _).get (by decide +kernel), h₁, (Option.some_get _).symm, by decide +kernel,
    by decide +kernel, hheld, hlives _ _ ?_ (Option.some_get _).symm⟩
  refine ⟨fun h hc => ?_, fun cf₁ h₂ => ⟨fun h hc => ?_, fun cf₂ h₃ => ?_⟩⟩
  · cases hc
    decide +kernel
  · cases h₂
    cases hc
    decide +kernel
  cases h₂
  cases h₃
  refine System.legal_of_steps (fun l hl cf cf' hs => ?_) (Option.some_get (by decide +kernel)).symm
  rcases List.mem_append.1 hl with hl | hl
  · rcases inTurn_acts hl with rfl | rfl
    · exact existing_act hs
    · exact existing_act hs
  · rw [List.eq_of_mem_replicate hl] at hs ⊢
    exact existing_act hs

/-- **Calls keep apart.** A handle that no call makes a step on stays as it is, and so does the context of no call that
makes a step. -/
theorem calls_apart {w₀ : World} (h₀ : w₀.Held) : ∀ (ls : List (Label Answer Call)) {cf cf' : ProxyConfig},
    proxySystem.Reach Existing w₀ cf → proxySystem.Legal Existing cf ls → proxySystem.steps cf ls = some cf' →
    (∀ h, h < cf.world.nextHandle →
      (∀ i a, .act i a ∈ ls → ∀ c p, cf'.frames[i]? = some ⟨c, p⟩ → c.handle ≠ some h) →
      cf'.world.handles h = cf.world.handles h) ∧
    ∀ x, (∀ i a, .act i a ∈ ls → ∀ c p, cf'.frames[i]? = some ⟨c, p⟩ → c.ctx ≠ some x) →
      cf'.world.ctxs x = cf.world.ctxs x := by
  intro ls
  induction ls with
  | nil =>
    intro cf cf' _ _ hs
    simp only [System.steps, Option.some.injEq] at hs
    subst hs
    exact ⟨fun _ _ _ => rfl, fun _ _ => rfl⟩
  | cons l ls ih =>
    intro cf cf' hr hg hs
    simp only [System.steps, Option.bind_eq_some_iff] at hs
    obtain ⟨cf₁, h₁, h₂⟩ := hs
    obtain ⟨hhandles, hctxs⟩ := ih (hr.step l hg.1 h₁) (hg.2 cf₁ h₁) h₂
    cases l with
    | start c =>
      cases h₁
      exact ⟨fun h hlt hno => hhandles h hlt fun i a hm => hno i a (List.mem_cons_of_mem _ hm),
        fun x hno => hctxs x fun i a hm => hno i a (List.mem_cons_of_mem _ hm)⟩
    | act i a =>
      obtain ⟨hlives, c, p, hf, htouches⟩ := reach_act h₀ hr h₁
      -- the call that made the step is still there at the end
      obtain ⟨p', hf'⟩ := System.calls_stay (.act i a :: ls) (by rw [System.steps, h₁]; exact h₂) hf
      refine ⟨fun h hlt hno => ?_, fun x hno => ?_⟩
      · rw [hhandles h (Nat.lt_of_lt_of_le hlt hlives.nextHandle) fun j a' hm => hno j a' (List.mem_cons_of_mem _ hm)]
        exact htouches.handles h hlt (hno i a List.mem_cons_self c p' hf')
      · rw [hctxs x fun j a' hm => hno j a' (List.mem_cons_of_mem _ hm)]
        exact htouches.ctxs x (hno i a List.mem_cons_self c p' hf')

/-- A call that starts and goes on by itself. -/
theorem existing_legal {n : ℕ} (hc : ∀ h, c.handle = some h → h < cf.world.nextHandle)
    (hs : proxySystem.steps cf (.start c :: List.replicate n (.act i {})) = some cf') :
    proxySystem.Legal Existing cf (.start c :: List.replicate n (.act i {})) := by
  refine ⟨hc, fun cf₁ h₁ => ?_⟩
  cases h₁
  refine System.legal_of_steps (fun l hl cf cf' hs => ?_) hs
  obtain rfl := List.eq_of_mem_replicate hl
  exact existing_act hs

/-- A plain query with a context of its own, while a transaction is open. -/
theorem calls_apart_query : ∃ cf cf', proxySystem.Reach Existing newProxy cf ∧
    proxySystem.steps cf (.start (.query 1 { mode := .onlyExec } (ascii "delete from t") []) ::
      List.replicate 20 (.act 1 {})) =
      some cf' ∧
    cf'.world.handles 0 = cf.world.handles 0 ∧ cf'.world.ctxs 0 = cf.world.ctxs 0 := by
  have hquery : ∀ {cf cf' : ProxyConfig}, proxySystem.Reach Existing newProxy cf → 0 < cf.world.nextHandle →
      cf.frames.length = 1 → proxySystem.steps cf
        (.start (.query 1 { mode := .onlyExec } (ascii "delete from t") []) :: List.replicate 20 (.act 1 {})) = some cf' →
      cf'.world.handles 0 = cf.world.handles 0 ∧ cf'.world.ctxs 0 = cf.world.ctxs 0 := by
    intro cf cf' hr hlt hlen hs
    obtain ⟨p', hf'⟩ := call_stays hs
    rw [hlen] at hf'
    -- only the query makes steps
    have hown : ∀ (i : ℕ) (a : Answer),
        .act i a ∈ Label.start (Call.query 1 { mode := .onlyExec } (ascii "delete from t") []) ::
          List.replicate 20 (.act 1 {}) →
        ∀ c p, cf'.frames[i]? = some ⟨c, p⟩ → c = .query 1 { mode := .onlyExec } (ascii "delete from t") [] := by
      intro i a hm c p hf
      rcases List.mem_cons.1 hm with hm | hm
      · cases hm
      · cases List.eq_of_mem_replicate hm
        cases hf'.symm.trans hf
        rfl
    have hlegal := existing_legal (fun h hc => (by cases hc)) hs
    obtain ⟨hhandles, hctxs⟩ := calls_apart (fun h hlt => absurd hlt (Nat.not_lt_zero h)) _ hr hlegal hs
    refine ⟨hhandles 0 hlt fun i a hm c p hf => ?_, hctxs 0 fun i a hm c p hf => ?_⟩
    · rw [hown i a hm c p hf]
      simp [Call.handle]
    · rw [hown i a hm c p hf]
      simp [Call.ctx]
  have h₁ : proxySystem.Reach Existing newProxy _ := System.Reach.init.call_get (c := .begin 0) (List.replicate 60 {})
    (fun h hc => (by cases hc)) Prog.along_true (by decide +kernel)
  refine ⟨_, (proxySystem.steps _ _).get (by decide +kernel), h₁, (Option.some_get _).symm, ?_⟩
  exact hquery h₁ (by decide +kernel) rfl (Option.some_get _).symm

end TrpcMysql
