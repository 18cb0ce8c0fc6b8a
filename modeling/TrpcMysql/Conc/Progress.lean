import TrpcMysql.Conc.Interleave

/-!
# Progress

An operation that the handler refuses stops its call for good. `Outline.Sturdy` says of a program that whatever is
refused has a reason (`Ends`), by what a proof outline knows where the operation stands; it follows the program's
structure (`sturdy_bind`).

`Sound.stuck`: when every call is sturdy from its start, a call that cannot go on has a reason, in every state reached.
-/

namespace Conc

open Function

variable {W Op A C R : Type} {Resp : Op → Type}

namespace Outline

/-- From view `v`, where the invariant holds and `J` besides, an operation of `p` in call `c` is refused only as `Ends`
says, and `Q` holds when `p` stops. -/
def Sturdy (S : System W Op A C R Resp) (O : Outline W Op A C R Resp) (J : W → Prop) (Ends : C → W → Op → A → Prop)
    {α : Type} (i : ℕ) (c : C) : O.V → Prog Op Resp α → (O.V → α → Prop) → Prop
  | v, .ret x, Q => Q v x
  | v, .act o k, Q => ∀ w vs a, O.Inv w vs → vs i = v → J w → (S.exec i o a w = none → Ends c w o a) ∧
      ∀ r w', S.exec i o a w = some (r, w') → Sturdy S O J Ends i c (O.next i v o r w') (k r) Q

variable {S : System W Op A C R Resp} {g : Guard W Op A C R Resp} {O : Outline W Op A C R Resp} {J : W → Prop}
  {Ends : C → W → Op → A → Prop} {i : ℕ} {c : C} {α β : Type}

theorem sturdy_bind {p : Prog Op Resp α} {f : α → Prog Op Resp β} {R : O.V → α → Prop} {Q : O.V → β → Prop}
    (hf : ∀ v x, R v x → Sturdy S O J Ends i c v (f x) Q) :
    ∀ {v}, Sturdy S O J Ends i c v p R → Sturdy S O J Ends i c v (p >>= f) Q := by
  induction p with
  | ret x => exact fun h => hf _ x h
  | act o k ih =>
    intro v h w vs a hI hv hJ
    obtain ⟨hends, hrest⟩ := h w vs a hI hv hJ
    exact ⟨hends, fun r w' he => ih r (hrest r w' he)⟩

namespace Sound

variable {w₀ : W} (h : O.Sound S g w₀)
include h

/-- A call that is safe to its end is a good frame, with its view until it stops. -/
theorem settle_view {w : W} {vs : ℕ → O.V} {p : Prog Op Resp R} (hI : O.Inv w vs) (hf : O.Fits c (vs i))
    (hh : O.Holds (vs i) p) (hs : O.Safe S g i c (vs i) p (O.Post i c)) :
    ∃ v, O.Inv w (update vs i v) ∧ O.FrameOK S g w i v (some ⟨c, p⟩) ∧ (p.done = false → v = vs i) := by
  cases p with
  | ret r =>
    obtain ⟨hI', hd⟩ := h.finish hI hs
    exact ⟨O.rest, hI', ⟨rfl, hd⟩, fun hp => (by cases hp)⟩
  | act o k => exact ⟨vs i, by rwa [update_eq_self], ⟨hf, hh, hs⟩, fun _ => rfl⟩

/-- A call that starts has its first view, and the others keep theirs. -/
theorem good_start_view {cf : Config W Op C R Resp} {vs : ℕ → O.V} (hG : O.Good S g cf vs) (hg : g.start cf c) :
    ∃ vs', O.Good S g ⟨cf.world, cf.frames ++ [⟨c, S.prog c⟩]⟩ vs' ∧ (∀ j, j ≠ cf.frames.length → vs' j = vs j) ∧
      ((S.prog c).done = false → vs' cf.frames.length = O.begin cf.frames.length c cf.world) := by
  have hrest : vs cf.frames.length = O.rest := by
    have hframe := hG.2.2 cf.frames.length
    rwa [List.getElem?_eq_none (Nat.le_refl _)] at hframe
  obtain ⟨hI, hsafe⟩ := h.start hG.1 hg hrest (hG.2.1 _ (Nat.le_refl _)) fun j hj => running hG hj
  obtain ⟨v, hI', hframe, hview⟩ := h.settle_view (i := cf.frames.length) (c := c) (p := S.prog c) hI
    (by rw [update_self]; exact h.fits _ c _) (by rw [update_self]; exact h.holds hg) (by rw [update_self]; exact hsafe)
  rw [update_idem] at hI'
  rw [update_self] at hview
  refine ⟨update vs cf.frames.length v, ⟨hI', fun j hj => hG.2.1 j ?_, fun j => ?_⟩,
    fun j hj => update_of_ne hj _ _, fun hp => by rw [update_self]; exact hview hp⟩
  · have hj : cf.frames.length + 1 ≤ j := by simpa using hj
    omega
  · rcases Nat.lt_trichotomy j cf.frames.length with hlt | rfl | hgt
    · rw [update_of_ne (by omega), List.getElem?_append_left hlt]
      exact hG.2.2 j
    · rwa [update_self, List.getElem?_concat_length]
    · have hnone := hG.2.2 j
      rw [List.getElem?_eq_none (by omega)] at hnone
      rwa [update_of_ne (by omega), List.getElem?_eq_none (by simp; omega)]

/-- A call that makes a step has the next view, and the others keep theirs. -/
theorem good_act_view {cf : Config W Op C R Resp} {vs : ℕ → O.V} (hG : O.Good S g cf vs) {o : Op}
    {k : Resp o → Prog Op Resp R} {a : A} {r : Resp o} {w' : W} (hf : cf.frames[i]? = some ⟨c, .act o k⟩)
    (hg : g.act i c cf.world o a) (he : S.exec i o a cf.world = some (r, w')) :
    ∃ vs', O.Good S g ⟨w', cf.frames.set i ⟨c, k r⟩⟩ vs' ∧ (∀ j, j ≠ i → vs' j = vs j) ∧
      ((k r).done = false → vs' i = O.next i (vs i) o r w') := by
  have hi := hG.2.2 i
  rw [hf] at hi
  obtain ⟨hfit, hhold, hs⟩ := hi
  obtain ⟨hI, hstep, hsafe⟩ := hs cf.world vs a r w' hG.1 rfl hg he
  obtain ⟨v, hI', hframe, hview⟩ := h.settle_view (i := i) (c := c) (p := k r) hI
    (by rw [update_self]; exact h.fits_next i c _ o r w' hfit)
    (by rw [update_self]; exact h.holds_next i _ o k r w' hhold) (by rw [update_self]; exact hsafe)
  rw [update_idem] at hI'
  rw [update_self] at hview
  have hlt : i < cf.frames.length := (List.getElem?_eq_some_iff.1 hf).1
  refine ⟨update vs i v, ⟨hI', fun j hj => ?_, fun j => ?_⟩, fun j hj => update_of_ne hj _ _,
    fun hp => by rw [update_self]; exact hview hp⟩
  · rw [List.length_set] at hj
    exact h.unborn_step (by omega) (hG.2.1 j hj) he
  · by_cases hj : j = i
    · subst hj
      rwa [update_self, List.getElem?_set_self hlt]
    · rw [update_of_ne hj, List.getElem?_set_ne (Ne.symm hj)]
      exact h.frameOK_stable hj he hstep (hG.2.2 j)

/-- What is left of every call in progress is sturdy. -/
theorem sturdy_reach (hJ : ∀ {cf}, S.Reach g w₀ cf → J cf.world)
    (hstart : ∀ {cf : Config W Op C R Resp} {vs c}, O.Good S g cf vs → g.start cf c →
      Sturdy S O J Ends cf.frames.length c (O.begin cf.frames.length c cf.world) (S.prog c) fun _ _ => True)
    {cf : Config W Op C R Resp} (hr : S.Reach g w₀ cf) :
    ∃ vs, O.Good S g cf vs ∧ ∀ i c p, cf.frames[i]? = some ⟨c, p⟩ → p.done = false →
      Sturdy S O J Ends i c (vs i) p fun _ _ => True := by
  induction hr with
  | init => exact ⟨_, ⟨h.init, fun i _ => h.unborn i, fun i => by simp [FrameOK]⟩, fun i c p hf => by simp at hf⟩
  | @step cf cf' l hr hg hs ih =>
    obtain ⟨vs, hG, hsturdy⟩ := ih
    cases l with
    | start c =>
      cases hs
      obtain ⟨vs', hG', hother, hown⟩ := h.good_start_view hG hg
      refine ⟨vs', hG', fun j c' p hf hp => ?_⟩
      rcases Nat.lt_trichotomy j cf.frames.length with hlt | rfl | hgt
      · rw [List.getElem?_append_left hlt] at hf
        rw [hother j (by omega)]
        exact hsturdy j c' p hf hp
      · simp only [List.getElem?_concat_length, Option.some.injEq, Frame.mk.injEq] at hf
        obtain ⟨rfl, rfl⟩ := hf
        rw [hown hp]
        exact hstart hG hg
      · rw [List.getElem?_eq_none (by simp; omega)] at hf
        cases hf
    | act i a =>
      obtain ⟨c, o, k, r, w', hf, he, rfl⟩ := System.step_act hs
      simp only [Guard.Allows, hf] at hg
      obtain ⟨vs', hG', hother, hown⟩ := h.good_act_view hG hf hg he
      have hlt : i < cf.frames.length := (List.getElem?_eq_some_iff.1 hf).1
      refine ⟨vs', hG', fun j c' p hf' hp => ?_⟩
      by_cases hj : j = i
      · subst hj
        rw [List.getElem?_set_self hlt] at hf'
        cases hf'
        rw [hown hp]
        exact (hsturdy j c _ hf rfl cf.world vs a hG.1 rfl (hJ hr)).2 r w' he
      · rw [List.getElem?_set_ne (Ne.symm hj)] at hf'
        rw [hother j hj]
        exact hsturdy j c' p hf' hp

/-- **A call that cannot go on has a reason, in every state reached.** -/
theorem stuck (hJ : ∀ {cf}, S.Reach g w₀ cf → J cf.world)
    (hstart : ∀ {cf : Config W Op C R Resp} {vs c}, O.Good S g cf vs → g.start cf c →
      Sturdy S O J Ends cf.frames.length c (O.begin cf.frames.length c cf.world) (S.prog c) fun _ _ => True)
    {cf : Config W Op C R Resp} (hr : S.Reach g w₀ cf) {o : Op} {k : Resp o → Prog Op Resp R} {a : A}
    (hf : cf.frames[i]? = some ⟨c, .act o k⟩) (hn : S.exec i o a cf.world = none) : Ends c cf.world o a := by
  obtain ⟨vs, hG, hsturdy⟩ := h.sturdy_reach hJ hstart hr
  exact (hsturdy i c _ hf rfl cf.world vs a hG.1 rfl (hJ hr)).1 hn

end Sound

end Outline

end Conc
