import TrpcMysql.Conc.Interleave

/-!
# Rely and guarantee

Calls that run at the same time are proved one by one when no call undoes what another one knows. A `Contract`
names what always holds (`Inv`), what the steps of the others leave for call `i` (`Rely i`), and what an
operation of call `i` needs (`Meets i`). `Sure` says of a program that each of its operations finds what it
needs, however the others move in between; it follows the program's structure (`sure_bind`).

When every operation that finds what it needs keeps the invariant and what the other calls rely on, and every
call is sure from its start (`Sound`), then every state reached has the invariant, and every call's next
operation finds what it needs (`Sound.meets`).
-/

namespace Conc

/-- What always holds, what the steps of the others leave for a call, and what an operation of a call needs. -/
structure Contract (W Op : Type) where
  Inv : W → Prop
  Rely : ℕ → W → W → Prop
  Meets : ℕ → W → Op → Prop

namespace Contract

variable {W Op A C R α β : Type} {Resp : Op → Type} (S : System W Op A C R Resp) (g : Guard W Op A C R Resp)
  (K : Contract W Op)

/-- From `w`, every operation of `p` performed by call `i` finds what it needs, and `Q` holds when `p` stops. -/
def Sure (i : ℕ) (c : C) : Prog Op Resp α → W → (α → W → Prop) → Prop
  | .ret x, w, Q => Q x w
  | .act o k, w, Q => ∀ w₁, K.Rely i w w₁ → K.Inv w₁ → K.Meets i w₁ o ∧
      ∀ a r w₂, g.act i c w₁ o a → S.exec i o a w₁ = some (r, w₂) → K.Inv w₂ → Sure i c (k r) w₂ Q

/-- The operations keep the contract, and every call is sure from its start. -/
structure Sound (w₀ : W) : Prop where
  init : K.Inv w₀
  refl : ∀ i w, K.Rely i w w
  trans : ∀ {i w w' w''}, K.Rely i w w' → K.Rely i w' w'' → K.Rely i w w''
  step : ∀ {i o a w r w'}, K.Inv w → K.Meets i w o → S.exec i o a w = some (r, w') →
    K.Inv w' ∧ ∀ j, j ≠ i → K.Rely j w w'
  start : ∀ {cf : Config W Op C R Resp} {c}, g.start cf c → K.Inv cf.world →
    K.Sure S g cf.frames.length c (S.prog c) cf.world fun _ _ => True

variable {S g K} {i : ℕ} {c : C} {w w' : W} {Q : β → W → Prop}

/-! ## The rules -/

theorem sure_mono {p : Prog Op Resp α} {Q Q' : α → W → Prop} (hQ : ∀ x w, Q x w → Q' x w) :
    ∀ {w}, K.Sure S g i c p w Q → K.Sure S g i c p w Q' := by
  induction p with
  | ret x =>
    intro w h
    exact hQ x w h
  | act o k ih =>
    intro w h w₁ hrely hinv
    obtain ⟨hm, hk⟩ := h w₁ hrely hinv
    exact ⟨hm, fun a r w₂ hg he hinv₂ => ih r (hk a r w₂ hg he hinv₂)⟩

theorem sure_bind {p : Prog Op Resp α} {f : α → Prog Op Resp β} :
    ∀ {w}, K.Sure S g i c p w (fun x w' => K.Sure S g i c (f x) w' Q) → K.Sure S g i c (p >>= f) w Q := by
  induction p with
  | ret x =>
    intro w h
    exact h
  | act o k ih =>
    intro w h w₁ hrely hinv
    obtain ⟨hm, hk⟩ := h w₁ hrely hinv
    exact ⟨hm, fun a r w₂ hg he hinv₂ => ih r (hk a r w₂ hg he hinv₂)⟩

/-- What the others leave of a state is as good as the state, for a result that they do not undo. -/
theorem Sure.rely {p : Prog Op Resp α} {Q : α → W → Prop}
    (htrans : ∀ {w w' w''}, K.Rely i w w' → K.Rely i w' w'' → K.Rely i w w'')
    (hQ : ∀ x w w', K.Rely i w w' → Q x w → Q x w') (h : K.Sure S g i c p w Q) (hrely : K.Rely i w w') :
    K.Sure S g i c p w' Q := by
  cases p with
  | ret x => exact hQ x w w' hrely h
  | act o k => exact fun w₁ hrely₁ hinv => h w₁ (htrans hrely hrely₁) hinv

/-- A program whose operations need nothing keeps what neither they nor the others undo. -/
theorem sure_uses {P : Op → Prop} {F : W → Prop} {p : Prog Op Resp α} (hp : p.Uses P)
    (hm : ∀ o w, P o → K.Meets i w o) (hF : ∀ w w', K.Rely i w w' → F w → F w')
    (hstep : ∀ o a w r w', P o → K.Inv w → F w → S.exec i o a w = some (r, w') → F w') :
    ∀ {w}, F w → K.Sure S g i c p w fun _ w' => F w' := by
  induction p with
  | ret x =>
    intro w h
    exact h
  | act o k ih =>
    intro w h w₁ hrely hinv
    refine ⟨hm o w₁ hp.1, fun a r w₂ _ he _ => ih r (hp.2 r) ?_⟩
    exact hstep o a w₁ r w₂ hp.1 hinv (hF w w₁ hrely h) he

/-! ## Runs -/

namespace Sound

variable {w₀ : W} (h : K.Sound S g w₀)
include h

/-- In every state reached, the invariant holds and every call is sure of what is left of its program. -/
theorem reach {cf : Config W Op C R Resp} (hr : S.Reach g w₀ cf) :
    K.Inv cf.world ∧ ∀ j c p, cf.frames[j]? = some ⟨c, p⟩ → K.Sure S g j c p cf.world fun _ _ => True := by
  induction hr with
  | init => exact ⟨h.init, fun j c p hf => by simp at hf⟩
  | @step cf cf' l _ hg hs ih =>
    obtain ⟨hinv, hsure⟩ := ih
    cases l with
    | start c =>
      cases hs
      refine ⟨hinv, fun j c' p hf => ?_⟩
      rcases Nat.lt_trichotomy j cf.frames.length with hlt | rfl | hgt
      · rw [List.getElem?_append_left hlt] at hf
        exact hsure j c' p hf
      · simp only [List.getElem?_concat_length, Option.some.injEq, Frame.mk.injEq] at hf
        obtain ⟨rfl, rfl⟩ := hf
        exact h.start hg hinv
      · rw [List.getElem?_eq_none (by simp; omega)] at hf
        cases hf
    | act i a =>
      obtain ⟨c, o, k, r, w', hf, he, rfl⟩ := System.step_act hs
      simp only [Guard.Allows, hf] at hg
      have hlt : i < cf.frames.length := (List.getElem?_eq_some_iff.1 hf).1
      obtain ⟨hm, hk⟩ := hsure i c _ hf cf.world (h.refl i cf.world) hinv
      obtain ⟨hinv', hrely⟩ := h.step hinv hm he
      refine ⟨hinv', fun j c' p hf' => ?_⟩
      by_cases hji : j = i
      · subst hji
        rw [List.getElem?_set_self hlt] at hf'
        cases hf'
        exact hk a r w' hg he hinv'
      · rw [List.getElem?_set_ne (Ne.symm hji)] at hf'
        exact (hsure j c' p hf').rely h.trans (fun _ _ _ _ _ => trivial) (hrely j hji)

/-- **In every state reached, every call's next operation finds what it needs.** -/
theorem meets {cf : Config W Op C R Resp} (hr : S.Reach g w₀ cf) {j : ℕ} {c : C} {o : Op}
    {k : Resp o → Prog Op Resp R} (hf : cf.frames[j]? = some ⟨c, .act o k⟩) : K.Meets j cf.world o := by
  obtain ⟨hinv, hsure⟩ := h.reach hr
  exact (hsure j c _ hf cf.world (h.refl j cf.world) hinv).1

end Sound

end Contract

end Conc
