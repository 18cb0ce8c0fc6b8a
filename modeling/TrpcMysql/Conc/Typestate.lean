import TrpcMysql.Conc.Interleave

/-!
# Typestates

A `Typestate` says which operations a program may perform, by what it has done so far and what it was told. A
program obeys it when on every path each operation is allowed where it stands (`Prog.Obeys`). Most operations are
idle: they are allowed, and change nothing (`Typestate.Idle`), so a proof about a program passes over them
(`Prog.Uses.idle_bind`) and looks at the others only.

`System.Reach.obeys`: what every allowed operation keeps, of the shared state and of what all calls have done so far,
holds in every interleaving.
-/

namespace Conc

open Function

/-- What a program may do next, by what it has done so far. -/
structure Typestate (Op : Type) (Resp : Op → Type) (σ : Type) where
  allows : σ → Op → Prop
  after : σ → (o : Op) → Resp o → σ

variable {Op σ α β : Type} {Resp : Op → Type} {T : Typestate Op Resp σ}

/-- The operation is allowed, and changes nothing. -/
def Typestate.Idle (T : Typestate Op Resp σ) (s : σ) (o : Op) : Prop := T.allows s o ∧ ∀ r, T.after s o r = s

namespace Prog

/-- On every path each operation is allowed where it stands, and `Q` holds of the state and the result at the end. -/
def Obeys (T : Typestate Op Resp σ) : σ → Prog Op Resp α → (σ → α → Prop) → Prop
  | s, ret x, Q => Q s x
  | s, act o k, Q => T.allows s o ∧ ∀ r, Obeys T (T.after s o r) (k r) Q

variable {s : σ} {p : Prog Op Resp α} {f : α → Prog Op Resp β} {Q : σ → β → Prop}

theorem Obeys.mono {R R' : σ → α → Prop} (hR : ∀ s x, R s x → R' s x) : ∀ {s}, p.Obeys T s R → p.Obeys T s R' := by
  induction p with
  | ret x => exact fun h => hR _ x h
  | act o k ih => exact fun h => ⟨h.1, fun r => ih r (h.2 r)⟩

theorem Obeys.bind {R : σ → α → Prop} (hf : ∀ s x, R s x → (f x).Obeys T s Q) :
    ∀ {s}, p.Obeys T s R → (p >>= f).Obeys T s Q := by
  induction p with
  | ret x => exact fun h => hf _ x h
  | act o k ih => exact fun h => ⟨h.1, fun r => ih r (h.2 r)⟩

/-- Idle operations leave the state as it is. -/
theorem Uses.idle (hp : p.Uses (T.Idle s)) : p.Obeys T s fun s' _ => s' = s := by
  induction p with
  | ret x => rfl
  | act o k ih =>
    refine ⟨hp.1.1, fun r => ?_⟩
    rw [hp.1.2 r]
    exact ih r (hp.2 r)

theorem Uses.idle_bind (hp : p.Uses (T.Idle s)) (hf : ∀ x, (f x).Obeys T s Q) : (p >>= f).Obeys T s Q :=
  Obeys.bind (fun _ x hs => by rw [hs]; exact hf x) hp.idle

/-- A program over a part of the operations, read in all of them. -/
theorem Obeys.lift {Op' σ' : Type} {Resp' : Op' → Type} {T' : Typestate Op' Resp' σ'} {g : Op' → Op}
    {h : ∀ o, Resp (g o) → Resp' o} {p : Prog Op' Resp' α} {R : σ' → α → Prop} {u : σ' → σ}
    (hallows : ∀ s o, T'.allows s o → T.allows (u s) (g o))
    (hafter : ∀ s o r, T.after (u s) (g o) r = u (T'.after s o (h o r))) :
    ∀ {s}, p.Obeys T' s R → (p.lift g h : Prog Op Resp α).Obeys T (u s) fun s x => ∃ s', s = u s' ∧ R s' x := by
  induction p with
  | ret x => exact fun hx => ⟨_, rfl, hx⟩
  | act o k ih =>
    intro s hx
    refine ⟨hallows s o hx.1, fun r => ?_⟩
    rw [hafter]
    exact ih (h o r) (hx.2 (h o r))

end Prog

/-- What is recorded of a call after an update. -/
theorem of_update {vs : ℕ → Option β} {x y : β} {i j : ℕ} (h : update vs i (some x) j = some y) :
    (j = i ∧ y = x) ∨ (j ≠ i ∧ vs j = some y) := by
  by_cases hj : j = i
  · subst hj
    rw [update_self] at h
    exact .inl ⟨rfl, (Option.some.inj h).symm⟩
  · rw [update_of_ne hj] at h
    exact .inr ⟨hj, h⟩

variable {W A C R : Type} {S : System W Op A C R Resp} {g : Guard W Op A C R Resp} {w₀ : W}

/-- **What every allowed operation keeps holds in every state reached.** `vs i` is call `i` with what it has done so
far; it is none until the call starts. -/
theorem System.Reach.obeys {T : C → Typestate Op Resp σ} {s₀ : C → σ} {I : W → (ℕ → Option (C × σ)) → Prop}
    {cf : Config W Op C R Resp} (hprog : ∀ c, (S.prog c).Obeys (T c) (s₀ c) fun _ _ => True)
    (hinit : I w₀ fun _ => none)
    (hstart : ∀ {cf : Config W Op C R Resp} {vs c}, S.Reach g w₀ cf → g.start cf c → I cf.world vs →
      vs cf.frames.length = none → I cf.world (update vs cf.frames.length (some (c, s₀ c))))
    (hstep : ∀ {cf : Config W Op C R Resp} {vs i c s o k a r w'}, S.Reach g w₀ cf → cf.frames[i]? = some ⟨c, .act o k⟩ →
      I cf.world vs → vs i = some (c, s) → (T c).allows s o → S.exec i o a cf.world = some (r, w') →
      I w' (update vs i (some (c, (T c).after s o r))))
    (h : S.Reach g w₀ cf) :
    ∃ vs, I cf.world vs ∧ (∀ i, cf.frames.length ≤ i → vs i = none) ∧
      ∀ i c p, cf.frames[i]? = some ⟨c, p⟩ → ∃ s, vs i = some (c, s) ∧ p.Obeys (T c) s fun _ _ => True := by
  induction h with
  | init => exact ⟨_, hinit, fun _ _ => rfl, fun i c p hf => by simp at hf⟩
  | @step cf cf' l hr hg hs ih =>
    obtain ⟨vs, hI, hout, hin⟩ := ih
    cases l with
    | start c =>
      simp only [System.step, Option.some.injEq] at hs
      subst hs
      have hI' := hstart hr hg hI (hout _ (Nat.le_refl _))
      refine ⟨_, hI', fun i hi => ?_, fun i c' p hf => ?_⟩
      · simp only [List.length_append, List.length_singleton] at hi
        rw [update_of_ne (by omega)]
        exact hout i (by omega)
      · rcases Nat.lt_trichotomy i cf.frames.length with hlt | rfl | hgt
        · rw [List.getElem?_append_left hlt] at hf
          rw [update_of_ne (by omega)]
          exact hin i c' p hf
        · simp only [List.getElem?_concat_length, Option.some.injEq, Frame.mk.injEq] at hf
          obtain ⟨rfl, rfl⟩ := hf
          exact ⟨s₀ c, update_self .., hprog c⟩
        · rw [List.getElem?_eq_none (by simp; omega)] at hf
          cases hf
    | act i a =>
      obtain ⟨c, o, k, r, w', hf, he, rfl⟩ := System.step_act hs
      have hlt : i < cf.frames.length := (List.getElem?_eq_some_iff.1 hf).1
      obtain ⟨s, hv, hallows, hrest⟩ := hin i c _ hf
      refine ⟨_, hstep hr hf hI hv hallows he, fun j hj => ?_, fun j c' p hf' => ?_⟩
      · rw [List.length_set] at hj
        rw [update_of_ne (by omega)]
        exact hout j hj
      · by_cases hji : j = i
        · subst hji
          rw [List.getElem?_set_self hlt] at hf'
          cases hf'
          exact ⟨_, update_self .., hrest r⟩
        · rw [List.getElem?_set_ne (Ne.symm hji)] at hf'
          rw [update_of_ne hji]
          exact hin j c' p hf'

end Conc
