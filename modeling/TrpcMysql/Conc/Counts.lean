import TrpcMysql.Conc.Typestate

/-!
# How often an operation is performed

`Prog.Performs T n p`: every path of `p` to its end performs exactly `n` operations that satisfy `T`.
`Prog.AtMost T n p`: no path performs more than `n`, whether it comes to the end or not. A typestate gives such a
bound where each allowed operation takes from a budget (`Obeys.atMost`).

In a run of many calls `System.performed` counts the operations of one call. It is bounded by what the program of
the call may do (`System.performed_le`), and it bounds whatever these operations alone let grow
(`System.measure_le`).
-/

namespace Conc

namespace Prog

variable {Op Op' α β : Type} {Resp : Op → Type} {Resp' : Op' → Type} {T : Op → Bool} {n m : ℕ}

/-- On every path to the end there are exactly `n` operations in `T`. -/
def Performs (T : Op → Bool) : ℕ → Prog Op Resp α → Prop
  | n, ret _ => n = 0
  | n, act o k => ∃ m, n = m + (T o).toNat ∧ ∀ r, (k r).Performs T m

theorem performs_pure (a : α) : (pure a : Prog Op Resp α).Performs T 0 := rfl

theorem Performs.bind {p : Prog Op Resp α} {f : α → Prog Op Resp β} (hf : ∀ a, (f a).Performs T m) :
    ∀ {n}, p.Performs T n → (p >>= f).Performs T (n + m) := by
  induction p with
  | ret a =>
    rintro n rfl
    rw [Nat.zero_add]
    exact hf a
  | act o k ih =>
    rintro n ⟨l, rfl, h⟩
    exact ⟨l + m, by omega, fun r => ih r (h r)⟩

/-- Read in a larger set, a program performs none of the new operations. -/
theorem performs_lift {f : Op' → Op} {g : ∀ o, Resp (f o) → Resp' o} (hf : ∀ o, T (f o) = false)
    (p : Prog Op' Resp' α) : (p.lift f g : Prog Op Resp α).Performs T 0 := by
  induction p with
  | ret a => exact rfl
  | act o k ih => exact ⟨0, by simp [hf], fun r => ih (g o r)⟩

/-- On no path are there more than `n` operations in `T`. -/
def AtMost (T : Op → Bool) : ℕ → Prog Op Resp α → Prop
  | _, ret _ => True
  | n, act o k => (T o).toNat ≤ n ∧ ∀ r, (k r).AtMost T (n - (T o).toNat)

theorem AtMost.mono {p : Prog Op Resp α} : ∀ {n m : ℕ}, p.AtMost T n → n ≤ m → p.AtMost T m := by
  induction p with
  | ret a => exact fun _ _ => trivial
  | act o k ih => exact fun h hle => ⟨Nat.le_trans h.1 hle, fun r => ih r (h.2 r) (Nat.sub_le_sub_right hle _)⟩

/-- **A budget.** What is left of it bounds the operations that a program still performs. -/
theorem Obeys.atMost {σ : Type} {U : Typestate Op Resp σ} (left : σ → ℕ) {Q : σ → α → Prop} {p : Prog Op Resp α}
    (hleft : ∀ s o, U.allows s o → (T o).toNat ≤ left s ∧ ∀ r, left (U.after s o r) ≤ left s - (T o).toNat) :
    ∀ {s}, p.Obeys U s Q → p.AtMost T (left s) := by
  induction p with
  | ret a => exact fun _ => trivial
  | act o k ih =>
    intro s h
    obtain ⟨hle, hafter⟩ := hleft s o h.1
    exact ⟨hle, fun r => (ih r (h.2 r)).mono (hafter r)⟩

end Prog

section Runs

variable {W Op A C R : Type} {Resp : Op → Type} {S : System W Op A C R Resp} {T : Op → Bool} {i : ℕ}

/-- With this label call `i` performs an operation in `T`. -/
def Config.performs (cf : Config W Op C R Resp) (T : Op → Bool) (i : ℕ) : Label A C → Bool
  | .start _ => false
  | .act j _ => j = i && (cf.frames[j]?.bind fun f => f.prog.next).any T

theorem Config.performs_act {cf : Config W Op C R Resp} {j : ℕ} {c : C} {o : Op} {k : Resp o → Prog Op Resp R} {a : A}
    (hf : cf.frames[j]? = some ⟨c, .act o k⟩) : cf.performs T i (.act j a) = (decide (j = i) && T o) := by
  simp [performs, hf, Prog.next]

/-- How many operations in `T` call `i` performs along the labels. -/
def System.performed (S : System W Op A C R Resp) (T : Op → Bool) (i : ℕ) :
    Config W Op C R Resp → List (Label A C) → ℕ
  | _, [] => 0
  | cf, l :: ls => (cf.performs T i l).toNat + (S.step cf l).elim 0 fun cf' => S.performed T i cf' ls

namespace System

theorem performed_cons {cf cf₁ : Config W Op C R Resp} {l : Label A C} {ls : List (Label A C)}
    (h : S.step cf l = some cf₁) :
    S.performed T i cf (l :: ls) = (cf.performs T i l).toNat + S.performed T i cf₁ ls := by
  rw [performed, h]
  rfl

/-- A step of another call performs nothing for call `i`, and leaves it where it is. -/
theorem step_other {cf cf' : Config W Op C R Resp} {l : Label A C} (hl : ∀ a, l ≠ .act i a)
    (h : S.step cf l = some cf') (hi : i < cf.frames.length) :
    cf.performs T i l = false ∧ cf'.frames[i]? = cf.frames[i]? := by
  cases l with
  | start c =>
    cases h
    exact ⟨rfl, List.getElem?_append_left hi⟩
  | act j a =>
    obtain ⟨c, o, k, r, w', hf, -, rfl⟩ := step_act h
    have hj : j ≠ i := fun heq => hl a (by rw [heq])
    exact ⟨by simp [Config.performs, hj], List.getElem?_set_ne hj⟩

/-- A call in progress performs no more than what is left of its program may. -/
theorem performed_atMost : ∀ (ls : List (Label A C)) {cf cf' : Config W Op C R Resp} {c : C} {p : Prog Op Resp R}
    {n : ℕ}, S.steps cf ls = some cf' → cf.frames[i]? = some ⟨c, p⟩ → p.AtMost T n → S.performed T i cf ls ≤ n := by
  intro ls
  induction ls with
  | nil => exact fun _ _ _ => Nat.zero_le _
  | cons l ls ih =>
    intro cf cf' c p n hs hf hp
    obtain ⟨cf₁, h₁, h₂⟩ := Option.bind_eq_some_iff.1 hs
    rw [performed_cons h₁]
    have hi : i < cf.frames.length := (List.getElem?_eq_some_iff.1 hf).1
    by_cases hl : ∃ a, l = .act i a
    · obtain ⟨a, rfl⟩ := hl
      obtain ⟨c', o, k, r, w', hf', -, rfl⟩ := step_act h₁
      cases hf.symm.trans hf'
      rw [Config.performs_act hf, decide_eq_true rfl, Bool.true_and, Nat.add_comm]
      exact Nat.add_le_of_le_sub hp.1 (ih h₂ (List.getElem?_set_self hi) (hp.2 r))
    · obtain ⟨hperf, hsame⟩ := step_other (T := T) (fun a heq => hl ⟨a, heq⟩) h₁ hi
      rw [hperf, Bool.toNat_false, Nat.zero_add]
      exact ih h₂ (hsame.trans hf) hp

/-- **A call performs no more than its program may**, in every run, whatever the interleaving. -/
theorem performed_le {N : C → ℕ} (hprog : ∀ c, (S.prog c).AtMost T (N c)) :
    ∀ (ls : List (Label A C)) {cf cf' : Config W Op C R Resp} {c : C} {p : Prog Op Resp R},
      S.steps cf ls = some cf' → cf.frames.length ≤ i → cf'.frames[i]? = some ⟨c, p⟩ → S.performed T i cf ls ≤ N c := by
  intro ls
  induction ls with
  | nil => exact fun _ _ _ => Nat.zero_le _
  | cons l ls ih =>
    intro cf cf' c p hs hi hf
    obtain ⟨cf₁, h₁, h₂⟩ := Option.bind_eq_some_iff.1 hs
    rw [performed_cons h₁]
    cases l with
    | start c₁ =>
      cases h₁
      rw [show cf.performs T i (.start c₁ : Label A C) = false from rfl, Bool.toNat_false, Nat.zero_add]
      rcases Nat.eq_or_lt_of_le hi with rfl | hlt
      · obtain ⟨p', hf'⟩ := calls_stay ls h₂ List.getElem?_concat_length
        cases hf.symm.trans hf'
        exact performed_atMost ls h₂ List.getElem?_concat_length (hprog _)
      · exact ih h₂ (by rw [List.length_append]; exact hlt) hf
    | act j a =>
      obtain ⟨c', o, k, r, w', hf', -, rfl⟩ := step_act h₁
      have hj : j ≠ i := by
        have := (List.getElem?_eq_some_iff.1 hf').1
        omega
      rw [Config.performs_act hf', decide_eq_false hj, Bool.false_and, Bool.toNat_false, Nat.zero_add]
      exact ih h₂ (by simpa using hi) hf

/-- **What grows with the operations of a call only** grows no more than it performs. -/
theorem measure_le {m : W → ℕ} (hexec : ∀ j o a w r w', S.exec j o a w = some (r, w') →
      m w' ≤ m w + if j = i then (T o).toNat else 0) :
    ∀ (ls : List (Label A C)) {cf cf' : Config W Op C R Resp}, S.steps cf ls = some cf' →
      m cf'.world ≤ m cf.world + S.performed T i cf ls := by
  intro ls
  induction ls with
  | nil =>
    intro cf cf' hs
    cases hs
    exact Nat.le_refl _
  | cons l ls ih =>
    intro cf cf' hs
    obtain ⟨cf₁, h₁, h₂⟩ := Option.bind_eq_some_iff.1 hs
    rw [performed_cons h₁]
    have hrest := ih h₂
    have hone : m cf₁.world ≤ m cf.world + (cf.performs T i l).toNat := by
      cases l with
      | start c =>
        cases h₁
        exact Nat.le_add_right _ _
      | act j a =>
        obtain ⟨c, o, k, r, w', hf, he, rfl⟩ := step_act h₁
        rw [Config.performs_act hf]
        refine Nat.le_trans (hexec j o a _ r w' he) (Nat.add_le_add_left ?_ _)
        by_cases hj : j = i <;> simp [hj]
    omega

end System

end Runs

end Conc
