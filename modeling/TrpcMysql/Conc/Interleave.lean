import TrpcMysql.Conc.Prog

/-!
# Interleaved calls

Any number of calls run at the same time. A call is a program; one step of the
system starts a call or performs the next operation of a call in progress, with
an answer chosen by the environment. Steps of different calls interleave freely
(`System.step`).

A run may be restricted: a `Guard` says which calls may start and which
operations may get which answers, and `Reach` is what the guarded runs reach.

Reasoning goes call by call. An `Outline` gives every call a *view* (what it
holds while it runs, updated by `next` at each of its operations) and one
invariant `Inv` of the shared state and all views. `Outline.Safe` says that each
operation of a program keeps the invariant and the step guarantee `Step`, and it
follows the program's structure (`safe_bind`). If every call is safe from its
start (`Outline.Sound`), the invariant holds in every state reached
(`Sound.reach`) and every step keeps the guarantee (`Sound.step_ok`), whatever
the interleaving.
-/

namespace Conc

open Function

/-- Calls of type `C`, each a program over the operations `Op`, acting on shared states
`W`. The call's number is passed to the handler. -/
structure System (W Op A C R : Type) (Resp : Op → Type) where
  exec : ℕ → (o : Op) → A → W → Option (Resp o × W)
  prog : C → Prog Op Resp R

/-- A call and what is left of its program. A finished call keeps its result. -/
structure Frame (Op C R : Type) (Resp : Op → Type) where
  call : C
  prog : Prog Op Resp R

/-- The shared state and the calls so far; a call's number is its index. -/
structure Config (W Op C R : Type) (Resp : Op → Type) where
  world : W
  frames : List (Frame Op C R Resp)

/-- One step: a call starts, or call `i` performs its next operation with answer `a`. -/
inductive Label (A C : Type) where
  | start (c : C)
  | act (i : ℕ) (a : A)

/-- What a run may do: which calls may start, and which operations of a call may be
performed with which answers. -/
structure Guard (W Op A C R : Type) (Resp : Op → Type) where
  start : Config W Op C R Resp → C → Prop
  act : ℕ → C → W → Op → A → Prop

variable {W Op A C R : Type} {Resp : Op → Type}

/-- The guard lets the step with label `l` through. -/
def Guard.Allows (g : Guard W Op A C R Resp) (cf : Config W Op C R Resp) : Label A C → Prop
  | .start c => g.start cf c
  | .act i a =>
    match cf.frames[i]? with
    | some ⟨c, .act o _⟩ => g.act i c cf.world o a
    | _ => False

/-- The program has stopped. -/
def Prog.done {α : Type} : Prog Op Resp α → Bool
  | .ret _ => true
  | .act _ _ => false

/-- Call `i` is in progress. -/
def Config.Running (cf : Config W Op C R Resp) (i : ℕ) (c : C) : Prop :=
  ∃ p, cf.frames[i]? = some ⟨c, p⟩ ∧ p.done = false

/-- Call `i` has returned `r`. -/
def Config.Returned (cf : Config W Op C R Resp) (i : ℕ) (c : C) (r : R) : Prop :=
  cf.frames[i]? = some ⟨c, .ret r⟩

namespace System

variable (S : System W Op A C R Resp)

/-- The step with label `l`, if it is possible. -/
def step (cf : Config W Op C R Resp) : Label A C → Option (Config W Op C R Resp)
  | .start c => some ⟨cf.world, cf.frames ++ [⟨c, S.prog c⟩]⟩
  | .act i a =>
    match cf.frames[i]? with
    | some ⟨c, .act o k⟩ =>
      (S.exec i o a cf.world).map fun x => ⟨x.2, cf.frames.set i ⟨c, k x.1⟩⟩
    | _ => none

/-- The steps of a list of labels, in order. -/
def steps : Config W Op C R Resp → List (Label A C) → Option (Config W Op C R Resp)
  | cf, [] => some cf
  | cf, l :: ls => (S.step cf l).bind fun cf' => steps cf' ls

/-- What the runs from `w₀` reach when every step passes the guard. -/
inductive Reach (g : Guard W Op A C R Resp) (w₀ : W) : Config W Op C R Resp → Prop
  | init : Reach g w₀ ⟨w₀, []⟩
  | step {cf cf' : Config W Op C R Resp} (l : Label A C) (h : Reach g w₀ cf)
      (hg : g.Allows cf l) (hs : S.step cf l = some cf') : Reach g w₀ cf'

/-- Every step of the labels `ls`, taken from `cf`, passes the guard. -/
def Legal (g : Guard W Op A C R Resp) : Config W Op C R Resp → List (Label A C) → Prop
  | _, [] => True
  | cf, l :: ls => g.Allows cf l ∧ ∀ cf', S.step cf l = some cf' → Legal g cf' ls

instance decidableAllows {g : Guard W Op A C R Resp} [∀ cf c, Decidable (g.start cf c)]
    [∀ i c w o a, Decidable (g.act i c w o a)] (cf : Config W Op C R Resp) :
    ∀ l : Label A C, Decidable (g.Allows cf l)
  | .start c => inferInstanceAs (Decidable (g.start cf c))
  | .act i a =>
    match h : cf.frames[i]? with
    | some ⟨c, .act o _⟩ => decidable_of_iff (g.act i c cf.world o a) (by simp [Guard.Allows, h])
    | some ⟨_, .ret _⟩ => isFalse (by simp [Guard.Allows, h])
    | none => isFalse (by simp [Guard.Allows, h])

instance decidableLegal (g : Guard W Op A C R Resp) [∀ cf l, Decidable (g.Allows cf l)] :
    ∀ (cf : Config W Op C R Resp) (ls : List (Label A C)), Decidable (S.Legal g cf ls)
  | _, [] => isTrue trivial
  | cf, l :: ls =>
    match h : S.step cf l with
    | none => decidable_of_iff (g.Allows cf l) (by simp [Legal, h])
    | some cf' =>
      have := decidableLegal g cf' ls
      decidable_of_iff (g.Allows cf l ∧ S.Legal g cf' ls) (by simp [Legal, h])

variable {S}

/-- An operation step, taken apart. -/
theorem step_act {cf cf' : Config W Op C R Resp} {i : ℕ} {a : A}
    (h : S.step cf (.act i a) = some cf') :
    ∃ c o k r w', cf.frames[i]? = some ⟨c, .act o k⟩ ∧ S.exec i o a cf.world = some (r, w') ∧
      cf' = ⟨w', cf.frames.set i ⟨c, k r⟩⟩ := by
  simp only [step] at h
  split at h
  · rename_i c o k hf
    rw [Option.map_eq_some_iff] at h
    obtain ⟨⟨r, w'⟩, he, rfl⟩ := h
    exact ⟨c, o, k, r, w', hf, he, rfl⟩
  · cases h

/-- A run within a guard is a run within every weaker one. -/
theorem Reach.mono {g g' : Guard W Op A C R Resp} {w₀ : W} {cf : Config W Op C R Resp}
    (hs : ∀ cf c, g.start cf c → g'.start cf c) (ha : ∀ i c w o a, g.act i c w o a → g'.act i c w o a)
    (h : S.Reach g w₀ cf) : S.Reach g' w₀ cf := by
  induction h with
  | init => exact .init
  | @step cf cf' l _ hg he ih =>
    refine ih.step l ?_ he
    cases l with
    | start c => exact hs cf c hg
    | act i a =>
      simp only [Guard.Allows] at hg ⊢
      split at hg
      · exact ha _ _ _ _ _ hg
      · exact hg.elim

/-- In every state of a run that gives only replies in `R`, each call keeps to the operations in `P`. -/
theorem Reach.within {g : Guard W Op A C R Resp} {w₀ : W} {I : W → Prop} {T : ∀ o, Resp o → Prop} {P : Op → Prop}
    {cf : Config W Op C R Resp} (hinit : I w₀) (hprog : ∀ c, (S.prog c).Within T P)
    (hexec : ∀ i o a w r w', I w → S.exec i o a w = some (r, w') → I w' ∧ T o r) (h : S.Reach g w₀ cf) :
    I cf.world ∧ ∀ f ∈ cf.frames, f.prog.Within T P := by
  induction h with
  | init => exact ⟨hinit, fun f hf => (by cases hf)⟩
  | step l _ _ hs ih =>
    obtain ⟨hI, hP⟩ := ih
    cases l with
    | start c =>
      cases hs
      refine ⟨hI, fun f hf => ?_⟩
      rcases List.mem_append.1 hf with hf | hf
      · exact hP f hf
      · rw [List.mem_singleton.1 hf]
        exact hprog c
    | act i a =>
      obtain ⟨c, o, k, r, w', hf, he, rfl⟩ := step_act hs
      obtain ⟨hI', hr⟩ := hexec i o a _ r w' hI he
      have hact := hP _ (List.mem_of_getElem? hf)
      refine ⟨hI', fun f hf' => ?_⟩
      rcases List.mem_or_eq_of_mem_set hf' with hf' | rfl
      · exact hP f hf'
      · exact hact.2 r hr

/-- A legal list of labels leads from a reached state to a reached state. -/
theorem Reach.of_steps {g : Guard W Op A C R Resp} {w₀ : W} {cf cf' : Config W Op C R Resp}
    (h : S.Reach g w₀ cf) (ls : List (Label A C)) (hs : S.steps cf ls = some cf') (hg : S.Legal g cf ls) :
    S.Reach g w₀ cf' := by
  induction ls generalizing cf with
  | nil =>
    simp only [steps, Option.some.injEq] at hs
    subst hs; exact h
  | cons l ls ih =>
    simp only [steps, Option.bind_eq_some_iff] at hs
    obtain ⟨cf₁, h1, h2⟩ := hs
    exact ih (h.step l hg.1 h1) h2 (hg.2 cf₁ h1)

/-- Steps that are possible are legal, where the guard lets every possible step through. -/
theorem legal_of_steps {g : Guard W Op A C R Resp} : ∀ {ls : List (Label A C)} {cf cf' : Config W Op C R Resp},
    (∀ l ∈ ls, ∀ cf cf', S.step cf l = some cf' → g.Allows cf l) → S.steps cf ls = some cf' → S.Legal g cf ls := by
  intro ls
  induction ls with
  | nil => intro cf cf' _ _; trivial
  | cons l ls ih =>
    intro cf cf' hg hs
    simp only [steps, Option.bind_eq_some_iff] at hs
    obtain ⟨cf₁, h₁, h₂⟩ := hs
    refine ⟨hg l List.mem_cons_self cf cf₁ h₁, fun cf₂ h => ?_⟩
    obtain rfl : cf₁ = cf₂ := Option.some.inj (h₁.symm.trans h)
    exact ih (fun l' hl' => hg l' (List.mem_cons_of_mem l hl')) h₂

/-- Call `i` is still a call in every later state. -/
theorem calls_stay : ∀ (ls : List (Label A C)) {cf cf' : Config W Op C R Resp} {i : ℕ} {c : C} {p : Prog Op Resp R},
    S.steps cf ls = some cf' → cf.frames[i]? = some ⟨c, p⟩ → ∃ p', cf'.frames[i]? = some ⟨c, p'⟩ := by
  intro ls
  induction ls with
  | nil =>
    intro cf cf' i c p hs hf
    simp only [steps, Option.some.injEq] at hs
    subst hs
    exact ⟨p, hf⟩
  | cons l ls ih =>
    intro cf cf' i c p hs hf
    simp only [steps, Option.bind_eq_some_iff] at hs
    obtain ⟨cf₁, h₁, h₂⟩ := hs
    have hlt : i < cf.frames.length := (List.getElem?_eq_some_iff.1 hf).1
    cases l with
    | start c' =>
      cases h₁
      exact ih h₂ (by rw [List.getElem?_append_left hlt]; exact hf)
    | act j a =>
      obtain ⟨c', o, k, r, w', hf', -, rfl⟩ := step_act h₁
      by_cases hij : i = j
      · subst hij
        cases hf.symm.trans hf'
        exact ih h₂ (List.getElem?_set_self hlt)
      · exact ih h₂ (by rw [List.getElem?_set_ne (Ne.symm hij)]; exact hf)

theorem steps_append {ls' : List (Label A C)} : ∀ {ls : List (Label A C)} {cf cf' : Config W Op C R Resp},
    S.steps cf ls = some cf' → S.steps cf (ls ++ ls') = S.steps cf' ls' := by
  intro ls
  induction ls with
  | nil =>
    intro cf cf' hs
    cases hs
    rfl
  | cons l ls ih =>
    intro cf cf' hs
    obtain ⟨cf₁, h₁, h₂⟩ := Option.bind_eq_some_iff.1 hs
    rw [List.cons_append, steps, h₁]
    exact ih h₂

/-- The labels of a run. -/
theorem Reach.steps {g : Guard W Op A C R Resp} {w₀ : W} {cf : Config W Op C R Resp} (h : S.Reach g w₀ cf) :
    ∃ ls, S.steps ⟨w₀, []⟩ ls = some cf := by
  induction h with
  | init => exact ⟨[], rfl⟩
  | step l _ _ hs ih =>
    obtain ⟨ls, hls⟩ := ih
    exact ⟨ls ++ [l], by rw [steps_append hls]; simp [System.steps, hs]⟩

/-- Legal labels after legal labels. -/
theorem legal_append {g : Guard W Op A C R Resp} {ls' : List (Label A C)} :
    ∀ {ls : List (Label A C)} {cf : Config W Op C R Resp}, S.Legal g cf ls →
      (∀ cf', S.steps cf ls = some cf' → S.Legal g cf' ls') → S.Legal g cf (ls ++ ls') := by
  intro ls
  induction ls with
  | nil => exact fun _ h => h _ rfl
  | cons l ls ih =>
    exact fun hg h => ⟨hg.1, fun cf₁ h₁ => ih (hg.2 cf₁ h₁) fun cf' h₂ => h cf' (by rw [steps, h₁]; exact h₂)⟩

/-- A call may go on alone: a run of a part of its program is a run of the system. -/
theorem Reach.run {g : Guard W Op A C R Resp} {w₀ : W} {n : ℕ} {c : C} {α : Type}
    {p : Prog Op Resp α} {k : α → Prog Op Resp R} :
    ∀ {cf : Config W Op C R Resp} {r w' rest}, S.Reach g w₀ cf → ∀ as : List A,
      cf.frames[n]? = some ⟨c, p >>= k⟩ → p.Along (S.exec n) (fun o a w => g.act n c w o a) cf.world as →
      p.run (S.exec n) cf.world as = some (r, w', rest) →
      S.Reach g w₀ ⟨w', cf.frames.set n ⟨c, k r⟩⟩ := by
  induction p with
  | ret x =>
    intro cf r w' rest h as hf _ hr
    simp only [Prog.run, Option.some.injEq, Prod.mk.injEq] at hr
    obtain ⟨rfl, rfl, -⟩ := hr
    obtain ⟨hlt, hf⟩ := List.getElem?_eq_some_iff.1 hf
    have : cf.frames.set n ⟨c, k x⟩ = cf.frames := by
      rw [← Prog.ret_bind x k, ← hf]; exact List.set_getElem_self hlt
    rw [this]
    exact h
  | act o q ih =>
    intro cf r w' rest h as hf hg hr
    cases as with
    | nil => simp [Prog.run] at hr
    | cons a as =>
      simp only [Prog.run] at hr
      cases he : S.exec n o a cf.world with
      | none => rw [he] at hr; simp at hr
      | some x =>
        rw [he] at hr
        obtain ⟨hg₀, hg₁⟩ := Prog.along_act.1 hg
        have hlt := (List.getElem?_eq_some_iff.1 hf).1
        rw [Prog.act_bind] at hf
        have h₁ := h.step (.act n a) (by simpa [Guard.Allows, hf] using hg₀)
          (by simp only [System.step, hf, he, Option.map_some]; rfl)
        have := ih x.1 h₁ as (List.getElem?_set_self hlt) (hg₁ x.1 x.2 he) hr
        rwa [List.set_set] at this

/-- A call may run alone from its start to its end. -/
theorem Reach.call {g : Guard W Op A C R Resp} {w₀ : W} {cf : Config W Op C R Resp} {c : C} {r : R} {w' : W}
    {rest : List A} (h : S.Reach g w₀ cf) (as : List A) (hc : g.start cf c)
    (hg : (S.prog c).Along (S.exec cf.frames.length) (fun o a w => g.act cf.frames.length c w o a) cf.world as)
    (hr : (S.prog c).run (S.exec cf.frames.length) cf.world as = some (r, w', rest)) :
    S.Reach g w₀ ⟨w', cf.frames ++ [⟨c, .ret r⟩]⟩ := by
  have h₁ := Reach.run (n := cf.frames.length) (k := .ret) (h.step (.start c) hc rfl) as
    (by rw [Prog.bind_ret]; simp) hg hr
  rwa [List.set_append_right _ _ (Nat.le_refl _), Nat.sub_self, List.set_cons_zero] at h₁

/-- The same, where what the call returns need not be written out. -/
theorem Reach.call_get {g : Guard W Op A C R Resp} {w₀ : W} {cf : Config W Op C R Resp} {c : C} (h : S.Reach g w₀ cf)
    (as : List A) (hc : g.start cf c)
    (hg : (S.prog c).Along (S.exec cf.frames.length) (fun o a w => g.act cf.frames.length c w o a) cf.world as)
    (hr : ((S.prog c).run (S.exec cf.frames.length) cf.world as).isSome = true) :
    S.Reach g w₀ ⟨(((S.prog c).run (S.exec cf.frames.length) cf.world as).get hr).2.1,
      cf.frames ++ [⟨c, .ret (((S.prog c).run (S.exec cf.frames.length) cf.world as).get hr).1⟩]⟩ :=
  h.call as hc hg (Option.some_get hr).symm

end System

/-- A proof outline: views, how an operation changes the view of the call that performs
it, the invariant, what a step guarantees, what is true of a call that has not begun, and
what stays true of a finished call. -/
structure Outline (W Op A C R : Type) (Resp : Op → Type) where
  V : Type
  rest : V
  begin : ℕ → C → W → V
  next : ℕ → V → (o : Op) → Resp o → W → V
  Inv : W → (ℕ → V) → Prop
  /-- the view is one that a call `c` can have -/
  Fits : C → V → Prop
  /-- the view goes with what is left of the program -/
  Holds : V → Prog Op Resp R → Prop
  Step : ℕ → C → W → W → Prop
  /-- call `i` has left no trace yet -/
  Unborn : ℕ → W → Prop
  Post : ℕ → C → V → R → Prop
  Done : ℕ → C → R → W → Prop

namespace Outline

variable (S : System W Op A C R Resp) (g : Guard W Op A C R Resp) (O : Outline W Op A C R Resp)

/-- From view `v`, every operation of `p` performed by call `i` keeps the invariant, and
`Q` holds when `p` stops. -/
def Safe {α : Type} (i : ℕ) (c : C) : O.V → Prog Op Resp α → (O.V → α → Prop) → Prop
  | v, .ret x, Q => Q v x
  | v, .act o k, Q => ∀ w vs a r w', O.Inv w vs → vs i = v → g.act i c w o a →
      S.exec i o a w = some (r, w') →
      O.Inv w' (update vs i (O.next i v o r w')) ∧ O.Step i c w w' ∧
        Safe i c (O.next i v o r w') (k r) Q

variable {S g O} {i : ℕ} {c : C} {α β : Type}

@[simp] theorem safe_ret {v : O.V} {x : α} {Q : O.V → α → Prop} :
    O.Safe S g i c v (.ret x) Q ↔ Q v x := Iff.rfl

@[simp] theorem safe_pure {v : O.V} {x : α} {Q : O.V → α → Prop} :
    O.Safe S g i c v (pure x) Q ↔ Q v x := Iff.rfl

theorem safe_mono {p : Prog Op Resp α} {Q Q' : O.V → α → Prop} (hQ : ∀ v x, Q v x → Q' v x) :
    ∀ {v}, O.Safe S g i c v p Q → O.Safe S g i c v p Q' := by
  induction p with
  | ret x => intro v h; exact hQ v x h
  | act o k ih =>
    intro v h w vs a r w' hI hv hg he
    obtain ⟨h1, h2, h3⟩ := h w vs a r w' hI hv hg he
    exact ⟨h1, h2, ih r h3⟩

@[simp] theorem safe_bind {p : Prog Op Resp α} {f : α → Prog Op Resp β} {Q : O.V → β → Prop} :
    ∀ {v}, O.Safe S g i c v (p >>= f) Q ↔
      O.Safe S g i c v p fun v' x => O.Safe S g i c v' (f x) Q := by
  induction p with
  | ret x => intro v; exact Iff.rfl
  | act o k ih =>
    intro v
    refine forall_congr' fun w => forall_congr' fun vs => forall_congr' fun a =>
      forall_congr' fun r => forall_congr' fun w' => imp_congr_right fun _ => imp_congr_right fun _ =>
      imp_congr_right fun _ => imp_congr_right fun _ => and_congr_right fun _ =>
      and_congr_right fun _ => ih r

theorem safe_op {o : Op} {v : O.V} {Q : O.V → Resp o → Prop}
    (h : ∀ w vs a r w', O.Inv w vs → vs i = v → g.act i c w o a → S.exec i o a w = some (r, w') →
      O.Inv w' (update vs i (O.next i v o r w')) ∧ O.Step i c w w' ∧ Q (O.next i v o r w') r) :
    O.Safe S g i c v (.op o) Q := h

/-- The rule for one operation, with the view after it. -/
theorem safe_next {o : Op} {v : O.V} {Q : O.V → Resp o → Prop}
    (h : ∀ w vs a r w', O.Inv w vs → vs i = v → g.act i c w o a → S.exec i o a w = some (r, w') →
      ∃ v', O.next i v o r w' = v' ∧ O.Inv w' (update vs i v') ∧ O.Step i c w w' ∧ Q v' r) :
    O.Safe S g i c v (.op o) Q := by
  intro w vs a r w' hI hv hg he
  obtain ⟨v', rfl, h'⟩ := h w vs a r w' hI hv hg he
  exact h'

/-- The calls of the system are safe, from the start to the end. -/
structure Sound (S : System W Op A C R Resp) (g : Guard W Op A C R Resp)
    (O : Outline W Op A C R Resp) (w₀ : W) : Prop where
  init : O.Inv w₀ fun _ => O.rest
  unborn : ∀ i, O.Unborn i w₀
  unborn_step : ∀ {i w} {j o a x w'}, i ≠ j → O.Unborn i w → S.exec j o a w = some (x, w') →
    O.Unborn i w'
  start : ∀ {cf : Config W Op C R Resp} {vs c}, O.Inv cf.world vs → g.start cf c →
    vs cf.frames.length = O.rest → O.Unborn cf.frames.length cf.world →
    (∀ j, vs j ≠ O.rest → ∃ c', cf.Running j c' ∧ O.Fits c' (vs j)) →
    O.Inv cf.world (update vs cf.frames.length (O.begin cf.frames.length c cf.world)) ∧
      O.Safe S g cf.frames.length c (O.begin cf.frames.length c cf.world) (S.prog c)
        (O.Post cf.frames.length c)
  fits : ∀ i c w, O.Fits c (O.begin i c w)
  fits_next : ∀ i c v o r w, O.Fits c v → O.Fits c (O.next i v o r w)
  holds : ∀ {cf : Config W Op C R Resp} {c}, g.start cf c →
    O.Holds (O.begin cf.frames.length c cf.world) (S.prog c)
  holds_next : ∀ i v o k r w, O.Holds v (.act o k) → O.Holds (O.next i v o r w) (k r)
  finish : ∀ {w vs i c r}, O.Inv w vs → O.Post i c (vs i) r →
    O.Inv w (update vs i O.rest) ∧ O.Done i c r w
  stable : ∀ {i c r w} {j c' o a x w'}, i ≠ j → O.Done i c r w → S.exec j o a w = some (x, w') →
    O.Step j c' w w' → O.Done i c r w'

/-- What is known of frame `i` and its view. -/
def FrameOK (S : System W Op A C R Resp) (g : Guard W Op A C R Resp) (O : Outline W Op A C R Resp)
    (w : W) (i : ℕ) (v : O.V) : Option (Frame Op C R Resp) → Prop
  | none => v = O.rest
  | some ⟨c, .ret r⟩ => v = O.rest ∧ O.Done i c r w
  | some ⟨c, .act o k⟩ => O.Fits c v ∧ O.Holds v (.act o k) ∧ O.Safe S g i c v (.act o k) (O.Post i c)

/-- The invariant, and every frame as its view says. -/
def Good (S : System W Op A C R Resp) (g : Guard W Op A C R Resp) (O : Outline W Op A C R Resp)
    (cf : Config W Op C R Resp) (vs : ℕ → O.V) : Prop :=
  O.Inv cf.world vs ∧ (∀ i, cf.frames.length ≤ i → O.Unborn i cf.world) ∧
    ∀ i, O.FrameOK S g cf.world i (vs i) cf.frames[i]?

namespace Sound

variable {w₀ : W} (h : O.Sound S g w₀)
include h

/-- A call that is safe to its end, with the invariant, is a good frame: a finished call
gives up its view. -/
theorem settle {w : W} {vs : ℕ → O.V} {p : Prog Op Resp R} (hI : O.Inv w vs)
    (hf : O.Fits c (vs i)) (hh : O.Holds (vs i) p) (hs : O.Safe S g i c (vs i) p (O.Post i c)) :
    ∃ v, O.Inv w (update vs i v) ∧ O.FrameOK S g w i v (some ⟨c, p⟩) := by
  cases p with
  | ret r => obtain ⟨h1, h2⟩ := h.finish hI hs; exact ⟨O.rest, h1, rfl, h2⟩
  | act o k => exact ⟨vs i, by rwa [update_eq_self], hf, hh, hs⟩

/-- A frame stays good when another call performs an operation. -/
theorem frameOK_stable {w w' : W} {v : O.V} {f : Option (Frame Op C R Resp)} {j : ℕ} {o : Op} {a : A}
    {x : Resp o} {c' : C} (hij : i ≠ j) (he : S.exec j o a w = some (x, w')) (hst : O.Step j c' w w')
    (hf : O.FrameOK S g w i v f) : O.FrameOK S g w' i v f := by
  match f with
  | none => exact hf
  | some ⟨c, .ret r⟩ => exact ⟨hf.1, h.stable hij hf.2 he hst⟩
  | some ⟨c, .act o k⟩ => exact hf

omit h in
/-- A view that is not at rest belongs to a call in progress. -/
theorem running {cf : Config W Op C R Resp} {vs : ℕ → O.V} (hG : O.Good S g cf vs) {j : ℕ}
    (hj : vs j ≠ O.rest) : ∃ c', cf.Running j c' ∧ O.Fits c' (vs j) := by
  have hf := hG.2.2 j
  cases hfr : cf.frames[j]? with
  | none => rw [hfr] at hf; exact absurd hf hj
  | some f =>
    rw [hfr] at hf
    obtain ⟨c', p⟩ := f
    cases p with
    | ret r => exact absurd hf.1 hj
    | act o k => exact ⟨c', ⟨_, hfr, rfl⟩, hf.1⟩

theorem good_start {cf : Config W Op C R Resp} {vs : ℕ → O.V} (hG : O.Good S g cf vs)
    (hg : g.start cf c) :
    ∃ vs', O.Good S g ⟨cf.world, cf.frames ++ [⟨c, S.prog c⟩]⟩ vs' := by
  have hn : cf.frames[cf.frames.length]? = none := by simp
  have hv : vs cf.frames.length = O.rest := by have := hG.2.2 cf.frames.length; rwa [hn] at this
  obtain ⟨h1, h2⟩ := h.start hG.1 hg hv (hG.2.1 _ (Nat.le_refl _)) fun j hj => running hG hj
  obtain ⟨v, h3, h4⟩ := h.settle (i := cf.frames.length) (c := c) (p := S.prog c) h1
    (by rw [update_self]; exact h.fits _ c _) (by rw [update_self]; exact h.holds hg)
    (by rw [update_self]; exact h2)
  rw [update_idem] at h3
  refine ⟨_, h3, fun i hi => hG.2.1 i ?_, fun i => ?_⟩
  · rw [List.length_append] at hi; exact Nat.le_of_add_right_le hi
  by_cases hi : i = cf.frames.length
  · subst hi; simpa [update_self] using h4
  · have hfi := hG.2.2 i
    rw [update_of_ne hi]
    rcases Nat.lt_or_gt_of_ne hi with hlt | hgt
    · rw [List.getElem?_append_left hlt]; exact hfi
    · rw [List.getElem?_eq_none (by simp; omega)]
      rwa [List.getElem?_eq_none (by omega)] at hfi

theorem good_act {cf : Config W Op C R Resp} {vs : ℕ → O.V} (hG : O.Good S g cf vs) {o : Op}
    {k : Resp o → Prog Op Resp R} {a : A} {r : Resp o} {w' : W}
    (hf : cf.frames[i]? = some ⟨c, .act o k⟩) (hg : g.act i c cf.world o a)
    (he : S.exec i o a cf.world = some (r, w')) :
    O.Step i c cf.world w' ∧ ∃ vs', O.Good S g ⟨w', cf.frames.set i ⟨c, k r⟩⟩ vs' := by
  have hi := hG.2.2 i
  rw [hf] at hi
  obtain ⟨hfit, hhold, hs⟩ := hi
  obtain ⟨h1, h2, h3⟩ := hs cf.world vs a r w' hG.1 rfl hg he
  refine ⟨h2, ?_⟩
  obtain ⟨v, h4, h5⟩ := h.settle (i := i) (c := c) (p := k r) h1
    (by rw [update_self]; exact h.fits_next i c _ o r w' hfit)
    (by rw [update_self]; exact h.holds_next i _ o k r w' hhold)
    (by rw [update_self]; exact h3)
  rw [update_idem] at h4
  have hlt : i < cf.frames.length := (List.getElem?_eq_some_iff.1 hf).1
  refine ⟨_, h4, fun j hj => ?_, fun j => ?_⟩
  · rw [List.length_set] at hj
    exact h.unborn_step (by omega) (hG.2.1 j hj) he
  by_cases hj : j = i
  · subst hj; rw [update_self, List.getElem?_set_self hlt]; exact h5
  · rw [update_of_ne hj, List.getElem?_set_ne (Ne.symm hj)]
    exact h.frameOK_stable hj he h2 (hG.2.2 j)

/-- **The invariant holds in every state that a guarded run reaches.** -/
theorem reach {cf : Config W Op C R Resp} (hr : S.Reach g w₀ cf) : ∃ vs, O.Good S g cf vs := by
  induction hr with
  | init => exact ⟨_, h.init, fun i _ => h.unborn i, fun i => by simp [FrameOK]⟩
  | step l _ hg hs ih =>
    obtain ⟨vs, hG⟩ := ih
    cases l with
    | start c =>
      simp only [System.step, Option.some.injEq] at hs
      subst hs; exact h.good_start hG hg
    | act i a =>
      obtain ⟨c, o, k, r, w', hf, he, rfl⟩ := System.step_act hs
      simp only [Guard.Allows, hf] at hg
      exact (h.good_act hG hf hg he).2

/-- **Every step of a guarded run keeps the step guarantee.** -/
theorem step_ok {cf cf' : Config W Op C R Resp} {a : A} (hr : S.Reach g w₀ cf)
    (hg : g.Allows cf (.act i a)) (hs : S.step cf (.act i a) = some cf') :
    ∃ c, cf.Running i c ∧ O.Step i c cf.world cf'.world := by
  obtain ⟨vs, hG⟩ := h.reach hr
  obtain ⟨c, o, k, r, w', hf, he, rfl⟩ := System.step_act hs
  simp only [Guard.Allows, hf] at hg
  exact ⟨c, ⟨_, hf, rfl⟩, (h.good_act hG hf hg he).1⟩

/-- What stays true of a finished call is true in every state reached. -/
theorem returned {cf : Config W Op C R Resp} (hr : S.Reach g w₀ cf) {r : R} (hret : cf.Returned i c r) :
    O.Done i c r cf.world := by
  obtain ⟨vs, hG⟩ := h.reach hr
  have hf := hG.2.2 i
  rw [Config.Returned] at hret
  rw [hret] at hf
  exact hf.2

end Sound

end Outline

end Conc
