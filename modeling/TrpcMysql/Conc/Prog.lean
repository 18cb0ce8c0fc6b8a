import Mathlib.Logic.Function.Basic
import Mathlib.Tactic.Common

/-!
# Programs over atomic operations

A `Prog` is a finite tree of atomic operations: it stops with a value, or it
performs one operation and continues with the reply. Nothing in a program says
what an operation does; that is the business of a handler
`exec : (o : Op) → A → S → Option (Resp o × S)`, which takes the environment's
answer `A` (what the network, the clock or another component decides) and may
refuse (`none`).

* `Prog.run`: one execution of a program on its own, on a list of answers.
* `Prog.wp`: what holds at the end of every execution, whatever the answers;
  `wp_run` connects the two.
* `Prog.Along`: what holds of every operation that an execution performs, also of one
  that does not come to its end; `gwp` proves it (`gwp_along`).
* `Prog.lift`: a program over one set of operations, read in a larger one.
-/

namespace Conc

/-- A program: stop with a value, or perform an operation and go on with its reply. -/
inductive Prog (Op : Type) (Resp : Op → Type) (α : Type) : Type where
  | ret (a : α) : Prog Op Resp α
  | act (o : Op) (k : Resp o → Prog Op Resp α) : Prog Op Resp α

namespace Prog

variable {Op Op' A S α β γ : Type} {Resp : Op → Type} {Resp' : Op' → Type}

/-- Run `p`, then `f` on its result. -/
protected def bind : Prog Op Resp α → (α → Prog Op Resp β) → Prog Op Resp β
  | ret a, f => f a
  | act o k, f => act o fun r => (k r).bind f

instance : Monad (Prog Op Resp) where
  pure := ret
  bind := Prog.bind

/-- The program that performs one operation and returns its reply. -/
def op (o : Op) : Prog Op Resp (Resp o) := act o ret

theorem pure_eq (a : α) : (pure a : Prog Op Resp α) = ret a := rfl

@[simp] theorem ret_bind (a : α) (f : α → Prog Op Resp β) : (ret a >>= f) = f a := rfl

@[simp] theorem act_bind (o : Op) (k : Resp o → Prog Op Resp α) (f : α → Prog Op Resp β) :
    (act o k >>= f) = act o fun r => k r >>= f := rfl

@[simp] theorem op_bind (o : Op) (f : Resp o → Prog Op Resp β) : (op o >>= f) = act o f := rfl

theorem bind_ret (p : Prog Op Resp α) : (p >>= ret) = p := by
  induction p with
  | ret a => rfl
  | act o k ih => rw [act_bind]; exact congrArg (act o) (funext ih)

theorem bind_assoc (p : Prog Op Resp α) (f : α → Prog Op Resp β) (g : β → Prog Op Resp γ) :
    (p >>= f >>= g) = p >>= fun a => f a >>= g := by
  induction p with
  | ret a => rfl
  | act o k ih => simp only [act_bind]; exact congrArg (act o) (funext ih)

instance : LawfulMonad (Prog Op Resp) :=
  LawfulMonad.mk' (Prog Op Resp) (fun p => bind_ret p) (fun _ _ => rfl) bind_assoc

/-- A program over `Op`, read as one over `Op'`. -/
def lift (f : Op → Op') (g : ∀ o, Resp' (f o) → Resp o) : Prog Op Resp α → Prog Op' Resp' α
  | ret a => ret a
  | act o k => act (f o) fun r => (k (g o r)).lift f g

theorem lift_bind (f : Op → Op') (g : ∀ o, Resp' (f o) → Resp o) (p : Prog Op Resp α) (q : α → Prog Op Resp β) :
    (p >>= q).lift f g = p.lift f g >>= fun a => (q a).lift f g := by
  induction p with
  | ret a => rfl
  | act o k ih => simp only [act_bind, lift]; exact congrArg (act (f o)) (funext fun r => ih (g o r))

/-- Every operation of the program, on every path, satisfies `P`. -/
def Uses (P : Op → Prop) : Prog Op Resp α → Prop
  | ret _ => True
  | act o k => P o ∧ ∀ r, (k r).Uses P

theorem Uses.bind {P : Op → Prop} {p : Prog Op Resp α} {f : α → Prog Op Resp β} (hp : p.Uses P)
    (hf : ∀ a, (f a).Uses P) : (p >>= f).Uses P := by
  induction p with
  | ret a => exact hf a
  | act o k ih => exact ⟨hp.1, fun r => ih r (hp.2 r)⟩

theorem Uses.mono {P P' : Op → Prop} {p : Prog Op Resp α} (hp : p.Uses P) (hP : ∀ o, P o → P' o) :
    p.Uses P' := by
  induction p with
  | ret a => trivial
  | act o k ih => exact ⟨hP o hp.1, fun r => ih r (hp.2 r)⟩

/-- Every operation satisfies `P`, on every path with all replies satisfying `R`. -/
def Within (R : ∀ o, Resp o → Prop) (P : Op → Prop) : Prog Op Resp α → Prop
  | ret _ => True
  | act o k => P o ∧ ∀ r, R o r → (k r).Within R P

theorem Within.bind {R : ∀ o, Resp o → Prop} {P : Op → Prop} {p : Prog Op Resp α} {f : α → Prog Op Resp β}
    (hp : p.Within R P) (hf : ∀ a, (f a).Within R P) : (p >>= f).Within R P := by
  induction p with
  | ret a => exact hf a
  | act o k ih => exact ⟨hp.1, fun r hr => ih r (hp.2 r hr)⟩

/-- The operation that a program performs next. -/
def next : Prog Op Resp α → Option Op
  | ret _ => none
  | act o _ => some o

theorem Within.next {R : ∀ o, Resp o → Prop} {P : Op → Prop} {p : Prog Op Resp α} {o : Op} (hp : p.Within R P)
    (ho : p.next = some o) : P o := by
  cases p with
  | ret a => cases ho
  | act o' k =>
    cases ho
    exact hp.1

/-- Some path of the program comes to an operation in `T`, with every reply before
it satisfying `R`. -/
inductive Reaches (T : Op → Prop) (R : ∀ o, Resp o → Prop) : Prog Op Resp α → Prop
  | here {o : Op} {k : Resp o → Prog Op Resp α} (h : T o) : Reaches T R (act o k)
  | later {o : Op} {k : Resp o → Prog Op Resp α} (r : Resp o) (hr : R o r)
      (h : Reaches T R (k r)) : Reaches T R (act o k)

/-! ## Executions of one program on its own -/

section Run

variable (exec : (o : Op) → A → S → Option (Resp o × S))

/-- Execute `p` from `s`, one answer for each operation; the answers left over come
back with the result. -/
def run : Prog Op Resp α → S → List A → Option (α × S × List A)
  | ret a, s, as => some (a, s, as)
  | act _ _, _, [] => none
  | act o k, s, a :: as =>
    match exec o a s with
    | none => none
    | some (r, s') => (k r).run s' as

/-- `Q` holds at the end of every execution of `p` from `s`. -/
def wp : Prog Op Resp α → (α → S → Prop) → S → Prop
  | ret a, Q, s => Q a s
  | act o k, Q, s => ∀ a r s', exec o a s = some (r, s') → (k r).wp Q s'

variable {exec}

@[simp] theorem wp_ret {a : α} {Q : α → S → Prop} {s : S} : wp exec (ret a) Q s ↔ Q a s := Iff.rfl

@[simp] theorem wp_pure {a : α} {Q : α → S → Prop} {s : S} :
    wp exec (pure a : Prog Op Resp α) Q s ↔ Q a s := Iff.rfl

theorem wp_mono {p : Prog Op Resp α} {Q Q' : α → S → Prop} (hQ : ∀ a s, Q a s → Q' a s) :
    ∀ {s}, wp exec p Q s → wp exec p Q' s := by
  induction p with
  | ret a => intro s h; exact hQ a s h
  | act o k ih => intro s h a r s' he; exact ih r (h a r s' he)

@[simp] theorem wp_bind {p : Prog Op Resp α} {f : α → Prog Op Resp β} {Q : β → S → Prop} :
    ∀ {s}, wp exec (p >>= f) Q s ↔ wp exec p (fun a => wp exec (f a) Q) s := by
  induction p with
  | ret a => intro s; exact Iff.rfl
  | act o k ih =>
    intro s
    exact forall_congr' fun a => forall_congr' fun r => forall_congr' fun s' =>
      imp_congr_right fun _ => ih r

theorem wp_and {p : Prog Op Resp α} {Q Q' : α → S → Prop} :
    ∀ {s}, wp exec p Q s → wp exec p Q' s → wp exec p (fun a s => Q a s ∧ Q' a s) s := by
  induction p with
  | ret a => intro s h h'; exact ⟨h, h'⟩
  | act o k ih => intro s h h' a r s' he; exact ih r (h a r s' he) (h' a r s' he)

/-- A state property that every operation satisfying `P` keeps is kept by every
program that performs only such operations. -/
theorem Uses.keeps {P : Op → Prop} {I : S → Prop} {p : Prog Op Resp α} (hp : p.Uses P)
    (hI : ∀ o a s r s', P o → I s → exec o a s = some (r, s') → I s') :
    ∀ {s}, I s → wp exec p (fun _ => I) s := by
  induction p with
  | ret a => intro s h; exact h
  | act o k ih => intro s h a r s' he; exact ih r (hp.2 r) (hI o a s r s' hp.1 h he)

@[simp] theorem run_pure {a : α} {s : S} {as : List A} :
    run exec (pure a : Prog Op Resp α) s as = some (a, s, as) := rfl

theorem run_bind {p : Prog Op Resp α} {f : α → Prog Op Resp β} :
    ∀ {s as}, run exec (p >>= f) s as =
      (run exec p s as).bind fun x => run exec (f x.1) x.2.1 x.2.2 := by
  induction p with
  | ret a => intro s as; rfl
  | act o k ih =>
    intro s as
    cases as with
    | nil => rfl
    | cons a as =>
      simp only [act_bind, run]
      cases exec o a s with
      | none => rfl
      | some x => exact ih x.1

/-- **Every execution ends as `wp` says.** -/
theorem wp_run {p : Prog Op Resp α} {Q : α → S → Prop} :
    ∀ {s as a s' rest}, wp exec p Q s → run exec p s as = some (a, s', rest) → Q a s' := by
  induction p with
  | ret b =>
    intro s as a s' rest h hr
    simp only [run, Option.some.injEq, Prod.mk.injEq] at hr
    obtain ⟨rfl, rfl, -⟩ := hr
    exact h
  | act o k ih =>
    intro s as a s' rest h hr
    cases as with
    | nil => simp [run] at hr
    | cons b as =>
      simp only [run] at hr
      cases he : exec o b s with
      | none => rw [he] at hr; simp at hr
      | some x => rw [he] at hr; exact ih x.1 (h b x.1 x.2 he) hr

/-! ## Operations along an execution -/

/-- Every operation that the execution of `p` on the answers `as` performs satisfies `P`. -/
def Along (exec : (o : Op) → A → S → Option (Resp o × S)) (P : Op → A → S → Prop) :
    Prog Op Resp α → S → List A → Prop
  | ret _, _, _ => True
  | act _ _, _, [] => True
  | act o k, s, a :: as => P o a s ∧
    match exec o a s with
    | none => True
    | some (r, s') => (k r).Along exec P s' as

/-- In every execution whose operations satisfy `G`, every operation satisfies `P`, and
`Q` holds at the end. -/
def gwp (exec : (o : Op) → A → S → Option (Resp o × S)) (G P : Op → A → S → Prop) :
    Prog Op Resp α → (α → S → Prop) → S → Prop
  | ret a, Q, s => Q a s
  | act o k, Q, s => ∀ a, G o a s → P o a s ∧
    ∀ r s', exec o a s = some (r, s') → (k r).gwp exec G P Q s'

variable {G P : Op → A → S → Prop}

theorem along_act {o : Op} {k : Resp o → Prog Op Resp α} {s : S} {a : A} {as : List A} :
    (act o k).Along exec P s (a :: as) ↔ P o a s ∧
      ∀ r s', exec o a s = some (r, s') → (k r).Along exec P s' as := by
  simp only [Along]
  cases exec o a s with
  | none => simp
  | some x =>
    refine and_congr_right fun _ => ⟨fun h r s' he => ?_, fun h => h x.1 x.2 rfl⟩
    cases he; exact h

theorem Along.mono {P P' : Op → A → S → Prop} {p : Prog Op Resp α} (h : ∀ o a s, P o a s → P' o a s) :
    ∀ {s as}, p.Along exec P s as → p.Along exec P' s as := by
  induction p with
  | ret a => intro s as _; trivial
  | act o k ih =>
    intro s as hp
    cases as with
    | nil => trivial
    | cons a as =>
      rw [along_act] at hp ⊢
      exact ⟨h o a s hp.1, fun r s' he => ih r (hp.2 r s' he)⟩

instance decidableAlong [∀ o a s, Decidable (P o a s)] :
    ∀ (p : Prog Op Resp α) (s : S) (as : List A), Decidable (p.Along exec P s as)
  | ret _, _, _ => isTrue trivial
  | act _ _, _, [] => isTrue trivial
  | act o k, s, a :: as =>
    match he : exec o a s with
    | none => decidable_of_iff (P o a s) (by simp [along_act, he])
    | some x =>
      have := decidableAlong (k x.1) x.2 as
      decidable_of_iff (P o a s ∧ (k x.1).Along exec P x.2 as) (by simp [Along, he])

theorem along_true {p : Prog Op Resp α} : ∀ {s as}, p.Along exec (fun _ _ _ => True) s as := by
  induction p with
  | ret a => intro s as; trivial
  | act o k ih =>
    intro s as
    cases as with
    | nil => trivial
    | cons a as => exact along_act.2 ⟨trivial, fun r s' _ => ih r⟩

@[simp] theorem gwp_pure {a : α} {Q : α → S → Prop} {s : S} :
    gwp exec G P (pure a : Prog Op Resp α) Q s ↔ Q a s := Iff.rfl

theorem gwp_mono {p : Prog Op Resp α} {Q Q' : α → S → Prop} (hQ : ∀ a s, Q a s → Q' a s) :
    ∀ {s}, gwp exec G P p Q s → gwp exec G P p Q' s := by
  induction p with
  | ret a => intro s h; exact hQ a s h
  | act o k ih => intro s h a ha; exact ⟨(h a ha).1, fun r s' he => ih r ((h a ha).2 r s' he)⟩

/-- Under a stronger guard less can happen. -/
theorem gwp_guard {G' : Op → A → S → Prop} {p : Prog Op Resp α} {Q : α → S → Prop}
    (hG : ∀ o a s, G' o a s → G o a s) : ∀ {s}, gwp exec G P p Q s → gwp exec G' P p Q s := by
  induction p with
  | ret a => intro s h; exact h
  | act o k ih =>
    intro s h a ha
    obtain ⟨hP, hk⟩ := h a (hG o a s ha)
    exact ⟨hP, fun r s' he => ih r (hk r s' he)⟩

theorem gwp_and {p : Prog Op Resp α} {Q Q' : α → S → Prop} :
    ∀ {s}, gwp exec G P p Q s → gwp exec G P p Q' s → gwp exec G P p (fun a s => Q a s ∧ Q' a s) s := by
  induction p with
  | ret a => intro s h h'; exact ⟨h, h'⟩
  | act o k ih =>
    intro s h h' a ha
    exact ⟨(h a ha).1, fun r s' he => ih r ((h a ha).2 r s' he) ((h' a ha).2 r s' he)⟩

theorem gwp_bind {p : Prog Op Resp α} {f : α → Prog Op Resp β} {Q : β → S → Prop} :
    ∀ {s}, gwp exec G P (p >>= f) Q s ↔ gwp exec G P p (fun a => gwp exec G P (f a) Q) s := by
  induction p with
  | ret a => intro s; exact Iff.rfl
  | act o k ih =>
    intro s
    exact forall_congr' fun a => imp_congr_right fun _ => and_congr_right fun _ =>
      forall_congr' fun r => forall_congr' fun s' => imp_congr_right fun _ => ih r

/-- Without a guard `gwp` says what `wp` says. -/
theorem wp_of_gwp {p : Prog Op Resp α} {Q : α → S → Prop} :
    ∀ {s}, gwp exec (fun _ _ _ => True) P p Q s → wp exec p Q s := by
  induction p with
  | ret a => intro s h; exact h
  | act o k ih => intro s h a r s' he; exact ih r ((h a trivial).2 r s' he)

theorem gwp_of_wp {p : Prog Op Resp α} {Q : α → S → Prop} :
    ∀ {s}, wp exec p Q s → gwp exec G (fun _ _ _ => True) p Q s := by
  induction p with
  | ret a => intro s h; exact h
  | act o k ih => intro s h a _; exact ⟨trivial, fun r s' he => ih r (h a r s' he)⟩

/-- A state property that every operation satisfying `T` keeps within the guard, and that gives it `P`. -/
theorem Uses.gwp {T : Op → Prop} {I : S → Prop} {p : Prog Op Resp α} (hp : p.Uses T)
    (hI : ∀ o a s, T o → I s → G o a s → P o a s ∧ ∀ r s', exec o a s = some (r, s') → I s') :
    ∀ {s}, I s → p.gwp exec G P (fun _ => I) s := by
  induction p with
  | ret a => intro s h; exact h
  | act o k ih =>
    intro s h a ha
    obtain ⟨hP, hk⟩ := hI o a s hp.1 h ha
    exact ⟨hP, fun r s' he => ih r (hp.2 r) (hk r s' he)⟩

/-- Where each operation has `P` whatever happens, `gwp` says what `wp` says. -/
theorem gwp_of_uses {T : Op → Prop} {p : Prog Op Resp α} {Q : α → S → Prop} (hp : p.Uses T)
    (hT : ∀ o a s, T o → P o a s) : ∀ {s}, wp exec p Q s → gwp exec G P p Q s := by
  induction p with
  | ret a => intro s h; exact h
  | act o k ih => intro s h a _; exact ⟨hT o a s hp.1, fun r s' he => ih r (hp.2 r) (h a r s' he)⟩

/-- **An execution within the guard has `P` all along.** -/
theorem gwp_along {p : Prog Op Resp α} {Q : α → S → Prop} :
    ∀ {s as}, gwp exec G P p Q s → p.Along exec G s as → p.Along exec P s as := by
  induction p with
  | ret a => intro s as _ _; trivial
  | act o k ih =>
    intro s as h hG
    cases as with
    | nil => trivial
    | cons a as =>
      rw [along_act] at hG ⊢
      obtain ⟨hP, hk⟩ := h a hG.1
      exact ⟨hP, fun r s' he => ih r (hk r s' he) (hG.2 r s' he)⟩

/-- **An execution within the guard ends in `Q`.** -/
theorem gwp_run {p : Prog Op Resp α} {Q : α → S → Prop} :
    ∀ {s as a s' rest}, gwp exec G P p Q s → p.Along exec G s as →
      run exec p s as = some (a, s', rest) → Q a s' := by
  induction p with
  | ret b =>
    intro s as a s' rest h _ hr
    simp only [run, Option.some.injEq, Prod.mk.injEq] at hr
    obtain ⟨rfl, rfl, -⟩ := hr
    exact h
  | act o k ih =>
    intro s as a s' rest h hG hr
    cases as with
    | nil => simp [run] at hr
    | cons b as =>
      rw [along_act] at hG
      simp only [run] at hr
      cases he : exec o b s with
      | none => rw [he] at hr; simp at hr
      | some x => rw [he] at hr; exact ih x.1 ((h b hG.1).2 x.1 x.2 he) (hG.2 x.1 x.2 he) hr

/-- `gwp` says nothing more than that every execution within the guard ends in `Q`. -/
theorem gwp_iff_run {p : Prog Op Resp α} {Q : α → S → Prop} {s : S} :
    gwp exec G (fun _ _ _ => True) p Q s ↔
      ∀ as a s' rest, p.Along exec G s as → run exec p s as = some (a, s', rest) → Q a s' := by
  refine ⟨fun h as a s' rest hG hr => gwp_run h hG hr, ?_⟩
  induction p generalizing s with
  | ret a => intro h; exact h [] a s [] trivial rfl
  | act o k ih =>
    intro h b hb
    refine ⟨trivial, fun r s' he => ih r fun as a s'' rest hG hr => h (b :: as) a s'' rest ?_ ?_⟩
    · rw [along_act]
      refine ⟨hb, fun r₁ s₁ he₁ => ?_⟩
      rw [he] at he₁
      cases he₁
      exact hG
    · simp only [run, he]
      exact hr

end Run

end Prog

end Conc
