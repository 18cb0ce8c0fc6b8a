import TrpcMysql.Conc.Prog

/-!
# Programs in lockstep

Two programs that perform the same operations, whatever the replies, and end in related
results. The relation may depend on what the replies were: `δ` follows them from one
operation to the next, and `R f` relates the results when `δ` has come to `f`.

`run_watched`: what `δ` comes to may be kept beside the state.

`Lockstep.run_eq`: on the same answers the two programs run alike, and their results are
related at the end.

`Ends` is the same for one program: what all its results satisfy, whatever the replies.
-/

namespace Conc

namespace Prog

variable {Op A S F α β γ : Type} {Resp : Op → Type}

/-- Where `δ` comes to along an execution. -/
def watch (exec : (o : Op) → A → S → Option (Resp o × S)) (δ : F → (o : Op) → Resp o → F) :
    Prog Op Resp α → F → S → List A → F
  | ret _, f, _, _ => f
  | act _ _, f, _, [] => f
  | act o k, f, s, a :: as =>
    match exec o a s with
    | none => f
    | some (r, s') => (k r).watch exec δ (δ f o r) s' as

/-- The operations, with what `δ` comes to kept beside the state. -/
def watched (exec : (o : Op) → A → S → Option (Resp o × S)) (δ : F → (o : Op) → Resp o → F) :
    (o : Op) → A → S × F → Option (Resp o × (S × F)) :=
  fun o a x => (exec o a x.1).map fun y => (y.1, y.2, δ x.2 o y.1)

section Watched

variable {exec : (o : Op) → A → S → Option (Resp o × S)} {δ : F → (o : Op) → Resp o → F} {p : Prog Op Resp α}

theorem watched_eq_some {o : Op} {a : A} {s : S} {f : F} {r : Resp o} {x : S × F} :
    watched exec δ o a (s, f) = some (r, x) ↔ exec o a s = some (r, x.1) ∧ x.2 = δ f o r := by
  obtain ⟨s', f'⟩ := x
  simp only [watched, Option.map_eq_some_iff, Prod.exists, Prod.mk.injEq]
  constructor
  · rintro ⟨_, _, he, rfl, rfl, rfl⟩
    exact ⟨he, rfl⟩
  · rintro ⟨he, rfl⟩
    exact ⟨r, s', he, rfl, rfl, rfl⟩

/-- **An execution goes the same way, and ends with what `δ` comes to.** -/
theorem run_watched : ∀ {s : S} {f : F} {as rest : List A} {a : α} {s' : S},
    p.run exec s as = some (a, s', rest) →
      p.run (watched exec δ) (s, f) as = some (a, (s', p.watch exec δ f s as), rest) := by
  induction p with
  | ret b =>
    intro s f as rest a s' hr
    cases hr
    rfl
  | act o k ih =>
    intro s f as rest a s' hr
    cases as with
    | nil => cases hr
    | cons b as =>
      simp only [run, watch, watched] at hr ⊢
      cases he : exec o b s with
      | none => rw [he] at hr; cases hr
      | some y => rw [he] at hr; exact ih y.1 hr

end Watched

/-- The same operations on every path, and results related by `R`. -/
inductive Lockstep (δ : F → (o : Op) → Resp o → F) (R : F → α → β → Prop) :
    F → Prog Op Resp α → Prog Op Resp β → Prop
  | ret {f : F} {a : α} {b : β} (h : R f a b) : Lockstep δ R f (.ret a) (.ret b)
  | act {f : F} {o : Op} {k : Resp o → Prog Op Resp α} {k' : Resp o → Prog Op Resp β}
      (h : ∀ r, Lockstep δ R (δ f o r) (k r) (k' r)) : Lockstep δ R f (.act o k) (.act o k')

namespace Lockstep

variable {δ : F → (o : Op) → Resp o → F} {f : F} {α' β' : Type}

theorem mono {R R' : F → α → β → Prop} (hR : ∀ f a b, R f a b → R' f a b) {p : Prog Op Resp α}
    {p' : Prog Op Resp β} (h : Lockstep δ R f p p') : Lockstep δ R' f p p' := by
  induction h with
  | ret h => exact .ret (hR _ _ _ h)
  | act _ ih => exact .act ih

theorem bind {R : F → α → β → Prop} {R' : F → α' → β' → Prop} {p : Prog Op Resp α}
    {p' : Prog Op Resp β} {g : α → Prog Op Resp α'} {g' : β → Prog Op Resp β'}
    (h : Lockstep δ R f p p') (hg : ∀ f a b, R f a b → Lockstep δ R' f (g a) (g' b)) :
    Lockstep δ R' f (p >>= g) (p' >>= g') := by
  induction h with
  | ret h => exact hg _ _ _ h
  | act _ ih => exact .act ih

/-- The same program on both sides, with a condition on its result. -/
theorem same (p : Prog Op Resp α) : ∀ {f}, Lockstep δ (fun _ a b => a = b) f p p := by
  induction p with
  | ret a => intro f; exact .ret rfl
  | act o k ih => intro f; exact .act fun r => ih r

/-- **Programs in lockstep run alike.** -/
theorem run_eq {exec : (o : Op) → A → S → Option (Resp o × S)} {R : F → α → β → Prop}
    {p : Prog Op Resp α} {p' : Prog Op Resp β} (h : Lockstep δ R f p p') :
    ∀ {s as a s' rest}, p.run exec s as = some (a, s', rest) →
      ∃ b, p'.run exec s as = some (b, s', rest) ∧ R (p'.watch exec δ f s as) a b := by
  induction h with
  | ret h =>
    intro s as a s' rest hr
    simp only [run, Option.some.injEq, Prod.mk.injEq] at hr
    obtain ⟨rfl, rfl, rfl⟩ := hr
    exact ⟨_, rfl, h⟩
  | @act f o k k' h ih =>
    intro s as a s' rest hr
    cases as with
    | nil => simp [run] at hr
    | cons c as =>
      simp only [run, watch] at hr ⊢
      cases he : exec o c s with
      | none => rw [he] at hr; simp at hr
      | some x => rw [he] at hr; exact ih x.1 hr

end Lockstep

/-! ## Results alone -/

/-- Every result of the program satisfies `Q`, whatever the replies. -/
def Ends (Q : α → Prop) : Prog Op Resp α → Prop
  | ret a => Q a
  | act _ k => ∀ r, (k r).Ends Q

namespace Ends

variable {Q : α → Prop} {Q' : β → Prop} {p : Prog Op Resp α}

theorem any : p.Ends fun _ => True := by
  induction p with
  | ret a => trivial
  | act o k ih => exact fun r => ih r

theorem bind {g : α → Prog Op Resp β} (h : p.Ends Q) (hg : ∀ a, Q a → (g a).Ends Q') :
    (p >>= g).Ends Q' := by
  induction p with
  | ret a => exact hg a h
  | act o k ih => exact fun r => ih r (h r)

theorem run {exec : (o : Op) → A → S → Option (Resp o × S)} (h : p.Ends Q) {s s' : S} {as rest : List A}
    {a : α} (hr : p.run exec s as = some (a, s', rest)) : Q a := by
  have hw : ∀ (p : Prog Op Resp α) s, p.Ends Q → p.wp exec (fun a _ => Q a) s := by
    intro p
    induction p with
    | ret a => intro s h; exact h
    | act o k ih => intro s h a r s' _; exact ih r s' (h r)
  exact wp_run (hw p s h) hr

end Ends

end Prog

end Conc
