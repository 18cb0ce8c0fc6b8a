import TrpcMysql.Conc.Prog

/-!
# Two programs side by side

A `Machine` knows the answers of the environment, so a program has at most one result from a state
(`Prog.eval`): none when an operation is refused, or when the state is dead at the end. A dead state
refuses every operation.

* `Prog.Meets M P p s`: the operations that `p` performs from `s` satisfy `P`.
* `Prog.Sure M P Q p s`: if they do, then `Q` holds of the result.
* `Prog.Twin M P Q p q s t`: if the operations of `p` from `s` satisfy `P`, then `p` from `s` and `q` from
  `t` both have no result, or have results related by `Q`. Nothing is asked of the operations of `q`.

The rules for `Twin` follow the structure of the two programs: an operation of one side
(`twin_left`, `twin_right`), a part that both have in common (`twin_op`, `twin_call`), two parts that
are related (`Twin.bind`), and a part that does not tell the two states apart (`Uses.twin`).
-/

namespace Conc

/-- Operations on a state that includes the answers of the environment. -/
structure Machine (Op : Type) (Resp : Op → Type) (S : Type) where
  exec : (o : Op) → S → Option (Resp o × S)
  dead : S → Bool
  stops : ∀ o s, dead s = true → exec o s = none

namespace Prog

variable {Op S α β γ δ : Type} {Resp : Op → Type}

section

variable (M : Machine Op Resp S)

/-- The result of `p` from `s`, if it comes to one alive. -/
def eval : Prog Op Resp α → S → Option (α × S)
  | ret a, s => if M.dead s then none else some (a, s)
  | act o k, s =>
    match M.exec o s with
    | none => none
    | some (r, s') => (k r).eval s'

/-- The operations that `p` performs from `s` satisfy `P`. -/
def Meets (P : Op → S → Prop) : Prog Op Resp α → S → Prop
  | ret _, _ => True
  | act o k, s => P o s ∧
    match M.exec o s with
    | none => True
    | some (r, s') => (k r).Meets P s'

/-- If the operations of `p` from `s` satisfy `P`, then `Q` holds of its result. -/
def Sure (P : Op → S → Prop) (Q : α → S → Prop) (p : Prog Op Resp α) (s : S) : Prop :=
  p.Meets M P s → ∀ a s', p.eval M s = some (a, s') → Q a s'

/-- If the operations of `p` from `s` satisfy `P`, then it ends as `q` from `t` does, up to `Q`. -/
def Twin (P : Op → S → Prop) (Q : α → S → β → S → Prop) (p : Prog Op Resp α) (q : Prog Op Resp β)
    (s t : S) : Prop :=
  p.Meets M P s → Option.Rel (fun x y => Q x.1 x.2 y.1 y.2) (p.eval M s) (q.eval M t)

end

variable {M : Machine Op Resp S} {P : Op → S → Prop} {s t : S}

/-! ## Results -/

theorem eval_dead (h : M.dead s = true) : ∀ p : Prog Op Resp α, p.eval M s = none := by
  intro p
  cases p with
  | ret a => simp [eval, h]
  | act o k => simp only [eval, M.stops o s h]

theorem eval_op {o : Op} {f : Resp o → Prog Op Resp β} {r : Resp o} {s' : S} (h : M.exec o s = some (r, s')) :
    (op o >>= f).eval M s = (f r).eval M s' := by
  simp only [op_bind, eval, h]

theorem eval_bind {p : Prog Op Resp α} {f : α → Prog Op Resp β} :
    ∀ {s}, (p >>= f).eval M s = (p.eval M s).bind fun x => (f x.1).eval M x.2 := by
  induction p with
  | ret a =>
    intro s
    cases h : M.dead s with
    | false => simp [eval, h]
    | true => simp [eval, h, eval_dead h]
  | act o k ih =>
    intro s
    simp only [act_bind, eval]
    cases M.exec o s with
    | none => rfl
    | some x => exact ih x.1

theorem meets_act {o : Op} {k : Resp o → Prog Op Resp α} :
    (act o k).Meets M P s ↔ P o s ∧ ∀ r s', M.exec o s = some (r, s') → (k r).Meets M P s' := by
  simp only [Meets]
  cases M.exec o s with
  | none => simp
  | some x =>
    refine and_congr_right fun _ => ⟨fun h r s' he => ?_, fun h => h x.1 x.2 rfl⟩
    cases he; exact h

theorem meets_bind {p : Prog Op Resp α} {f : α → Prog Op Resp β} :
    ∀ {s}, (p >>= f).Meets M P s →
      p.Meets M P s ∧ ∀ a s', p.eval M s = some (a, s') → (f a).Meets M P s' := by
  induction p with
  | ret a =>
    intro s h
    refine ⟨trivial, fun b s' he => ?_⟩
    simp only [eval] at he
    split at he
    · cases he
    · cases he; exact h
  | act o k ih =>
    intro s h
    rw [act_bind, meets_act] at h
    refine ⟨meets_act.2 ⟨h.1, fun r s' he => (ih r (h.2 r s' he)).1⟩, fun a s' he => ?_⟩
    simp only [eval] at he
    cases hx : M.exec o s with
    | none => rw [hx] at he; cases he
    | some x =>
      rw [hx] at he
      exact (ih x.1 (h.2 x.1 x.2 hx)).2 a s' he

instance decidableMeets [∀ o s, Decidable (P o s)] :
    ∀ (p : Prog Op Resp α) (s : S), Decidable (p.Meets M P s)
  | ret _, _ => isTrue trivial
  | act o k, s =>
    match he : M.exec o s with
    | none => decidable_of_iff (P o s) (by simp [Meets, he])
    | some x =>
      have := decidableMeets (k x.1) x.2
      decidable_of_iff (P o s ∧ (k x.1).Meets M P x.2) (by simp [Meets, he])

/-! ## One program -/

variable {Q : α → S → Prop}

theorem sure_ret {a : α} (h : Q a s) : Sure M P Q (ret a) s := by
  intro _ b s' he
  simp only [eval] at he
  split at he
  · cases he
  · cases he; exact h

theorem sure_op {o : Op} {f : Resp o → Prog Op Resp α}
    (h : ∀ r s', P o s → M.exec o s = some (r, s') → Sure M P Q (f r) s') : Sure M P Q (op o >>= f) s := by
  intro hm a s' he
  rw [op_bind, meets_act] at hm
  rw [op_bind] at he
  simp only [eval] at he
  cases hx : M.exec o s with
  | none => rw [hx] at he; cases he
  | some x =>
    rw [hx] at he
    exact h x.1 x.2 hm.1 hx (hm.2 x.1 x.2 hx) a s' he

theorem Sure.mono {Q' : α → S → Prop} {p : Prog Op Resp α} (h : Sure M P Q p s) (hQ : ∀ a s', Q a s' → Q' a s') :
    Sure M P Q' p s := fun hm a s' he => hQ a s' (h hm a s' he)

theorem Sure.bind {Q' : β → S → Prop} {p : Prog Op Resp α} {f : α → Prog Op Resp β} (h : Sure M P Q p s)
    (hf : ∀ a s', Q a s' → Sure M P Q' (f a) s') : Sure M P Q' (p >>= f) s := by
  intro hm b s'' he
  obtain ⟨hp, hk⟩ := meets_bind hm
  rw [eval_bind] at he
  cases hx : p.eval M s with
  | none => rw [hx] at he; cases he
  | some x =>
    rw [hx] at he
    exact hf x.1 x.2 (h hp x.1 x.2 hx) (hk x.1 x.2 hx) b s'' he

/-- A state property that every operation in `T` keeps is kept by a program of such operations. -/
theorem Uses.sure {T : Op → Prop} {I : S → Prop} {p : Prog Op Resp α} (hp : p.Uses T)
    (hI : ∀ o s r s', T o → P o s → I s → M.exec o s = some (r, s') → I s') :
    ∀ {s}, I s → Sure M P (fun _ => I) p s := by
  induction p with
  | ret a => intro s h; exact sure_ret h
  | act o k ih => intro s h; exact sure_op fun r s' ho he => ih r (hp.2 r) (hI o s r s' hp.1 ho h he)

/-! ## Two programs -/

variable {R : α → S → β → S → Prop}

theorem twin_dead {p : Prog Op Resp α} {q : Prog Op Resp β} (hs : M.dead s = true) (ht : M.dead t = true) :
    Twin M P R p q s t := by
  intro _
  rw [eval_dead hs, eval_dead ht]
  exact .none

theorem twin_ret {a : α} {b : β} (hd : M.dead s = M.dead t) (h : R a s b t) : Twin M P R (ret a) (ret b) s t := by
  intro _
  simp only [eval, ← hd]
  split
  · exact .none
  · exact .some h

/-- An operation of the first program. -/
theorem twin_left {o : Op} {f : Resp o → Prog Op Resp α} {q : Prog Op Resp β} {r : Resp o} {s' : S}
    (he : M.exec o s = some (r, s')) (h : P o s → Twin M P R (f r) q s' t) : Twin M P R (op o >>= f) q s t := by
  intro hm
  rw [op_bind, meets_act] at hm
  rw [eval_op he]
  exact h hm.1 (hm.2 r s' he)

/-- An operation of the second program. -/
theorem twin_right {o : Op} {p : Prog Op Resp α} {g : Resp o → Prog Op Resp β} {r : Resp o} {t' : S}
    (he : M.exec o t = some (r, t')) (h : Twin M P R p (g r) s t') : Twin M P R p (op o >>= g) s t := by
  intro hm
  rw [eval_op he]
  exact h hm

/-- An operation that both programs perform, from one state. -/
theorem twin_op {o : Op} {f : Resp o → Prog Op Resp α} {g : Resp o → Prog Op Resp β}
    (h : ∀ r s', P o s → M.exec o s = some (r, s') → Twin M P R (f r) (g r) s' s') :
    Twin M P R (op o >>= f) (op o >>= g) s s := by
  intro hm
  rw [op_bind, meets_act] at hm
  simp only [op_bind, eval]
  cases hx : M.exec o s with
  | none => exact .none
  | some x => exact h x.1 x.2 hm.1 hx (hm.2 x.1 x.2 hx)

/-- A part that both programs have, from one state. -/
theorem twin_call {p : Prog Op Resp γ} {f : γ → Prog Op Resp α} {g : γ → Prog Op Resp β} {Q : γ → S → Prop}
    (hp : Sure M P Q p s) (h : ∀ c s', Q c s' → Twin M P R (f c) (g c) s' s') :
    Twin M P R (p >>= f) (p >>= g) s s := by
  intro hm
  obtain ⟨hpm, hk⟩ := meets_bind hm
  rw [eval_bind, eval_bind]
  cases hx : p.eval M s with
  | none => exact .none
  | some x => exact h x.1 x.2 (hp hpm x.1 x.2 hx) (hk x.1 x.2 hx)

theorem Twin.mono {R' : α → S → β → S → Prop} {p : Prog Op Resp α} {q : Prog Op Resp β} (h : Twin M P R p q s t)
    (hR : ∀ a s' b t', R a s' b t' → R' a s' b t') : Twin M P R' p q s t := by
  intro hm
  have hpq := h hm
  generalize p.eval M s = x at hpq ⊢
  generalize q.eval M t = y at hpq ⊢
  cases hpq with
  | none => exact .none
  | some hab => exact .some (hR _ _ _ _ hab)

/-- What is known of the first program alone. -/
theorem Twin.and {Q : α → S → Prop} {p : Prog Op Resp α} {q : Prog Op Resp β} (h : Twin M P R p q s t)
    (hp : Sure M P Q p s) : Twin M P (fun a s' b t' => R a s' b t' ∧ Q a s') p q s t := by
  intro hm
  have hpq := h hm
  have hQ := hp hm
  generalize p.eval M s = x at hpq hQ ⊢
  generalize q.eval M t = y at hpq ⊢
  cases hpq with
  | none => exact .none
  | some hab => exact .some ⟨hab, hQ _ _ rfl⟩

theorem Twin.bind {R' : γ → S → δ → S → Prop} {p : Prog Op Resp α} {q : Prog Op Resp β}
    {f : α → Prog Op Resp γ} {g : β → Prog Op Resp δ} (h : Twin M P R p q s t)
    (hfg : ∀ a s' b t', R a s' b t' → Twin M P R' (f a) (g b) s' t') :
    Twin M P R' (p >>= f) (q >>= g) s t := by
  intro hm
  obtain ⟨hp, hk⟩ := meets_bind hm
  have hpq := h hp
  rw [eval_bind, eval_bind]
  cases hx : p.eval M s with
  | none =>
    rw [hx] at hpq
    cases hy : q.eval M t with
    | none => exact .none
    | some y => rw [hy] at hpq; cases hpq
  | some x =>
    rw [hx] at hpq
    cases hy : q.eval M t with
    | none => rw [hy] at hpq; cases hpq
    | some y =>
      rw [hy] at hpq
      cases hpq with
      | some hab => exact hfg x.1 x.2 y.1 y.2 hab (hk x.1 x.2 hx)

/-- A program whose operations do not tell the two states apart. -/
theorem Uses.twin {T : Op → Prop} {E : S → S → Prop} {p : Prog Op Resp α} (hp : p.Uses T)
    (hdead : ∀ s t, E s t → M.dead s = M.dead t)
    (hE : ∀ o s t, T o → E s t →
      Option.Rel (fun x y => x.1 = y.1 ∧ E x.2 y.2) (M.exec o s) (M.exec o t)) :
    ∀ {s t}, E s t → Twin M P (fun a s' b t' => a = b ∧ E s' t') p p s t := by
  induction p with
  | ret a => intro s t h; exact twin_ret (hdead s t h) ⟨rfl, h⟩
  | act o k ih =>
    intro s t h hm
    have hst := hE o s t hp.1 h
    rw [meets_act] at hm
    simp only [eval]
    cases hx : M.exec o s with
    | none =>
      rw [hx] at hst
      cases hy : M.exec o t with
      | none => exact .none
      | some y => rw [hy] at hst; cases hst
    | some x =>
      rw [hx] at hst
      cases hy : M.exec o t with
      | none => rw [hy] at hst; cases hst
      | some y =>
        rw [hy] at hst
        obtain ⟨r, s'⟩ := x
        obtain ⟨r', t'⟩ := y
        cases hst with
        | some h' =>
          obtain ⟨rfl, h'⟩ := h'
          exact ih r (hp.2 r) h' (hm.2 r s' hx)

end Prog

end Conc
