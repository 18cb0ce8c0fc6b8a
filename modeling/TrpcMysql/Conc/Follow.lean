import TrpcMysql.Conc.Prog

/-!
# A program that follows another

Two programs over different operations, each with its own state. `Prog.Can` says that some execution of a program
ends as it should, where `Prog.wp` says that every one does. `Prog.Follows` is the two together: whatever an
execution of `p` from `s` ends in, some execution of `q` from `t` ends in what is related to it (`Follows.run`).

The rules go through both programs at once: an operation of one side (`follows_left`, `follows_right`), a part of the
first side alone (`follows_call`), and two parts of which one follows the other (`Follows.bind`).
-/

namespace Conc

namespace Prog

variable {Op Op' A B S T α β γ δ : Type} {Resp : Op → Type} {Resp' : Op' → Type}

/-! ## Some execution -/

/-- Some execution of `p` from `s` ends in `Q`. -/
def Can (exec : (o : Op) → A → S → Option (Resp o × S)) (Q : α → S → Prop) : Prog Op Resp α → S → Prop
  | ret a, s => Q a s
  | act o k, s => ∃ a r s', exec o a s = some (r, s') ∧ (k r).Can exec Q s'

section Can

variable {exec : (o : Op) → A → S → Option (Resp o × S)} {p : Prog Op Resp α} {Q : α → S → Prop}

/-- An end that the program can come to. -/
theorem Can.point : ∀ {s}, p.Can exec Q s → ∃ a s', Q a s' ∧ ∀ P : α → S → Prop, P a s' → p.Can exec P s := by
  induction p with
  | ret a => exact fun h => ⟨a, _, h, fun _ hP => hP⟩
  | act o k ih =>
    rintro s ⟨a, r, s', he, h⟩
    obtain ⟨b, s'', hQ, hback⟩ := ih r h
    exact ⟨b, s'', hQ, fun P hP => ⟨a, r, s', he, hback P hP⟩⟩

theorem can_bind {f : α → Prog Op Resp β} {Q : β → S → Prop} :
    ∀ {s}, (p >>= f).Can exec Q s ↔ p.Can exec (fun a => (f a).Can exec Q) s := by
  induction p with
  | ret a => exact Iff.rfl
  | act o k ih =>
    intro s
    exact exists_congr fun a => exists_congr fun r => exists_congr fun s' => and_congr_right fun _ => ih r

/-- **`Can` says nothing more than that an execution ends in `Q`.** -/
theorem can_iff_run : ∀ {s}, p.Can exec Q s ↔ ∃ as a s', p.run exec s as = some (a, s', []) ∧ Q a s' := by
  induction p with
  | ret a =>
    intro s
    constructor
    · exact fun h => ⟨[], a, s, rfl, h⟩
    · rintro ⟨as, b, s', hr, h⟩
      cases hr
      exact h
  | act o k ih =>
    intro s
    constructor
    · rintro ⟨a, r, s', he, h⟩
      obtain ⟨as, b, s'', hr, hQ⟩ := (ih r).1 h
      exact ⟨a :: as, b, s'', by simp only [run, he, hr], hQ⟩
    · rintro ⟨as, b, s'', hr, hQ⟩
      cases as with
      | nil => cases hr
      | cons a as =>
        simp only [run] at hr
        cases he : exec o a s with
        | none => rw [he] at hr; cases hr
        | some x => rw [he] at hr; exact ⟨a, x.1, x.2, he, (ih x.1).2 ⟨as, b, s'', hr, hQ⟩⟩

end Can

/-! ## Following -/

variable {exec : (o : Op) → A → S → Option (Resp o × S)} {exec' : (o : Op') → B → T → Option (Resp' o × T)}

/-- Whatever `p` does from `s`, `q` can do from `t`, up to `R`. -/
def Follows (exec : (o : Op) → A → S → Option (Resp o × S)) (exec' : (o : Op') → B → T → Option (Resp' o × T))
    (R : α → S → β → T → Prop) (p : Prog Op Resp α) (q : Prog Op' Resp' β) (s : S) (t : T) : Prop :=
  p.wp exec (fun a s' => q.Can exec' (R a s') t) s

variable {R : α → S → β → T → Prop} {p : Prog Op Resp α} {q : Prog Op' Resp' β} {s s' : S} {t : T}

theorem follows_ret {a : α} {b : β} (h : R a s b t) : Follows exec exec' R (ret a) (ret b) s t := h

theorem follows_left {o : Op} {f : Resp o → Prog Op Resp α}
    (h : ∀ a r s', exec o a s = some (r, s') → Follows exec exec' R (f r) q s' t) :
    Follows exec exec' R (op o >>= f) q s t := h

theorem follows_right {o : Op'} {g : Resp' o → Prog Op' Resp' β} {b : B} {r : Resp' o} {t' : T}
    (he : exec' o b t = some (r, t')) (h : Follows exec exec' R p (g r) s t') :
    Follows exec exec' R p (op o >>= g) s t := wp_mono (fun _ _ hc => ⟨b, r, t', he, hc⟩) h

theorem follows_call {Q : γ → S → Prop} {p : Prog Op Resp γ} {f : γ → Prog Op Resp α} (h : p.wp exec Q s)
    (hf : ∀ a s', Q a s' → Follows exec exec' R (f a) q s' t) : Follows exec exec' R (p >>= f) q s t :=
  wp_bind.2 (wp_mono hf h)

theorem Follows.bind {Q : γ → S → δ → T → Prop} {p : Prog Op Resp γ} {q : Prog Op' Resp' δ} {f : γ → Prog Op Resp α}
    {g : δ → Prog Op' Resp' β} (h : Follows exec exec' Q p q s t)
    (hfg : ∀ a s' b t', Q a s' b t' → Follows exec exec' R (f a) (g b) s' t') :
    Follows exec exec' R (p >>= f) (q >>= g) s t := by
  refine follows_call h fun a s' hc => ?_
  obtain ⟨b, t', hQ, hback⟩ := hc.point
  exact wp_mono (fun _ _ hg => can_bind.2 (hback _ hg)) (hfg a s' b t' hQ)

theorem Follows.mono {R' : α → S → β → T → Prop} (h : Follows exec exec' R p q s t)
    (hR : ∀ a s' b t', R a s' b t' → R' a s' b t') : Follows exec exec' R' p q s t := by
  refine wp_mono (fun a s' hc => ?_) h
  obtain ⟨b, t', hQ, hback⟩ := hc.point
  exact hback _ (hR a s' b t' hQ)

/-- **An execution that is followed.** -/
theorem Follows.run (h : Follows exec exec' R p q s t) {as rest : List A} {a : α}
    (hr : p.run exec s as = some (a, s', rest)) :
    ∃ bs b t', q.run exec' t bs = some (b, t', []) ∧ R a s' b t' := by
  have hend : q.Can exec' (R a s') t := wp_run (Q := fun a s' => q.Can exec' (R a s') t) h hr
  exact can_iff_run.1 hend

end Prog

end Conc
