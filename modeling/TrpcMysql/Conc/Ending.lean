import TrpcMysql.Conc.Trace

/-!
# How an execution ends

An execution ends when its program returns, or at an operation that is refused (`Ending`).
`Prog.Tells` says what holds at the end, of what an observer has seen by then, of the result or the
refused operation, and of the state; it follows the program's structure (`tells_op`, `tells_call`),
and `Tells.ending` is what it says of an execution.
-/

namespace Conc

/-- The end of an execution. -/
inductive Ending (Op α S : Type) where
  | returned (a : α) (s : S)
  | refused (o : Op)

namespace Ending

variable {Op α S : Type}

/-- The result, if there is one. -/
def result : Ending Op α S → Option α
  | returned a _ => some a
  | refused _ => none

/-- The operation that was refused, if one was. -/
def stop : Ending Op α S → Option Op
  | returned _ _ => none
  | refused o => some o

end Ending

namespace Prog

variable {Op A S α β σ : Type} {Resp : Op → Type}

/-- The end of the execution of `p` on the answers `as`, if it comes to one. -/
def ending (exec : (o : Op) → A → S → Option (Resp o × S)) :
    Prog Op Resp α → S → List A → Option (Ending Op α S)
  | ret a, s, _ => some (.returned a s)
  | act _ _, _, [] => none
  | act o k, s, a :: as =>
    match exec o a s with
    | none => some (.refused o)
    | some (r, s') => (k r).ending exec s' as

variable {exec : (o : Op) → A → S → Option (Resp o × S)} {see : (o : Op) → Resp o → List σ}

/-- An execution that comes to its result ends there. -/
theorem ending_of_run {p : Prog Op Resp α} :
    ∀ {s as a s' rest}, p.run exec s as = some (a, s', rest) → p.ending exec s as = some (.returned a s') := by
  induction p with
  | ret b =>
    intro s as a s' rest h
    simp only [run, Option.some.injEq, Prod.mk.injEq] at h
    obtain ⟨rfl, rfl, -⟩ := h
    rfl
  | act o k ih =>
    intro s as a s' rest h
    cases as with
    | nil => simp [run] at h
    | cons b as =>
      simp only [run] at h
      simp only [ending]
      cases he : exec o b s with
      | none => rw [he] at h; cases h
      | some x => rw [he] at h; exact ih x.1 h

/-- When the execution of `p` from `s` ends, with `tr` seen before: a refused operation and what was
seen are as `R` says, and a result, what was seen and the state as `Q` says. -/
def Tells (exec : (o : Op) → A → S → Option (Resp o × S)) (see : (o : Op) → Resp o → List σ)
    (R : List σ → Op → Prop) : Prog Op Resp α → (List σ → α → S → Prop) → List σ → S → Prop
  | ret a, Q, tr, s => Q tr a s
  | act o k, Q, tr, s => ∀ a, (exec o a s = none → R tr o) ∧
    ∀ r s', exec o a s = some (r, s') → (k r).Tells exec see R Q (tr ++ see o r) s'

variable {R : List σ → Op → Prop} {tr : List σ} {s : S}

theorem tells_pure {a : α} {Q : List σ → α → S → Prop} (h : Q tr a s) :
    (pure a : Prog Op Resp α).Tells exec see R Q tr s := h

theorem tells_op {o : Op} {f : Resp o → Prog Op Resp β} {Q : List σ → β → S → Prop}
    (hr : ∀ a, exec o a s = none → R tr o)
    (hf : ∀ a r s', exec o a s = some (r, s') → (f r).Tells exec see R Q (tr ++ see o r) s') :
    (op o >>= f).Tells exec see R Q tr s := fun a => ⟨hr a, fun r s' he => hf a r s' he⟩

theorem Tells.mono {p : Prog Op Resp α} {Q Q' : List σ → α → S → Prop}
    (hQ : ∀ tr a s, Q tr a s → Q' tr a s) :
    ∀ {tr s}, p.Tells exec see R Q tr s → p.Tells exec see R Q' tr s := by
  induction p with
  | ret a => intro tr s h; exact hQ tr a s h
  | act o k ih => intro tr s h a; exact ⟨(h a).1, fun r s' he => ih r ((h a).2 r s' he)⟩

theorem Tells.weaken {R' : List σ → Op → Prop} {p : Prog Op Resp α} {Q : List σ → α → S → Prop}
    (hR : ∀ tr o, R tr o → R' tr o) : ∀ {tr s}, p.Tells exec see R Q tr s → p.Tells exec see R' Q tr s := by
  induction p with
  | ret a => intro tr s h; exact h
  | act o k ih => intro tr s h a; exact ⟨fun he => hR tr o ((h a).1 he), fun r s' he => ih r ((h a).2 r s' he)⟩

/-- A call of a function that is known by `P`. -/
theorem tells_call {p : Prog Op Resp α} {f : α → Prog Op Resp β} {P : List σ → α → S → Prop}
    {Q : List σ → β → S → Prop} (hf : ∀ tr a s, P tr a s → (f a).Tells exec see R Q tr s) :
    ∀ {tr s}, p.Tells exec see R P tr s → (p >>= f).Tells exec see R Q tr s := by
  induction p with
  | ret a => intro tr s h; exact hf tr a s h
  | act o k ih => intro tr s h a; exact ⟨(h a).1, fun r s' he => ih r ((h a).2 r s' he)⟩

/-- What holds of the result and the state, without what is seen. -/
theorem Tells.wp {p : Prog Op Resp α} {Q : List σ → α → S → Prop} :
    ∀ {tr s}, p.Tells exec see R Q tr s → p.wp exec (fun a s => ∃ tr, Q tr a s) s := by
  induction p with
  | ret a => intro tr s h; exact ⟨tr, h⟩
  | act o k ih => intro tr s h a r s' he; exact ih r ((h a).2 r s' he)

/-- **What `Tells` says of an execution that ends.** -/
theorem Tells.ending {p : Prog Op Resp α} {Q : List σ → α → S → Prop} {e : Ending Op α S} :
    ∀ {tr s as}, p.Tells exec see R Q tr s → p.ending exec s as = some e →
      match e with
      | .returned a s' => Q (tr ++ p.seen exec see s as) a s'
      | .refused o => R (tr ++ p.seen exec see s as) o := by
  induction p with
  | ret b =>
    intro tr s as h he
    cases he
    simp only [seen, List.append_nil]
    exact h
  | act o k ih =>
    intro tr s as h he
    cases as with
    | nil => cases he
    | cons b as =>
      simp only [Prog.ending] at he
      cases hx : exec o b s with
      | none =>
        rw [hx] at he
        cases he
        simpa [seen, hx] using (h b).1 hx
      | some x =>
        rw [hx] at he
        have hk := ih x.1 ((h b).2 x.1 x.2 hx) he
        simpa [seen, hx] using hk

end Prog

end Conc
