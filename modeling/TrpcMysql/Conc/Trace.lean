import TrpcMysql.Conc.Prog

/-!
# What an observer sees of a program

An observer sees something, or nothing, of every operation and its reply. `Prog.Path` lists what
it sees along a path of the program, whatever the replies are; every execution is such a path
(`run_path`). `Prog.Shows` says what holds of all paths, and follows the program's structure.
-/

namespace Conc

namespace Prog

variable {Op A S α β σ : Type} {Resp : Op → Type}

/-- A path of the program, from the start to its result, and what is seen of it. -/
inductive Path (see : (o : Op) → Resp o → List σ) : Prog Op Resp α → List σ → α → Prop
  | ret (a : α) : Path see (ret a) [] a
  | act {o : Op} {k : Resp o → Prog Op Resp α} {tr : List σ} {a : α} (r : Resp o) (h : Path see (k r) tr a) :
      Path see (act o k) (see o r ++ tr) a

/-- What is seen on every path, and the result, are as `Q` says. -/
def Shows (see : (o : Op) → Resp o → List σ) (p : Prog Op Resp α) (Q : List σ → α → Prop) : Prop :=
  ∀ tr a, p.Path see tr a → Q tr a

variable {see : (o : Op) → Resp o → List σ}

theorem shows_ret {a : α} {Q : List σ → α → Prop} : (ret a : Prog Op Resp α).Shows see Q ↔ Q [] a := by
  refine ⟨fun h => h _ _ (.ret a), fun h tr a hp => ?_⟩
  cases hp
  exact h

theorem shows_act {o : Op} {k : Resp o → Prog Op Resp α} {Q : List σ → α → Prop} :
    (act o k).Shows see Q ↔ ∀ r, (k r).Shows see fun tr a => Q (see o r ++ tr) a := by
  refine ⟨fun h r tr a hp => h _ _ (.act r hp), fun h tr a hp => ?_⟩
  cases hp with
  | act r hp => exact h r _ _ hp

theorem Shows.mono {p : Prog Op Resp α} {Q Q' : List σ → α → Prop} (h : p.Shows see Q)
    (hQ : ∀ tr a, Q tr a → Q' tr a) : p.Shows see Q' := fun tr a hp => hQ tr a (h tr a hp)

theorem shows_bind {p : Prog Op Resp α} {f : α → Prog Op Resp β} {Q : List σ → β → Prop} :
    (p >>= f).Shows see Q ↔ p.Shows see fun tr a => (f a).Shows see fun tr' b => Q (tr ++ tr') b := by
  induction p generalizing Q with
  | ret a => rw [shows_ret]; exact Iff.rfl
  | act o k ih =>
    rw [act_bind, shows_act, shows_act]
    refine forall_congr' fun r => ?_
    rw [ih r]
    simp only [List.append_assoc]

/-- A program of unseen operations shows nothing. -/
theorem Uses.shows {P : Op → Prop} {p : Prog Op Resp α} (hp : p.Uses P) (hP : ∀ o r, P o → see o r = []) :
    p.Shows see fun tr _ => tr = [] := by
  induction p with
  | ret a => exact shows_ret.2 rfl
  | act o k ih =>
    refine shows_act.2 fun r => (ih r (hp.2 r)).mono fun tr a h => ?_
    rw [hP o r hp.1, h, List.append_nil]

/-- A program's operations, read in a larger set. -/
theorem uses_lift {Op' : Type} {Resp' : Op' → Type} {f : Op → Op'} {g : ∀ o, Resp' (f o) → Resp o}
    {P : Op' → Prop} (hP : ∀ o, P (f o)) (p : Prog Op Resp α) : (p.lift f g).Uses P := by
  induction p with
  | ret a => trivial
  | act o k ih => exact ⟨hP o, fun r => ih (g o r)⟩

theorem Uses.lift {Op' : Type} {Resp' : Op' → Type} {f : Op → Op'} {g : ∀ o, Resp' (f o) → Resp o} {Q : Op → Prop}
    {P : Op' → Prop} {p : Prog Op Resp α} (hp : p.Uses Q) (hP : ∀ o, Q o → P (f o)) : (p.lift f g).Uses P := by
  induction p with
  | ret a => trivial
  | act o k ih => exact ⟨hP o hp.1, fun r => ih (g o r) (hp.2 (g o r))⟩

/-- What is seen of an execution. -/
def seen (exec : (o : Op) → A → S → Option (Resp o × S)) (see : (o : Op) → Resp o → List σ) :
    Prog Op Resp α → S → List A → List σ
  | ret _, _, _ => []
  | act _ _, _, [] => []
  | act o k, s, a :: as =>
    match exec o a s with
    | none => []
    | some (r, s') => see o r ++ (k r).seen exec see s' as

/-- **Every execution is a path.** -/
theorem run_path {exec : (o : Op) → A → S → Option (Resp o × S)} {p : Prog Op Resp α} :
    ∀ {s as a s' rest}, p.run exec s as = some (a, s', rest) → p.Path see (p.seen exec see s as) a := by
  induction p with
  | ret b =>
    intro s as a s' rest hr
    simp only [run, Option.some.injEq, Prod.mk.injEq] at hr
    obtain ⟨rfl, -⟩ := hr
    exact .ret b
  | act o k ih =>
    intro s as a s' rest hr
    cases as with
    | nil => simp [run] at hr
    | cons b as =>
      simp only [run, seen] at hr ⊢
      cases he : exec o b s with
      | none => rw [he] at hr; simp at hr
      | some x => rw [he] at hr; exact .act x.1 (ih x.1 hr)

/-- What is seen of an execution is seen of one of its operations. -/
theorem mem_seen {exec : (o : Op) → A → S → Option (Resp o × S)} {p : Prog Op Resp α} {c : σ} :
    ∀ {s as}, c ∈ p.seen exec see s as → ∃ o a s r s', a ∈ as ∧ exec o a s = some (r, s') ∧ c ∈ see o r := by
  induction p with
  | ret b =>
    intro s as hc
    cases hc
  | act o k ih =>
    intro s as hc
    cases as with
    | nil => cases hc
    | cons a as =>
      simp only [seen] at hc
      cases he : exec o a s with
      | none => rw [he] at hc; cases hc
      | some x =>
        rw [he] at hc
        rcases List.mem_append.1 hc with hc | hc
        · exact ⟨o, a, s, x.1, x.2, List.mem_cons_self, he, hc⟩
        · obtain ⟨o', b, t, r, t', hb, ht⟩ := ih x.1 hc
          exact ⟨o', b, t, r, t', List.mem_cons_of_mem a hb, ht⟩

end Prog

end Conc
