import TrpcMysql.Executor.Walk

/-!
# Specifications of an executor's functions

What `CheckAlive`, `Connect`, `Close` and the constructor do to a well-formed executor
(`ExecSt.Ok`), for every answer of the environment. `Given` lists what may be known of the
environment; a specification (`Spec`) is about the executions that agree with it.
-/

namespace TrpcMysql

open Function Conc

/-! ## Well-formed executors -/

/-- `mysql_` is open while the executor is connected, no other MYSQL object has a session,
and only the user's statements are prepared. -/
structure ExecSt.Ok (s : ExecSt) : Prop where
  conn : s.this.isConnected = true → ∃ p, s.this.mysql = some p ∧ (s.mysqls p).closed = false
  single : ∀ p σ, (s.mysqls p).session = some σ → s.this.mysql = some p
  texts : ∀ q, ∃ t, (s.stmts q).sql = .user t

/-- A session of the executor has an open transaction. -/
def ExecSt.TxOpen (s : ExecSt) : Prop := ∃ p σ, (s.mysqls p).session = some σ ∧ σ.inTx = true

/-- The session of `mysql_` has an open transaction. -/
def ExecSt.inTx (s : ExecSt) : Bool := s.session.any (·.inTx)

theorem ExecSt.Ok.inTx {s : ExecSt} (hs : s.Ok) (h : s.TxOpen) : s.inTx = true := by
  obtain ⟨p, σ, hσ, hin⟩ := h
  simp [ExecSt.inTx, ExecSt.session, hs.single p σ hσ, hσ, hin]

/-- No session of `s'` is new: each is one of `s`, on the same MYSQL object. -/
def ExecSt.Keeps (s s' : ExecSt) : Prop :=
  ∀ p σ, (s'.mysqls p).session = some σ → (s.mysqls p).session = some σ

theorem ExecSt.Keeps.refl (s : ExecSt) : s.Keeps s := fun _ _ h => h

theorem ExecSt.Keeps.trans {s s' s'' : ExecSt} (h : s.Keeps s') (h' : s'.Keeps s'') : s.Keeps s'' :=
  fun p σ hσ => h p σ (h' p σ hσ)

theorem ExecSt.Keeps.txOpen {s s' : ExecSt} (h : s.Keeps s') : s'.TxOpen → s.TxOpen := by
  rintro ⟨p, σ, hσ, hin⟩
  exact ⟨p, σ, h p σ hσ, hin⟩

section Sessions

variable {s : ExecSt} {p q : MysqlPtr} {m : Mysql} {a : ClientAnswer}

namespace ExecSt

/-- Updates that leave the sessions of `p` as they are, or end one, make none. -/
theorem Keeps.setMysql (h : m.session = (s.mysqls p).session ∨ m.session = none) : s.Keeps (s.setMysql p m) := by
  intro q σ hσ
  by_cases hq : q = p
  · subst hq
    rw [setMysql_self] at hσ
    rcases h with h | h
    · rwa [h] at hσ
    · rw [h] at hσ; cases hσ
  · rwa [setMysql_of_ne hq] at hσ

theorem keeps_enter : s.Keeps (s.enter a p) := by
  unfold enter
  split
  · exact .setMysql (.inr rfl)
  · exact .refl s

end ExecSt

/-- What only fades keeps an executor well formed. -/
theorem Fades.keeps {s s' : ExecSt} (h : Fades s s') : s.Keeps s' := by
  intro p σ hσ
  rcases h.session p with h1 | h1
  · rwa [h1] at hσ
  · rw [h1] at hσ; cases hσ

theorem Fades.ok {s s' : ExecSt} (h : Fades s s') (hs : s.Ok) : s'.Ok where
  conn hc := by
    rw [h.this] at hc ⊢
    obtain ⟨p, hp, ho⟩ := hs.conn hc
    exact ⟨p, hp, (h.closed p).trans ho⟩
  single p σ hσ := by
    rw [h.this]
    exact hs.single p σ (h.keeps p σ hσ)
  texts q := by
    rcases h.texts q with h1 | h1
    · rw [h1]; exact hs.texts q
    · exact ⟨_, h1⟩

/-- What only fades puts no result on the line. -/
theorem Fades.idle {s s' : ExecSt} (h : Fades s s') (hb : (s.mysqls p).busy = false) : (s'.mysqls p).busy = false := by
  simp only [Mysql.busy, Bool.or_eq_false_iff, Option.isSome_eq_false_iff, Option.isNone_iff_eq_none] at hb ⊢
  exact ⟨(h.pending p).elim (·.trans hb.1) id, (h.more p).elim (·.trans hb.2) id⟩

/-- The session that a statement runs in is the session of the object. -/
theorem ExecSt.ready_eq {s : ExecSt} {σ : Session} (h : s.ready p = some σ) :
    (s.mysqls p).session = some σ ∧ (s.mysqls p).busy = false := by
  unfold ready at h
  split at h
  · cases h
  · rename_i hp
    exact ⟨h, by simpa using hp⟩

end Sessions

/-! ## What may be known of the environment -/

/-- What may be known of the environment while a program runs: error numbers are honest,
no connection is made, every ping is answered, every text statement succeeds. -/
structure Given where
  numbers : Prop := False
  noConnect : Prop := False
  alive : Prop := False
  succeed : Prop := False

/-- The answer to the operation agrees with what is known. -/
def Given.Allows (g : Given) : ClientOp → ClientAnswer → ExecSt → Prop
  | .mysqlStmtInit _, a, _ => g.numbers → a.ok = true
  | .mysqlErrno m, a, s => g.numbers → (∀ p ∈ m, (s.mysqls p).closed = true) → a.strayNumber ≠ 0
  | .mysqlRealConnect m _, a, s =>
    g.noConnect → ∀ p ∈ m, ¬ (((s.enter a p).mysqls p).session = none ∧ a.ok = true)
  | .mysqlPing m, a, s => g.alive → ∀ p ∈ m, (s.enter a p).ready p ≠ none
  | .mysqlRealQuery m _, a, s => g.succeed → ∀ p ∈ m, (s.enter a p).ready p ≠ none ∧ a.ok = true
  | _, _, _ => True

instance {g : Given} [Decidable g.numbers] [Decidable g.noConnect] [Decidable g.alive] [Decidable g.succeed]
    (o : ClientOp) (a : ClientAnswer) (s : ExecSt) : Decidable (g.Allows o a s) := by
  induction o using ClientOp.casesOn <;> first | exact isTrue trivial | exact inferInstanceAs (Decidable (_ → _))

theorem Given.allows_nothing {o : ClientOp} {a : ClientAnswer} {s : ExecSt} : ({} : Given).Allows o a s := by
  cases o <;> first | exact trivial | exact fun h => h.elim

/-- In every execution that agrees with what is known, `Q` holds at the end. -/
abbrev Spec {α : Type} (g : Given) (p : XProg α) (Q : α → ExecSt → Prop) (s : ExecSt) : Prop :=
  p.gwp clientExec g.Allows (fun _ _ _ => True) Q s

section Rules

variable {α β : Type} {g : Given} {s : ExecSt} {Q : β → ExecSt → Prop}

theorem Spec.mono {p : XProg α} {Q Q' : α → ExecSt → Prop} (h : Spec g p Q s) (hQ : ∀ a s, Q a s → Q' a s) :
    Spec g p Q' s := Prog.gwp_mono hQ h

/-- What holds where nothing is known holds in every execution. -/
theorem Spec.any {p : XProg α} {Q : α → ExecSt → Prop} (h : Spec {} p Q s) :
    p.gwp clientExec (fun _ _ _ => True) (fun _ _ _ => True) Q s :=
  Prog.gwp_guard (fun _ _ _ _ => Given.allows_nothing) h

theorem Spec.and {p : XProg α} {Q Q' : α → ExecSt → Prop} (h : Spec g p Q s) (h' : Spec g p Q' s) :
    Spec g p (fun a s => Q a s ∧ Q' a s) s := Prog.gwp_and h h'

theorem Spec.bind {p : XProg α} {f : α → XProg β} {Q' : α → ExecSt → Prop} (h : Spec g p Q' s)
    (hf : ∀ a s', Q' a s' → Spec g (f a) Q s') : Spec g (p >>= f) Q s := by
  rw [Spec, Prog.gwp_bind]
  exact Prog.gwp_mono hf h

/-- One operation. -/
theorem Spec.op {o : ClientOp} {f : o.Reply → XProg β}
    (h : ∀ a r s', g.Allows o a s → clientExec o a s = some (r, s') → Spec g (f r) Q s') :
    Spec g (xop o >>= f) Q s := fun a ha => ⟨trivial, fun r s' he => h a r s' ha he⟩

theorem Spec.crash {why : Crash} : Spec g (TrpcMysql.crash why : XProg β) Q s := fun _ _ => ⟨trivial, fun r => r.elim⟩

theorem Spec.getThis {f : ExecutorFields → XProg β} (h : Spec g (f s.this) Q s) :
    Spec g (getThis >>= f) Q s := .op fun a r s' _ he => by cases he; exact h

theorem Spec.setConnected {b : Bool} {f : Unit → XProg β}
    (h : Spec g (f ()) Q { s with this := { s.this with isConnected := b } }) :
    Spec g (setConnected b >>= f) Q s := .op fun a r s' _ he => by cases he; exact h

end Rules

/-! ## `CheckAlive` -/

/-- What `CheckAlive` leaves. -/
structure Checked (g : Given) (s : ExecSt) (alive : Bool) (s' : ExecSt) : Prop where
  ok : s'.Ok
  this : s'.this = { s.this with isConnected := alive }
  stmts : s'.stmts = s.stmts
  events : s'.events = s.events
  keeps : s.Keeps s'
  up : alive = true → s.this.isConnected = true ∧
    ∃ p σ, s.this.mysql = some p ∧ (s'.mysqls p).session = some σ ∧ (s'.mysqls p).busy = false
  answered : g.alive → s.this.isConnected = true → alive = true
  lost : alive = false → s.this.isConnected = true →
    (∀ p ∈ s.this.mysql, (s.mysqls p).busy = false) → ∀ p, (s'.mysqls p).session = none

namespace ExecSt

variable {s : ExecSt}

/-- Taking the flag back keeps an executor well formed. -/
theorem Ok.off (hs : s.Ok) : Ok { s with this := { s.this with isConnected := false } } :=
  ⟨fun h => (by cases h), hs.single, hs.texts⟩

end ExecSt

namespace MysqlExecutor

variable {g : Given} {s : ExecSt}

open ExecSt in
theorem checkAlive_spec (hs : s.Ok) : Spec g checkAlive (Checked g s) s := by
  refine .getThis ?_
  by_cases hc : s.this.isConnected = true
  · obtain ⟨p, hp, hopen⟩ := hs.conn hc
    simp only [hc, hp, Option.isSome_some, Bool.not_true, Bool.false_eq_true, if_false, if_true]
    refine .op fun a r s' ha he => ?_
    obtain ⟨p', hp', ⟨rfl, ⟨σ, hσ⟩, rfl⟩ | ⟨rfl, hr, rfl⟩⟩ := ping_exec he
    · -- the ping is answered
      obtain rfl : p = p' := Option.some.inj hp'
      obtain ⟨h1, h2⟩ := ready_eq hσ
      have hf : Fades s ((s.enter a p).setMysql p ((s.enter a p).mysqls p).clear) :=
        (Fades.refl s).enter.setMysql ⟨rfl, rfl⟩ (.inl rfl) (.inl rfl) (.inl rfl)
      have hthis : s.this = { s.this with isConnected := true } := by rw [← hc]
      exact ⟨hf.ok hs, hf.this.trans hthis, enter_stmts, enter_events, hf.keeps,
        fun _ => ⟨hc, p, σ, hp, by simpa [Mysql.clear] using h1, by simpa [Mysql.clear, Mysql.busy] using h2⟩,
        fun _ _ => rfl, fun h => (by cases h)⟩
    · -- the ping fails: the session is lost, or a result is pending
      obtain rfl : p = p' := Option.some.inj hp'
      have hf : Fades s ((s.enter a p).setMysql p (((s.enter a p).mysqls p).fail a.error)) :=
        (Fades.refl s).enter.fail
      refine .setConnected ?_
      refine ⟨(hf.ok hs).off, by rw [hf.this], enter_stmts, enter_events, hf.keeps,
        fun h => (by cases h), fun hg _ => absurd hr (ha hg p rfl), fun _ _ hpend q => ?_⟩
      by_contra hq
      obtain ⟨τ, hτ⟩ := Option.ne_none_iff_exists'.1 hq
      have hq := hs.single q τ (hf.keeps q τ hτ)
      obtain rfl : p = q := Option.some.inj (hp.symm.trans hq)
      have hidle : ((s.enter a p).mysqls p).busy = false := (Fades.refl s).enter.idle (hpend p hp)
      simp only [ready, hidle, Bool.false_eq_true, if_false] at hr
      simp only [setMysql_self, Mysql.fail, hr] at hτ
      cases hτ
  · simp only [hc, Bool.not_false, if_true]
    rw [Bool.not_eq_true] at hc
    exact ⟨hs, by rw [← hc], rfl, rfl, .refl s, fun h => (by cases h), fun _ h => absurd h (by simp [hc]),
      fun _ h => absurd h (by simp [hc])⟩

/-! ## `Close` -/

/-- What `Close` leaves. -/
structure Closed (s s' : ExecSt) : Prop where
  ok : s'.Ok
  isConnected : s'.this.isConnected = false
  option : s'.this.option = s.this.option
  events : s'.events = s.events
  keeps : s.Keeps s'

open ExecSt in
theorem close_spec (hs : s.Ok) : Spec g close (fun _ => Closed s) s := by
  refine .getThis ?_
  split
  · rename_i h
    simp only [Bool.and_eq_true] at h
    obtain ⟨p, hp, -⟩ := hs.conn h.2
    rw [hp]
    refine .op fun a r s' _ he => .op fun a' r' s'' _ he' => .setConnected ?_
    cases he; cases he'
    -- the object that is closed was the only one with a session
    have hk : s.Keeps ((s.enter a p).setMysql p ((s.enter a p).mysqls p).close) :=
      keeps_enter.trans (.setMysql (.inr rfl))
    refine ⟨⟨fun h => (by cases h), fun q σ hσ => ?_, fun q => ?_⟩, rfl, by simp, by simp, hk⟩
    · obtain rfl : p = q := Option.some.inj (hp.symm.trans (hs.single q σ (hk q σ hσ)))
      simp [Mysql.close, Mysql.lose] at hσ
    · simpa using hs.texts q
  · exact .setConnected ⟨hs.off, rfl, rfl, rfl, .refl s⟩

/-! ## `Connect` -/

/-- What an attempt to connect leaves. -/
structure Connected (g : Given) (s : ExecSt) (done : Bool) (s' : ExecSt) : Prop where
  ok : s'.Ok
  isConnected : s'.this.isConnected = done
  option : s'.this.option = s.this.option
  executorId : s'.this.executorId = s.this.executorId
  stmts : s'.stmts = s.stmts
  events : s'.events = s.events
  tx : s'.TxOpen → s.TxOpen
  keeps : g.noConnect → s.Keeps s'
  /-- after a failed attempt `mysql_` is closed -/
  down : done = false → ∃ p, s'.this.mysql = some p ∧ (s'.mysqls p).closed = true
  /-- an executor that was not connected has a fresh session -/
  up : done = true → s.this.isConnected = false →
    ∃ p σ, s'.this.mysql = some p ∧ (s'.mysqls p).session = some σ ∧ (s'.mysqls p).busy = false

/-- A second attempt after a failed one. -/
theorem Connected.trans {done : Bool} {s' s'' : ExecSt} (h : Connected g s false s')
    (h' : Connected g s' done s'') : Connected g s done s'' where
  ok := h'.ok
  isConnected := h'.isConnected
  option := h'.option.trans h.option
  executorId := h'.executorId.trans h.executorId
  stmts := h'.stmts.trans h.stmts
  events := h'.events.trans h.events
  tx hx := h.tx (h'.tx hx)
  keeps hg := (h.keeps hg).trans (h'.keeps hg)
  down := h'.down
  up hd _ := h'.up hd h.isConnected

open ExecSt in
/-- The second half of `Connect`, with an object to connect. -/
theorem realConnect_spec (hs : s.Ok) {p : MysqlPtr}
    (hp : s.this.mysql = some p) : Spec g realConnect (Connected g s) s := by
  refine .getThis ?_
  rw [hp]
  refine .op fun a r s' ha he => ?_
  have hg := ha
  obtain ⟨p', hp', ⟨rfl, hnone, hok, rfl⟩ | ⟨rfl, rfl⟩⟩ := realConnect_exec he
  · obtain rfl : p = p' := Option.some.inj hp'
    simp only [Bool.not_true, Bool.false_eq_true, if_false]
    refine .setConnected ?_
    -- the sessions of the other objects are as they were
    have hother : ∀ q σ, (((s.enter a p).connected p).mysqls q).session = some σ → q ≠ p →
        (s.mysqls q).session = some σ := by
      intro q σ hσ hq
      rw [connected] at hσ
      exact keeps_enter q σ ((congrArg (fun m => m.session = some σ) (setMysql_of_ne hq)).mp hσ)
    refine ⟨⟨fun _ => ⟨p, by simpa [connected] using hp, by simp [connected, setMysql]⟩, fun q σ hσ => ?_,
      fun q => by simpa [connected] using hs.texts q⟩, rfl, by simp [connected], by simp [connected],
      by simp [connected], by simp [connected], ?_, fun h => absurd ⟨hnone, hok⟩ (hg h p rfl),
      fun h => (by cases h), fun _ _ => ⟨p, _, by simpa [connected] using hp, by simp [connected, setMysql]; rfl,
        by simp [connected, setMysql, Mysql.busy]⟩⟩
    · by_cases hq : q = p
      · subst hq; simpa [connected] using hp
      · simpa [connected] using hs.single q σ (hother q σ hσ hq)
    · rintro ⟨q, σ, hσ, hin⟩
      by_cases hq : q = p
      · subst hq
        simp only [connected, setMysql, update_self, Option.some.injEq] at hσ
        subst hσ; cases hin
      · exact ⟨q, σ, hother q σ hσ hq, hin⟩
  · -- the object is closed, and the pointer stays
    obtain rfl : p = p' := Option.some.inj hp'
    simp only [Bool.not_false, if_true]
    rw [← hp]
    refine .op fun b r s' _ he => .setConnected ?_
    rw [hp] at he
    cases he
    set s₁ := (s.enter a p).setMysql p (((s.enter a p).mysqls p).fail a.error) with hs₁
    have hk : s.Keeps ((s₁.enter b p).setMysql p ((s₁.enter b p).mysqls p).close) :=
      (((Fades.refl s).enter.fail).keeps.trans keeps_enter).trans (.setMysql (.inr rfl))
    refine ⟨⟨fun h => (by cases h), fun q σ hσ => ?_, fun q => ?_⟩, rfl, by simp [hs₁], by simp [hs₁],
      by simp [hs₁], by simp [hs₁], hk.txOpen, fun _ => hk, fun _ => ⟨p, by simpa [hs₁] using hp, by simp [Mysql.close]⟩,
      fun h => (by cases h)⟩
    · simpa [hs₁] using hs.single q σ (hk q σ hσ)
    · simpa [hs₁] using hs.texts q

open ExecSt in
theorem connect_spec (hs : s.Ok) : Spec g connect (Connected g s) s := by
  refine .getThis ?_
  split
  · rename_i hc
    exact ⟨hs, hc, rfl, rfl, rfl, rfl, id, fun _ => .refl s, fun h => (by cases h),
      fun _ h => absurd hc (by simp [h])⟩
  rename_i hc
  rw [Bool.not_eq_true] at hc
  cases hp : s.this.mysql with
  | some p => exact realConnect_spec hs hp
  | none =>
    simp only [Option.isNone_none, if_true]
    refine .op fun a r s' _ he => ?_
    cases he
    -- without a current object there is no session at all
    have hnone : ∀ q, (s.mysqls q).session = none := by
      intro q
      by_contra hq
      obtain ⟨σ, hσ⟩ := Option.ne_none_iff_exists'.1 hq
      have := hs.single q σ hσ
      rw [hp] at this; cases this
    have hk : s.Keeps (s.setMysql s.nextMysql {}) := .setMysql (.inr rfl)
    have hno : ∀ q σ, ((s.setMysql s.nextMysql {}).mysqls q).session ≠ some σ := by
      intro q σ hσ
      have := hk q σ hσ
      rw [hnone q] at this; cases this
    refine .mono (realConnect_spec ⟨fun h => ?_, fun q σ hσ => absurd hσ (hno q σ), hs.texts⟩ rfl) ?_
    · exact absurd h (by simp [hc])
    · intro b s' h
      exact ⟨h.ok, h.isConnected, h.option, h.executorId, h.stmts, h.events, fun hx => hk.txOpen (h.tx hx),
        fun hg => hk.trans (h.keeps hg), h.down, fun hb _ => h.up hb hc⟩

/-- The loop of `StartReconnect` makes at least one attempt. -/
theorem retry_spec : ∀ (n : ℕ) {s : ExecSt}, s.Ok → Spec g (retry (n + 1)) (Connected g s) s := by
  intro n
  induction n with
  | zero =>
    intro s hs
    refine (connect_spec hs).bind fun b s' h => ?_
    cases b <;> exact h
  | succ n ih =>
    intro s hs
    refine (connect_spec hs).bind fun b s' h => ?_
    cases b with
    | true => exact h
    | false => exact (ih h.ok).mono fun b s'' h' => h.trans h'

theorem startReconnect_spec (hs : s.Ok) : Spec g startReconnect (Connected g s) s := retry_spec 4 hs

/-! ## The constructor -/

/-- What the constructor leaves: an object without a session. -/
structure Constructed (s s' : ExecSt) : Prop where
  ok : s'.Ok
  isConnected : s'.this.isConnected = false
  events : s'.events = s.events
  none : ∀ p, (s'.mysqls p).session = none

theorem Constructed.enter {s' : ExecSt} {a : ClientAnswer} {p : MysqlPtr} (h : Constructed s s') :
    Constructed s (s'.enter a p) := by
  have hf : Fades s' (s'.enter a p) := (Fades.refl s').enter
  refine ⟨hf.ok h.ok, by rw [hf.this]; exact h.isConnected, ExecSt.enter_events.trans h.events, fun q => ?_⟩
  rcases hf.session q with h1 | h1
  · rw [h1]; exact h.none q
  · exact h1

theorem construct_spec (hc : s.this.isConnected = false) (hnone : ∀ p, (s.mysqls p).session = none)
    (ht : ∀ q, ∃ t, (s.stmts q).sql = .user t) : Spec g construct (fun _ => Constructed s) s := by
  -- the new object has no session either
  have hinit : Constructed s { s.setMysql s.nextMysql {} with
      this := { s.this with mysql := some s.nextMysql }, nextMysql := s.nextMysql + 1 } := by
    have hno : ∀ q, ((s.setMysql s.nextMysql {}).mysqls q).session = none := by
      intro q
      by_cases hq : q = s.nextMysql
      · subst hq; simp
      · rw [ExecSt.setMysql_of_ne hq]; exact hnone q
    exact ⟨⟨fun h => absurd h (by simp [hc]), fun q σ hσ => absurd hσ (by simp [hno q]), ht⟩, hc, rfl, hno⟩
  have hoption : ∀ {o v p} {k : XProg Unit}, (∀ s', Constructed s s' → Spec g k (fun _ => Constructed s) s') →
      ∀ s', Constructed s s' → Spec g (do xop (.mysqlOptions (some p) o v); k) (fun _ => Constructed s) s' :=
    fun hk s' h => .op fun a r s'' _ he => by cases he; exact hk _ h.enter
  refine .op fun a r s₁ _ he => .getThis ?_
  cases he
  refine .op fun b r s₂ _ he => ?_
  cases he
  exact hoption (hoption (hoption (k := pure ()) fun _ h => h)) _ hinit.enter

end MysqlExecutor

end TrpcMysql
