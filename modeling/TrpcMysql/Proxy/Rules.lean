import TrpcMysql.Proxy.Ownership

/-!
# What each step does to the owners

One lemma for each kind of step: most steps leave the owners alone (`Owned.quiet`), and the
others move one executor, or one reference.
-/

namespace TrpcMysql

open Function Conc

variable {T : Terms} {w w' : World} {vs : ℕ → View} {owner : ExecId → Owner} {i : ℕ}

namespace World

theorem ownLog_record (notes : List Note) : (w.record i notes).ownLog i = w.ownLog i ++ notes := by
  have h : (notes.map fun n => (i, n)).filterMap (fun n => if n.1 = i then some n.2 else none) = notes := by
    rw [List.filterMap_map]
    induction notes with
    | nil => rfl
    | cons n notes ih => simp
  simp only [record, ownLog, List.filterMap_append, h]

theorem ownLog_record_ne {j : ℕ} (hj : j ≠ i) (notes : List Note) : (w.record i notes).ownLog j = w.ownLog j := by
  have h : (notes.map fun n => (i, n)).filterMap (fun n => if n.1 = j then some n.2 else none) = [] := by
    rw [List.filterMap_map]
    induction notes with
    | nil => rfl
    | cons n notes ih => simp [Ne.symm hj]
  simp only [record, ownLog, List.filterMap_append, h, List.append_nil]

end World

/-- A field of the views that the new view of call `i` leaves as it was. -/
theorem update_same {α : Type} (f : View → α) {u : ℕ → View} {i : ℕ} {v : View} (hv : f v = f (u i)) (j : ℕ) :
    f (update u i v j) = f (u j) := by
  by_cases hj : j = i
  · subst hj; rwa [update_self]
  · rw [update_of_ne hj]

/-- From `w` to `w'` call `i` changed nothing but its own executor, context and history. -/
structure Quiet (i : ℕ) (v : View) (w w' : World) : Prop where
  shards : ∀ p k, (w'.pools p).shards k = (w.pools p).shards k
  nextPool : w.nextPool ≤ w'.nextPool
  map : ∀ key p, w'.executorPools key = some p → p < w'.nextPool
  handles : w'.handles = w.handles
  nextHandle : w'.nextHandle = w.nextHandle
  nextExec : w'.nextExec = w.nextExec
  refs : w'.refs = w.refs
  aborted : w'.aborted = w.aborted
  execs : ∀ e, v.exec ≠ some e → w'.execs e = w.execs e
  ctxs : ∀ x, v.ctxId ≠ some x → w'.ctxs x = w.ctxs x
  logs : ∀ j, j ≠ i → w'.ownLog j = w.ownLog j

/-- The view that call `i` has after it, when the views of the others stay. -/
theorem Owned.synced_update (h : Owned T w vs owner) {v' : View} (hi : v'.Synced T i w')
    (hexecs : ∀ j, j ≠ i → ∀ e, (vs j).exec = some e → w'.execs e = w.execs e)
    (hhandles : ∀ j, j ≠ i → ∀ hd, (vs j).hand = some hd → w'.handles hd = w.handles hd)
    (hctxs : T.contexts → ∀ j, j ≠ i → ∀ x, (vs j).ctxId = some x → w'.ctxs x = w.ctxs x)
    (hpool : w.nextPool ≤ w'.nextPool) (hlogs : ∀ j, j ≠ i → w'.ownLog j = w.ownLog j) :
    ∀ j, (update vs i v' j).Synced T j w' := by
  intro j
  by_cases hj : j = i
  · subst hj; rwa [update_self]
  · rw [update_of_ne hj]
    have hs := h.synced j
    exact ⟨fun e he => (hs.state e he).trans (hexecs j hj e he).symm,
      fun hd hh => (hs.data hd hh).trans (hhandles j hj hd hh).symm,
      fun hT x hx => (hs.ctx hT x hx).trans (hctxs hT j hj x hx).symm,
      fun hl => (hs.log hl).trans (hlogs j hj).symm, fun p hp => Nat.lt_of_lt_of_le (hs.pool p hp) hpool,
      hs.held, hs.mine⟩

/-- Two calls do not work with one executor. -/
theorem Owned.exec_unique (h : Owned T w vs owner) {j : ℕ} {e : ExecId} (hi : (vs i).exec = some e)
    (hj : (vs j).exec = some e) : j = i := by
  have := ((h.call e j).1 hj).symm.trans ((h.call e i).1 hi)
  exact Owner.call.inj this

/-- A quiet step keeps every executor owned. -/
theorem Owned.quiet (h : Owned T w vs owner) (hq : Quiet i (vs i) w w') {v' : View} (hv : v'.Synced T i w')
    (hve : v'.exec = (vs i).exec) (hvh : v'.hand = (vs i).hand) (hvc : v'.copy = (vs i).copy)
    (hvx : v'.ctxId = (vs i).ctxId) : Owned T w' (update vs i v') owner := by
  have hexec : ∀ j, (update vs i v' j).exec = (vs j).exec := update_same View.exec hve
  have hhand : ∀ j, (update vs i v' j).hand = (vs j).hand := update_same View.hand hvh
  have hcopy : ∀ j, (update vs i v' j).copy = (vs j).copy := update_same View.copy hvc
  have hctx : ∀ j, (update vs i v' j).ctxId = (vs j).ctxId := update_same View.ctxId hvx
  have hne : ∀ e, owner e ≠ .call i → w'.execs e = w.execs e := fun e he =>
    hq.execs e fun hv => he ((h.call e i).1 hv)
  have hsync := h.synced_update hv
    (fun j hj e he => hq.execs e fun hv => hj (h.exec_unique hv he))
    (fun _ _ hd _ => by rw [hq.handles]) (fun hT j hj x hx => hq.ctxs x fun hv => hj (h.alone hT j i x hx hv))
    hq.nextPool hq.logs
  refine ⟨?_, ?_, ?_, ?_, ?_, hsync, ?_, ?_, hq.map, ?_, ?_, ?_, ?_, ?_, ?_⟩
  all_goals try simp only [hexec, hhand, hcopy, hctx, hq.shards, hq.handles, hq.nextHandle, hq.nextExec,
    hq.refs, hq.aborted]
  · exact h.nodup
  · exact h.idle
  · exact h.handle
  · exact h.call
  · exact h.hand
  · exact h.alone
  · exact h.freshExec
  · exact fun p hp => h.freshPool p (Nat.le_trans hq.nextPool hp)
  · exact h.refs
  · intro e p k he
    rw [hne e (by simp [he])]; exact h.idleOk e p k he
  · intro e hd he
    rw [hne e (by simp [he])]; exact h.handleOk e hd he
  · intro hT e he
    rw [hne e (by simp [he])]; exact h.free hT e he
  · exact h.alive

/-! ## Steps that move an executor -/

/-- From `w` to `w'` call `i` moved the executor `e` to the owner `b`, and nothing else. -/
structure Move (T : Terms) (i : ℕ) (e : ExecId) (b : Owner) (vs : ℕ → View) (w w' : World) (v' : View) :
    Prop where
  mem : ∀ e' p k, e' ∈ (w'.pools p).shards k ↔ if e' = e then b = .idle p k else e' ∈ (w.pools p).shards k
  nodup : ∀ p k, ((w'.pools p).shards k).Nodup
  handle : ∀ e' h, (h < w'.nextHandle ∧ (w'.handles h).executor = some e' ∧ ∀ j, (vs j).hand ≠ some h) ↔
    if e' = e then b = .handle h
    else h < w.nextHandle ∧ (w.handles h).executor = some e' ∧ ∀ j, (vs j).hand ≠ some h
  exec : ∀ e', v'.exec = some e' ↔ if e' = e then b = .call i else (vs i).exec = some e'
  others : ∀ j, j ≠ i → (vs j).exec ≠ some e
  self : ∀ j, b = .call j → j = i
  hand : v'.hand = (vs i).hand
  copy : v'.copy = (vs i).copy
  ctxId : v'.ctxId = (vs i).ctxId
  lent : ∀ h, (vs i).hand = some h → (w'.handles h).executor = v'.exec
  synced : v'.Synced T i w'
  execs : ∀ e', e' ≠ e → w'.execs e' = w.execs e'
  handles : ∀ h, h < w.nextHandle → (vs i).hand ≠ some h → w'.handles h = w.handles h
  ctxs : w'.ctxs = w.ctxs
  log : w'.log = w.log
  nextHandle : w.nextHandle ≤ w'.nextHandle
  nextExec : w.nextExec ≤ w'.nextExec
  below : e < w'.nextExec
  nextPool : w'.nextPool = w.nextPool
  map : w'.executorPools = w.executorPools
  pool : ∀ p k, b = .idle p k → p < w.nextPool
  refs : ∀ e', e' ≠ e → w'.refs e' = w.refs e'
  refsSelf : ∀ L : List ℕ, L.Nodup → (∀ j ∈ L, (vs j).copy = some e) →
    (if b = .nobody then 0 else 1) + L.length ≤ w'.refs e
  idleOk : ∀ p k, b = .idle p k → (w'.execs e).Ok ∧ (T.clean → ¬ (w'.execs e).TxOpen)
  handleOk : ∀ h, b = .handle h → (w'.execs e).Ok ∧ (T.session → InSession (w'.handles h) (w'.execs e))
  free : T.kept → b = .nobody → (w'.execs e).this.isConnected = false
  alive : T.kept → w'.aborted = false

/-- Views after a move: only the executor of call `i` is another. -/
theorem Move.views {e : ExecId} {b : Owner} {v' : View} (m : Move T i e b vs w w' v') :
    (∀ j, (update vs i v' j).hand = (vs j).hand) ∧ (∀ j, (update vs i v' j).copy = (vs j).copy) ∧
      ∀ j, (update vs i v' j).ctxId = (vs j).ctxId :=
  ⟨update_same View.hand m.hand, update_same View.copy m.copy, update_same View.ctxId m.ctxId⟩

/-- **A move keeps every executor owned.** -/
theorem Owned.move (h : Owned T w vs owner) {e : ExecId} {b : Owner} {v' : View}
    (m : Move T i e b vs w w' v') : Owned T w' (update vs i v') (update owner e b) := by
  obtain ⟨hhand, hcopy, hctx⟩ := m.views
  have hne : ∀ {e'}, e' ≠ e → update owner e b e' = owner e' := fun he => update_of_ne he _ _
  have hlog : ∀ j, w'.ownLog j = w.ownLog j := fun j => by unfold World.ownLog; rw [m.log]
  -- the handles of the other calls stay, as each handle is in the hand of one call
  have hdiff : ∀ j, j ≠ i → ∀ hd, (vs j).hand = some hd → w'.handles hd = w.handles hd := by
    intro j hj hd hh
    obtain ⟨hlt, -, hu⟩ := h.hand j hd hh
    exact m.handles hd hlt fun hi => hj (hu i hi).symm
  constructor
  case nodup => exact m.nodup
  case idle =>
    intro e' p k
    rw [m.mem]
    by_cases he : e' = e
    · subst he; simp
    · rw [if_neg he, hne he]; exact h.idle e' p k
  case handle =>
    intro e' hd
    simp only [hhand]
    rw [m.handle]
    by_cases he : e' = e
    · subst he; simp
    · rw [if_neg he, hne he]; exact h.handle e' hd
  case call =>
    intro e' j
    -- call `i` has the executor or had it, and no other call does
    by_cases hj : j = i
    · subst hj
      rw [update_self, m.exec]
      by_cases he : e' = e
      · subst he; simp
      · rw [if_neg he, hne he]; exact h.call e' _
    · rw [update_of_ne hj]
      by_cases he : e' = e
      · subst he
        refine ⟨fun hv => absurd hv (m.others j hj), fun ho => ?_⟩
        rw [update_self] at ho
        exact absurd (m.self j ho) hj
      · rw [hne he]; exact h.call e' j
  case hand =>
    intro j hd hh
    rw [hhand] at hh
    obtain ⟨hlt, hex, hu⟩ := h.hand j hd hh
    refine ⟨Nat.lt_of_lt_of_le hlt m.nextHandle, ?_, fun j' hh' => hu j' (by rwa [hhand] at hh')⟩
    by_cases hj : j = i
    · subst hj; rw [update_self]; exact m.lent hd hh
    · rw [update_of_ne hj, hdiff j hj hd hh]; exact hex
  case synced =>
    exact h.synced_update m.synced (fun j hj e' he => m.execs e' fun heq => m.others j hj (heq ▸ he)) hdiff
      (fun _ _ _ x _ => by rw [m.ctxs]) (Nat.le_of_eq m.nextPool.symm) fun j _ => hlog j
  case alone => simpa only [hctx] using h.alone
  case freshExec =>
    intro e' he'
    have hle : w.nextExec ≤ e' := Nat.le_trans m.nextExec he'
    have hee : e' ≠ e := fun heq => by subst heq; exact absurd m.below (Nat.not_lt.2 he')
    rw [hne hee]
    simpa only [hcopy] using h.freshExec e' hle
  case map =>
    rw [m.map, m.nextPool]; exact h.map
  case freshPool =>
    intro p hp k
    rw [m.nextPool] at hp
    -- a pool that is not made yet has empty lists, and `e` does not go into them
    refine List.eq_nil_iff_forall_not_mem.2 fun e' he' => ?_
    rw [m.mem] at he'
    by_cases he : e' = e
    · rw [if_pos he] at he'
      exact absurd (m.pool p k he') (Nat.not_lt.2 hp)
    · rw [if_neg he, h.freshPool p hp k] at he'
      cases he'
  case refs =>
    intro e' L hL hc
    simp only [hcopy] at hc
    by_cases he : e' = e
    · subst he; rw [update_self]; exact m.refsSelf L hL hc
    · rw [hne he, m.refs e' he]; exact h.refs e' L hL hc
  case idleOk =>
    intro e' p k ho
    by_cases he : e' = e
    · subst he; rw [update_self] at ho; exact m.idleOk p k ho
    · rw [hne he] at ho; rw [m.execs e' he]; exact h.idleOk e' p k ho
  case handleOk =>
    intro e' hd ho
    by_cases he : e' = e
    · subst he; rw [update_self] at ho; exact m.handleOk hd ho
    · rw [hne he] at ho
      obtain ⟨hlt, -, hfree⟩ := (h.handle e' hd).2 ho
      rw [m.execs e' he, m.handles hd hlt (hfree i)]; exact h.handleOk e' hd ho
  case free =>
    intro hT e' ho
    by_cases he : e' = e
    · subst he; rw [update_self] at ho; exact m.free hT ho
    · rw [hne he] at ho; rw [m.execs e' he]; exact h.free hT e' ho
  case alive => exact m.alive

namespace World

theorem setShard_shards {p : PoolId} {k : ℕ} {es : List ExecId} (p' : PoolId) (k' : ℕ) :
    ((w.setShard p k es).pools p').shards k' = if p' = p ∧ k' = k then es else (w.pools p').shards k' := by
  by_cases hp : p' = p
  · subst hp
    by_cases hk : k' = k
    · subst hk; simp [setShard, setPool]
    · simp [setShard, setPool, hk]
  · simp [setShard, setPool, hp]

end World

section Moves

variable {e : ExecId} {p : PoolId} {k : ℕ} {es : List ExecId} {hd : HandleId} {v' : View}

theorem Owned.lt_nextExec (h : Owned T w vs owner) (ho : owner e ≠ .nobody) : e < w.nextExec := by
  by_contra hlt
  exact ho (h.freshExec e (Nat.le_of_not_lt hlt)).1

/-- The references to an executor that had an owner and has one. -/
theorem Owned.refs_owned (h : Owned T w vs owner) {b : Owner} (ho : owner e ≠ .nobody) (L : List ℕ)
    (hL : L.Nodup) (hc : ∀ j ∈ L, (vs j).copy = some e) :
    (if b = .nobody then 0 else 1) + L.length ≤ w.refs e := by
  have := h.refs e L hL hc
  rw [if_neg ho] at this
  split <;> omega

/-- The lists stay, and the executor is and was in none. -/
theorem Owned.mem_same (h : Owned T w vs owner) {b : Owner} (ho : ∀ p k, owner e ≠ .idle p k)
    (hb : ∀ p k, b ≠ .idle p k) (e' : ExecId) (p : PoolId) (k : ℕ) :
    e' ∈ (w.pools p).shards k ↔ if e' = e then b = .idle p k else e' ∈ (w.pools p).shards k := by
  by_cases he : e' = e
  · subst he
    rw [if_pos rfl]
    exact ⟨fun hm => absurd ((h.idle e' p k).1 hm) (ho p k), fun hb' => absurd hb' (hb p k)⟩
  · rw [if_neg he]

/-- The handles stay, and the executor is and was with none that is free. -/
theorem Owned.handle_same (h : Owned T w vs owner) {b : Owner} (ho : ∀ hd, owner e ≠ .handle hd)
    (hb : ∀ hd, b ≠ .handle hd) (e' : ExecId) (hd : HandleId) :
    (hd < w.nextHandle ∧ (w.handles hd).executor = some e' ∧ ∀ j, (vs j).hand ≠ some hd) ↔
      if e' = e then b = .handle hd
      else hd < w.nextHandle ∧ (w.handles hd).executor = some e' ∧ ∀ j, (vs j).hand ≠ some hd := by
  by_cases he : e' = e
  · subst he
    rw [if_pos rfl]
    exact ⟨fun hh => absurd ((h.handle e' hd).1 hh) (ho hd), fun hb' => absurd hb' (hb hd)⟩
  · rw [if_neg he]

/-- The call has no executor after the move. -/
theorem exec_none {b : Owner} (he : (vs i).exec = some e) (hb : ∀ j, b ≠ .call j) (e' : ExecId) :
    (none : Option ExecId) = some e' ↔ if e' = e then b = .call i else (vs i).exec = some e' := by
  by_cases hee : e' = e
  · subst hee; simp [hb]
  · simp only [hee, if_false, he, Option.some.injEq, reduceCtorEq, false_iff]
    exact fun hh => hee hh.symm

/-- The call has the executor after the move, and had none. -/
theorem exec_some (he : (vs i).exec = none) (e' : ExecId) :
    some e = some e' ↔ if e' = e then Owner.call i = .call i else (vs i).exec = some e' := by
  by_cases hee : e' = e
  · subst hee; simp
  · simp only [hee, if_false, he, Option.some.injEq, reduceCtorEq, iff_false]
    exact fun hh => hee hh.symm

/-- The last executor of a shard goes to the call. -/
theorem Owned.popBack (h : Owned T w vs owner) (he : (w.pools p).shards k = es ++ [e])
    (hexec : (vs i).exec = none) (hhand : (vs i).hand = none)
    (hv : v' = { vs i with exec := some e, state := w.execs e, grip := .own e }) :
    Owned T (w.setShard p k es) (update vs i v') (update owner e (.call i)) := by
  subst hv
  have ho : owner e = .idle p k := (h.idle e p k).1 (by simp [he])
  have hnd := h.nodup p k
  rw [he] at hnd
  obtain ⟨hes, -, hdis⟩ := List.nodup_append.1 hnd
  have hs := h.synced i
  refine h.move
    { mem := fun e' p' k' => ?_, nodup := fun p' k' => ?_
      handle := h.handle_same (by simp [ho]) (by simp), exec := exec_some hexec
      others := fun j _ hj => ?_, self := fun j hj => (Owner.call.inj hj).symm
      lent := fun h' hh => absurd (hhand.symm.trans hh) (by simp)
      synced := ⟨fun e' he' => ?_, hs.data, hs.ctx, hs.log, hs.pool, fun e' he' => he', ?_⟩
      execs := fun _ _ => rfl, handles := fun _ _ _ => rfl, below := h.lt_nextExec (by simp [ho])
      pool := fun _ _ hb => (by cases hb), refs := fun _ _ => rfl
      refsSelf := h.refs_owned (by simp [ho]), idleOk := fun _ _ hb => (by cases hb)
      handleOk := fun _ hb => (by cases hb), free := fun _ hb => (by cases hb), alive := h.alive
      hand := rfl, copy := rfl, ctxId := rfl, ctxs := rfl, log := rfl, nextPool := rfl, map := rfl
      nextHandle := Nat.le_refl _, nextExec := Nat.le_refl _ }
  · -- it is in no list any more
    rw [World.setShard_shards]
    by_cases hee : e' = e
    · subst hee
      have hnot : e' ∉ es := fun hm => hdis e' hm e' (by simp) rfl
      rw [if_pos rfl]
      split
      · simpa using hnot
      · rename_i hpk
        refine ⟨fun hm => ?_, fun hb => (by cases hb)⟩
        obtain ⟨rfl, rfl⟩ := Owner.idle.inj (((h.idle e' p' k').1 hm).symm.trans ho)
        exact absurd ⟨rfl, rfl⟩ hpk
    · rw [if_neg hee]
      split
      · rename_i hpk
        obtain ⟨rfl, rfl⟩ := hpk
        simp [he, hee]
      · rfl
  · rw [World.setShard_shards]
    split
    · exact hes
    · exact h.nodup p' k'
  · exact absurd ((h.call e j).1 hj) (by simp [ho])
  · obtain rfl : e = e' := Option.some.inj he'
    rfl
  · simp [Grip.own, hhand]

/-- A list that gets the executor, which was in none. -/
theorem Owned.mem_push (h : Owned T w vs owner) (ho : ∀ p k, owner e ≠ .idle p k) (e' : ExecId) (p' : PoolId)
    (k' : ℕ) : (e' ∈ if p' = p ∧ k' = k then (w.pools p).shards k ++ [e] else (w.pools p').shards k') ↔
      if e' = e then Owner.idle p k = .idle p' k' else e' ∈ (w.pools p').shards k' := by
  by_cases hee : e' = e
  · subst hee
    rw [if_pos rfl]
    split
    · rename_i hpk
      simp [hpk]
    · rename_i hpk
      refine ⟨fun hm => absurd ((h.idle e' p' k').1 hm) (ho p' k'), fun hb => ?_⟩
      obtain ⟨rfl, rfl⟩ := Owner.idle.inj hb
      exact absurd ⟨rfl, rfl⟩ hpk
  · rw [if_neg hee]
    split
    · rename_i hpk
      obtain ⟨rfl, rfl⟩ := hpk
      simp [hee]
    · rfl

theorem Owned.nodup_push (h : Owned T w vs owner) (ho : ∀ p k, owner e ≠ .idle p k) (p' : PoolId) (k' : ℕ) :
    (if p' = p ∧ k' = k then (w.pools p).shards k ++ [e] else (w.pools p').shards k').Nodup := by
  split
  · refine List.nodup_append.2 ⟨h.nodup p k, by simp, fun a ha b hb => ?_⟩
    rintro rfl
    rw [List.mem_singleton.1 hb] at ha
    exact ho p k ((h.idle e p k).1 ha)
  · exact h.nodup p' k'

/-- An executor of the call goes to the back of a list. -/
theorem Owned.pushBack (h : Owned T w vs owner) (hexec : (vs i).exec = some e) (hhand : (vs i).hand = none)
    (hp : (vs i).pool = some p) {s : ExecSt} (hs : s.Ok) (ht : T.clean → ¬ s.TxOpen)
    (hv : v' = { vs i with exec := none, grip := {} }) :
    Owned T ((w.setExec e s).setShard p k ((w.pools p).shards k ++ [e])) (update vs i v')
      (update owner e (.idle p k)) := by
  subst hv
  have ho : owner e = .call i := (h.call e i).1 hexec
  have hsy := h.synced i
  have hself : (((w.setExec e s).setShard p k ((w.pools p).shards k ++ [e])).execs e) = s := by
    simp [World.setExec, World.setShard, World.setPool]
  refine h.move
    { mem := fun e' p' k' => ?_, nodup := fun p' k' => ?_
      handle := h.handle_same (by simp [ho]) (by simp), exec := exec_none hexec (by simp)
      others := fun j hj hje => hj (h.exec_unique hexec hje), self := fun j hj => (by cases hj)
      lent := fun h' hh => absurd (hhand.symm.trans hh) (by simp)
      synced := ⟨fun e' he' => (by cases he'), hsy.data, hsy.ctx, hsy.log, hsy.pool,
        fun e' he' => (by cases he'), by simp⟩
      execs := fun e' he' => by simp [World.setExec, World.setShard, World.setPool, he']
      handles := fun _ _ _ => rfl, below := h.lt_nextExec (by simp [ho])
      pool := fun p' k' hb => ?_, refs := fun _ _ => rfl
      refsSelf := h.refs_owned (by simp [ho]), idleOk := fun p' k' _ => by rw [hself]; exact ⟨hs, ht⟩
      handleOk := fun _ hb => (by cases hb), free := fun _ hb => (by cases hb), alive := h.alive
      hand := rfl, copy := rfl, ctxId := rfl, ctxs := rfl, log := rfl, nextPool := rfl, map := rfl
      nextHandle := Nat.le_refl _, nextExec := Nat.le_refl _ }
  · rw [World.setShard_shards]; exact h.mem_push (by simp [ho]) e' p' k'
  · rw [World.setShard_shards]; exact h.nodup_push (by simp [ho]) p' k'
  · obtain ⟨rfl, -⟩ := Owner.idle.inj hb
    exact hsy.pool p hp

/-- The executor of the call's handle goes to the back of a list. -/
theorem Owned.pushBackHandle (h : Owned T w vs owner) (hexec : (vs i).exec = some e)
    (hhand : (vs i).hand = some hd) (hp : (vs i).pool = some p) {s : ExecSt} (hs : s.Ok)
    (ht : T.clean → ¬ s.TxOpen)
    (hv : v' = { vs i with exec := none, data := { (vs i).data with executor := none }, grip := {} }) :
    Owned T (((w.setExec e s).setShard p k ((w.pools p).shards k ++ [e])).setHandle hd
        { w.handles hd with executor := none }) (update vs i v') (update owner e (.idle p k)) := by
  subst hv
  have ho : owner e = .call i := (h.call e i).1 hexec
  have hsy := h.synced i
  obtain ⟨hlt, hex, -⟩ := h.hand i hd hhand
  set w₁ := (w.setExec e s).setShard p k ((w.pools p).shards k ++ [e]) with hw₁
  have hself : w₁.execs e = s := by simp [hw₁, World.setExec, World.setShard, World.setPool]
  have hother : ∀ h', h' ≠ hd →
      ((w₁.setHandle hd { w.handles hd with executor := none }).handles h') = w.handles h' := by
    intro h' hh'
    simp [World.setHandle, update_of_ne hh', hw₁, World.setExec, World.setShard, World.setPool]
  have hdata : ((w₁.setHandle hd { w.handles hd with executor := none }).handles hd) =
      { w.handles hd with executor := none } := by simp [World.setHandle]
  refine h.move
    { mem := fun e' p' k' => ?_, nodup := fun p' k' => ?_, handle := fun e' h' => ?_
      exec := exec_none hexec (by simp)
      others := fun j hj hje => hj (h.exec_unique hexec hje), self := fun j hj => (by cases hj)
      lent := fun h' hh => ?_
      synced := ⟨fun e' he' => (by cases he'), fun h' hh' => ?_, hsy.ctx, hsy.log, hsy.pool,
        fun e' he' => (by cases he'), by simp⟩
      execs := fun e' he' => by simp [World.setHandle, hw₁, World.setExec, World.setShard, World.setPool, he']
      handles := fun h' _ hne => hother h' fun heq => hne (heq ▸ hhand), below := h.lt_nextExec (by simp [ho])
      pool := fun p' k' hb => ?_, refs := fun _ _ => rfl
      refsSelf := h.refs_owned (by simp [ho]), idleOk := fun p' k' _ => ?_
      handleOk := fun _ hb => (by cases hb), free := fun _ hb => (by cases hb), alive := h.alive
      hand := rfl, copy := rfl, ctxId := rfl, ctxs := rfl, log := rfl, nextPool := rfl, map := rfl
      nextHandle := Nat.le_refl _, nextExec := Nat.le_refl _ }
  · -- the executor is in the list now
    change e' ∈ (w₁.pools p').shards k' ↔ _
    rw [hw₁, World.setShard_shards]; exact h.mem_push (by simp [ho]) e' p' k'
  · change ((w₁.pools p').shards k').Nodup
    rw [hw₁, World.setShard_shards]; exact h.nodup_push (by simp [ho]) p' k'
  · -- a handle that is free is another one
    have hsame := h.handle_same (e := e) (b := .idle p k) (by simp [ho]) (by simp) e' h'
    by_cases hh' : h' = hd
    · subst hh'
      rw [← hsame]
      exact ⟨fun hh => absurd hhand (hh.2.2 i), fun hh => absurd hhand (hh.2.2 i)⟩
    · rw [← hsame, hother h' hh']; rfl
  · obtain rfl : hd = h' := Option.some.inj (hhand.symm.trans hh)
    rw [hdata]
  · obtain rfl : hd = h' := Option.some.inj (hhand.symm.trans hh')
    rw [hdata, ← hsy.data hd hhand]
  · obtain ⟨rfl, -⟩ := Owner.idle.inj hb
    exact hsy.pool p hp
  · change (w₁.execs e).Ok ∧ (T.clean → ¬ (w₁.execs e).TxOpen)
    rw [hself]; exact ⟨hs, ht⟩

/-- A new executor belongs to the call that made it. -/
theorem Owned.newExecutor (h : Owned T w vs owner) (hexec : (vs i).exec = none)
    (hhand : (vs i).hand = none) {s : ExecSt}
    (hv : v' = { vs i with exec := some w.nextExec, state := s, grip := .own w.nextExec }) :
    Owned T { w.setExec w.nextExec s with
        nextExec := w.nextExec + 1, refs := update w.refs w.nextExec 1 } (update vs i v')
      (update owner w.nextExec (.call i)) := by
  subst hv
  obtain ⟨ho, hcopy⟩ := h.freshExec w.nextExec (Nat.le_refl _)
  have hsy := h.synced i
  refine h.move
    { mem := h.mem_same (by simp [ho]) (by simp), nodup := h.nodup
      handle := h.handle_same (by simp [ho]) (by simp), exec := exec_some hexec
      others := fun j hj hje => absurd ((h.call _ j).1 hje) (by simp [ho])
      self := fun j hj => (Owner.call.inj hj).symm
      lent := fun h' hh => absurd (hhand.symm.trans hh) (by simp)
      synced := ⟨fun e' he' => ?_, hsy.data, hsy.ctx, hsy.log, hsy.pool, fun e' he' => he', by simp [Grip.own, hhand]⟩
      execs := fun e' he' => by simp [World.setExec, he'], handles := fun _ _ _ => rfl
      nextExec := Nat.le_succ _, below := Nat.lt_succ_self _
      pool := fun _ _ hb => (by cases hb), refs := fun e' he' => update_of_ne he' _ _
      refsSelf := fun L _ hc => ?_, idleOk := fun _ _ hb => (by cases hb)
      handleOk := fun _ hb => (by cases hb), free := fun _ hb => (by cases hb), alive := h.alive
      hand := rfl, copy := rfl, ctxId := rfl, ctxs := rfl, log := rfl, nextPool := rfl, map := rfl
      nextHandle := Nat.le_refl _ }
  · obtain rfl : w.nextExec = e' := Option.some.inj he'
    simp [World.setExec]
  · -- nobody has a copy of it
    cases L with
    | nil => simp
    | cons j L => exact absurd (hc j (by simp)) (hcopy j)

/-- The call gives up its executor. -/
theorem Owned.release (h : Owned T w vs owner) (hexec : (vs i).exec = some e) (hhand : (vs i).hand = none)
    (hfree : T.kept → (w.execs e).this.isConnected = false)
    (hv : v' = { vs i with exec := none, grip := ⟨none, none⟩ }) :
    Owned T (w.release e) (update vs i v') (update owner e .nobody) := by
  subst hv
  have ho : owner e = .call i := (h.call e i).1 hexec
  have hsy := h.synced i
  refine h.move
    { mem := h.mem_same (by simp [ho]) (by simp), nodup := h.nodup
      handle := h.handle_same (by simp [ho]) (by simp), exec := exec_none hexec (by simp)
      others := fun j hj hje => hj (h.exec_unique hexec hje), self := fun j hj => (by cases hj)
      lent := fun h' hh => absurd (hhand.symm.trans hh) (by simp)
      synced := ⟨fun e' he' => (by cases he'), hsy.data, hsy.ctx, hsy.log, hsy.pool,
        fun e' he' => (by cases he'), by simp⟩
      execs := fun _ _ => rfl, handles := fun _ _ _ => rfl, below := h.lt_nextExec (by simp [ho])
      pool := fun _ _ hb => (by cases hb), refs := fun e' he' => update_of_ne he' _ _
      refsSelf := fun L hL hc => ?_, idleOk := fun _ _ hb => (by cases hb)
      handleOk := fun _ hb => (by cases hb), free := fun hT _ => hfree hT, alive := fun hT => ?_
      hand := rfl, copy := rfl, ctxId := rfl, ctxs := rfl, log := rfl, nextPool := rfl, map := rfl
      nextHandle := Nat.le_refl _, nextExec := Nat.le_refl _ }
  · have := h.refs e L hL hc
    rw [if_neg (by simp [ho])] at this
    simp only [World.release, update_self, if_true]
    omega
  · simp [World.release, h.alive hT, hfree hT]

/-- The call's executor goes into a new handle. -/
theorem Owned.newHandle (h : Owned T w vs owner) (hexec : (vs i).exec = some e) (hhand : (vs i).hand = none)
    {t : TransactionHandle} (ht : t.executor = some e) (hs : (w.execs e).Ok)
    (hin : T.session → InSession t (w.execs e)) (hv : v' = { vs i with exec := none, grip := {} }) :
    Owned T { w.setHandle w.nextHandle t with nextHandle := w.nextHandle + 1 } (update vs i v')
      (update owner e (.handle w.nextHandle)) := by
  subst hv
  have ho : owner e = .call i := (h.call e i).1 hexec
  have hsy := h.synced i
  -- no call works on the handle that is made
  have hfresh : ∀ j, (vs j).hand ≠ some w.nextHandle := fun j hj =>
    absurd (h.hand j _ hj).1 (Nat.lt_irrefl _)
  have hother : ∀ h', h' < w.nextHandle → update w.handles w.nextHandle t h' = w.handles h' := fun h' hlt =>
    update_of_ne (Nat.ne_of_lt hlt) _ _
  refine h.move
    { mem := h.mem_same (by simp [ho]) (by simp), nodup := h.nodup, handle := fun e' h' => ?_
      exec := exec_none hexec (by simp)
      others := fun j hj hje => hj (h.exec_unique hexec hje), self := fun j hj => (by cases hj)
      lent := fun h' hh => absurd (hhand.symm.trans hh) (by simp)
      synced := ⟨fun e' he' => (by cases he'), fun h' hh => absurd (hhand.symm.trans hh) (by simp), hsy.ctx,
        hsy.log, hsy.pool, fun e' he' => (by cases he'), by simp⟩
      execs := fun _ _ => rfl, handles := fun h' hlt _ => hother h' hlt, nextHandle := Nat.le_succ _
      below := h.lt_nextExec (by simp [ho])
      pool := fun _ _ hb => (by cases hb), refs := fun _ _ => rfl
      refsSelf := h.refs_owned (by simp [ho]), idleOk := fun _ _ hb => (by cases hb)
      handleOk := fun h' hb => ?_, free := fun _ hb => (by cases hb), alive := h.alive
      hand := rfl, copy := rfl, ctxId := rfl, ctxs := rfl, log := rfl, nextPool := rfl, map := rfl
      nextExec := Nat.le_refl _ }
  · -- handle by handle: the new one has `e`, and no old one had it
    have hsame := h.handle_same (e := e) (b := .nobody) (by simp [ho]) (by simp) e' h'
    simp only [World.setHandle]
    by_cases hlast : h' = w.nextHandle
    · subst hlast
      rw [update_self, ht]
      by_cases hee : e' = e
      · subst hee; simp [hfresh]
      · simp only [hee, if_false, Option.some.injEq, Nat.lt_irrefl, false_and, iff_false, not_and]
        exact fun _ heq => absurd heq.symm hee
    · have hne : Owner.handle w.nextHandle ≠ .handle h' := fun heq => hlast (Owner.handle.inj heq).symm
      rw [update_of_ne hlast]
      by_cases hee : e' = e
      · subst hee
        rw [if_pos rfl] at hsame ⊢
        have hlt' : h' < w.nextHandle + 1 → h' < w.nextHandle := fun hh =>
          Nat.lt_of_le_of_ne (Nat.le_of_lt_succ hh) hlast
        exact ⟨fun hh => absurd (hsame.1 ⟨hlt' hh.1, hh.2⟩) (by simp), fun hb => absurd hb hne⟩
      · rw [if_neg hee]
        exact ⟨fun hh => ⟨Nat.lt_of_le_of_ne (Nat.le_of_lt_succ hh.1) hlast, hh.2⟩,
          fun hh => ⟨Nat.lt_succ_of_lt hh.1, hh.2⟩⟩
  · obtain rfl := Owner.handle.inj hb
    simp only [World.setHandle, update_self]
    exact ⟨hs, hin⟩

/-- The end of a handle that still has its executor. -/
theorem Owned.endHandle (h : Owned T w vs owner) (hexec : (vs i).exec = some e) (hhand : (vs i).hand = some hd)
    (hfree : T.kept → (w.execs e).this.isConnected = false) {t : TransactionHandle} (ht : t.executor = none)
    (hv : v' = { vs i with exec := none, data := t, grip := ⟨none, none⟩ }) :
    Owned T ((w.setHandle hd t).release e) (update vs i v') (update owner e .nobody) := by
  subst hv
  have ho : owner e = .call i := (h.call e i).1 hexec
  have hsy := h.synced i
  have hother : ∀ h', h' ≠ hd → update w.handles hd t h' = w.handles h' := fun h' hne => update_of_ne hne _ _
  refine h.move
    { mem := h.mem_same (by simp [ho]) (by simp), nodup := h.nodup, handle := fun e' h' => ?_
      exec := exec_none hexec (by simp)
      others := fun j hj hje => hj (h.exec_unique hexec hje), self := fun j hj => (by cases hj)
      lent := fun h' hh => ?_
      synced := ⟨fun e' he' => (by cases he'), fun h' hh => ?_, hsy.ctx, hsy.log, hsy.pool,
        fun e' he' => (by cases he'), by simp⟩
      execs := fun _ _ => rfl, handles := fun h' _ hne => hother h' fun heq => hne (heq ▸ hhand)
      below := h.lt_nextExec (by simp [ho])
      pool := fun _ _ hb => (by cases hb), refs := fun e' he' => update_of_ne he' _ _
      refsSelf := fun L hL hc => ?_, idleOk := fun _ _ hb => (by cases hb)
      handleOk := fun _ hb => (by cases hb), free := fun hT _ => hfree hT, alive := fun hT => ?_
      hand := rfl, copy := rfl, ctxId := rfl, ctxs := rfl, log := rfl, nextPool := rfl, map := rfl
      nextHandle := Nat.le_refl _, nextExec := Nat.le_refl _ }
  · -- the handle was in the hand of call `i`, so it had no executor of its own
    have hsame := h.handle_same (e := e) (b := .nobody) (by simp [ho]) (by simp) e' h'
    simp only [World.release, World.setHandle]
    by_cases hh' : h' = hd
    · subst hh'
      rw [← hsame]
      exact ⟨fun hh => absurd hhand (hh.2.2 i), fun hh => absurd hhand (hh.2.2 i)⟩
    · rw [hother h' hh']; exact hsame
  · obtain rfl : hd = h' := Option.some.inj (hhand.symm.trans hh)
    simp [World.release, World.setHandle, ht]
  · obtain rfl : hd = h' := Option.some.inj (hhand.symm.trans hh)
    simp [World.release, World.setHandle]
  · have := h.refs e L hL hc
    rw [if_neg (by simp [ho])] at this
    simp only [World.release, World.setHandle, update_self, if_true]
    omega
  · have := hfree hT
    simp [World.release, World.setHandle, h.alive hT, this]

/-- The executor of the call's handle goes into a new handle. -/
theorem Owned.moveHandle (h : Owned T w vs owner) (hexec : (vs i).exec = some e) (hhand : (vs i).hand = some hd)
    {t t' : TransactionHandle} (ht : t.executor = some e) (ht' : t'.executor = none) (hs : (w.execs e).Ok)
    (hin : T.session → InSession t (w.execs e))
    (hv : v' = { vs i with exec := none, data := t', grip := {} }) :
    Owned T { (w.setHandle w.nextHandle t).setHandle hd t' with nextHandle := w.nextHandle + 1 }
      (update vs i v') (update owner e (.handle w.nextHandle)) := by
  subst hv
  have ho : owner e = .call i := (h.call e i).1 hexec
  have hsy := h.synced i
  have hlt := (h.hand i hd hhand).1
  have hfresh : ∀ j, (vs j).hand ≠ some w.nextHandle := fun j hj =>
    absurd (h.hand j _ hj).1 (Nat.lt_irrefl _)
  -- the new handle has the executor, and the old one has none
  set H := update (update w.handles w.nextHandle t) hd t' with hH
  have hother : ∀ h', h' ≠ hd → h' < w.nextHandle → H h' = w.handles h' := by
    intro h' hne hlt'
    rw [hH, update_of_ne hne, update_of_ne (Nat.ne_of_lt hlt')]
  have hnew : H w.nextHandle = t := by rw [hH, update_of_ne (Nat.ne_of_gt hlt), update_self]
  have hold : H hd = t' := by rw [hH, update_self]
  refine h.move
    { mem := h.mem_same (by simp [ho]) (by simp), nodup := h.nodup, handle := fun e' h' => ?_
      exec := exec_none hexec (by simp)
      others := fun j hj hje => hj (h.exec_unique hexec hje), self := fun j hj => (by cases hj)
      lent := fun h' hh => ?_
      synced := ⟨fun e' he' => (by cases he'), fun h' hh => ?_, hsy.ctx, hsy.log, hsy.pool,
        fun e' he' => (by cases he'), by simp⟩
      execs := fun _ _ => rfl
      handles := fun h' hlt' hne => hother h' (fun heq => hne (heq ▸ hhand)) hlt'
      nextHandle := Nat.le_succ _, below := h.lt_nextExec (by simp [ho])
      pool := fun _ _ hb => (by cases hb), refs := fun _ _ => rfl
      refsSelf := h.refs_owned (by simp [ho]), idleOk := fun _ _ hb => (by cases hb)
      handleOk := fun h' hb => ?_, free := fun _ hb => (by cases hb), alive := h.alive
      hand := rfl, copy := rfl, ctxId := rfl, ctxs := rfl, log := rfl, nextPool := rfl, map := rfl
      nextExec := Nat.le_refl _ }
  · change h' < w.nextHandle + 1 ∧ (H h').executor = some e' ∧ _ ↔ _
    -- three kinds of handles: the new one, the one that is moved, and the rest
    have hsame := h.handle_same (e := e) (b := .nobody) (by simp [ho]) (by simp) e' h'
    by_cases hlast : h' = w.nextHandle
    · subst hlast
      rw [hnew, ht]
      by_cases hee : e' = e
      · subst hee; simp [hfresh]
      · simp only [hee, if_false, Option.some.injEq, Nat.lt_irrefl, false_and, iff_false, not_and]
        exact fun _ heq => absurd heq.symm hee
    · have hne : Owner.handle w.nextHandle ≠ .handle h' := fun heq => hlast (Owner.handle.inj heq).symm
      by_cases hh' : h' = hd
      · subst hh'
        rw [hold, ht']
        by_cases hee : e' = e
        · subst hee; simp [hne]
        · rw [if_neg hee]
          exact ⟨fun hh => absurd hhand (hh.2.2 i), fun hh => absurd hhand (hh.2.2 i)⟩
      · by_cases hlt' : h' < w.nextHandle
        · rw [hother h' hh' hlt']
          by_cases hee : e' = e
          · subst hee
            rw [if_pos rfl] at hsame ⊢
            exact ⟨fun hh => absurd (hsame.1 ⟨hlt', hh.2⟩) (by simp), fun hb => absurd hb hne⟩
          · rw [if_neg hee]
            exact ⟨fun hh => ⟨hlt', hh.2⟩, fun hh => ⟨by omega, hh.2⟩⟩
        · have hgt : ¬ h' < w.nextHandle + 1 := by omega
          by_cases hee : e' = e
          · rw [if_pos hee]
            exact ⟨fun hh => absurd hh.1 hgt, fun hb => absurd hb hne⟩
          · rw [if_neg hee]
            exact ⟨fun hh => absurd hh.1 hgt, fun hh => absurd hh.1 hlt'⟩
  · obtain rfl : hd = h' := Option.some.inj (hhand.symm.trans hh)
    change (H hd).executor = none
    rw [hold, ht']
  · obtain rfl : hd = h' := Option.some.inj (hhand.symm.trans hh)
    exact hold.symm
  · obtain rfl := Owner.handle.inj hb
    change (w.execs e).Ok ∧ (T.session → InSession (H w.nextHandle) (w.execs e))
    rw [hnew]; exact ⟨hs, hin⟩

end Moves

/-! ## Steps that leave the executors where they are -/

section Stays

variable {e : ExecId} {hd : HandleId} {v' : View}

/-- The call's handle changes, or a handle without an executor is made. -/
theorem Owned.handles (h : Owned T w vs owner) (hhand : (vs i).hand = some hd) {H : HandleId → TransactionHandle}
    {n : ℕ} (hn : w.nextHandle ≤ n) (hother : ∀ h', h' ≠ hd → h' < w.nextHandle → H h' = w.handles h')
    (hnew : ∀ h', w.nextHandle ≤ h' → h' < n → (H h').executor = none) (hex : (H hd).executor = (vs i).exec)
    (hv : v' = { vs i with data := H hd }) :
    Owned T { w with handles := H, nextHandle := n } (update vs i v') owner := by
  subst hv
  have hsy := h.synced i
  have hhands := update_same (u := vs) (i := i) (v := { vs i with data := H hd }) View.hand rfl
  have hexecs := update_same (u := vs) (i := i) (v := { vs i with data := H hd }) View.exec rfl
  have hcopies := update_same (u := vs) (i := i) (v := { vs i with data := H hd }) View.copy rfl
  have hctxs := update_same (u := vs) (i := i) (v := { vs i with data := H hd }) View.ctxId rfl
  have hdiff : ∀ j, j ≠ i → ∀ h', (vs j).hand = some h' → H h' = w.handles h' := by
    intro j hj h' hh
    obtain ⟨hlt, -, hu⟩ := h.hand j h' hh
    exact hother h' (fun heq => hj (hu i (heq ▸ hhand)).symm) hlt
  -- the lists and the owners stay; what is new has no executor
  constructor
  case nodup => exact h.nodup
  case idle => exact h.idle
  case handle =>
    intro e' h'
    simp only [hhands]
    rw [← h.handle e' h']
    constructor
    · rintro ⟨hlt, hex', hno⟩
      have hne : h' ≠ hd := fun heq => hno i (heq ▸ hhand)
      -- a handle that is new has no executor
      by_cases hlt' : h' < w.nextHandle
      · rw [hother h' hne hlt'] at hex'; exact ⟨hlt', hex', hno⟩
      · rw [hnew h' (Nat.le_of_not_lt hlt') hlt] at hex'; cases hex'
    · rintro ⟨hlt, hex', hno⟩
      have hne : h' ≠ hd := fun heq => hno i (heq ▸ hhand)
      exact ⟨Nat.lt_of_lt_of_le hlt hn, by rw [hother h' hne hlt]; exact hex', hno⟩
  case call => intro e' j; rw [hexecs]; exact h.call e' j
  case hand =>
    intro j h' hh
    rw [hhands] at hh
    obtain ⟨hlt, hex', hu⟩ := h.hand j h' hh
    refine ⟨Nat.lt_of_lt_of_le hlt hn, ?_, fun j' hh' => hu j' (by rwa [hhands] at hh')⟩
    rw [hexecs]
    by_cases hj : j = i
    · subst hj
      obtain rfl : hd = h' := Option.some.inj (hhand.symm.trans hh)
      exact hex
    · exact (congrArg _ (hdiff j hj h' hh)).trans hex'
  case synced =>
    refine h.synced_update ?_ (fun _ _ _ _ => rfl) hdiff
      (fun _ _ _ _ _ => rfl) (Nat.le_refl _) fun _ _ => rfl
    refine ⟨hsy.state, fun h' hh => ?_, hsy.ctx, hsy.log, hsy.pool, hsy.held, hsy.mine⟩
    obtain rfl : hd = h' := Option.some.inj (hhand.symm.trans hh)
    rfl
  case alone => simpa only [hctxs] using h.alone
  case freshExec => simpa only [hcopies] using h.freshExec
  case map => exact h.map
  case freshPool => exact h.freshPool
  case refs => simpa only [hcopies] using h.refs
  case idleOk => exact h.idleOk
  case handleOk =>
    intro e' h' ho
    obtain ⟨hlt, -, hno⟩ := (h.handle e' h').2 ho
    have := h.handleOk e' h' ho
    rwa [← hother h' (fun heq => hno i (heq ▸ hhand)) hlt] at this
  case free => exact h.free
  case alive => exact h.alive

/-- The call copies or gives up a reference. -/
theorem Owned.recount (h : Owned T w vs owner) {c : Option ExecId} {g : Grip} {R : ExecId → ℕ} {b : Bool}
    (hv : v' = { vs i with copy := c, grip := g }) (hc : ∀ e, c = some e → e < w.nextExec)
    (hheld : ∀ e, g.held = some e → (vs i).exec = some e) (hmine : g.mine = (vs i).grip.mine)
    (hrefs : ∀ e (L : List ℕ), L.Nodup → (∀ j ∈ L, (update vs i v' j).copy = some e) →
      (if owner e = .nobody then 0 else 1) + L.length ≤ R e)
    (halive : T.kept → b = false) :
    Owned T { w with refs := R, aborted := b } (update vs i v') owner := by
  have hsy := h.synced i
  have hhands := update_same (u := vs) (i := i) (v := v') View.hand (by rw [hv])
  have hexecs := update_same (u := vs) (i := i) (v := v') View.exec (by rw [hv])
  have hctxs := update_same (u := vs) (i := i) (v := v') View.ctxId (by rw [hv])
  constructor
  case nodup => exact h.nodup
  case idle => exact h.idle
  case handle => simpa only [hhands] using h.handle
  case call => simpa only [hexecs] using h.call
  case hand => simpa only [hhands, hexecs] using h.hand
  case synced =>
    refine h.synced_update ?_ (fun _ _ _ _ => rfl) (fun _ _ _ _ => rfl) (fun _ _ _ _ _ => rfl)
      (Nat.le_refl _) fun _ _ => rfl
    rw [hv]
    exact ⟨hsy.state, hsy.data, hsy.ctx, hsy.log, hsy.pool, hheld, hmine.trans hsy.mine⟩
  case alone => simpa only [hctxs] using h.alone
  case freshExec =>
    intro e he
    refine ⟨(h.freshExec e he).1, fun j => ?_⟩
    by_cases hj : j = i
    · subst hj
      rw [update_self, hv]
      exact fun hce => absurd (hc e hce) (Nat.not_lt.2 he)
    · rw [update_of_ne hj]; exact (h.freshExec e he).2 j
  case map => exact h.map
  case freshPool => exact h.freshPool
  -- only the copies and the counts are others
  case refs => exact hrefs
  case idleOk => exact h.idleOk
  case handleOk => exact h.handleOk
  case free => exact h.free
  case alive => exact halive

/-- The call copies the reference of its handle. -/
theorem Owned.getExecutor (h : Owned T w vs owner) (hexec : (vs i).exec = some e)
    (hv : v' = { vs i with copy := some e, grip := { (vs i).grip with held := some e } }) :
    Owned T (w.retain [e]) (update vs i v') owner := by
  have ho : owner e ≠ .nobody := by simp [(h.call e i).1 hexec]
  refine h.recount (b := w.aborted) hv (fun e' he => ?_) (fun e' he => ?_) rfl (fun e' L hL hc => ?_) h.alive
  · obtain rfl := Option.some.inj he
    exact h.lt_nextExec ho
  · obtain rfl := Option.some.inj he
    exact hexec
  · -- the calls that had a copy before
    have hold : ∀ j ∈ L.erase i, (vs j).copy = some e' := by
      intro j hj
      have hji : j ≠ i := fun heq => (hL.not_mem_erase (heq ▸ hj))
      have := hc j (List.mem_of_mem_erase hj)
      rwa [update_of_ne hji] at this
    have hr := h.refs e' (L.erase i) (hL.erase i) hold
    by_cases hi : i ∈ L
    · have := hc i hi
      rw [update_self, hv] at this
      obtain rfl := Option.some.inj this
      have hlen := List.length_erase_of_mem hi
      have hpos := List.length_pos_of_mem hi
      rw [if_neg ho] at hr ⊢
      simp only [List.count_singleton_self]
      omega
    · rw [List.erase_of_not_mem hi] at hr
      exact Nat.le_trans hr (Nat.le_add_right _ _)

/-- The call gives up the reference it copied. -/
theorem Owned.dropCopy (h : Owned T w vs owner) (hcopy : (vs i).copy = some e)
    (hv : v' = { vs i with copy := none, grip := ⟨none, (vs i).grip.mine⟩ }) :
    Owned T (w.release e) (update vs i v') owner := by
  -- a call that still has a copy is another one
  have hold : ∀ e' (L : List ℕ), L.Nodup → (∀ j ∈ L, (update vs i v' j).copy = some e') →
      i ∉ L ∧ ∀ j ∈ L, (vs j).copy = some e' := by
    intro e' L _ hc
    have hi : i ∉ L := by
      intro hi
      have := hc i hi
      rw [update_self, hv] at this
      cases this
    refine ⟨hi, fun j hj => ?_⟩
    have hji : j ≠ i := fun heq => hi (heq ▸ hj)
    have := hc j hj
    rwa [update_of_ne hji] at this
  refine h.recount hv (fun e' he => (by cases he)) (fun e' he => (by cases he)) rfl (fun e' L hL hc => ?_)
    fun hT => ?_
  · obtain ⟨hi, hc⟩ := hold e' L hL hc
    by_cases hee : e' = e
    · subst hee
      have := h.refs e' (i :: L) (List.nodup_cons.2 ⟨hi, hL⟩) fun j hj => by
        rcases List.mem_cons.1 hj with rfl | hj
        · exact hcopy
        · exact hc j hj
      rw [update_self]
      simp only [List.length_cons] at this
      omega
    · rw [update_of_ne hee]; exact h.refs e' L hL hc
  · -- if it was the last reference, the executor has no owner
    by_cases ho : owner e = .nobody
    · simp [h.alive hT, h.free hT e ho]
    · have := h.refs e [i] (by simp) fun j hj => by rwa [List.mem_singleton.1 hj]
      rw [if_neg ho] at this
      have hne : w.refs e ≠ 1 := by simp only [List.length_singleton] at this; omega
      simp [h.alive hT, hne]

end Stays

/-! ## The start and the end of a call -/

section Lend

variable {v' : View} {e : ExecId} {hd : HandleId}

/-- The executor of the handle that a starting call works on. -/
theorem Owned.lent_owner (h : Owned T w vs owner) {c : Call}
    (hhand : ∀ hd, c.handle = some hd → hd < w.nextHandle ∧ ∀ j, (vs j).hand ≠ some hd)
    (he : (View.begin T i c w).exec = some e) :
    ∃ hd, c.handle = some hd ∧ (w.handles hd).executor = some e ∧ owner e = .handle hd := by
  have he : (c.handle.bind fun h => (w.handles h).executor) = some e := he
  obtain ⟨hd, hc, hex⟩ := Option.bind_eq_some_iff.1 he
  exact ⟨hd, hc, hex, (h.handle e hd).1 ⟨(hhand hd hc).1, hex, (hhand hd hc).2⟩⟩

open Classical in
/-- A call that starts borrows the executor of its handle. -/
theorem Owned.start (h : Owned T w vs owner) (hi : vs i = {}) {c : Call}
    (hhand : ∀ hd, c.handle = some hd → hd < w.nextHandle ∧ ∀ j, (vs j).hand ≠ some hd)
    (hctx : T.contexts → ∀ x, c.ctx = some x → ∀ j, (vs j).ctxId ≠ some x) :
    Owned T w (update vs i (View.begin T i c w))
      (fun e => if (View.begin T i c w).exec = some e then .call i else owner e) := by
  set v' := View.begin T i c w with hv
  -- what the call borrows was its handle's
  have hlent : ∀ {e}, v'.exec = some e → ∃ hd, c.handle = some hd ∧ (w.handles hd).executor = some e ∧
      owner e = .handle hd := fun he => h.lent_owner hhand he
  have hcopy : ∀ j, (update vs i v' j).copy = (vs j).copy := update_same View.copy (by rw [hi]; rfl)
  -- the handle of the call was in no hand
  have hfree : ∀ j hd, (update vs i v' j).hand = some hd →
      j = i ∧ c.handle = some hd ∨ j ≠ i ∧ (vs j).hand = some hd := by
    intro j hd hh
    by_cases hj : j = i
    · subst hj; rw [update_self] at hh; exact .inl ⟨rfl, hh⟩
    · rw [update_of_ne hj] at hh; exact .inr ⟨hj, hh⟩
  constructor
  case nodup => exact h.nodup
  case idle =>
    intro e p k
    rw [h.idle e p k]
    split
    · rename_i he
      obtain ⟨hd, -, -, ho⟩ := hlent he
      simp [ho]
    · rfl
  case handle =>
    intro e hd
    constructor
    · rintro ⟨hlt, hex, hno⟩
      have hc : c.handle ≠ some hd := fun hc => hno i (by rw [update_self]; exact hc)
      have hold : owner e = .handle hd := by
        refine (h.handle e hd).1 ⟨hlt, hex, fun j hj => ?_⟩
        have hji : j ≠ i := fun heq => by subst heq; rw [hi] at hj; cases hj
        exact hno j (by rw [update_of_ne hji]; exact hj)
      rw [if_neg, hold]
      intro he
      obtain ⟨hd', hc', -, ho⟩ := hlent he
      obtain rfl : hd = hd' := Owner.handle.inj (hold.symm.trans ho)
      exact hc hc'
    · intro ho
      split at ho
      · cases ho
      · rename_i hne
        obtain ⟨hlt, hex, hno⟩ := (h.handle e hd).2 ho
        refine ⟨hlt, hex, fun j hj => ?_⟩
        rcases hfree j hd hj with ⟨-, hc⟩ | ⟨-, hj⟩
        · exact hne (Option.bind_eq_some_iff.2 ⟨hd, hc, hex⟩)
        · exact hno j hj
  case call =>
    intro e j
    by_cases hj : j = i
    · subst hj
      rw [update_self]
      split
      · rename_i he; simp [he]
      · rename_i he
        refine ⟨fun he' => absurd he' he, fun ho => ?_⟩
        have := (h.call e j).2 ho
        rw [hi] at this; cases this
    · rw [update_of_ne hj, h.call e j]
      split
      · rename_i he
        obtain ⟨hd, -, -, ho⟩ := hlent he
        simp [ho, Ne.symm hj]
      · rfl
  case hand =>
    intro j hd hh
    rcases hfree j hd hh with ⟨rfl, hc⟩ | ⟨hj, hh⟩
    · obtain ⟨hlt, hno⟩ := hhand hd hc
      refine ⟨hlt, ?_, fun j' hj' => ?_⟩
      · rw [update_self]
        exact (congrArg (fun o => Option.bind o fun h => (w.handles h).executor) hc).symm
      · rcases hfree j' hd hj' with ⟨rfl, -⟩ | ⟨-, hj'⟩
        · rfl
        · exact absurd hj' (hno j')
    · obtain ⟨hlt, hex, hu⟩ := h.hand j hd hh
      refine ⟨hlt, by rwa [update_of_ne hj], fun j' hj' => ?_⟩
      rcases hfree j' hd hj' with ⟨-, hc⟩ | ⟨-, hj'⟩
      · exact absurd hh ((hhand hd hc).2 j)
      · exact hu j' hj'
  case synced =>
    refine h.synced_update ?_ (fun _ _ _ _ => rfl) (fun _ _ _ _ => rfl) (fun _ _ _ _ _ => rfl)
      (Nat.le_refl _) fun _ _ => rfl
    refine ⟨fun e he => ?_, fun hd hh => ?_, fun hT x hx => ?_, fun _ => rfl, fun p hp => (by cases hp),
      fun e he => (by cases he), ?_⟩
    · have he' : (c.handle.bind fun h => (w.handles h).executor) = some e := he
      simp [hv, View.begin, View.sync, he']
    · have hh : c.handle = some hd := hh
      simp [hv, View.begin, View.sync, hh]
    · have hx : c.ctx = some x := hx
      simp [hv, View.begin, View.sync, hx, hT]
    · cases hc : c.handle <;> simp [hv, View.begin, View.sync, hc]
  case alone =>
    intro hT j j' x hj hj'
    -- no call in progress has the context of the new one
    by_cases hji : j = i
    · by_cases hji' : j' = i
      · rw [hji, hji']
      · subst hji
        rw [update_self] at hj
        rw [update_of_ne hji'] at hj'
        exact absurd hj' (hctx hT x hj j')
    · rw [update_of_ne hji] at hj
      by_cases hji' : j' = i
      · subst hji'
        rw [update_self] at hj'
        exact absurd hj (hctx hT x hj' j)
      · rw [update_of_ne hji'] at hj'
        exact h.alone hT j j' x hj hj'
  case freshExec =>
    intro e he
    obtain ⟨ho, hc⟩ := h.freshExec e he
    refine ⟨?_, by simpa only [hcopy] using hc⟩
    rw [if_neg, ho]
    intro he'
    obtain ⟨hd, -, -, ho'⟩ := hlent he'
    rw [ho] at ho'; cases ho'
  case map => exact h.map
  case freshPool => exact h.freshPool
  case refs =>
    intro e L hL hc
    have hr := h.refs e L hL (by simpa only [hcopy] using hc)
    by_cases he : v'.exec = some e
    · obtain ⟨hd, -, -, ho⟩ := hlent he
      rw [ho] at hr
      simpa [he] using hr
    · simpa [he] using hr
  case idleOk =>
    intro e p k ho
    split at ho
    · cases ho
    · exact h.idleOk e p k ho
  case handleOk =>
    intro e hd ho
    split at ho
    · cases ho
    · exact h.handleOk e hd ho
  case free =>
    intro hT e ho
    split at ho
    · cases ho
    · exact h.free hT e ho
  case alive => exact h.alive

open Classical in
/-- A call that ends gives the executor of its handle back. -/
theorem Owned.finish (h : Owned T w vs owner) (hf : (vs i).Finished T) :
    Owned T w (update vs i {})
      (fun e => if (vs i).exec = some e then .handle ((vs i).hand.getD 0) else owner e) := by
  have hsy := h.synced i
  -- what the call has is the executor of its handle, which gets it back
  have hlent : ∀ {e}, (vs i).exec = some e → owner e = .call i ∧ ∃ hd, (vs i).hand = some hd ∧
      hd < w.nextHandle ∧ (w.handles hd).executor = some e := by
    intro e he
    obtain ⟨hd, hhand⟩ : ∃ hd, (vs i).hand = some hd := by
      refine Option.ne_none_iff_exists'.1 fun hn => ?_
      rw [hf.exec hn] at he; cases he
    obtain ⟨hlt, hex, -⟩ := h.hand i hd hhand
    exact ⟨(h.call e i).1 he, hd, hhand, hlt, hex.trans he⟩
  have hcopy : ∀ j, (update vs i {} j).copy = (vs j).copy := update_same View.copy hf.copy.symm
  have hfree : ∀ {j hd}, (update vs i {} j).hand = some hd → j ≠ i ∧ (vs j).hand = some hd := by
    intro j hd hh
    by_cases hj : j = i
    · subst hj; rw [update_self] at hh; cases hh
    · rw [update_of_ne hj] at hh; exact ⟨hj, hh⟩
  constructor
  case nodup => exact h.nodup
  case idle =>
    intro e p k
    rw [h.idle e p k]
    split
    · rename_i he; simp [(hlent he).1]
    · rfl
  case handle =>
    intro e hd
    split
    · rename_i he
      obtain ⟨ho, hd', hhand, hlt, hex⟩ := hlent he
      rw [hhand, Option.getD_some]
      constructor
      · rintro ⟨hlt', hex', hno⟩
        by_contra hne
        -- another call works on the handle, or none does
        have hown : owner e = .handle hd := by
          refine (h.handle e hd).1 ⟨hlt', hex', fun j hj => ?_⟩
          have hji : j ≠ i := by
            rintro rfl
            exact hne (congrArg Owner.handle (Option.some.inj (hhand.symm.trans hj)))
          exact hno j (by rw [update_of_ne hji]; exact hj)
        rw [ho] at hown; cases hown
      · intro heq
        obtain rfl : hd' = hd := Owner.handle.inj heq
        refine ⟨hlt, hex, fun j hj => ?_⟩
        obtain ⟨hji, hj⟩ := hfree hj
        exact hji ((h.hand i hd' hhand).2.2 j hj)
    · rename_i he
      rw [← h.handle e hd]
      refine and_congr_right fun hlt => and_congr_right fun hex => ?_
      constructor
      · intro hno j hj
        have hji : j ≠ i := by
          rintro rfl
          exact he ((h.hand j hd hj).2.1.symm.trans hex)
        exact hno j (by rw [update_of_ne hji]; exact hj)
      · exact fun hno j hj => hno j (hfree hj).2
  case call =>
    intro e j
    by_cases hj : j = i
    · subst hj
      rw [update_self]
      split
      · simp
      · rename_i he
        exact ⟨fun hh => (by cases hh), fun ho => absurd ((h.call e j).2 ho) he⟩
    · rw [update_of_ne hj, h.call e j]
      split
      · rename_i he; simp [(hlent he).1, Ne.symm hj]
      · rfl
  case hand =>
    intro j hd hh
    obtain ⟨hj, hh⟩ := hfree hh
    obtain ⟨hlt, hex, hu⟩ := h.hand j hd hh
    exact ⟨hlt, by rwa [update_of_ne hj], fun j' hj' => hu j' (hfree hj').2⟩
  case synced =>
    refine h.synced_update ⟨?_, ?_, ?_, ?_, ?_, ?_, rfl⟩ (fun _ _ _ _ => rfl) (fun _ _ _ _ => rfl)
      (fun _ _ _ _ _ => rfl) (Nat.le_refl _) fun _ _ => rfl
    all_goals intros; contradiction
  case alone =>
    intro hT j j' x hj hj'
    have hji : ∀ {j}, (update vs i {} j).ctxId = some x → (vs j).ctxId = some x := by
      intro j hj
      by_cases hji : j = i
      · subst hji; rw [update_self] at hj; cases hj
      · rwa [update_of_ne hji] at hj
    exact h.alone hT j j' x (hji hj) (hji hj')
  case freshExec =>
    intro e he
    obtain ⟨ho, hc⟩ := h.freshExec e he
    refine ⟨?_, by simpa only [hcopy] using hc⟩
    rw [if_neg, ho]
    intro he'
    rw [(hlent he').1] at ho; cases ho
  case map => exact h.map
  case freshPool => exact h.freshPool
  case refs =>
    intro e L hL hc
    have hr := h.refs e L hL (by simpa only [hcopy] using hc)
    by_cases he : (vs i).exec = some e
    · rw [(hlent he).1] at hr
      simpa [he] using hr
    · simpa [he] using hr
  case idleOk =>
    intro e p k ho
    split at ho
    · cases ho
    · exact h.idleOk e p k ho
  case handleOk =>
    intro e hd ho
    split at ho
    · rename_i he
      obtain ⟨-, hd', hhand, -, -⟩ := hlent he
      rw [hhand] at ho
      obtain rfl := Owner.handle.inj ho
      rw [Option.getD_some, ← hsy.state e he, ← hsy.data _ hhand]
      exact hf.held e he
    · exact h.handleOk e hd ho
  case free =>
    intro hT e ho
    split at ho
    · cases ho
    · exact h.free hT e ho
  case alive => exact h.alive

end Lend

/-- A new proxy. -/
def World.fresh (serviceName : String) (option : MysqlExecutorPoolOption) (ctxs : CtxId → ClientContext) : World :=
  { serviceName := serviceName, poolOption := option, ctxs := ctxs }

theorem owned_fresh (serviceName : String) (option : MysqlExecutorPoolOption) (ctxs : CtxId → ClientContext) :
    Owned T (World.fresh serviceName option ctxs) (fun _ => {}) (fun _ => .nobody) where
  nodup _ _ := List.nodup_nil
  idle _ _ _ := by simp [World.fresh]
  handle _ _ := by simp [World.fresh]
  call _ _ := by simp
  hand _ _ hh := by cases hh
  synced i := ⟨fun _ he => (by cases he), fun _ hh => (by cases hh), fun _ _ hx => (by cases hx),
    fun hl => (by cases hl), fun _ hp => (by cases hp), fun _ he => (by cases he), rfl⟩
  alone _ _ _ _ hx := by cases hx
  freshExec _ _ := ⟨rfl, fun _ hc => (by cases hc)⟩
  map _ _ hp := by cases hp
  freshPool _ _ _ := rfl
  refs _ L _ hc := by
    cases L with
    | nil => simp
    | cons j L => exact absurd (hc j (by simp)) (by simp)
  idleOk _ _ _ ho := by cases ho
  handleOk _ _ ho := by cases ho
  free _ _ _ := rfl
  alive _ := rfl

end TrpcMysql
