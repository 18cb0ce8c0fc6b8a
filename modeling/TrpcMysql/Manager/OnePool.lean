import Mathlib.Data.List.TakeWhile
import Mathlib.Data.Set.Function
import TrpcMysql.Manager.Manager

/-!
# One pool for each address

`Get` is asked for the addresses of a set, by any number of calls at once. `one_pool_iff`: every
call gets a pool of its own address, and calls get the same pool exactly when they ask for the
same address, if and only if no two addresses of the set print to the same key.

What a call knows while it runs is the pool it made, until that pool is in the map or deleted, and
the pool it found (`GetView`); a pool in the map stands under the key of its own address (`Mapped`).
-/

namespace TrpcMysql

open Function Conc

/-- What a call of `Get` knows: the pool it made and for which address, and the pool that stands
under a key. -/
structure GetView where
  mine : Option (PoolId × NodeAddr) := none
  found : Option (Bytes × PoolId) := none

namespace GetView

def next (v : GetView) : (o : ManagerOp) → o.Reply → GetView
  | .mapGet key, some p => { v with found := some (key, p) }
  | .newPool _ addr, p => { v with mine := some (p, addr) }
  | .mapGetOrInsert key p, none => { mine := none, found := some (key, p) }
  | .mapGetOrInsert key _, some p => { v with found := some (key, p) }
  | .deletePool _, _ => { v with mine := none }
  | _, _ => v

end GetView

/-- The pools of the map, and those that calls have made for themselves. -/
structure Mapped (A : Set NodeAddr) (opt : MysqlExecutorPoolOption) (m : ManagerSt) (vs : ℕ → GetView) :
    Prop where
  option : m.option = opt
  shards : m.nextPool ≠ 0 → opt.numShardGroup ≠ 0
  target : ∀ p, p < m.nextPool → (m.pools p).target ∈ A
  entry : ∀ key p, m.find key = some p →
    p < m.nextPool ∧ key = endpoint (m.pools p).target ∧ (m.pools p).deleted = 0
  mine : ∀ i p addr, (vs i).mine = some (p, addr) → p < m.nextPool ∧ (m.pools p).target = addr ∧
    (m.pools p).deleted = 0 ∧ (∀ key, m.find key ≠ some p) ∧ ∀ j b, (vs j).mine = some (p, b) → j = i
  found : ∀ i key p, (vs i).found = some (key, p) → m.find key = some p

/-- `Get` calls for addresses of the set. -/
def getGuard (A : Set NodeAddr) : Guard ManagerSt ManagerOp Unit ManagerCall (Option PoolId) ManagerOp.Reply where
  start _ c := ∃ addr ∈ A, c = .get addr
  act _ _ _ _ _ := True

@[reducible] def getOutline (A : Set NodeAddr) (opt : MysqlExecutorPoolOption) :
    Outline ManagerSt ManagerOp Unit ManagerCall (Option PoolId) ManagerOp.Reply where
  V := GetView
  rest := {}
  begin _ _ _ := {}
  next _ v o r _ := v.next o r
  Inv := Mapped A opt
  Fits _ _ := True
  Holds _ _ := True
  Step _ _ m m' := ∀ key p, m.find key = some p → m'.find key = some p
  Unborn _ _ := True
  Post _ c v r := v.mine = none ∧ ∃ addr ∈ A, c = .get addr ∧ ∃ p, r = some p ∧ v.found = some (endpoint addr, p)
  Done _ c r m := ∃ addr ∈ A, c = .get addr ∧ ∃ p, r = some p ∧ m.find (endpoint addr) = some p

section Steps

variable {A : Set NodeAddr} {opt : MysqlExecutorPoolOption} {m : ManagerSt} {vs : ℕ → GetView} {i : ℕ}
  {addr : NodeAddr} {v : GetView} {p : PoolId}

/-- A call that has made no pool may have looked one up. -/
theorem Mapped.looked (h : Mapped A opt m vs) (hm : v.mine = (vs i).mine)
    (hf : ∀ key p, v.found = some (key, p) → m.find key = some p) : Mapped A opt m (update vs i v) := by
  have hmine : ∀ j, (update vs i v j).mine = (vs j).mine := by
    intro j
    by_cases hji : j = i
    · subst hji; rw [update_self, hm]
    · rw [update_of_ne hji]
  refine ⟨h.option, h.shards, h.target, h.entry, fun j p b hj => ?_, fun j key p hj => ?_⟩
  · rw [hmine] at hj
    obtain ⟨h1, h2, h3, h4, h5⟩ := h.mine j p b hj
    exact ⟨h1, h2, h3, h4, fun j' b' hj' => h5 j' b' (by rwa [hmine] at hj')⟩
  · by_cases hji : j = i
    · subst hji; rw [update_self] at hj; exact hf key p hj
    · rw [update_of_ne hji] at hj; exact h.found j key p hj

/-- A new pool belongs to the call that made it. -/
theorem Mapped.made (h : Mapped A opt m vs) (ha : addr ∈ A) (hs : opt.numShardGroup ≠ 0)
    (hm : v.mine = some (m.nextPool, addr)) (hf : v.found = (vs i).found) :
    Mapped A opt { m.setPool m.nextPool { option := opt, target := addr } with nextPool := m.nextPool + 1 }
      (update vs i v) := by
  -- the number of the new pool is in no entry and no other call made it
  have hfind : ∀ key p, m.find key = some p → p ≠ m.nextPool := fun key p hp => Nat.ne_of_lt (h.entry key p hp).1
  have hold : ∀ j p b, (vs j).mine = some (p, b) → p ≠ m.nextPool :=
    fun j p b hp => Nat.ne_of_lt (h.mine j p b hp).1
  refine ⟨h.option, fun _ => hs, fun p hp => ?_, fun key p hp => ?_, fun j p b hj => ?_, fun j key p hj => ?_⟩
  · by_cases hpn : p = m.nextPool
    · subst hpn; simpa using ha
    · have hlt : p < m.nextPool := Nat.lt_of_le_of_ne (Nat.le_of_lt_succ hp) hpn
      simpa [hpn] using h.target p hlt
  · have hne := hfind key p hp
    obtain ⟨h1, h2, h3⟩ := h.entry key p hp
    exact ⟨Nat.lt_succ_of_lt h1, by simpa [hne] using h2, by simpa [hne] using h3⟩
  · by_cases hji : j = i
    · subst hji
      rw [update_self, hm] at hj
      cases hj
      refine ⟨Nat.lt_succ_self _, by simp, by simp,
        fun key hk => hfind key _ hk rfl, fun j' b' hj' => ?_⟩
      by_contra hne
      rw [update_of_ne hne] at hj'
      exact hold j' _ _ hj' rfl
    · rw [update_of_ne hji] at hj
      obtain ⟨h1, h2, h3, h4, h5⟩ := h.mine j p b hj
      have hne := hold j p b hj
      refine ⟨Nat.lt_succ_of_lt h1, by simpa [hne] using h2,
        by simpa [hne] using h3, h4, fun j' b' hj' => ?_⟩
      by_cases hji' : j' = i
      · subst hji'
        rw [update_self, hm] at hj'
        cases hj'
        exact absurd rfl hne
      · rw [update_of_ne hji'] at hj'; exact h5 j' b' hj'
  · by_cases hji : j = i
    · subst hji; rw [update_self, hf] at hj; exact h.found j key p hj
    · rw [update_of_ne hji] at hj; exact h.found j key p hj

/-- The pool that a call made comes into the map. -/
theorem Mapped.insert (h : Mapped A opt m vs) (hi : (vs i).mine = some (p, addr)) (hk : m.find (endpoint addr) = none)
    (hm : v.mine = none) (hf : v.found = some (endpoint addr, p)) :
    Mapped A opt { m.setPool p { m.pools p with inserted := true } with
      executorPools := (endpoint addr, p) :: m.executorPools } (update vs i v) := by
  obtain ⟨h1, h2, h3, h4, h5⟩ := h.mine i p addr hi
  have htarget : ∀ q, ((m.setPool p { m.pools p with inserted := true }).pools q).target = (m.pools q).target :=
    fun q => ManagerSt.setPool_field ManagedPool.target rfl
  have hdel : ∀ q, ((m.setPool p { m.pools p with inserted := true }).pools q).deleted = (m.pools q).deleted :=
    fun q => ManagerSt.setPool_field ManagedPool.deleted rfl
  refine ⟨h.option, h.shards, fun q hq => ?_, fun key q hq => ?_, fun j q b hj => ?_, fun j key q hj => ?_⟩
  · dsimp only; rw [htarget]; exact h.target q hq
  · dsimp only; rw [htarget, hdel]
    rw [ManagerSt.find_insert] at hq
    split at hq
    · rename_i hkey
      cases hq
      exact ⟨h1, by rw [hkey, h2], h3⟩
    · exact h.entry key q hq
  · by_cases hji : j = i
    · subst hji; rw [update_self, hm] at hj; cases hj
    · rw [update_of_ne hji] at hj
      obtain ⟨k1, k2, k3, k4, k5⟩ := h.mine j q b hj
      have hqp : q ≠ p := fun hqp => hji (h5 j b (hqp ▸ hj))
      refine ⟨k1, by dsimp only; rw [htarget]; exact k2, by dsimp only; rw [hdel]; exact k3, fun key hq => ?_,
        fun j' b' hj' => ?_⟩
      · rw [ManagerSt.find_insert] at hq
        split at hq
        · -- only the call that made it may bring it into the map
          cases hq; exact hqp rfl
        · exact k4 key hq
      · by_cases hji' : j' = i
        · subst hji'; rw [update_self, hm] at hj'; cases hj'
        · rw [update_of_ne hji'] at hj'; exact k5 j' b' hj'
  · rw [ManagerSt.find_insert]
    by_cases hji : j = i
    · subst hji
      rw [update_self, hf] at hj
      cases hj
      rw [if_pos rfl]
    · rw [update_of_ne hji] at hj
      have := h.found j key q hj
      rw [if_neg, this]
      rintro rfl
      rw [hk] at this; cases this

/-- A call deletes the pool that it made in vain. -/
theorem Mapped.deleted (h : Mapped A opt m vs) (hi : (vs i).mine = some (p, addr)) (hm : v.mine = none)
    (hf : v.found = (vs i).found) :
    Mapped A opt (m.setPool p { m.pools p with deleted := (m.pools p).deleted + 1 }) (update vs i v) := by
  obtain ⟨-, -, -, h4, h5⟩ := h.mine i p addr hi
  have htarget : ∀ q, ((m.setPool p { m.pools p with deleted := (m.pools p).deleted + 1 }).pools q).target =
      (m.pools q).target := fun q => ManagerSt.setPool_field ManagedPool.target rfl
  refine ⟨h.option, h.shards, fun q hq => ?_, fun key q hq => ?_, fun j q b hj => ?_, fun j key q hj => ?_⟩
  · rw [htarget]; exact h.target q hq
  · obtain ⟨k1, k2, k3⟩ := h.entry key q hq
    have hqp : q ≠ p := fun hqp => h4 key (hqp ▸ hq)
    exact ⟨k1, by rw [htarget]; exact k2, by simpa [hqp] using k3⟩
  · by_cases hji : j = i
    · subst hji; rw [update_self, hm] at hj; cases hj
    · rw [update_of_ne hji] at hj
      obtain ⟨k1, k2, k3, k4, k5⟩ := h.mine j q b hj
      have hqp : q ≠ p := fun hqp => hji (h5 j b (hqp ▸ hj))
      refine ⟨k1, by rw [htarget]; exact k2, by simpa [hqp] using k3, k4, fun j' b' hj' => ?_⟩
      by_cases hji' : j' = i
      · subst hji'; rw [update_self, hm] at hj'; cases hj'
      · rw [update_of_ne hji'] at hj'; exact k5 j' b' hj'
  · by_cases hji : j = i
    · subst hji; rw [update_self, hf] at hj; exact h.found j key q hj
    · rw [update_of_ne hji] at hj; exact h.found j key q hj

end Steps

section Runs

variable {A : Set NodeAddr} {opt : MysqlExecutorPoolOption} {addr : NodeAddr} {i : ℕ} {c : ManagerCall}
  {v : GetView} {key : Bytes} {p : PoolId}

theorem safe_mapGet : (getOutline A opt).Safe managerSystem (getGuard A) i c v (mop (.mapGet key)) fun v' r =>
    v'.mine = v.mine ∧ ∀ p, r = some p → v'.found = some (key, p) := by
  refine Outline.safe_op fun m vs a r m' hI hv _ he => ?_
  cases he
  subst hv
  cases hk : m.find key with
  | none =>
    refine ⟨hI.looked rfl fun key' q hq => hI.found i key' q hq, fun _ _ h => h, rfl, fun p hp => ?_⟩
    cases hp
  | some q =>
    refine ⟨hI.looked rfl fun key' q' hq => ?_, fun _ _ h => h, rfl, fun p hp => ?_⟩
    · cases hq; exact hk
    · cases hp; rfl

theorem safe_getOption : (getOutline A opt).Safe managerSystem (getGuard A) i c v (mop .getOption) fun v' r =>
    v' = v ∧ r = opt := by
  refine Outline.safe_op fun m vs a r m' hI hv _ he => ?_
  cases he
  subst hv
  exact ⟨hI.looked rfl (hI.found i), fun _ _ h => h, rfl, hI.option⟩

theorem safe_newPool (ha : addr ∈ A) :
    (getOutline A opt).Safe managerSystem (getGuard A) i c v (mop (.newPool opt addr)) fun v' p =>
      v'.mine = some (p, addr) := by
  refine Outline.safe_op fun m vs a r m' hI hv _ he => ?_
  simp only [managerSystem, managerExec] at he
  split at he
  · cases he
  · rename_i hs
    cases he
    subst hv
    refine ⟨hI.made ha hs rfl rfl, fun key p hk => ?_, rfl⟩
    exact hk

theorem safe_mapGetOrInsert (hv : v.mine = some (p, addr)) :
    (getOutline A opt).Safe managerSystem (getGuard A) i c v (mop (.mapGetOrInsert (endpoint addr) p)) fun v' r =>
      match r with
      | none => v'.mine = none ∧ v'.found = some (endpoint addr, p)
      | some p' => v'.mine = some (p, addr) ∧ v'.found = some (endpoint addr, p') := by
  refine Outline.safe_op fun m vs a r m' hI hvi _ he => ?_
  subst hvi
  simp only [managerSystem, managerExec] at he
  split at he
  · rename_i p' hk
    cases he
    refine ⟨hI.looked rfl fun key' q hq => ?_, fun _ _ h => h, hv, rfl⟩
    cases hq; exact hk
  · rename_i hk
    cases he
    refine ⟨hI.insert hv hk rfl rfl, fun key q hq => ?_, rfl, rfl⟩
    rw [ManagerSt.find_insert, if_neg, hq]
    -- an entry that was found before has another key, as this one was not in the map
    rintro rfl
    rw [hk] at hq; cases hq

theorem safe_deletePool (hv : v.mine = some (p, addr)) :
    (getOutline A opt).Safe managerSystem (getGuard A) i c v (mop (.deletePool p)) fun v' _ =>
      v'.mine = none ∧ v'.found = v.found := by
  refine Outline.safe_op fun m vs a r m' hI hvi _ he => ?_
  cases he
  subst hvi
  exact ⟨hI.deleted hv rfl rfl, fun _ _ h => h, rfl, rfl⟩

theorem get_safe (ha : addr ∈ A) (hv : v.mine = none) :
    (getOutline A opt).Safe managerSystem (getGuard A) i c v (Manager.get addr) fun v' p =>
      v'.mine = none ∧ v'.found = some (endpoint addr, p) := by
  unfold Manager.get
  dsimp only
  rw [Outline.safe_bind]
  refine Outline.safe_mono (fun v₁ r h₁ => ?_) safe_mapGet
  cases r with
  | some p => exact ⟨h₁.1.trans hv, h₁.2 p rfl⟩
  | none =>
    simp only [Manager.createExecutorPool, bind_assoc, Outline.safe_bind]
    refine Outline.safe_mono (fun v₂ o h₂ => ?_) safe_getOption
    obtain ⟨-, rfl⟩ := h₂
    refine Outline.safe_mono (fun v₃ p h₃ => ?_) (safe_newPool ha)
    refine Outline.safe_mono (fun v₄ r h₄ => ?_) (safe_mapGetOrInsert h₃)
    cases r with
    | none => exact h₄
    | some q =>
      rw [Outline.safe_bind]
      refine Outline.safe_mono (fun v₅ _ h₅ => ?_) (safe_deletePool h₄.1)
      exact ⟨h₅.1, h₅.2.trans h₄.2⟩

/-- **The map's invariant holds whatever the order of the steps.** -/
theorem getOutline_sound : (getOutline A opt).Sound managerSystem (getGuard A) { option := opt } where
  init := ⟨rfl, fun h => absurd rfl h, fun _ h => absurd h (Nat.not_lt_zero _), fun _ _ h => (nomatch h),
    fun _ _ _ h => (nomatch h), fun _ _ _ h => (nomatch h)⟩
  unborn _ := trivial
  unborn_step _ _ _ := trivial
  start := by
    intro cf vs c hI hg hv _ _
    obtain ⟨addr, ha, rfl⟩ := hg
    refine ⟨hI.looked (by rw [hv]) fun _ _ h => (nomatch h), ?_⟩
    refine Outline.safe_bind.2 (Outline.safe_mono (fun v p h => ?_) (get_safe ha rfl))
    exact ⟨h.1, addr, ha, rfl, p, rfl, h.2⟩
  fits _ _ _ := trivial
  fits_next _ _ _ _ _ _ _ := trivial
  holds _ := trivial
  holds_next _ _ _ _ _ _ _ := trivial
  finish := by
    intro m vs i c r hI hp
    obtain ⟨hm, addr, ha, rfl, p, rfl, hf⟩ := hp
    exact ⟨hI.looked hm.symm fun _ _ h => (nomatch h), addr, ha, rfl, p, rfl, hI.found i _ p hf⟩
  stable := by
    intro i c r m j c' o a x m' _ hd _ hst
    obtain ⟨addr, ha, rfl, p, rfl, hf⟩ := hd
    exact ⟨addr, ha, rfl, p, rfl, hst _ p hf⟩

end Runs

/-! ## What the callers get -/

/-- Every call got the pool of its address, the same for every call, and nobody deleted it. -/
structure OnePool (cf : ManagerConfig) : Prop where
  target : ∀ i addr p, cf.Returned i (.get addr) (some p) → (cf.world.pools p).target = addr
  same : ∀ i j addr addr' p p', cf.Returned i (.get addr) (some p) → cf.Returned j (.get addr') (some p') →
    (p = p' ↔ addr = addr')
  alive : ∀ i addr p, cf.Returned i (.get addr) (some p) → (cf.world.pools p).deleted = 0

section OnePool

variable {A : Set NodeAddr} {opt : MysqlExecutorPoolOption} {i : ℕ}

/-- The text before the last `c` and the text after it. -/
theorem append_cons_inj {α : Type} {c : α} {xs ys us vs : List α} (hu : c ∉ us) (hv : c ∉ vs)
    (h : xs ++ c :: us = ys ++ c :: vs) : xs = ys ∧ us = vs := by
  rcases List.append_eq_append_iff.1 h with ⟨ts, h1, h2⟩ | ⟨ts, h1, h2⟩
  · cases ts with
    | nil => simpa [h1, eq_comm] using h2
    | cons t ts => rw [List.cons_append, List.cons.injEq] at h2; exact absurd (by simp [h2.2]) hu
  · cases ts with
    | nil => simpa [h1, eq_comm] using h2
    | cons t ts => rw [List.cons_append, List.cons.injEq] at h2; exact absurd (by simp [h2.2]) hv

/-- A byte for each digit of a number. -/
theorem digit_of_mem {n : ℕ} {c : Char} (h : c ∈ (toString n).toList) : 48 ≤ c.toNat ∧ c.toNat ≤ 57 := by
  have hc := Nat.isDigit_of_mem_toDigits (by decide) (by decide) (Nat.toList_repr ▸ h)
  simpa [Char.isDigit, UInt32.le_iff_toNat_le] using hc

theorem colon_notMem (n : ℕ) : colon ∉ ascii (toString n) := by
  intro h
  obtain ⟨c, hc, hcolon⟩ := List.mem_map.1 h
  obtain ⟨-, hle⟩ := digit_of_mem hc
  have h58 := congrArg UInt8.toNat hcolon
  simp only [colon, UInt8.toNat_ofNat', UInt8.reduceToNat] at h58
  omega

/-- The bytes of a number tell its digits. -/
theorem map_ascii_toString (n : ℕ) : (ascii (toString n)).map (fun b => Char.ofNat b.toNat) = (toString n).toList := by
  rw [ascii, List.map_map]
  refine (List.map_congr_left fun c hc => ?_).trans (List.map_id _)
  obtain ⟨-, hle⟩ := digit_of_mem hc
  have hmod : c.toNat % 2 ^ 8 = c.toNat := Nat.mod_eq_of_lt (by omega)
  simp only [comp_apply, UInt8.toNat_ofNat', hmod, id_eq, Char.ofNat_toNat]

/-- A host without NUL that fits is printed whole. -/
theorem endpoint_whole {addr : NodeAddr} (h0 : 0 ∉ addr.ip)
    (hl : addr.ip.length + (ascii (toString addr.port)).length < 63) :
    endpoint addr = addr.ip ++ colon :: ascii (toString addr.port) := by
  have htake : addr.ip.takeWhile (· ≠ 0) = addr.ip :=
    List.takeWhile_eq_self_iff.2 fun c hc => by simpa using fun h : c = 0 => h0 (h ▸ hc)
  rw [endpoint, htake, List.take_of_length_le]
  simp only [List.length_append, List.length_cons]
  omega

/-- Hosts without NUL that fit are kept apart, with their ports. -/
theorem endpoint_inj {a b : NodeAddr} (ha : 0 ∉ a.ip) (hb : 0 ∉ b.ip)
    (hla : a.ip.length + (ascii (toString a.port)).length < 63)
    (hlb : b.ip.length + (ascii (toString b.port)).length < 63)
    (h : endpoint a = endpoint b) : a = b := by
  rw [endpoint_whole ha hla, endpoint_whole hb hlb] at h
  obtain ⟨hip, hport⟩ := append_cons_inj (colon_notMem _) (colon_notMem _) h
  have hp : a.port = b.port := by
    have hdigits : (toString a.port).toList = (toString b.port).toList := by
      rw [← map_ascii_toString, ← map_ascii_toString, hport]
    have := congrArg (Nat.ofDigitChars 10 · 0) hdigits
    simpa [Nat.toList_repr, Nat.ofDigitChars_ten_toDigits] using this
  cases a; cases b
  simp only [NodeAddr.mk.injEq]
  exact ⟨hip, hp⟩

theorem onePool_of_reach (hA : Set.InjOn endpoint A ∨ opt.numShardGroup = 0) {cf : ManagerConfig}
    (hr : managerSystem.Reach (getGuard A) { option := opt } cf) : OnePool cf := by
  obtain ⟨vs, hI, -⟩ := getOutline_sound.reach hr
  have hfind : ∀ i addr p, cf.Returned i (.get addr) (some p) →
      addr ∈ A ∧ cf.world.find (endpoint addr) = some p := by
    intro i addr p h
    obtain ⟨addr', ha, hc, p', hp, hf⟩ := getOutline_sound.returned hr h
    cases hc; cases hp
    exact ⟨ha, hf⟩
  have htarget : ∀ i addr p, cf.Returned i (.get addr) (some p) → (cf.world.pools p).target = addr := by
    intro i addr p h
    obtain ⟨ha, hf⟩ := hfind i addr p h
    obtain ⟨hlt, hkey, -⟩ := hI.entry _ p hf
    rcases hA with hA | hz
    · exact (hA ha (hI.target p hlt) hkey).symm
    · exact absurd hz (hI.shards (Nat.ne_zero_of_lt hlt))
  refine ⟨htarget, fun i j addr addr' p p' h h' => ⟨fun hpp => ?_, fun haa => ?_⟩, fun i addr p h => ?_⟩
  · subst hpp; rw [← htarget i addr p h, ← htarget j addr' p h']
  · subst haa
    have := (hfind i addr p h).2
    rw [(hfind j addr p' h').2] at this
    exact (Option.some.inj this).symm
  · exact (hI.entry _ p (hfind i addr p h).2).2.2

/-- Alone on a new manager, a call makes the first pool. -/
theorem get_run_new (addr : NodeAddr) (hs : opt.numShardGroup ≠ 0) :
    ∃ m, (ManagerCall.get addr).prog.run (managerExec i) { option := opt } (List.replicate 4 ()) =
      some (some 0, m, []) ∧ m.find (endpoint addr) = some 0 := by
  refine ⟨{ (({ option := opt } : ManagerSt).setPool 0 { option := opt, target := addr, inserted := true }) with
    executorPools := [(endpoint addr, 0)], nextPool := 1 }, ?_, by simp [ManagerSt.find]⟩
  simp only [ManagerCall.prog, Manager.get, Manager.createExecutorPool, Prog.op_bind, Prog.act_bind, List.replicate,
    Prog.run, managerExec, ManagerSt.find, List.lookup_nil, if_neg hs]
  simp [ManagerSt.setPool]

/-- Alone, a call finds the pool that stands under its key. -/
theorem get_run_old {m : ManagerSt} {addr : NodeAddr} {p : PoolId} (hk : m.find (endpoint addr) = some p) :
    (ManagerCall.get addr).prog.run (managerExec i) m [()] = some (some p, m, []) := by
  simp only [ManagerCall.prog, Manager.get, Prog.op_bind, Prog.act_bind, Prog.run, managerExec, hk]
  rfl

/-- One call after the other, on a new manager: the second one gets the pool of the first. -/
theorem reach_two (opt : MysqlExecutorPoolOption) {a b : NodeAddr} (ha : a ∈ A) (hb : b ∈ A) (hs : opt.numShardGroup ≠ 0)
    (hab : endpoint a = endpoint b) : ∃ cf, managerSystem.Reach (getGuard A) { option := opt } cf ∧
      cf.Returned 0 (.get a) (some 0) ∧ cf.Returned 1 (.get b) (some 0) := by
  obtain ⟨m, hr, hf⟩ := get_run_new (i := 0) a hs
  have h₁ := System.Reach.init.call (S := managerSystem) (g := getGuard A) _ ⟨a, ha, rfl⟩ Prog.along_true hr
  rw [hab] at hf
  exact ⟨_, h₁.call _ ⟨b, hb, rfl⟩ Prog.along_true (get_run_old (i := 1) hf), rfl, rfl⟩

/-- **Every call gets the one pool of its address, if and only if the keys of the addresses
differ.** -/
theorem one_pool_iff (A : Set NodeAddr) (opt : MysqlExecutorPoolOption) :
    (∀ cf, managerSystem.Reach (getGuard A) { option := opt } cf → OnePool cf) ↔
      Set.InjOn endpoint A ∨ opt.numShardGroup = 0 := by
  refine ⟨fun h => ?_, fun hA cf hr => onePool_of_reach hA hr⟩
  by_cases hs : opt.numShardGroup = 0
  · exact .inr hs
  refine .inl fun a ha b hb hab => ?_
  obtain ⟨cf, hr, h0, h1⟩ := reach_two opt ha hb hs hab
  exact ((h cf hr).same 0 1 a b 0 0 h0 h1).1 rfl

/-- A host of 63 bytes. -/
def longHost (port : ℕ) : NodeAddr :=
  { ip := ascii "mysql-orders-replica-07.eu-central-1.databases.example.internal", port := port }

/-- There is no room for the port: the servers of the host share a pool. -/
theorem one_pool_long_host :
    ¬ ∀ cf, managerSystem.Reach (getGuard {longHost 3306, longHost 3307}) { option := {} } cf → OnePool cf := by
  intro h
  obtain ⟨cf, hr, h0, h1⟩ := reach_two (A := {longHost 3306, longHost 3307}) {} (a := longHost 3306)
    (b := longHost 3307) (.inl rfl) (.inr rfl) (by decide) (by decide)
  exact absurd (((h cf hr).same 0 1 _ _ 0 0 h0 h1).1 rfl) (by decide)

end OnePool

end TrpcMysql
