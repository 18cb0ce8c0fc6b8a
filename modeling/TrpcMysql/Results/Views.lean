import Mathlib.Data.Set.Insert
import TrpcMysql.Results.Memory

/-!
# Row views stay valid

`row_views_valid`: whatever a program does with its results objects, the views of an object's rows point
into the stored result that the object, and no other one, owns; no result is freed twice, the assertion
of `SetRawMysqlRes` holds, and what `GetResultSet` copies are the server's bytes.

The invariant says of every object that it holds no rows, or the views of exactly the rows of its own
result (`NativeResults.Holds`). A step takes objects out of the invariant while it works on them and puts
them back (`Memory.Valid`), and each operation of an object has one lemma about what it leaves.
-/

namespace TrpcMysql

open Function

/-! ## Computations that only the caller can make fail -/

/-- The computation ends in `P`, or the caller named an object that does not exist. -/
def Ends {α : Type} (P : α → Prop) : Except Fault α → Prop
  | .ok a => P a
  | .error f => f = .noObject

theorem Ends.bind {α β : Type} {P : α → Prop} {Q : β → Prop} {e : Except Fault α} {f : α → Except Fault β}
    (h : Ends P e) (hf : ∀ a, P a → Ends Q (f a)) : Ends Q (e >>= f) := by
  cases e with
  | error => exact h
  | ok a => exact hf a h

theorem Ends.mono {α : Type} {P Q : α → Prop} {e : Except Fault α} (h : Ends P e) (hPQ : ∀ a, P a → Q a) :
    Ends Q e := by
  cases e with
  | error => exact h
  | ok a => exact hPQ a h

/-- A list of computations that all succeed. -/
theorem mapM_ok {α β ε : Type} {f : α → Except ε β} : ∀ {xs : List α} {ys : List β}, xs.length = ys.length →
    (∀ (i : ℕ) x y, xs[i]? = some x → ys[i]? = some y → f x = .ok y) → xs.mapM f = .ok ys := by
  intro xs
  induction xs with
  | nil =>
    intro ys hl _
    rw [List.eq_nil_of_length_eq_zero hl.symm]
    rfl
  | cons x xs ih =>
    intro ys hl h
    cases ys with
    | nil => cases hl
    | cons y ys =>
      rw [List.mapM_cons, h 0 x y rfl rfl, ih (by simpa using hl) fun i x' y' hx hy => h (i + 1) x' y' hx hy]
      rfl

/-! ## The rows of an object -/

/-- The server's bytes of the rows that the object holds; a NULL has none. -/
def NativeResults.held (o : NativeResults) (m : Memory) : List (List Bytes) :=
  match o.mysqlRes.bind m.results with
  | some r => r.set.rows.map fun row => row.map (·.getD [])
  | none => []

/-! ## The invariant -/

/-- The object holds no rows, or the views of the rows of its own result. -/
def NativeResults.Holds (o : NativeResults) (m : Memory) : Prop :=
  (o.mysqlRes = none ∧ o.resultSet = [] ∧ o.nullFlags = []) ∨
    ∃ p set, o.mysqlRes = some p ∧ m.results p = some { set := set } ∧
      o.resultSet = set.rows.mapIdx (NativeResults.fetchRow p) ∧
      o.nullFlags = set.rows.map fun row => row.map Option.isNone

/-- The objects outside `s` hold their rows, and each result has one owner. -/
structure Memory.Valid (s : Set ObjId) (m : Memory) : Prop where
  objects : ∀ x o, m.objects x = some o → x < m.nextObj
  results : ∀ p r, m.results p = some r → p < m.nextRes
  holds : ∀ x o, x ∉ s → m.objects x = some o → o.Holds m
  owner : ∀ x y o o' p, x ∉ s → y ∉ s → m.objects x = some o → m.objects y = some o' →
    o.mysqlRes = some p → o'.mysqlRes = some p → x = y

section Steps

variable {m : Memory} {s : Set ObjId} {x : ObjId} {o : NativeResults}

theorem NativeResults.Holds.none (hr : o.mysqlRes = none) (hs : o.resultSet = []) (hn : o.nullFlags = []) :
    o.Holds m := .inl ⟨hr, hs, hn⟩

/-- A row's views show the server's bytes. -/
theorem read_fetchRow {p : ResPtr} {set : ResultSet} (hp : m.results p = some { set := set }) {i : ℕ}
    {row : ServerRow} (hi : set.rows[i]? = some row) :
    (NativeResults.fetchRow p i row).mapM m.read = .ok (row.map (·.getD [])) := by
  refine mapM_ok (by simp [NativeResults.fetchRow]) fun j v b hv hb => ?_
  rw [NativeResults.fetchRow, List.getElem?_mapIdx] at hv
  rw [List.getElem?_map] at hb
  cases hj : row[j]? with
  | none => rw [hj] at hv; cases hv
  | some value =>
    rw [hj] at hv hb
    cases hb
    cases value with
    | none => cases hv; rfl
    | some bytes =>
      cases hv
      simp [Memory.read, hp, hi, hj]

/-- What `GetResultSet` copies. -/
theorem NativeResults.getResultSet_of_holds (h : o.Holds m) :
    o.getResultSet m = .ok (if o.hasValue then some (o.held m) else none) := by
  unfold NativeResults.getResultSet
  cases o.hasValue with
  | false => rfl
  | true =>
    have hcopy : (o.resultSet.mapM fun row => row.mapM m.read) = .ok (o.held m) := by
      rcases h with ⟨hr, hs, -⟩ | ⟨p, set, hr, hp, hs, -⟩
      · rw [hs, NativeResults.held, hr]; rfl
      · rw [hs, NativeResults.held, hr]
        simp only [Option.bind_some, hp]
        refine mapM_ok (by simp) fun i row bs hi hb => ?_
        rw [List.getElem?_mapIdx] at hi
        rw [List.getElem?_map] at hb
        cases hrow : set.rows[i]? with
        | none => rw [hrow] at hi; cases hi
        | some r =>
          rw [hrow] at hi hb
          cases hi; cases hb
          exact read_fetchRow hp hrow
    rw [hcopy]
    rfl

theorem Memory.Valid.take (h : m.Valid s) : m.Valid (insert x s) :=
  ⟨h.objects, h.results, fun y o hy => h.holds y o fun hs => hy (.inr hs),
    fun y z o o' p hy hz => h.owner y z o o' p (fun hs => hy (.inr hs)) fun hs => hz (.inr hs)⟩

/-- An object comes back, with rows of its own. -/
theorem Memory.Valid.put (h : m.Valid (insert x s)) (hx : x < m.nextObj) (ho : o.Holds m)
    (hown : ∀ y o' p, y ∉ s → y ≠ x → m.objects y = some o' → o.mysqlRes = some p → o'.mysqlRes ≠ some p) :
    (m.put x o).Valid s := by
  have hne : ∀ y, y ≠ x → (m.put x o).objects y = m.objects y := fun y hy => update_of_ne hy ..
  have hself : (m.put x o).objects x = some o := update_self ..
  refine ⟨fun y o' hy => ?_, h.results, fun y o' hys hy => ?_, fun y z o₁ o₂ p hys hzs hy hz h1 h2 => ?_⟩
  · by_cases hyx : y = x
    · subst hyx; exact hx
    · rw [hne y hyx] at hy; exact h.objects y o' hy
  · by_cases hyx : y = x
    · subst hyx; rw [hself] at hy; cases hy; exact ho
    · rw [hne y hyx] at hy
      exact h.holds y o' (fun hs => hs.elim hyx hys) hy
  · by_cases hyx : y = x
    · by_cases hzx : z = x
      · rw [hyx, hzx]
      · subst hyx
        rw [hself] at hy
        rw [hne z hzx] at hz
        cases hy
        exact absurd h2 (hown z o₂ p hzs hzx hz h1)
    · rw [hne y hyx] at hy
      by_cases hzx : z = x
      · subst hzx
        rw [hself] at hz
        cases hz
        exact absurd h1 (hown y o₁ p hys hyx hy h2)
      · rw [hne z hzx] at hz
        exact h.owner y z o₁ o₂ p (fun hs => hs.elim hyx hys) (fun hs => hs.elim hzx hzs) hy hz h1 h2

/-- `Clear` and the destructor give back the result of an object that is taken out. -/
theorem Memory.Valid.freeResult (h : m.Valid s) (hxs : x ∉ s) (hx : m.objects x = some o) :
    Ends (fun m' => m'.Valid (insert x s) ∧ m'.objects = m.objects ∧ m'.nextObj = m.nextObj) (o.freeResult m) := by
  unfold NativeResults.freeResult
  rcases h.holds x o hxs hx with ⟨hr, -, -⟩ | ⟨p, set, hr, hp, -, -⟩
  · rw [hr]; exact ⟨h.take, rfl, rfl⟩
  · rw [hr]
    simp only [Memory.mysqlFreeResult, hp]
    refine ⟨⟨h.objects, fun q r hq => ?_, fun y o' hy hyo => ?_, h.take.owner⟩, rfl, rfl⟩
    · by_cases hqp : q = p
      · subst hqp; exact h.results q _ hp
      · simp only [update_of_ne hqp] at hq; exact h.results q r hq
    · have hys : y ∉ s := fun hs => hy (.inr hs)
      rcases h.holds y o' hys hyo with hn | ⟨q, set', hq, hqm, h1, h2⟩
      · exact .inl hn
      · refine .inr ⟨q, set', hq, ?_, h1, h2⟩
        have hqp : q ≠ p := by
          rintro rfl
          exact hy (.inl (h.owner y x o' o q hys hxs hyo hx hq hr))
        simpa only [update_of_ne hqp] using hqm

theorem Memory.Valid.clear (h : m.Valid s) (hxs : x ∉ s) (hx : m.objects x = some o) :
    Ends (fun r => r.2.Valid (insert x s) ∧ r.2.objects = m.objects ∧ r.2.nextObj = m.nextObj ∧
      r.1.mysqlRes = none ∧ r.1.resultSet = [] ∧ r.1.nullFlags = []) (o.clear m) :=
  (h.freeResult hxs hx).bind fun _ h' => ⟨h'.1, h'.2.1, h'.2.2, rfl, rfl, rfl⟩

/-- A result that is stored anew belongs to nobody. -/
theorem Memory.Valid.store (h : m.Valid s) (set : ResultSet) :
    (m.mysqlStoreResult set).2.Valid s ∧ ∀ y o' p, y ∉ s → m.objects y = some o' → o'.mysqlRes = some p →
      p ≠ m.nextRes := by
  have hold : ∀ y o' p, y ∉ s → m.objects y = some o' → o'.mysqlRes = some p → p ≠ m.nextRes := by
    intro y o' p hy hyo hp
    rcases h.holds y o' hy hyo with ⟨hn, -⟩ | ⟨q, set', hq, hqm, -⟩
    · rw [hn] at hp; cases hp
    · rw [hq] at hp
      cases hp
      exact Nat.ne_of_lt (h.results p _ hqm)
  refine ⟨⟨h.objects, fun q r hq => ?_, fun y o' hy hyo => ?_, h.owner⟩, hold⟩
  · by_cases hqn : q = m.nextRes
    · subst hqn; exact Nat.lt_succ_self _
    · simp only [Memory.mysqlStoreResult, update_of_ne hqn] at hq
      exact Nat.lt_succ_of_lt (h.results q r hq)
  · rcases h.holds y o' hy hyo with hn | ⟨q, set', hq, hqm, h1, h2⟩
    · exact .inl hn
    · refine .inr ⟨q, set', hq, ?_, h1, h2⟩
      simpa only [Memory.mysqlStoreResult, update_of_ne (hold y o' q hy hyo hq)] using hqm

/-- `QueryAll` leaves an object without rows, or with the rows of a result that nobody else has. -/
theorem Memory.Valid.queryAll (h : m.Valid ∅) (hx : m.objects x = some o) (reply : QueryReply) :
    Ends (fun r => (r.2.put x r.1).Valid ∅) (o.queryAll reply m) := by
  have hlt := h.objects x o hx
  refine (h.clear (Set.notMem_empty x) hx).bind fun r hr => ?_
  obtain ⟨o₁, m₁⟩ := r
  obtain ⟨hv, hobj, hnext, h1, h2, h3⟩ := hr
  dsimp only at hv hobj hnext h1 h2 h3
  cases reply with
  | failed e =>
    refine hv.put (hnext ▸ hlt) (.none h1 h2 h3) fun y o' p _ _ _ hp => ?_
    rw [show (o₁.setError e.message e.number).mysqlRes = none from h1] at hp; cases hp
  | noResult number message =>
    refine hv.put (hnext ▸ hlt) (.none h1 h2 h3) fun y o' p _ _ _ hp => ?_
    rw [show (o₁.setError message number).mysqlRes = none from h1] at hp; cases hp
  | stored set =>
    obtain ⟨hv', hold⟩ := hv.store set
    have hset : (o₁.fetchRows m₁.nextRes set).setRawMysqlRes m₁.nextRes =
        .ok { o₁.fetchRows m₁.nextRes set with mysqlRes := some m₁.nextRes } := if_pos h1
    simp only [Memory.mysqlStoreResult, hset] at hv' ⊢
    refine hv'.put (hnext ▸ hlt) (.inr ⟨m₁.nextRes, set, rfl, ?_, ?_, ?_⟩) fun y o' p hy hyx hyo hp => ?_
    · exact update_self ..
    · simp [NativeResults.fetchRows, h2]
    · simp [NativeResults.fetchRows, h3]
    · cases hp
      exact fun hp' => hold y o' _ (fun hs => hs.elim hyx hy) hyo hp' rfl

/-- A move leaves the source without rows. -/
theorem Memory.Valid.movedFrom (h : m.Valid ∅) (hx : m.objects x = some o) : (m.put x o.movedFrom).Valid ∅ :=
  h.take.put (h.objects x o hx) (.none rfl rfl rfl) fun _ _ _ _ _ _ hp => (nomatch hp)

/-- After the source of a move gave up its result, nobody has it. -/
theorem Memory.Valid.moved_owner (h : m.Valid ∅) (hx : m.objects x = some o) {y : ObjId} {o' : NativeResults}
    {p : ResPtr} (hy : (m.put x o.movedFrom).objects y = some o') (hp : o.mysqlRes = some p) :
    o'.mysqlRes ≠ some p := by
  intro hp'
  by_cases hyx : y = x
  · subst hyx
    rw [show (m.put y o.movedFrom).objects y = some o.movedFrom from update_self ..] at hy
    cases hy
    cases hp'
  · rw [show (m.put x o.movedFrom).objects y = m.objects y from update_of_ne hyx ..] at hy
    exact hyx (h.owner y x o' o p (Set.notMem_empty y) (Set.notMem_empty x) hy hx hp' hp)

/-- What is moved out of an object still holds its rows. -/
theorem NativeResults.Holds.moved (h : o.Holds m) {y : ObjId} {o' : NativeResults} (n : ℤ) :
    (o.moved n).Holds (m.put y o') := h

theorem Memory.Valid.new (h : m.Valid ∅) (ho : o.Holds m)
    (hown : ∀ y o' p, m.objects y = some o' → o.mysqlRes = some p → o'.mysqlRes ≠ some p) : (m.new o).Valid ∅ := by
  have h' : Memory.Valid (insert m.nextObj ∅) { m with nextObj := m.nextObj + 1 } :=
    ⟨fun y o' hy => Nat.lt_succ_of_lt (h.objects y o' hy), h.results, h.take.holds, h.take.owner⟩
  exact h'.put (Nat.lt_succ_self _) ho fun y o' p _ _ hy hp => hown y o' p hy hp

/-- **Every operation keeps the rows valid**, and only the caller can make it fail. -/
theorem Memory.Valid.step (h : m.Valid ∅) (op : ResultsOp) : Ends (fun m' => m'.Valid ∅) (m.step op) := by
  have hobj : ∀ x, Ends (fun o => m.objects x = some o) (m.object x) := by
    intro x
    unfold Memory.object
    cases hx : m.objects x with
    | none => rfl
    | some o => rfl
  cases op with
  | construct option => exact h.new (.none rfl rfl rfl) fun _ _ _ _ hp => (nomatch hp)
  | queryAll x reply => exact (hobj x).bind fun o hx => (h.queryAll hx reply).bind fun _ hv => hv
  | clear x =>
    refine (hobj x).bind fun o hx => (h.clear (Set.notMem_empty x) hx).bind fun r hr => ?_
    obtain ⟨hv, -, hnext, h1, h2, h3⟩ := hr
    refine hv.put (hnext ▸ h.objects x o hx) (.none h1 h2 h3) fun y o' p _ _ _ hp => ?_
    rw [h1] at hp; cases hp
  | getResultSet x =>
    refine (hobj x).bind fun o hx => ?_
    rw [NativeResults.getResultSet_of_holds (h.holds x o (Set.notMem_empty x) hx)]
    exact h
  | moveConstruct x =>
    refine (hobj x).bind fun o hx => ?_
    exact (h.movedFrom hx).new (NativeResults.Holds.moved (h.holds x o (Set.notMem_empty x) hx) 0)
      fun y o' p hy hp => h.moved_owner hx hy hp
  | moveAssign x y =>
    refine (hobj x).bind fun o hx => (hobj y).bind fun o' hy => ?_
    split
    · exact h
    · exact (h.movedFrom hy).take.put (h.objects x o hx)
        (NativeResults.Holds.moved (h.holds y o' (Set.notMem_empty y) hy) _)
        fun z o₁ p _ _ hz hp => h.moved_owner hy hz hp
  | destroy x =>
    refine (hobj x).bind fun o hx => (h.freeResult (Set.notMem_empty x) hx).bind fun m' hm => ?_
    obtain ⟨hv, hobj', -⟩ := hm
    -- the other objects and their views stay as they are
    have hne : ∀ y o', update m'.objects x none y = some o' → y ≠ x ∧ m'.objects y = some o' := by
      intro y o' hy
      by_cases hyx : y = x
      · subst hyx; rw [update_self] at hy; cases hy
      · rw [update_of_ne hyx] at hy; exact ⟨hyx, hy⟩
    refine ⟨fun y o' hy => hv.objects y o' (hne y o' hy).2, hv.results, fun y o' _ hy => ?_,
      fun y z o₁ o₂ p _ _ hy hz h1 h2 => ?_⟩
    · obtain ⟨hyx, hy⟩ := hne y o' hy
      exact hv.holds y o' (fun hs => hs.elim hyx (Set.notMem_empty y)) hy
    · obtain ⟨hyx, hy⟩ := hne y o₁ hy
      obtain ⟨hzx, hz⟩ := hne z o₂ hz
      exact hv.owner y z o₁ o₂ p (fun hs => hs.elim hyx (Set.notMem_empty y))
        (fun hs => hs.elim hzx (Set.notMem_empty z)) hy hz h1 h2

/-- A run keeps the rows valid. -/
theorem Memory.Valid.run (h : m.Valid ∅) (ops : List ResultsOp) : Ends (fun m' => m'.Valid ∅) (m.run ops) := by
  induction ops generalizing m with
  | nil => exact h
  | cons op ops ih => exact (h.step op).bind fun m' h' => ih h'

end Steps

/-! ## The object as the executor's functions see it -/

/-- The object with its rows in place of the views. -/
def NativeResults.contents (o : NativeResults) (m : Memory) : MysqlResults :=
  { mode := .nativeString, option := o.option, resultSet := o.held m, fieldsName := o.fieldsName,
    nullFlags := o.nullFlags, errorNumber := o.errorNumber, errorMessage := o.errorMessage,
    affectedRows := o.affectedRows, hasValue := o.hasValue, mysqlRes := o.mysqlRes }

/-- The loop of the executor's `QueryAll`. -/
def MysqlResults.pushRows (r : MysqlResults) (rows : List ServerRow) : MysqlResults :=
  rows.foldl (fun r row => r.pushRow (row.map (·.getD [])) (row.map Option.isNone)) r

theorem MysqlResults.pushRows_eq (rows : List ServerRow) : ∀ r : MysqlResults, r.pushRows rows =
    { r with resultSet := r.resultSet ++ rows.map fun row => row.map (·.getD [])
             nullFlags := r.nullFlags ++ rows.map fun row => row.map Option.isNone } := by
  induction rows with
  | nil => intro r; simp [MysqlResults.pushRows]
  | cons row rows ih =>
    intro r
    rw [MysqlResults.pushRows, List.foldl_cons]
    refine (ih _).trans ?_
    simp [MysqlResults.pushRow]

theorem NativeResults.clear_contents {m m' : Memory} {o o' : NativeResults} (h : o.clear m = .ok (o', m')) :
    o'.contents m' = (o.contents m).cleared ∧ o'.mysqlRes = none := by
  unfold NativeResults.clear at h
  cases hf : o.freeResult m with
  | error f => rw [hf] at h; cases h
  | ok m₁ => rw [hf] at h; cases h; exact ⟨rfl, rfl⟩

/-- **`QueryAll` fills the object as the executor's function does.** -/
theorem NativeResults.queryAll_contents {m m' : Memory} {o o' : NativeResults} {set : ResultSet}
    (h : o.queryAll (.stored set) m = .ok (o', m')) :
    o'.contents m' =
      { ({ (o.contents m).cleared.pushRows set.rows with mysqlRes := o'.mysqlRes }.setFieldsName
          (some set.fields)) with hasValue := true } := by
  unfold NativeResults.queryAll at h
  cases hc : o.clear m with
  | error f => rw [hc] at h; cases h
  | ok r =>
    obtain ⟨o₁, m₁⟩ := r
    obtain ⟨hcont, hres⟩ := NativeResults.clear_contents hc
    have hset : (o₁.fetchRows m₁.nextRes set).setRawMysqlRes m₁.nextRes =
        .ok { o₁.fetchRows m₁.nextRes set with mysqlRes := some m₁.nextRes } := if_pos hres
    rw [hc] at h
    change ((o₁.fetchRows m₁.nextRes set).setRawMysqlRes m₁.nextRes >>= _) = _ at h
    rw [hset] at h
    cases h
    rw [← hcont, MysqlResults.pushRows_eq]
    simp [NativeResults.contents, MysqlResults.setFieldsName, NativeResults.fetchRows, NativeResults.held, hres]

/-! ## What a program sees -/

/-- The field is NULL, by the flags of the object. -/
def NativeResults.isNull (o : NativeResults) (i j : ℕ) : Prop := o.nullFlags[i]?.bind (·[j]?) = some true

/-- The views of the non-NULL fields show bytes of a stored result that their object owns, alone; and what
`GetResultSet` copies are the server's bytes of the rows that the object holds. -/
structure Memory.RowsValid (m : Memory) : Prop where
  view : ∀ x o i j row v, m.objects x = some o → o.resultSet[i]? = some row → row[j]? = some v → ¬ o.isNull i j →
    ∃ p set bytes, o.mysqlRes = some p ∧ m.results p = some { set := set, freed := false } ∧
      set.rows[i]?.bind (·[j]?) = some (some bytes) ∧ v = .field p i j bytes.length
  owner : ∀ x y o o' p, m.objects x = some o → m.objects y = some o' → o.mysqlRes = some p → o'.mysqlRes = some p →
    x = y
  copy : ∀ x o, m.objects x = some o → o.getResultSet m = .ok (if o.hasValue then some (o.held m) else none)

theorem Memory.Valid.rowsValid {m : Memory} (h : m.Valid ∅) : m.RowsValid := by
  refine ⟨fun x o i j row v hx hi hj hn => ?_,
    fun x y o o' p hx hy => h.owner x y o o' p (Set.notMem_empty x) (Set.notMem_empty y) hx hy,
    fun x o hx => NativeResults.getResultSet_of_holds (h.holds x o (Set.notMem_empty x) hx)⟩
  rcases h.holds x o (Set.notMem_empty x) hx with ⟨-, hs, -⟩ | ⟨p, set, hr, hp, hs, hf⟩
  · rw [hs] at hi; cases hi
  · rw [hs, List.getElem?_mapIdx] at hi
    cases hrow : set.rows[i]? with
    | none => rw [hrow] at hi; cases hi
    | some r =>
      rw [hrow] at hi
      cases hi
      rw [NativeResults.fetchRow, List.getElem?_mapIdx] at hj
      cases hv : r[j]? with
      | none => rw [hv] at hj; cases hj
      | some value =>
        rw [hv] at hj
        cases value with
        | none => exact absurd (by simp [NativeResults.isNull, hf, hrow, hv]) hn
        | some bytes => cases hj; exact ⟨p, set, bytes, hr, hp, by rw [hrow]; exact hv, rfl⟩

theorem Memory.Valid.empty : Memory.Valid ∅ {} :=
  ⟨fun _ _ h => (nomatch h), fun _ _ h => (nomatch h), fun _ _ _ h => (nomatch h), fun _ _ _ _ _ _ _ h => (nomatch h)⟩

/-- **Row views stay valid, and no fault but the caller's own can happen.** -/
theorem row_views_valid (ops : List ResultsOp) :
    match ({} : Memory).run ops with
    | .ok m => m.RowsValid
    | .error f => f = .noObject := by
  have hr := Memory.Valid.empty.run ops
  cases hm : ({} : Memory).run ops with
  | error f => rw [hm] at hr; exact hr
  | ok m => rw [hm] at hr; exact Memory.Valid.rowsValid hr

end TrpcMysql
