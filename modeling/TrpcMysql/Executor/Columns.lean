import TrpcMysql.Executor.Calls

/-!
# The columns of a fetch, one by one

`mysql_stmt_fetch` and `FetchTruncatedResults` go through all columns of a row, and a column that is
longer than its buffer makes the latter look at every string and blob. What that does to one column
depends on the others only in whether it is looked at (`next`); so the tuples and the null flags of a
result are read off column by column (`tuples_getElem?`, `flags_getElem?`).
-/

namespace TrpcMysql

open Function

/-! ## Bytes -/

@[simp] theorem overwrite_nil (data : Bytes) (offset : ℕ) : overwrite data offset [] = data := by
  simp [overwrite]

theorem overwrite_zero (data bytes : Bytes) : overwrite data 0 bytes = bytes ++ data.drop bytes.length := by
  simp [overwrite]

/-- Bytes put at the end of zeroed memory. -/
theorem overwrite_tail (data tail : Bytes) :
    overwrite (data ++ List.replicate tail.length 0) data.length tail = data ++ tail := by
  simp [overwrite]

namespace OutputColumn

variable {c : OutputColumn} {n : ℕ}

/-! ## One buffer -/

theorem resize_data : (c.resize n).data = c.data.take n ++ List.replicate (n - c.data.length) 0 := by
  unfold resize data
  split <;> simp

theorem resize_block : (c.resize n).block = if n ≤ c.capacity then c.block else c.block + 1 := by
  unfold resize
  split <;> rfl

theorem le_resize_block : c.block ≤ (c.resize n).block := by
  rw [resize_block]
  split <;> omega

/-- What `resize` leaves as it was. -/
theorem resize_rest : (c.resize n).output = c.output ∧ (c.resize n).field = c.field ∧
    (c.resize n).bind = c.bind ∧ (c.resize n).bound = c.bound ∧
    (c.resize n).outputLength = c.outputLength ∧ (c.resize n).nullFlag = c.nullFlag ∧
    (c.resize n).wild = c.wild := by
  unfold resize
  split <;> exact ⟨rfl, rfl, rfl, rfl, rfl, rfl, rfl⟩

theorem resize_wild : (c.resize n).wild = c.wild := resize_rest.2.2.2.2.2.2

theorem store_data_self (offset : ℕ) (bytes : Bytes) :
    (c.store ⟨c.block, offset⟩ bytes).data = overwrite c.data offset bytes := by
  simp [store, data]

theorem store_data_other {p : BufferPtr} (h : p.block ≠ c.block) (bytes : Bytes) :
    (c.store p bytes).data = c.data := by
  simp [store, data, update_of_ne h.symm]

theorem store_wild_self {offset : ℕ} {bytes : Bytes} (h : offset + bytes.length ≤ c.data.length) :
    (c.store ⟨c.block, offset⟩ bytes).wild = c.wild := by
  have hfits : decide ((c.blocks c.block).length < offset + bytes.length) = false := by simpa [data] using h
  simp only [store, hfits, bne_self_eq_false, Bool.or_false, Bool.and_false]

theorem store_wild_other {p : BufferPtr} (h : p.block ≠ c.block) (bytes : Bytes) :
    (c.store p bytes).wild = (c.wild || !bytes.isEmpty) := by
  have hout : (p.block != c.block) = true := by simpa using h
  simp only [store, hout, Bool.true_or, Bool.and_true]

/-! ## One column and one row -/

/-- What a row with the value `v` does to the column. -/
def next (c : OutputColumn) (truncated : Bool) (v : Option Bytes) : OutputColumn :=
  if truncated && c.output.dynamic then (c.fetch v).fetchTruncated v else c.fetch v

theorem fetch_none : c.fetch none = { c with nullFlag := true } := rfl

@[simp] theorem fetch_output (v : Option Bytes) : (c.fetch v).output = c.output := by cases v <;> rfl

@[simp] theorem fetch_nullFlag (v : Option Bytes) : (c.fetch v).nullFlag = v.isNone := by cases v <;> rfl

@[simp] theorem enlarge_output : c.enlarge.output = c.output := resize_rest.1

@[simp] theorem enlarge_nullFlag : c.enlarge.nullFlag = c.nullFlag := resize_rest.2.2.2.2.2.1

/-- The value is fetched again through the bind. -/
theorem restore_fetchColumn (offset : ℕ) (v : Option Bytes) : (c.fetchColumn offset v).restore.output = c.output ∧
    (c.fetchColumn offset v).restore.nullFlag = v.isNone := by cases v <;> exact ⟨rfl, rfl⟩

theorem fetchTruncated_nullFlag {v : Option Bytes} (h : c.nullFlag = v.isNone) :
    (c.fetchTruncated v).nullFlag = v.isNone := by
  unfold fetchTruncated
  split
  · exact (restore_fetchColumn _ v).2
  · exact h

@[simp] theorem fetchTruncated_output (v : Option Bytes) : (c.fetchTruncated v).output = c.output := by
  unfold fetchTruncated
  split
  · exact (restore_fetchColumn _ v).1.trans enlarge_output
  · rfl

/-- **The null flag is the value's**, whatever the buffer went through. -/
@[simp] theorem next_nullFlag (b : Bool) (v : Option Bytes) : (c.next b v).nullFlag = v.isNone := by
  unfold next
  split
  · exact fetchTruncated_nullFlag (fetch_nullFlag v)
  · exact fetch_nullFlag v

@[simp] theorem next_output (b : Bool) (v : Option Bytes) : (c.next b v).output = c.output := by
  unfold next
  split <;> simp

/-- The column after a row with the value `v`, when no other column is truncated. -/
def step (c : OutputColumn) (v : Option Bytes) : OutputColumn := c.next (c.truncated v) v

/-- The column after rows with the values `vs`. -/
def run (c : OutputColumn) (vs : List (Option Bytes)) : OutputColumn := vs.foldl step c

@[simp] theorem run_nil : c.run [] = c := rfl

@[simp] theorem run_cons (v : Option Bytes) (vs : List (Option Bytes)) : c.run (v :: vs) = (c.step v).run vs := rfl

/-- The other columns of the rows do not matter to `c`, in the rows that come. -/
def Alone (c : OutputColumn) : Prop :=
  ∀ vs v b, ((c.run vs).truncated v = true → b = true) → (c.run vs).next b v = (c.run vs).step v

theorem Alone.step (h : c.Alone) (v : Option Bytes) : (c.step v).Alone := fun vs => h (v :: vs)

/-- A property that the rows keep, and that tells what a look at the column does. -/
theorem Alone.of_inv {P : OutputColumn → Prop} (hc : P c) (hstep : ∀ c v, P c → P (c.step v))
    (hnext : ∀ c v b, P c → (c.truncated v = true → b = true) → c.next b v = c.step v) : c.Alone := by
  have hrun : ∀ vs c, P c → P (c.run vs) := by
    intro vs
    induction vs with
    | nil => intro c hc; exact hc
    | cons v vs ih => intro c hc; exact ih _ (hstep c v hc)
  intro vs v b hb
  exact hnext _ v b (hrun vs c hc) hb

end OutputColumn

/-! ## All columns and all rows -/

/-- The values of a column. -/
def columnOf (rows : List ServerRow) (j : ℕ) : List (Option Bytes) := rows.map (ServerRow.value · j)

theorem columnOf_getElem? {rows : List ServerRow} {i : ℕ} {row : ServerRow} (h : rows[i]? = some row) (j : ℕ) :
    (columnOf rows j)[i]? = some (row.value j) := by
  rw [columnOf, List.getElem?_map, h, Option.map_some]

/-- **What the check says**: the columns are as many as the arguments, and each type is one of its
argument's. -/
theorem checked_columns {outputs : List OutputArg} {fields : List Field}
    (h : checkFieldsOutputArgs outputs fields = "") : fields.length = outputs.length ∧
      ∀ (j : ℕ) (t : OutputArg) (f : Field), outputs[j]? = some t → fields[j]? = some f → t.valid f.type = true := by
  unfold checkFieldsOutputArgs at h
  dsimp only at h
  split at h
  · have := congrArg String.toList h
    simp at this
  rename_i hlen
  rw [not_not] at hlen
  split at h
  · rename_i hnone
    rw [List.isEmpty_iff, List.map_eq_nil_iff, List.filter_eq_nil_iff] at hnone
    refine ⟨hlen, fun j t f ht hf => ?_⟩
    have hmem : (t, f) ∈ outputs.zip fields :=
      List.mem_of_getElem? (i := j) (by rw [List.getElem?_zip_eq_some]; exact ⟨ht, hf⟩)
    simpa using hnone _ hmem
  · have := congrArg String.toList h
    simp at this

namespace QueryHandle

variable {h : QueryHandle}

/-- A column of the bound buffers. -/
theorem bound_getElem? {outputs : List OutputArg} {fields : List Field} {size j : ℕ} {t : OutputArg} {f : Field}
    (ht : outputs[j]? = some t) (hf : fields[j]? = some f) :
    (bound outputs size fields)[j]? = some ((OutputColumn.new t size).bindOutput f).bindResult := by
  simp [bound, bindResult, bindOutputs, new, List.getElem?_zipWith, ht, hf]

theorem length_bound {outputs : List OutputArg} {fields : List Field} {size : ℕ}
    (h : fields.length = outputs.length) : (bound outputs size fields).length = outputs.length := by
  simp [bound, bindResult, bindOutputs, new, h]

theorem fetchRow_eq (row : ServerRow) :
    h.fetchRow row = h.mapIdx fun i c => c.next (h.truncated row) (row.value i) := by
  unfold fetchRow
  split
  · rename_i htr
    simp only [fetchTruncatedResults, fetch, List.mapIdx_mapIdx, htr]
    refine List.mapIdx_eq_mapIdx_iff.2 fun i hi => ?_
    simp [OutputColumn.next]
  · rename_i htr
    simp only [fetch, Bool.not_eq_true] at htr ⊢
    refine List.mapIdx_eq_mapIdx_iff.2 fun i hi => ?_
    simp [OutputColumn.next, htr]

@[simp] theorem length_fetchRow (row : ServerRow) : (h.fetchRow row).length = h.length := by
  rw [fetchRow_eq, List.length_mapIdx]

theorem fetchRow_getElem? (row : ServerRow) (j : ℕ) :
    (h.fetchRow row)[j]? = h[j]?.map fun c => c.next (h.truncated row) (row.value j) := by
  rw [fetchRow_eq, List.getElem?_mapIdx]

/-- A truncated column makes the row truncated. -/
theorem truncated_of_column {row : ServerRow} {j : ℕ} {c : OutputColumn} (hc : h[j]? = some c)
    (ht : c.truncated (row.value j) = true) : h.truncated row = true := by
  obtain ⟨hj, rfl⟩ := List.getElem?_eq_some_iff.1 hc
  simp only [truncated, List.any_eq_true, id_eq, exists_eq_right, List.mem_mapIdx]
  exact ⟨j, hj, ht⟩

/-- A column that is on its own goes through the rows by its own values. -/
theorem fetchRows_getElem? (rows : List ServerRow) : ∀ {h : QueryHandle} {j : ℕ} {c : OutputColumn},
    h[j]? = some c → c.Alone → (h.fetchRows rows)[j]? = some (c.run (columnOf rows j)) := by
  induction rows with
  | nil => intro h j c hc _; exact hc
  | cons row rows ih =>
    intro h j c hc halone
    have hrow : (h.fetchRow row)[j]? = some (c.step (row.value j)) := by
      rw [fetchRow_getElem?, hc, Option.map_some]
      exact congrArg some (halone [] _ _ (truncated_of_column hc))
    exact ih hrow (halone.step _)

theorem tuples_getElem? (rows : List ServerRow) : ∀ (h : QueryHandle) (i : ℕ),
    (h.tuples rows)[i]? = if i < rows.length then some (h.fetchRows (rows.take (i + 1))).setResultTuple else none := by
  induction rows with
  | nil => intro h i; simp [tuples]
  | cons row rows ih =>
    intro h i
    cases i with
    | zero => simp [tuples, fetchRows]
    | succ i =>
      simp only [tuples, List.getElem?_cons_succ, ih, List.length_cons, Nat.add_lt_add_iff_right,
        List.take_succ_cons, fetchRows, List.foldl_cons]

@[simp] theorem length_tuples (rows : List ServerRow) : ∀ h : QueryHandle, (h.tuples rows).length = rows.length := by
  induction rows with
  | nil => intro h; rfl
  | cons row rows ih => intro h; simp [tuples, ih]

/-- The elements of the tuples: what the column holds when the row is fetched. -/
theorem tuples_element {rows : List ServerRow} {i j : ℕ} {c : OutputColumn} {tuple : Row} (hc : h[j]? = some c)
    (halone : c.Alone) (htuple : (h.tuples rows)[i]? = some tuple) :
    tuple[j]? = some (c.run ((columnOf rows j).take (i + 1))).stepTupleSet := by
  rw [tuples_getElem?] at htuple
  split at htuple
  · cases htuple
    rw [setResultTuple, List.getElem?_map, fetchRows_getElem? _ hc halone, Option.map_some, columnOf, List.map_take]
    rfl
  · cases htuple

/-! ### Rows with their calls -/

/-- What a row leaves of a column of fixed width, and of every null flag, whichever calls fail. -/
theorem refetch_getElem? (row : ServerRow) : ∀ (h : QueryHandle) (ok : ℕ → Bool) (i j : ℕ),
    ((h.refetch row ok i).handle[j]?).map OutputColumn.output = (h[j]?).map OutputColumn.output ∧
      (∀ c : OutputColumn, h[j]? = some c → c.output.dynamic = false → (h.refetch row ok i).handle[j]? = some c) ∧
      ((∀ k c, h[k]? = some c → c.nullFlag = (row.value (i + k)).isNone) →
        ((h.refetch row ok i).handle[j]?).map OutputColumn.nullFlag = (h[j]?).map OutputColumn.nullFlag) := by
  intro h
  induction h with
  | nil => exact fun _ _ _ => ⟨rfl, fun c hc => (by cases hc), fun _ => rfl⟩
  | cons c h ih =>
    intro ok i j
    -- the columns that come after
    have hflags : (∀ k d, (c :: h)[k]? = some d → d.nullFlag = (row.value (i + k)).isNone) →
        ∀ k d, h[k]? = some d → d.nullFlag = (row.value (i + 1 + k)).isNone := by
      intro hnull k d hd
      have := hnull (k + 1) d hd
      rwa [← Nat.add_assoc, Nat.add_right_comm] at this
    by_cases hc : (c.output.dynamic && c.short) = true
    · have hdyn := (Bool.and_eq_true_iff.1 hc).1
      simp only [refetch, hc, if_true]
      cases ok 0 with
      | false =>
        cases j with
        | zero =>
          refine ⟨by simp, fun d hd hfixed => ?_, fun _ => by simp⟩
          cases hd
          rw [hdyn] at hfixed
          cases hfixed
        | succ j => exact ⟨rfl, fun d hd _ => hd, fun _ => rfl⟩
      | true =>
        cases j with
        | zero =>
          have hrest := OutputColumn.restore_fetchColumn (c := c.enlarge) c.data.length (row.value i)
          refine ⟨by simp [hrest.1], fun d hd hfixed => ?_, fun hnull => ?_⟩
          · cases hd
            rw [hdyn] at hfixed
            cases hfixed
          · have := hnull 0 c rfl
            simp [hrest.2, this]
        | succ j =>
          obtain ⟨h₁, h₂, h₃⟩ := ih (fun j => ok (j + 1)) (i + 1) j
          exact ⟨h₁, h₂, fun hnull => h₃ (hflags hnull)⟩
    · simp only [refetch, hc, Bool.false_eq_true, if_false]
      cases j with
      | zero => exact ⟨rfl, fun d hd _ => hd, fun _ => rfl⟩
      | succ j =>
        obtain ⟨h₁, h₂, h₃⟩ := ih (fun j => ok (j + 1)) (i + 1) j
        exact ⟨h₁, h₂, fun hnull => h₃ (hflags hnull)⟩

/-- **What a row leaves of a column**, whichever calls fail. -/
theorem fetchRowCalls_getElem? (x : FetchedRow) (j : ℕ) :
    ((h.fetchRowCalls x).handle[j]?).map OutputColumn.output = (h[j]?).map OutputColumn.output ∧
      (∀ c : OutputColumn, h[j]? = some c → c.output.dynamic = false →
        (h.fetchRowCalls x).handle[j]? = some (c.fetch (x.row.value j))) ∧
      ((h.fetchRowCalls x).handle[j]?).map OutputColumn.nullFlag = (h[j]?).map fun _ => (x.row.value j).isNone := by
  have hfetch : ∀ k : ℕ, (h.fetch x.row)[k]? = h[k]?.map fun c : OutputColumn => c.fetch (x.row.value k) := by
    intro k
    rw [fetch, List.getElem?_mapIdx]
  have houtput : ((h.fetch x.row)[j]?).map OutputColumn.output = (h[j]?).map OutputColumn.output := by
    rw [hfetch]
    cases h[j]? <;> simp
  have hflag : ((h.fetch x.row)[j]?).map OutputColumn.nullFlag = (h[j]?).map fun _ => (x.row.value j).isNone := by
    rw [hfetch]
    cases h[j]? <;> simp
  have hfixed : ∀ c : OutputColumn, h[j]? = some c → (h.fetch x.row)[j]? = some (c.fetch (x.row.value j)) := by
    intro c hc
    rw [hfetch, hc, Option.map_some]
  unfold fetchRowCalls
  split
  · obtain ⟨h₁, h₂, h₃⟩ := refetch_getElem? x.row (h.fetch x.row) x.ok 0 j
    refine ⟨h₁.trans houtput, fun c hc hd => h₂ _ (hfixed c hc) (by simpa using hd), (h₃ fun k c hc => ?_).trans hflag⟩
    rw [hfetch, Option.map_eq_some_iff] at hc
    obtain ⟨d, -, rfl⟩ := hc
    simp
  · exact ⟨houtput, fun c hc _ => hfixed c hc, hflag⟩

theorem length_fetchRowCalls (x : FetchedRow) : (h.fetchRowCalls x).handle.length = h.length := by
  have hlen : ∀ j : ℕ, (h.fetchRowCalls x).handle.length ≤ j ↔ h.length ≤ j := by
    intro j
    rw [← List.getElem?_eq_none_iff, ← List.getElem?_eq_none_iff, ← Option.map_eq_none_iff (f := OutputColumn.output),
      (fetchRowCalls_getElem? x j).1, Option.map_eq_none_iff]
  exact le_antisymm ((hlen _).2 le_rfl) ((hlen _).1 le_rfl)

@[simp] theorem length_tuplesWith (rows : List FetchedRow) : ∀ h : QueryHandle,
    (h.tuplesWith rows).length = rows.length := by
  induction rows with
  | nil => intro h; rfl
  | cons x rows ih => intro h; simp [tuplesWith, ih]

/-- **The null flags of a result are those of its rows.** -/
theorem flagsWith_eq (rows : List FetchedRow) : ∀ h : QueryHandle, h.flagsWith rows =
    (rows.map FetchedRow.row).map fun row => (List.range h.length).map fun j => (row.value j).isNone := by
  induction rows with
  | nil => intro h; rfl
  | cons x rows ih =>
    intro h
    have hrow : (h.fetchRowCalls x).handle.nullFlags = (List.range h.length).map fun j => (x.row.value j).isNone := by
      refine List.ext_getElem? fun j => ?_
      rw [nullFlags, List.getElem?_map, (fetchRowCalls_getElem? x j).2.2, List.getElem?_map]
      by_cases hj : j < h.length <;> simp [hj]
    rw [flagsWith, ih, hrow, length_fetchRowCalls, List.map_cons, List.map_cons]

/-- Two handles of the same columns, which agree where the width is fixed. -/
def Alike (h h' : QueryHandle) : Prop :=
  ∀ j : ℕ, (h[j]?).map OutputColumn.output = (h'[j]?).map OutputColumn.output ∧
    ∀ c : OutputColumn, h[j]? = some c → c.output.dynamic = false → h'[j]? = some c

theorem Alike.refl (h : QueryHandle) : Alike h h := fun _ => ⟨rfl, fun _ hc _ => hc⟩

theorem Alike.fetchRow {h' : QueryHandle} (halike : Alike h h') (x : FetchedRow) :
    Alike (h.fetchRowCalls x).handle (h'.fetchRow x.row) := by
  intro j
  obtain ⟨houtput, hfixed, -⟩ := fetchRowCalls_getElem? (h := h) x j
  have hnext : ((h'.fetchRow x.row)[j]?).map OutputColumn.output = (h'[j]?).map OutputColumn.output := by
    rw [fetchRow_getElem?]
    cases h'[j]? <;> simp
  refine ⟨(houtput.trans (halike j).1).trans hnext.symm, fun c hc hd => ?_⟩
  rw [hc, Option.map_some, eq_comm, Option.map_eq_some_iff] at houtput
  obtain ⟨d, hdj, hdc⟩ := houtput
  have hdd : d.output.dynamic = false := by rw [hdc]; exact hd
  obtain rfl : d.fetch (x.row.value j) = c := Option.some.inj ((hfixed d hdj hdd).symm.trans hc)
  rw [fetchRow_getElem?, (halike j).2 d hdj hdd, Option.map_some]
  simp [OutputColumn.next, hdd]

/-- **The calls do not matter to the columns of fixed width.** -/
theorem tuplesWith_fixed (rows : List FetchedRow) : ∀ {h h' : QueryHandle}, Alike h h' → ∀ {i : ℕ} {tuple : Row},
    (h.tuplesWith rows)[i]? = some tuple → ∃ tuple', (h'.tuples (rows.map FetchedRow.row))[i]? = some tuple' ∧
      ∀ (j : ℕ) (c : OutputColumn), h[j]? = some c → c.output.dynamic = false → tuple[j]? = tuple'[j]? := by
  induction rows with
  | nil => intro h h' _ i tuple ht; cases ht
  | cons x rows ih =>
    intro h h' halike i tuple ht
    have hrow := halike.fetchRow x
    cases i with
    | zero =>
      cases ht
      refine ⟨_, rfl, fun j c hc hd => ?_⟩
      have hcolumn := (fetchRowCalls_getElem? x j).2.1 c hc hd
      have hsame := (hrow j).2 _ hcolumn (by simpa using hd)
      rw [setResultTuple, setResultTuple, List.getElem?_map, List.getElem?_map, hcolumn, hsame]
    | succ i =>
      obtain ⟨tuple', htuple', hsame⟩ := ih hrow ht
      refine ⟨tuple', htuple', fun j c hc hd => ?_⟩
      exact hsame j _ ((fetchRowCalls_getElem? x j).2.1 c hc hd) (by simpa using hd)

end QueryHandle

/-- Connections on which the rows wait to be fetched. -/
def pendingRows (rows : List ServerRow) : ExecSt :=
  { mysqls := fun _ => { session := some { id := 0 }, pending := some { rows := rows } } }

end TrpcMysql
