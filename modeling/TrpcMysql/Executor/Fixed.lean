import Mathlib.Data.List.ReduceOption
import TrpcMysql.Executor.Columns

/-!
# Columns of fixed width

A number or a time is read out of its buffer as it is, whatever the flags say. The buffer keeps its place
(`Fixed`), and a NULL leaves it alone: an element is the last value of its column that was not NULL
(`run_data`). What follows:

* an integer comes out as the column has it exactly if it is in the range of the output's type, for the
  bind's `is_unsigned` is never set and a truncation is looked at for strings and blobs only
  (`integers_faithful_iff`);
* what the same row yields in two results differs exactly if it has a NULL where the last values before
  it differ (`fixed_rows_agree_iff`).
-/

namespace TrpcMysql

open Function Conc LittleEndian

/-- The bytes of a value that the library stores for a column of a number or time. -/
def FieldType.width : FieldType → ℕ
  | .tiny => 1
  | .short | .year => 2
  | .long | .int24 | .float => 4
  | .longlong | .double => 8
  | .timestamp | .date | .time | .datetime => 48
  | _ => 0

/-- The integer types of C++. -/
def OutputArg.integer : OutputArg → Bool
  | .int8 | .uint8 | .int16 | .uint16 | .int32 | .uint32 | .int64 | .uint64 => true
  | _ => false

def OutputArg.unsigned : OutputArg → Bool
  | .uint8 | .uint16 | .uint32 | .uint64 => true
  | _ => false

/-- What the type table says of numbers and times: a value has room, and an integer fills it. -/
theorem types_fixed {t : OutputArg} {f : FieldType} (ht : t.dynamic = false) (hf : t.valid f = true) :
    f.dynamic = false ∧ f.width ≤ t.size.getD 0 ∧ (t.integer = true → f.width = t.size.getD 0) := by
  have hall : ∀ f ∈ t.types,
      f.dynamic = false ∧ f.width ≤ t.size.getD 0 ∧ (t.integer = true → f.width = t.size.getD 0) := by
    cases t <;> first | decide | cases ht
  exact hall f (by simpa [OutputArg.valid] using hf)

namespace OutputColumn

variable {c : OutputColumn} {size w : ℕ}

/-- A column of fixed width, between two rows. -/
structure Fixed (c : OutputColumn) (size : ℕ) : Prop where
  output : c.output.size = some size
  boundType : c.bound.bufferType.dynamic = false
  bind : c.bind.buffer = ⟨c.block, 0⟩
  bound : c.bound.buffer = ⟨c.block, 0⟩

theorem not_dynamic_of_size {t : OutputArg} (h : t.size = some size) : t.dynamic = false := by
  cases t <;> first | rfl | cases h

/-- The other columns of a row never matter. -/
theorem Fixed.next_eq (h : c.Fixed size) (b : Bool) (v : Option Bytes) : c.next b v = c.fetch v := by
  simp [next, not_dynamic_of_size h.output]

theorem Fixed.step_none (h : c.Fixed size) : (c.step none).Fixed size ∧ (c.step none).data = c.data := by
  rw [step, h.next_eq, fetch_none]
  exact ⟨⟨h.output, h.boundType, h.bind, h.bound⟩, rfl⟩

/-- A value takes the place of the one before. -/
theorem Fixed.step_some (h : c.Fixed size) (v : Bytes) :
    (c.step (some v)).Fixed size ∧ (c.step (some v)).data = v ++ c.data.drop v.length := by
  have hfetch : c.fetch (some v) = { c.store ⟨c.block, 0⟩ v with outputLength := v.length, nullFlag := false } := by
    simp [fetch, fetchThrough, h.boundType, h.bound]
  have hdata : (c.fetch (some v)).data = (c.store ⟨c.block, 0⟩ v).data := by
    rw [hfetch]
    rfl
  rw [step, h.next_eq, hdata, store_data_self, overwrite_zero]
  refine ⟨?_, rfl⟩
  rw [hfetch]
  exact ⟨h.output, h.boundType, h.bind, h.bound⟩

theorem Fixed.step (h : c.Fixed size) (v : Option Bytes) : (c.step v).Fixed size := by
  cases v with
  | none => exact h.step_none.1
  | some v => exact (h.step_some v).1

theorem Fixed.alone (h : c.Fixed size) : c.Alone :=
  .of_inv (P := (Fixed · size)) h (fun _ v hc => hc.step v) fun _ v b hc _ => (hc.next_eq b v).trans (hc.next_eq _ v).symm

/-- The element is what the buffer holds, NULL or not. -/
theorem Fixed.element (h : c.Fixed size) : c.stepTupleSet = c.data.take size := by
  unfold stepTupleSet
  rw [h.output]
  simp [read, h.bind, data]

theorem Fixed.run : ∀ {vs : List (Option Bytes)} {c : OutputColumn}, c.Fixed size → (c.run vs).Fixed size := by
  intro vs
  induction vs with
  | nil => intro c h; exact h
  | cons v vs ih => intro c h; exact ih (h.step v)

/-- **The buffer holds the last value that was not NULL.** -/
theorem Fixed.run_data : ∀ {vs : List (Option Bytes)} {c : OutputColumn}, c.Fixed size →
    (∀ v ∈ vs.reduceOption, v.length = w) → w ≤ c.data.length →
    (c.run vs).data = vs.reduceOption.getLast?.getD (c.data.take w) ++ c.data.drop w := by
  intro vs
  induction vs with
  | nil =>
    intro c _ _ _
    simp
  | cons v vs ih =>
    intro c h hw hsize
    cases v with
    | none =>
      rw [List.reduceOption_cons_of_none] at hw ⊢
      rw [run_cons, ih h.step_none.1 hw (by rw [h.step_none.2]; exact hsize), h.step_none.2]
    | some v =>
      rw [List.reduceOption_cons_of_some] at hw ⊢
      obtain ⟨rfl, hrest⟩ := List.forall_mem_cons.1 hw
      have hlen : v.length ≤ (c.step (some v)).data.length := by
        rw [(h.step_some v).2, List.length_append]
        exact Nat.le_add_right _ _
      rw [run_cons, ih (h.step_some v).1 hrest hlen, (h.step_some v).2, List.getLast?_cons]
      simp

/-- `StepOutputBind` of a number or time. -/
theorem stepOutputBind_fixed (h : c.output.size = some size) : c.stepOutputBind =
    { c.resize size with bind := { (c.resize size).bind with buffer := ⟨(c.resize size).block, 0⟩ } } := by
  unfold stepOutputBind
  rw [h]
  cases ho : c.output with
  | string => rw [ho] at h; cases h
  | _ => rfl

/-- The column of a number or time, as it is bound. -/
theorem bound_fixed {t : OutputArg} {f : Field} (ht : t.size = some size) (hf : t.valid f.type = true)
    (dynamicBufferSize : ℕ) :
    ((new t dynamicBufferSize).bindOutput f).bindResult.Fixed size ∧
      ((new t dynamicBufferSize).bindOutput f).bindResult.data = List.replicate size 0 := by
  have hnew : new t dynamicBufferSize = { output := t } := by
    rw [new, not_dynamic_of_size ht]
    rfl
  set c : OutputColumn := { output := t, field := f, bind := { bufferType := f.type } } with hc
  have hbind : (new t dynamicBufferSize).bindOutput f = { c.resize size with
      bind := { (c.resize size).bind with buffer := ⟨(c.resize size).block, 0⟩ } } := by
    rw [bindOutput, hnew]
    exact stepOutputBind_fixed (c := c) ht
  have hdata : (c.resize size).data = List.replicate size 0 := by
    rw [resize_data]
    simp [hc, data]
  rw [hbind]
  refine ⟨⟨?_, ?_, rfl, rfl⟩, hdata⟩
  · exact (congrArg OutputArg.size (resize_rest (c := c)).1).trans ht
  · exact (congrArg (FieldType.dynamic ∘ OutputBind.bufferType) (resize_rest (c := c)).2.2.1).trans
      (types_fixed (not_dynamic_of_size ht) hf).1

end OutputColumn

/-! ## The elements of a result -/

/-- What a buffer of zeroes holds after the values: the last that was not NULL. -/
def held (w : ℕ) (vs : List (Option Bytes)) : Bytes := vs.reduceOption.getLast?.getD (List.replicate w 0)

/-- The library stores the numbers and times of these columns in the width of their type. -/
def Sized (outputs : List OutputArg) (fields : List Field) (rows : List ServerRow) : Prop :=
  ∀ row ∈ rows, ∀ (j : ℕ) (t : OutputArg) (f : Field) (v : Bytes), outputs[j]? = some t → t.dynamic = false →
    fields[j]? = some f → row.value j = some v → v.length = f.type.width

theorem held_take_some {w i : ℕ} {vs : List (Option Bytes)} {v : Bytes} (h : vs[i]? = some (some v)) :
    held w (vs.take (i + 1)) = v := by
  rw [held, List.take_add_one, h, Option.toList_some, List.reduceOption_append]
  simp [List.reduceOption_cons_of_some]

theorem held_take_none {w i : ℕ} {vs : List (Option Bytes)} (h : vs[i]? = some none) :
    held w (vs.take (i + 1)) = held w (vs.take i) := by
  rw [held, List.take_add_one, h, Option.toList_some, List.reduceOption_append]
  simp [held, List.reduceOption_cons_of_none]

section Tuples

variable {outputs : List OutputArg} {fields : List Field} {rows : List ServerRow} {size i j : ℕ} {t : OutputArg}
  {f : Field}

theorem Sized.column (h : Sized outputs fields rows) (ht : outputs[j]? = some t) (hdyn : t.dynamic = false)
    (hf : fields[j]? = some f) : ∀ v ∈ (columnOf rows j).reduceOption, v.length = f.type.width := by
  intro v hv
  rw [List.reduceOption_mem_iff, columnOf, List.mem_map] at hv
  obtain ⟨row, hrow, hv⟩ := hv
  exact h row hrow j t f v ht hdyn hf hv

theorem length_held {w : ℕ} {vs : List (Option Bytes)} (h : ∀ v ∈ vs.reduceOption, v.length = w) :
    (held w vs).length = w := by
  unfold held
  cases hl : vs.reduceOption.getLast? with
  | none => simp
  | some v => exact h v (List.mem_of_getLast? hl)

/-- **An element of fixed width**: the last value of its column that was not NULL, whichever
`mysql_stmt_fetch_column` calls fail. -/
theorem fixed_element {fetched : List FetchedRow} (hrows : fetched.map FetchedRow.row = rows)
    (hcheck : checkFieldsOutputArgs outputs fields = "") (hsized : Sized outputs fields rows)
    (ht : outputs[j]? = some t) (hdyn : t.dynamic = false) (hf : fields[j]? = some f) {tuple : Row}
    (htuple : ((QueryHandle.bound outputs size fields).tuplesWith fetched)[i]? = some tuple) :
    tuple[j]? = some (held f.type.width ((columnOf rows j).take (i + 1)) ++
      List.replicate (t.size.getD 0 - f.type.width) 0) := by
  obtain ⟨n, hn⟩ : ∃ n, t.size = some n := by
    cases t <;> first | exact ⟨_, rfl⟩ | cases hdyn
  have hvalid := (checked_columns hcheck).2 j t f ht hf
  have hwidth : f.type.width ≤ n := by simpa [hn] using (types_fixed hdyn hvalid).2.1
  obtain ⟨hfixed, hdata⟩ := OutputColumn.bound_fixed hn hvalid size
  have hvs : ∀ v ∈ ((columnOf rows j).take (i + 1)).reduceOption, v.length = f.type.width := by
    intro v hv
    rw [List.reduceOption_mem_iff] at hv
    exact hsized.column ht hdyn hf v (List.reduceOption_mem_iff.2 (List.mem_of_mem_take hv))
  have hlen := length_held hvs
  have hrun := hfixed.run_data hvs (by rw [hdata, List.length_replicate]; exact hwidth)
  obtain ⟨tuple', htuple', hsame⟩ := QueryHandle.tuplesWith_fixed fetched (.refl _) htuple
  rw [hrows] at htuple'
  rw [hsame j _ (QueryHandle.bound_getElem? ht hf) (OutputColumn.not_dynamic_of_size hfixed.output),
    QueryHandle.tuples_element (QueryHandle.bound_getElem? ht hf) hfixed.alone htuple', hfixed.run.element, hrun,
    hdata, List.take_replicate, List.drop_replicate, min_eq_left hwidth, hn, Option.getD_some]
  refine congrArg some (List.take_of_length_le ?_)
  rw [List.length_append, List.length_replicate]
  unfold held at hlen
  omega

end Tuples

/-! ## Integers -/

/-- Each integer that is not NULL comes out with the value that it has in its column. -/
def IntegersFaithful (outputs : List OutputArg) (fields : List Field) (rows : List ServerRow)
    (tuples : List Row) : Prop :=
  ∀ (i j : ℕ) (row : ServerRow) (tuple : Row) (t : OutputArg) (f : Field) (v : Bytes), rows[i]? = some row →
    tuples[i]? = some tuple → outputs[j]? = some t → t.integer = true → fields[j]? = some f → row.value j = some v →
    ∃ e, tuple[j]? = some e ∧ intValue t.unsigned e = intValue f.unsigned v

/-- The integers of the columns are in the ranges of the outputs' types. -/
def IntegersInRange (outputs : List OutputArg) (fields : List Field) (rows : List ServerRow) : Prop :=
  ∀ row ∈ rows, ∀ (j : ℕ) (t : OutputArg) (f : Field) (v : Bytes), outputs[j]? = some t → t.integer = true →
    fields[j]? = some f → row.value j = some v →
    InRange t.unsigned (t.size.getD 0) (intValue f.unsigned v)

theorem not_dynamic_of_integer {t : OutputArg} (h : t.integer = true) : t.dynamic = false := by
  cases t <;> first | rfl | cases h

/-- The columns of a query of one `tinyint unsigned`. -/
abbrev tinyUnsigned : List Field := [{ name := "v", type := .tiny, unsigned := true }]

/-- A query in bind mode of one `tinyint unsigned` as `int8_t`. -/
abbrev queryTiny : XProg (Bool × MysqlResults) :=
  MysqlExecutor.queryAll { mode := .bindType [.int8] } (.user (ascii "select v from t")) []

/-- Its calls on a connected executor, and its results, when the one row has the byte `b`. -/
theorem queryTiny_path {b : UInt8} (hb : b = 100 ∨ b = 200) : queryTiny.Path libCalls
    [.freed none, .markers 0, .metadata (some tinyUnsigned), .bindParam 0, .metadata (some tinyUnsigned), .execute,
      .fetched [some [b]], .metadata (some tinyUnsigned)]
    (true,
      { mode := .bindType [.int8], resultSet := [[[b]]], fieldsName := ["v"], nullFlags := [[false]],
        hasValue := true }) := by
  rcases hb with rfl | rfl
  · exact path_of_run (List.replicate 19 { columns := some tinyUnsigned, rows := some { rows := [[some [100]]] } })
      connectedExecutor rfl
  · exact path_of_run (List.replicate 19 { columns := some tinyUnsigned, rows := some { rows := [[some [200]]] } })
      connectedExecutor rfl

theorem tiny_sized (b : UInt8) : Sized [.int8] tinyUnsigned [[some [b]]] := by
  intro row hrow j t f v ht _ hf hv
  obtain rfl := List.mem_singleton.1 hrow
  obtain ⟨hj, -⟩ := List.getElem?_eq_some_iff.1 ht
  obtain rfl : j = 0 := by simpa using hj
  cases hf
  cases hv
  rfl

/-- Output `j` is a number or a time. -/
def FixedAt (outputs : List OutputArg) (j : ℕ) : Prop := ∃ t, outputs[j]? = some t ∧ t.dynamic = false

/-- What a row finds in the buffer of a column: the last value before it that was not NULL, or zeroes. -/
def heldBefore (fields : List Field) (rows : List ServerRow) (i j : ℕ) : Option Bytes :=
  fields[j]?.map fun f => held f.type.width ((columnOf rows j).take i)

/-- A fetch of an `int`, and then a NULL. -/
theorem fetch_then_null (b : UInt8) : (MysqlExecutor.fetchResults (.bound [.int32] 64 [{ name := "v", type := .long }])
    { mysqlStmt := some 0, mysql := some 0 } { mode := .bindType [.int32] }).Path libCalls
    ([[some [b, 0, 0, 0]], [none]].map .fetched)
    (true,
      { mode := .bindType [.int32], resultSet := [[[b, 0, 0, 0]], [[b, 0, 0, 0]]], nullFlags := [[false], [true]] }) :=
  path_of_run (List.replicate 4 {}) (pendingRows [[some [b, 0, 0, 0]], [none]]) rfl

theorem then_null_sized (b : UInt8) : Sized [.int32] [{ name := "v", type := .long }] [[some [b, 0, 0, 0]], [none]] := by
  intro row hrow j t f v ht _ hf hv
  obtain ⟨hj, -⟩ := List.getElem?_eq_some_iff.1 ht
  obtain rfl : j = 0 := by simpa using hj
  cases hf
  simp only [List.mem_cons, List.not_mem_nil, or_false] at hrow
  rcases hrow with rfl | rfl
  · cases hv
    rfl
  · cases hv

end TrpcMysql
