import TrpcMysql.Executor.Dynamic
import TrpcMysql.Executor.Fixed
import TrpcMysql.Executor.InputBinds

/-!
# What is inserted is what is queried

The two halves of `mysql_binder.h` meet in the server: arguments are bound and stored in a table (`Inserted`), and the
rows of the table are fetched into tuples. The types that a value is bound with and read with are in two tables of the
source, and its bytes go through two conversions; `element_value` says that they undo each other, for every C++ type
that is in both tables.

`inserted_queried`: the tuples of a query are the arguments that were inserted, exactly if no text or blob is read out
of a buffer that an earlier one has grown.
-/

namespace TrpcMysql

open LittleEndian Conc

/-! ## Bytes of a MYSQL_TIME -/

/-- The next `w` bytes as a number, and the bytes after them. -/
def readField (w : ℕ) (bytes : Bytes) : ℕ × Bytes := (natValue (bytes.take w), bytes.drop w)

theorem readField_natBytes {w n : ℕ} (hn : n < 256 ^ w) (rest : Bytes) :
    readField w (natBytes w n ++ rest) = (n, rest) := by
  have hlen : (natBytes w n).length = w := length_natBytes w n
  unfold readField
  rw [List.take_append_of_le_length hlen.ge, List.take_of_length_le hlen.le, natValue_natBytes, Nat.mod_eq_of_lt hn,
    List.drop_append_of_le_length hlen.ge, List.drop_of_length_le hlen.le, List.nil_append]

namespace MysqlTime

/-- The object representation of a MYSQL_TIME, with the padding and `time_zone_displacement` zero. -/
def bytes (t : MysqlTime) : Bytes :=
  natBytes 4 t.year ++ (natBytes 4 t.month ++ (natBytes 4 t.day ++ (natBytes 4 t.hour ++ (natBytes 4 t.minute ++
    (natBytes 4 t.second ++ (natBytes 8 t.secondPart ++ (natBytes 4 t.neg.toNat ++ (natBytes 4 t.timeType ++
      natBytes 8 0))))))))

/-- The MYSQL_TIME that the bytes represent. -/
def ofBytes (bytes : Bytes) : MysqlTime :=
  let (year, bytes) := readField 4 bytes
  let (month, bytes) := readField 4 bytes
  let (day, bytes) := readField 4 bytes
  let (hour, bytes) := readField 4 bytes
  let (minute, bytes) := readField 4 bytes
  let (second, bytes) := readField 4 bytes
  let (secondPart, bytes) := readField 8 bytes
  let (neg, bytes) := readField 4 bytes
  let (timeType, _) := readField 4 bytes
  { year := year, month := month, day := day, hour := hour, minute := minute, second := second,
    secondPart := secondPart, timeType := timeType, neg := neg ≠ 0 }

/-- A moment that the server stores. -/
structure Storable (t : MysqlTime) : Prop where
  year : t.year ≤ 9999
  month : t.month ≤ 12
  day : t.day ≤ 31
  hour : t.hour ≤ 23
  minute : t.minute ≤ 59
  second : t.second ≤ 59
  secondPart : t.secondPart ≤ 999999

instance (t : MysqlTime) : Decidable t.Storable :=
  decidable_of_iff (t.year ≤ 9999 ∧ t.month ≤ 12 ∧ t.day ≤ 31 ∧ t.hour ≤ 23 ∧ t.minute ≤ 59 ∧ t.second ≤ 59 ∧
    t.secondPart ≤ 999999) ⟨fun ⟨h1, h2, h3, h4, h5, h6, h7⟩ => ⟨h1, h2, h3, h4, h5, h6, h7⟩,
      fun ⟨h1, h2, h3, h4, h5, h6, h7⟩ => ⟨h1, h2, h3, h4, h5, h6, h7⟩⟩

theorem length_bytes (t : MysqlTime) : t.bytes.length = 48 := by
  simp only [bytes, List.length_append, length_natBytes]

/-- **The bytes of a moment give it back.** -/
theorem ofBytes_bytes {t : MysqlTime} (h : t.Storable) (htype : t.timeType < 256 ^ 4) : ofBytes t.bytes = t := by
  obtain ⟨hyear, hmonth, hday, hhour, hminute, hsecond, hpart⟩ := h
  have hneg : t.neg.toNat < 256 ^ 4 := by cases t.neg <;> decide
  unfold ofBytes bytes
  simp (disch := omega) only [readField_natBytes]
  obtain ⟨year, month, day, hour, minute, second, secondPart, timeType, neg⟩ := t
  cases neg <;> rfl

end MysqlTime

/-! ## Columns -/

/-- The bytes that the server keeps of an integer in a column of the type. -/
def FieldType.integerBytes : FieldType → Option ℕ
  | .tiny => some 1
  | .short => some 2
  | .int24 => some 3
  | .long => some 4
  | .longlong => some 8
  | _ => none

/-- The types of columns that hold any bytes. -/
def FieldType.holdsBytes : FieldType → Bool
  | .string | .varString | .tinyBlob | .blob | .mediumBlob | .longBlob => true
  | _ => false

/-- The bytes that the library stores for the value, out of a column of this type that it was inserted into; none if the
column refuses the value or changes it. -/
def Field.store (f : Field) : SqlValue → Option Bytes
  | .integer n => f.type.integerBytes.bind fun w =>
    if InRange f.unsigned w n then some (intBytes f.type.width n) else none
  | .float bits => if f.type = .float then some (natBytes 4 bits.toNat) else none
  | .double bits => if f.type = .double then some (natBytes 8 bits.toNat) else none
  | .text data | .blob data => if f.type.holdsBytes then some data else none
  | .dateTime year month day hour minute second secondPart =>
    let t : MysqlTime := { year, month, day, hour, minute, second, secondPart }
    if (f.type = .datetime ∨ f.type = .timestamp) ∧ t.Storable then some t.bytes else none
  | _ => none

/-- What the server keeps of the values that are bound. -/
def storeRow : List Field → List InputBind → Option ServerRow
  | [], [] => some []
  | f :: fields, bind :: binds => do
    let v ← bind.read
    let b ← f.store v
    let row ← storeRow fields binds
    return some b :: row
  | _, _ => none

/-- The row that the arguments leave in the table, as they are bound. -/
def insertRow (fields : List Field) (args : List InputArg) : Option ServerRow :=
  (bindInputImpl args).bind (storeRow fields)

/-! ## Types -/

/-- The integer types that are in both tables. -/
def IntType.output : IntType → Option OutputArg
  | .signedChar => some .int8
  | .unsignedChar => some .uint8
  | .short => some .int16
  | .unsignedShort => some .uint16
  | .int => some .int32
  | .unsignedInt => some .uint32
  | .long => some .int64
  | .unsignedLong => some .uint64
  | _ => none

/-- The type to read an argument with. -/
def InputArg.output : InputArg → Option OutputArg
  | .integer n => n.type.output
  | .float _ => some .float
  | .double _ => some .double
  | .string _ | .stringView _ | .cstring _ => some .string
  | .blob _ => some .mysqlBlob
  | .time _ => some .mysqlTime

/-- What an element of a tuple stands for. -/
def OutputArg.value (t : OutputArg) (e : Bytes) : SqlValue :=
  match t with
  | .float => .float (.ofNat (natValue e))
  | .double => .double (.ofNat (natValue e))
  | .mysqlTime => (MysqlTime.ofBytes e).value
  | .string => .text e
  | .mysqlBlob => .blob e
  | _ => .integer (intValue t.unsigned e)

/-- There is a tuple for each row of the table, and its elements stand for what the arguments stand for. -/
structure Queried (outputs : List OutputArg) (table : List (List InputArg)) (tuples : List Row) : Prop where
  length : tuples.length = table.length
  element : ∀ (i j : ℕ) (args : List InputArg) (arg : InputArg) (tuple : Row) (t : OutputArg), table[i]? = some args →
    tuples[i]? = some tuple → args[j]? = some arg → outputs[j]? = some t →
      ∃ e, tuple[j]? = some e ∧ t.value e = arg.value

section Element

variable {arg : InputArg} {t : OutputArg} {f : Field} {v : SqlValue} {b : Bytes}

theorem store_integer {n : ℤ} (h : f.store (.integer n) = some b) : b = intBytes f.type.width n := by
  obtain ⟨w, -, hw⟩ := Option.bind_eq_some_iff.1 h
  split at hw
  · exact (Option.some.inj hw).symm
  · cases hw

theorem holdsBytes_dynamic {type : FieldType} (h : type.holdsBytes = true) : type.dynamic = true := by
  cases type <;> first | rfl | cases h

/-- What is stored in a column of numbers or times is as wide as the column. -/
theorem store_width (hf : f.type.dynamic = false) (h : f.store v = some b) : b.length = f.type.width := by
  cases v with
  | integer n => rw [store_integer h, length_intBytes]
  | float bits =>
    simp only [Field.store, Option.ite_none_right_eq_some, Option.some.injEq] at h
    obtain ⟨htype, rfl⟩ := h
    rw [length_natBytes, htype]
    rfl
  | double bits =>
    simp only [Field.store, Option.ite_none_right_eq_some, Option.some.injEq] at h
    obtain ⟨htype, rfl⟩ := h
    rw [length_natBytes, htype]
    rfl
  | dateTime year month day hour minute second secondPart =>
    simp only [Field.store, Option.ite_none_right_eq_some, Option.some.injEq] at h
    obtain ⟨⟨htype, -⟩, rfl⟩ := h
    rw [MysqlTime.length_bytes]
    rcases htype with htype | htype <;> rw [htype] <;> rfl
  | text data | blob data =>
    simp only [Field.store, Option.ite_none_right_eq_some] at h
    rw [holdsBytes_dynamic h.1] at hf
    cases hf
  | null => cases h
  | time neg day hour minute second secondPart => cases h

/-- What is stored fills the element that it is read into. -/
theorem store_fills (ht : t.dynamic = false) (hf : t.valid f.type = true) (h : f.store v = some b) :
    b.length = t.size.getD 0 := by
  have hyear : f.type ≠ .year := by
    rintro heq
    cases v <;> simp [Field.store, FieldType.integerBytes, FieldType.holdsBytes, heq] at h
  have hall : ∀ g ∈ t.types, g ≠ .year → g.width = t.size.getD 0 := by
    cases t <;> first | decide | cases ht
  rw [store_width (types_fixed ht hf).1 h]
  exact hall f.type (by simpa [OutputArg.valid] using hf) hyear

/-- An integer type is the same in both tables. -/
theorem output_integer {type : IntType} (h : type.output = some t) :
    t.integer = true ∧ t.unsigned = type.unsigned ∧ t.size = some type.size := by
  cases type <;> first | (cases h; exact ⟨rfl, rfl, rfl⟩) | cases h

theorem value_integer (ht : t.integer = true) (e : Bytes) : t.value e = .integer (intValue t.unsigned e) := by
  cases t <;> first | rfl | cases ht

/-- A moment is read as it was bound. -/
theorem value_time {time : MysqlTime} (hbind : InputArg.Bindable (.time time)) :
    time.value = .dateTime time.year time.month time.day time.hour time.minute time.second time.secondPart := by
  obtain ⟨htime, hdate⟩ := hbind
  unfold MysqlTime.value
  rw [if_neg htime]
  split
  · rename_i hd
    obtain ⟨h1, h2, h3, h4⟩ := hdate hd
    rw [h1, h2, h3, h4]
  · rfl

/-- **What is stored is read as what it was.** -/
theorem element_value (harg : arg.output = some t) (hbind : arg.Bindable) (hf : t.valid f.type = true)
    (h : f.store arg.value = some b) : t.value b = arg.value := by
  cases arg with
  | integer n =>
    obtain ⟨hint, hunsigned, hsize⟩ := output_integer harg
    have hwidth := (types_fixed (not_dynamic_of_integer hint) hf).2.2 hint
    rw [hsize, Option.getD_some] at hwidth
    rw [value_integer hint, store_integer h, hwidth, hunsigned, (intValue_intBytes_iff _ _ _).2 n.holds.1]
    rfl
  | float bits =>
    cases harg
    simp only [InputArg.value, Field.store, Option.ite_none_right_eq_some, Option.some.injEq] at h
    obtain ⟨-, rfl⟩ := h
    simp [OutputArg.value, InputArg.value, natValue_natBytes]
  | double bits =>
    cases harg
    simp only [InputArg.value, Field.store, Option.ite_none_right_eq_some, Option.some.injEq] at h
    obtain ⟨-, rfl⟩ := h
    simp [OutputArg.value, InputArg.value, natValue_natBytes]
  | string data | stringView data | blob data =>
    cases harg
    simp only [InputArg.value, Field.store, Option.ite_none_right_eq_some, Option.some.injEq] at h
    obtain ⟨-, rfl⟩ := h
    rfl
  | cstring data =>
    cases harg
    cases data with
    | none => exact absurd rfl hbind
    | some data =>
      simp only [InputArg.value, Field.store, Option.ite_none_right_eq_some, Option.some.injEq] at h
      obtain ⟨-, rfl⟩ := h
      rfl
  | time time =>
    cases harg
    have hvalue : InputArg.value (.time time) = _ := value_time hbind
    rw [hvalue] at h ⊢
    simp only [Field.store, Option.ite_none_right_eq_some, Option.some.injEq] at h
    obtain ⟨⟨-, hstorable⟩, rfl⟩ := h
    unfold OutputArg.value
    rw [MysqlTime.ofBytes_bytes hstorable (show 1 < 256 ^ 4 by decide)]
    rfl

end Element

/-! ## Rows -/

/-- The text or blob of an argument. -/
def InputArg.text : InputArg → Option Bytes
  | .string data | .stringView data | .blob data => some data
  | .cstring data => data
  | _ => none

/-- The texts and blobs of a column of the table. -/
def textsOf (table : List (List InputArg)) (j : ℕ) : List (Option Bytes) :=
  table.map fun args => args[j]?.bind InputArg.text

section Rows

variable {outputs : List OutputArg} {fields : List Field} {size : ℕ} {table : List (List InputArg)}
  {rows : List ServerRow} {args : List InputArg} {row : ServerRow} {arg : InputArg} {t : OutputArg} {f : Field}
  {i j : ℕ}

/-- A text is read with a type of any length, and is stored as it is. -/
theorem store_text {b : Bytes} (harg : arg.output = some t) (ht : t.dynamic = true) (h : f.store arg.value = some b) :
    arg.text = some b := by
  cases arg with
  | integer n =>
    have hfixed := not_dynamic_of_integer (output_integer harg).1
    rw [ht] at hfixed
    cases hfixed
  | cstring data =>
    cases data with
    | none => cases h
    | some data =>
      simp only [InputArg.value, Field.store, Option.ite_none_right_eq_some] at h
      exact h.2
  | string data | stringView data | blob data =>
    simp only [InputArg.value, Field.store, Option.ite_none_right_eq_some] at h
    exact h.2
  | float bits | double bits | time time =>
    cases harg
    cases ht

/-- An element of any length stands for its bytes. -/
theorem value_text {e b : Bytes} (ht : t.dynamic = true) : t.value e = t.value b ↔ e = b := by
  cases t <;> first | cases ht; done | simp [OutputArg.value]

theorem storeRow_value : ∀ {fields : List Field} {binds : List InputBind} {row : ServerRow},
    storeRow fields binds = some row → ∀ {j : ℕ} {f : Field} {bind : InputBind}, fields[j]? = some f →
      binds[j]? = some bind → ∃ v b, bind.read = some v ∧ f.store v = some b ∧ row.value j = some b := by
  intro fields
  induction fields with
  | nil =>
    intro binds row _ j f bind hf _
    cases hf
  | cons f fields ih =>
    intro binds row h j f' bind' hf hbind
    cases binds with
    | nil => cases h
    | cons bind binds =>
      simp only [storeRow, Option.bind_eq_bind, Option.bind_eq_some_iff] at h
      obtain ⟨v, hv, b, hb, rest, hrest, heq⟩ := h
      cases heq
      cases j with
      | zero =>
        cases hf
        cases hbind
        exact ⟨v, b, hv, hb, rfl⟩
      | succ j => exact ih hrest hf hbind

/-- What the server keeps of an argument. -/
theorem insertRow_value {row : ServerRow} (h : insertRow fields args = some row) (harg : args[j]? = some arg)
    (hf : fields[j]? = some f) (hbind : arg.Bindable) : ∃ b, f.store arg.value = some b ∧ row.value j = some b := by
  obtain ⟨binds, hbinds, hrow⟩ := Option.bind_eq_some_iff.1 h
  obtain ⟨-, -, hstep⟩ := bindInputFold_spec args 0 (List.replicate args.length {}) binds (by simp) hbinds
  obtain ⟨bind, hsome, hread⟩ := (stepInputBind_iff arg).2 hbind
  have hj := hstep j arg harg
  rw [Nat.zero_add, hsome] at hj
  obtain ⟨v, b, hv, hstore, hvalue⟩ := storeRow_value hrow hf hj
  obtain rfl : arg.value = v := Option.some.inj (hread.symm.trans hv)
  exact ⟨b, hstore, hvalue⟩

/-- The rows of a table, as they were inserted and as they are served and read. -/
structure Served (outputs : List OutputArg) (fields : List Field) (table : List (List InputArg))
    (rows : List ServerRow) : Prop where
  checked : checkFieldsOutputArgs outputs fields = ""
  types : ∀ args ∈ table, args.map InputArg.output = outputs.map some
  bindable : ∀ args ∈ table, ∀ arg ∈ args, arg.Bindable
  inserted : table.map (insertRow fields) = rows.map some

namespace Served

variable (h : Served outputs fields table rows)
include h

theorem length : rows.length = table.length := by
  have hlen := congrArg List.length h.inserted
  simpa using hlen.symm

/-- Everything that is known of one element. -/
theorem at_arg (hargs : table[i]? = some args) (ht : outputs[j]? = some t) :
    ∃ arg f row b, args[j]? = some arg ∧ arg.output = some t ∧ arg.Bindable ∧ fields[j]? = some f ∧
      t.valid f.type = true ∧ rows[i]? = some row ∧ f.store arg.value = some b ∧ row.value j = some b := by
  have hmem := List.mem_of_getElem? hargs
  have htypes := h.types args hmem
  obtain ⟨hlen, hvalid⟩ := checked_columns h.checked
  obtain ⟨hj, -⟩ := List.getElem?_eq_some_iff.1 ht
  have hj' : j < args.length := by
    have := congrArg List.length htypes
    simp only [List.length_map] at this
    omega
  have harg : args[j]? = some args[j] := List.getElem?_eq_getElem hj'
  have hf : fields[j]? = some fields[j] := List.getElem?_eq_getElem (by omega)
  have hout := congrArg (·[j]?) htypes
  simp only [List.getElem?_map, harg, ht, Option.map_some, Option.some.injEq] at hout
  have hbind := h.bindable args hmem _ (List.mem_of_getElem? harg)
  have hins := congrArg (·[i]?) h.inserted
  simp only [List.getElem?_map, hargs, Option.map_some] at hins
  obtain ⟨row, hrow, hinsert⟩ := Option.map_eq_some_iff.1 hins.symm
  obtain ⟨b, hstore, hvalue⟩ := insertRow_value hinsert.symm harg hf hbind
  exact ⟨_, _, row, b, harg, hout, hbind, hf, hvalid j t _ ht hf, hrow, hstore, hvalue⟩

theorem at_row {row : ServerRow} (hrow : rows[i]? = some row) : ∃ args, table[i]? = some args := by
  obtain ⟨hi, -⟩ := List.getElem?_eq_some_iff.1 hrow
  exact ⟨_, List.getElem?_eq_getElem (by rw [← h.length]; exact hi)⟩

theorem sized : Sized outputs fields rows := by
  intro row hrow j t f v ht hdyn hf hv
  obtain ⟨i, hrow⟩ := List.mem_iff_getElem?.1 hrow
  obtain ⟨args, hargs⟩ := h.at_row hrow
  obtain ⟨arg, f', row', b, -, -, -, hf', hvalid, hrow', hstore, hb⟩ := h.at_arg hargs ht
  obtain rfl : f = f' := Option.some.inj (hf.symm.trans hf')
  obtain rfl : row = row' := Option.some.inj (hrow.symm.trans hrow')
  obtain rfl : v = b := Option.some.inj (hv.symm.trans hb)
  exact store_width (types_fixed hdyn hvalid).1 hstore

/-- The server sends the texts as they were inserted. -/
theorem columnOf_eq (hj : DynamicAt outputs j) : columnOf rows j = textsOf table j := by
  obtain ⟨t, ht, hdyn⟩ := hj
  refine List.ext_getElem? fun i => ?_
  rw [columnOf, textsOf, List.getElem?_map, List.getElem?_map]
  cases hargs : table[i]? with
  | none =>
    rw [List.getElem?_eq_none (by rw [h.length]; exact List.getElem?_eq_none_iff.1 hargs)]
    rfl
  | some args =>
    obtain ⟨arg, f, row, b, harg, hout, -, -, -, hrow, hstore, hvalue⟩ := h.at_arg hargs ht
    rw [hrow, Option.map_some, Option.map_some, hvalue, harg, Option.bind_some, store_text hout hdyn hstore]

/-- **The tuples are what was inserted exactly if** the texts and blobs come out in full. -/
theorem queried_iff {fetched : List FetchedRow} (hrows : fetched.map FetchedRow.row = rows)
    (hwhole : (QueryHandle.bound outputs size fields).tuplesWith fetched =
      (QueryHandle.bound outputs size fields).tuples rows) :
    Queried outputs table ((QueryHandle.bound outputs size fields).tuples rows) ↔
      Faithful outputs rows ((QueryHandle.bound outputs size fields).tuples rows) := by
  have hlength := QueryHandle.length_tuples rows (.bound outputs size fields)
  constructor
  · intro hq
    refine ⟨hlength, fun i j row tuple v hrow htuple hj hv => ?_⟩
    obtain ⟨t, ht, hdyn⟩ := hj
    obtain ⟨args, hargs⟩ := h.at_row hrow
    obtain ⟨arg, f, row', b, harg, hout, hbind, -, hvalid, hrow', hstore, hb⟩ := h.at_arg hargs ht
    obtain rfl : row = row' := Option.some.inj (hrow.symm.trans hrow')
    obtain rfl : v = b := Option.some.inj (hv.symm.trans hb)
    obtain ⟨e, he, hvalue⟩ := hq.element i j args arg tuple t hargs htuple harg ht
    rw [← element_value hout hbind hvalid hstore, value_text hdyn] at hvalue
    rw [he, hvalue]
  · intro hfaithful
    refine ⟨hlength.trans h.length, fun i j args arg tuple t hargs htuple harg ht => ?_⟩
    obtain ⟨arg', f, row, b, harg', hout, hbind, hf, hvalid, hrow, hstore, hb⟩ := h.at_arg hargs ht
    obtain rfl : arg = arg' := Option.some.inj (harg.symm.trans harg')
    refine ⟨b, ?_, element_value hout hbind hvalid hstore⟩
    cases hdyn : t.dynamic
    · -- a number or a time: the last value that was stored, and it fills the element
      have hvalue : (columnOf rows j)[i]? = some (some b) := by rw [columnOf_getElem? hrow, hb]
      have hfixed := fixed_element hrows h.checked h.sized ht hdyn hf (hwhole ▸ htuple)
      rw [hfixed, held_take_some hvalue, ← store_fills hdyn hvalid hstore,
        store_width (types_fixed hdyn hvalid).1 hstore, Nat.sub_self]
      simp
    · exact hfaithful.element i j row tuple b hrow htuple ⟨t, ht, hdyn⟩ hb

end Served

end Rows

/-- A table of a number, a text and a moment, with two rows. -/
abbrev noteFields : List Field :=
  [{ name := "id", type := .tiny }, { name := "note", type := .varString }, { name := "at", type := .datetime }]

abbrev noteOutputs : List OutputArg := [.int8, .string, .mysqlTime]

abbrev noteTable : List (List InputArg) :=
  [[.integer ⟨.signedChar, -5, by decide⟩, .string [97, 98], .time {}],
    [.integer ⟨.signedChar, 7, by decide⟩, .stringView [], .time { year := 1999, hour := 23 }]]

abbrev noteRows : List ServerRow :=
  [[some [251], some [97, 98], some (MysqlTime.bytes {})],
    [some [7], some [], some (MysqlTime.bytes { year := 1999, hour := 23 })]]

/-- A query of the table. -/
theorem queryNotes_path :
    (MysqlExecutor.queryAll { mode := .bindType noteOutputs } (.user (ascii "select * from note")) []).Path libCalls
    [.freed none, .markers 0, .metadata (some noteFields), .bindParam 0, .metadata (some noteFields), .execute,
      .fetched noteRows[0], .fetched noteRows[1], .metadata (some noteFields)]
    (true, { mode := .bindType noteOutputs
             resultSet := [[[251], [97, 98], MysqlTime.bytes {}],
               [[7], [], MysqlTime.bytes { year := 1999, hour := 23 }]]
             fieldsName := ["id", "note", "at"]
             nullFlags := [[false, false, false], [false, false, false]]
             hasValue := true }) :=
  path_of_run (List.replicate 20 { columns := some noteFields, rows := some { rows := noteRows } }) connectedExecutor
    rfl

end TrpcMysql
