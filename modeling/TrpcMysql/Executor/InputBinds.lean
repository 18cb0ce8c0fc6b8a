import TrpcMysql.Executor.Data

/-!
# Input binds

The input half of `mysql_binder.h`: which MYSQL_BIND an argument gets, by the overload of `StepInputBind`
that its C++ type selects, and what the library reads out of it. The primary template of `MysqlInputType`
takes any type and calls it MYSQL_TYPE_NULL, so an integer type that the table does not list is bound as
NULL whatever its value; and a time is bound as a date-time whatever its `time_type`
(`input_binds_iff`).
-/

namespace TrpcMysql

open LittleEndian

/-- What the `buffer` of a MYSQL_BIND points to. -/
inductive BindObject where
  | nothing
  | bytes (bytes : Bytes)
  | time (t : MysqlTime)
  deriving DecidableEq

/-- A MYSQL_BIND of an argument; `length` points to `buffer_length` or nowhere. -/
structure InputBind where
  bufferType : FieldType := .other 0
  buffer : BindObject := .nothing
  bufferLength : ℕ := 0
  length : Bool := false
  isUnsigned : Bool := false
  deriving DecidableEq

def MYSQL_TYPE_NULL : FieldType := .other 6

/-- `MysqlInputType<T>` of the integer types, as `value` and `is_unsigned`. -/
def IntType.inputType : IntType → FieldType × Bool
  | .signedChar => (.tiny, false)
  | .unsignedChar => (.tiny, true)
  | .short => (.short, false)
  | .unsignedShort => (.short, true)
  | .int => (.long, false)
  | .unsignedInt => (.long, true)
  | .long => (.longlong, false)
  | .unsignedLong => (.longlong, true)
  | _ => (MYSQL_TYPE_NULL, false)

/-- The template `StepInputBind<T>`, of a value with this object representation. -/
def stepInputBindOf (type : FieldType × Bool) (value : Bytes) : InputBind :=
  { bufferType := type.1, buffer := .bytes value, isUnsigned := type.2 }

/-- `StepInputBind` of a `std::string_view`. -/
def stepInputBindView (value : Bytes) : InputBind :=
  { bufferType := .string, buffer := .bytes value, bufferLength := value.length, length := true }

/-- `StepInputBind`; a `std::string_view` of a null pointer crashes. -/
def stepInputBind : InputArg → Option InputBind
  | .integer n => some (stepInputBindOf n.type.inputType (intBytes n.type.size n.value))
  | .float bits => some (stepInputBindOf (.float, false) (natBytes 4 bits.toNat))
  | .double bits => some (stepInputBindOf (.double, false) (natBytes 8 bits.toNat))
  | .string data | .stringView data | .cstring (some data) => some (stepInputBindView data)
  | .cstring none => none
  | .blob data =>
    some { bufferType := .blob, buffer := .bytes data, bufferLength := data.length, length := true }
  | .time t => some { bufferType := .datetime, buffer := .time t, isUnsigned := true }

/-- The fold of `BindInputImpl` over the argument pack; `i` counts the binds that are done. -/
def bindInputFold : ℕ → List InputBind → List InputArg → Option (List InputBind)
  | _, binds, [] => some binds
  | i, binds, arg :: args =>
    match stepInputBind arg with
    | none => none
    | some bind => bindInputFold (i + 1) (binds.set i bind) args

def bindInputImpl (args : List InputArg) : Option (List InputBind) :=
  bindInputFold 0 (List.replicate args.length {}) args

/-! ## What arguments and binds mean -/

/-- A value of SQL. -/
inductive SqlValue where
  | null
  | integer (n : ℤ)
  | float (bits : UInt32)
  | double (bits : UInt64)
  | text (data : Bytes)
  | blob (data : Bytes)
  | dateTime (year month day hour minute second secondPart : ℕ)
  | time (neg : Bool) (day hour minute second secondPart : ℕ)
  deriving DecidableEq

/-- What the library takes a bind for, by its `buffer_type`; the length of a text is `buffer_length`. -/
def InputBind.read (b : InputBind) : Option SqlValue :=
  match b.bufferType, b.buffer with
  | .other 6, _ => some .null
  | .tiny, .bytes m => some (.integer (intValue b.isUnsigned (m.take 1)))
  | .short, .bytes m => some (.integer (intValue b.isUnsigned (m.take 2)))
  | .long, .bytes m => some (.integer (intValue b.isUnsigned (m.take 4)))
  | .longlong, .bytes m => some (.integer (intValue b.isUnsigned (m.take 8)))
  | .float, .bytes m => some (.float (.ofNat (natValue (m.take 4))))
  | .double, .bytes m => some (.double (.ofNat (natValue (m.take 8))))
  | .string, .bytes m => some (.text (m.take b.bufferLength))
  | .blob, .bytes m => some (.blob (m.take b.bufferLength))
  | .datetime, .time t =>
    some (.dateTime t.year t.month t.day t.hour t.minute t.second t.secondPart)
  | _, _ => none

/-- `enum_mysql_timestamp_type`. -/
def MYSQL_TIMESTAMP_DATE : ℕ := 0
def MYSQL_TIMESTAMP_TIME : ℕ := 2

/-- What a MYSQL_TIME stands for; a date is the moment at which it begins. -/
def MysqlTime.value (t : MysqlTime) : SqlValue :=
  if t.timeType = MYSQL_TIMESTAMP_TIME then .time t.neg t.day t.hour t.minute t.second t.secondPart
  else if t.timeType = MYSQL_TIMESTAMP_DATE then .dateTime t.year t.month t.day 0 0 0 0
  else .dateTime t.year t.month t.day t.hour t.minute t.second t.secondPart

/-- What an argument stands for; a null pointer is NULL. -/
def InputArg.value : InputArg → SqlValue
  | .integer n => .integer n.value
  | .float bits => .float bits
  | .double bits => .double bits
  | .string data | .stringView data | .cstring (some data) => .text data
  | .cstring none => .null
  | .blob data => .blob data
  | .time t => t.value

/-- There is a bind for each argument, in order, and it stands for what the argument stands for. -/
structure Denotes (args : List InputArg) (binds : List InputBind) : Prop where
  length : binds.length = args.length
  value : ∀ (i : ℕ) (arg : InputArg) (bind : InputBind), args[i]? = some arg → binds[i]? = some bind →
    bind.read = some arg.value

/-- The arguments that a bind can stand for: an integer of a listed type, no null pointer, and no time of day
or date with a time of day. -/
def InputArg.Bindable : InputArg → Prop
  | .integer n => n.type ∉ [.bool, .char, .wchar, .char16, .char32, .longLong, .unsignedLongLong]
  | .cstring data => data ≠ none
  | .time t => t.timeType ≠ MYSQL_TIMESTAMP_TIME ∧
    (t.timeType = MYSQL_TIMESTAMP_DATE → t.hour = 0 ∧ t.minute = 0 ∧ t.second = 0 ∧ t.secondPart = 0)
  | _ => True

/-! ## One argument -/

theorem read_integer (n : Integer) :
    (stepInputBindOf n.type.inputType (intBytes n.type.size n.value)).read = some (.integer n.value) ↔
      InputArg.Bindable (.integer n) := by
  obtain ⟨type, value, hrange, hbool⟩ := n
  -- what the bytes are read as, where the type is listed
  have hvalue := (intValue_intBytes_iff type.unsigned type.size value).2 hrange
  have htake : (intBytes type.size value).take type.size = intBytes type.size value :=
    List.take_of_length_le (by rw [length_intBytes])
  cases type <;> simp [stepInputBindOf, IntType.inputType, InputBind.read, InputArg.Bindable, MYSQL_TYPE_NULL] <;>
    simp only [IntType.size, IntType.unsigned] at hvalue htake ⊢ <;> rw [htake, hvalue]

theorem read_time (t : MysqlTime) :
    InputBind.read { bufferType := .datetime, buffer := .time t, isUnsigned := true } = some t.value ↔
      InputArg.Bindable (.time t) := by
  simp only [InputBind.read, InputArg.Bindable, MysqlTime.value, Option.some_inj]
  split
  · rename_i h
    simp [h]
  · split
    · rename_i h
      simp [h, MYSQL_TIMESTAMP_TIME, MYSQL_TIMESTAMP_DATE]
    · rename_i h h'
      simp [h, h']

theorem natBytes_take (w n : ℕ) : (natBytes w n).take w = natBytes w n :=
  List.take_of_length_le (by rw [length_natBytes])

/-- **A bind stands for its argument exactly if the argument can be bound.** -/
theorem stepInputBind_iff (arg : InputArg) :
    (∃ bind, stepInputBind arg = some bind ∧ bind.read = some arg.value) ↔ arg.Bindable := by
  cases arg with
  | integer n =>
    rw [← read_integer]
    simp [stepInputBind, InputArg.value]
  | float bits =>
    have hbits : UInt32.ofNat (natValue (natBytes 4 bits.toNat)) = bits := by
      rw [natValue_natBytes, show (256 : ℕ) ^ 4 = 2 ^ 32 from rfl, Nat.mod_eq_of_lt bits.toNat_lt]
      simp
    simp [stepInputBind, stepInputBindOf, InputBind.read, InputArg.value, InputArg.Bindable, natBytes_take, hbits]
  | double bits =>
    have hbits : UInt64.ofNat (natValue (natBytes 8 bits.toNat)) = bits := by
      rw [natValue_natBytes, show (256 : ℕ) ^ 8 = 2 ^ 64 from rfl, Nat.mod_eq_of_lt bits.toNat_lt]
      simp
    simp [stepInputBind, stepInputBindOf, InputBind.read, InputArg.value, InputArg.Bindable, natBytes_take, hbits]
  | string data => simp [stepInputBind, stepInputBindView, InputBind.read, InputArg.value, InputArg.Bindable]
  | stringView data => simp [stepInputBind, stepInputBindView, InputBind.read, InputArg.value, InputArg.Bindable]
  | cstring data =>
    cases data <;> simp [stepInputBind, stepInputBindView, InputBind.read, InputArg.value, InputArg.Bindable]
  | blob data => simp [stepInputBind, InputBind.read, InputArg.value, InputArg.Bindable]
  | time t =>
    rw [← read_time]
    simp [stepInputBind, InputArg.value]

/-! ## The argument pack -/

/-- The fold writes the binds of the arguments from `i` on, and leaves those before. -/
theorem bindInputFold_spec : ∀ (args : List InputArg) (i : ℕ) (binds binds' : List InputBind),
    i + args.length = binds.length → bindInputFold i binds args = some binds' →
    binds'.length = binds.length ∧ (∀ j < i, binds'[j]? = binds[j]?) ∧
      ∀ (j : ℕ) (arg : InputArg), args[j]? = some arg → binds'[i + j]? = stepInputBind arg := by
  intro args
  induction args with
  | nil =>
    intro i binds binds' _ h
    cases h
    exact ⟨rfl, fun _ _ => rfl, fun j arg hj => by cases hj⟩
  | cons arg args ih =>
    intro i binds binds' hlen h
    rw [bindInputFold] at h
    cases hs : stepInputBind arg with
    | none => rw [hs] at h; cases h
    | some bind =>
      rw [hs] at h
      rw [List.length_cons] at hlen
      obtain ⟨h1, h2, h3⟩ := ih (i + 1) (binds.set i bind) binds' (by rw [List.length_set]; omega) h
      rw [List.length_set] at h1
      refine ⟨h1, fun j hj => ?_, fun j a hj => ?_⟩
      · rw [h2 j (by omega), List.getElem?_set_ne (by omega)]
      · cases j with
        | zero =>
          obtain rfl : arg = a := Option.some.inj hj
          rw [Nat.add_zero, h2 i (Nat.lt_succ_self i), List.getElem?_set_self (by omega), hs]
        | succ j =>
          rw [← h3 j a hj]
          exact congrArg (binds'[·]?) (by omega)

/-- The fold comes to its end when no argument crashes. -/
theorem bindInputFold_some : ∀ {args : List InputArg} (i : ℕ) (binds : List InputBind),
    (∀ arg ∈ args, (stepInputBind arg).isSome) → ∃ binds', bindInputFold i binds args = some binds' := by
  intro args
  induction args with
  | nil => intro i binds _; exact ⟨binds, rfl⟩
  | cons arg args ih =>
    intro i binds h
    obtain ⟨harg, hargs⟩ := List.forall_mem_cons.1 h
    obtain ⟨bind, hs⟩ := Option.isSome_iff_exists.1 harg
    rw [bindInputFold, hs]
    exact ih (i + 1) _ hargs

/-- **The binds stand for the arguments exactly if every argument can be bound.** -/
theorem input_binds_iff (args : List InputArg) :
    (∃ binds, bindInputImpl args = some binds ∧ Denotes args binds) ↔ ∀ arg ∈ args, arg.Bindable := by
  have hspec := fun binds => bindInputFold_spec args 0 (List.replicate args.length {}) binds (by simp)
  constructor
  · rintro ⟨binds, hbinds, hlen, hvalue⟩ arg harg
    obtain ⟨-, -, hstep⟩ := hspec binds hbinds
    obtain ⟨i, hi⟩ := List.mem_iff_getElem?.1 harg
    have hbind := hstep i arg hi
    rw [Nat.zero_add] at hbind
    have hlt : i < binds.length := by
      rw [hlen]
      exact (List.getElem?_eq_some_iff.1 hi).1
    rw [← stepInputBind_iff]
    exact ⟨binds[i], by rw [← hbind, List.getElem?_eq_getElem hlt], hvalue i arg _ hi (List.getElem?_eq_getElem hlt)⟩
  · intro h
    have hsome : ∀ arg ∈ args, (stepInputBind arg).isSome := by
      intro arg harg
      obtain ⟨bind, hbind, -⟩ := (stepInputBind_iff arg).2 (h arg harg)
      rw [hbind]
      rfl
    obtain ⟨binds, hbinds⟩ := bindInputFold_some 0 (List.replicate args.length {}) hsome
    obtain ⟨hlen, -, hstep⟩ := hspec binds hbinds
    refine ⟨binds, hbinds, by rw [hlen, List.length_replicate], fun i arg bind harg hbind => ?_⟩
    have heq := hstep i arg harg
    rw [Nat.zero_add, hbind] at heq
    obtain ⟨bind', hbind', hread⟩ := (stepInputBind_iff arg).2 (h arg (List.mem_of_getElem? harg))
    obtain rfl : bind = bind' := Option.some.inj (heq.trans hbind')
    exact hread

/-- `true` is bound as NULL. -/
theorem bool_bound_null : ¬ ∀ args : List InputArg, ∃ binds, bindInputImpl args = some binds ∧ Denotes args binds := by
  intro h
  obtain ⟨binds, hbinds, hden⟩ := h [.integer ⟨.bool, 1, by decide⟩]
  cases hbinds
  have := hden.value 0 _ _ rfl rfl
  exact absurd this (by decide)

end TrpcMysql
