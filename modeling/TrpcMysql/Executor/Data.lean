import Mathlib.Data.Int.Notation
import Mathlib.Data.List.Basic
import Mathlib.Tactic.Common
import TrpcMysql.Text.LittleEndian

/-!
# Data of the executor

What goes into a statement and what comes out of it: the texts and arguments, the
columns of a result, the statuses and errors, and the results object
(`mysql_results.h`) with the setters that the executor uses.
-/

namespace TrpcMysql

abbrev Bytes := List UInt8

/-- A MYSQL object, by the address `mysql_init` returned. -/
abbrev MysqlPtr := ℕ

/-- A MYSQL_STMT object. -/
abbrev StmtPtr := ℕ

/-- A MYSQL_RES object. -/
abbrev ResPtr := ℕ

/-- An error that libmysqlclient reports; its number is never zero. -/
structure MysqlError where
  number : ℤ
  message : String
  ne_zero : number ≠ 0

instance : Inhabited MysqlError := ⟨⟨2013, "Lost connection to MySQL server during query", by decide⟩⟩

/-- A statement's text: one of the three texts of the proxy, or the user's (which contains
no transaction control). -/
inductive Sql where
  | begin
  | commit
  | rollback
  | user (text : Bytes)
  deriving DecidableEq, Repr

/-- `MysqlTime`, the fields of a MYSQL_TIME. -/
structure MysqlTime where
  year : ℕ := 2024
  month : ℕ := 1
  day : ℕ := 1
  hour : ℕ := 0
  minute : ℕ := 0
  second : ℕ := 0
  secondPart : ℕ := 0
  timeType : ℕ := 1
  neg : Bool := false
  deriving DecidableEq, Repr

/-- The integer types of C++, as gcc has them on 64-bit Linux. `int8_t` to `uint64_t` are `signed char` to
`unsigned long`. -/
inductive IntType where
  | bool | char | wchar | char16 | char32
  | signedChar | unsignedChar | short | unsignedShort | int | unsignedInt | long | unsignedLong
  | longLong | unsignedLongLong
  deriving DecidableEq, Repr

/-- `sizeof`. -/
def IntType.size : IntType → ℕ
  | .bool | .char | .signedChar | .unsignedChar => 1
  | .char16 | .short | .unsignedShort => 2
  | .wchar | .char32 | .int | .unsignedInt => 4
  | .long | .unsignedLong | .longLong | .unsignedLongLong => 8

def IntType.unsigned : IntType → Bool
  | .bool | .char16 | .char32 | .unsignedChar | .unsignedShort | .unsignedInt | .unsignedLong
  | .unsignedLongLong => true
  | _ => false

/-- The values of the type. -/
def IntType.Holds (t : IntType) (n : ℤ) : Prop := LittleEndian.InRange t.unsigned t.size n ∧ (t = .bool → n ≤ 1)

instance (t : IntType) (n : ℤ) : Decidable (t.Holds n) := by
  unfold IntType.Holds
  infer_instance

/-- An integer of C++: a value of its type. -/
structure Integer where
  type : IntType
  value : ℤ
  holds : type.Holds value
  deriving DecidableEq

/-- An argument for a placeholder, by its C++ type. A C string may be a null pointer. -/
inductive InputArg where
  | integer (n : Integer)
  | float (bits : UInt32)
  | double (bits : UInt64)
  | string (data : Bytes)
  | stringView (data : Bytes)
  | cstring (data : Option Bytes)
  | blob (data : Bytes)
  | time (t : MysqlTime)
  deriving DecidableEq

/-- `enum_field_types`, the column types of the server. -/
inductive FieldType where
  | tiny | short | long | float | double | timestamp | longlong | int24 | date | time | datetime
  | year | bit | newdecimal | tinyBlob | mediumBlob | longBlob | blob | varString | string
  | other (n : ℕ)
  deriving DecidableEq, Repr

/-- A column of a result set (MYSQL_FIELD). -/
structure Field where
  name : String
  type : FieldType
  unsigned : Bool := false
  deriving DecidableEq, Repr

/-- The template arguments `OutputArgs` of a `MysqlResults` in bind mode. -/
inductive OutputArg where
  | int8 | uint8 | int16 | uint16 | int32 | uint32 | int64 | uint64 | float | double
  | mysqlTime | string | mysqlBlob
  deriving DecidableEq, Repr

/-- A row as the server sends it; `none` is NULL. -/
abbrev ServerRow := List (Option Bytes)

/-- A result set on the wire. -/
structure ResultSet where
  fields : List Field := []
  rows : List ServerRow := []
  deriving DecidableEq

/-- What `mysql_store_result` hands over. -/
structure StoredResult where
  ptr : ResPtr
  set : ResultSet

/-- One row of a `MysqlResults`: the object representation of each element. -/
abbrev Row := List Bytes

/-- `trpc::Status`. -/
structure Status where
  frameworkRetCode : ℤ := 0
  funcRetCode : ℤ := 0
  errorMessage : String := ""
  deriving DecidableEq, Repr

def Status.ok (s : Status) : Bool := s.frameworkRetCode = 0 && s.funcRetCode = 0

@[simp] theorem Status.ok_default : ({} : Status).ok = true := rfl

/-! ## `MysqlResults` -/

/-- `MysqlResultsMode`, with the `OutputArgs` of bind mode. -/
inductive MysqlResultsMode where
  | bindType (outputs : List OutputArg)
  | onlyExec
  | nativeString
  deriving DecidableEq, Repr

def kDynamicBufferInitSize : ℕ := 64

structure MysqlResultsOption where
  dynamicBufferInitSize : ℕ := kDynamicBufferInitSize
  deriving DecidableEq, Repr

/-- `MysqlResults<Args...>`. -/
structure MysqlResults where
  mode : MysqlResultsMode
  option : MysqlResultsOption := {}
  resultSet : List Row := []
  fieldsName : List String := []
  nullFlags : List (List Bool) := []
  errorNumber : ℤ := 0
  errorMessage : String := ""
  affectedRows : ℕ := 0
  hasValue : Bool := false
  mysqlRes : Option ResPtr := none
  deriving DecidableEq

namespace MysqlResults

def ok (r : MysqlResults) : Bool := r.errorNumber = 0

def setError (r : MysqlResults) (message : String) (number : ℤ) : MysqlResults :=
  { r with errorMessage := message, errorNumber := number }

/-- `SetFieldsName`: appends, and does nothing for a null result. -/
def setFieldsName (r : MysqlResults) : Option (List Field) → MysqlResults
  | none => r
  | some fields => { r with fieldsName := r.fieldsName ++ fields.map Field.name }

/-- What `Clear` does to the fields. It leaves `error_number_` as it was. -/
def cleared (r : MysqlResults) : MysqlResults :=
  { r with nullFlags := [], errorMessage := "", fieldsName := [], hasValue := false,
           affectedRows := 0, resultSet := [], mysqlRes := none }

/-- `results.push_back(row)` and the row's null flags. -/
def pushRow (r : MysqlResults) (row : Row) (nulls : List Bool) : MysqlResults :=
  { r with resultSet := r.resultSet ++ [row], nullFlags := r.nullFlags ++ [nulls] }

/-- `IsValueNull`. -/
def isValueNull (r : MysqlResults) (row col : ℕ) : Bool :=
  match r.nullFlags with
  | [] => false
  | flags :: _ =>
    if r.nullFlags.length ≤ row ∨ flags.length ≤ col then false
    else (r.nullFlags.getD row []).getD col false

/-- `GetResultSet`: the rows, when there is a value to take, and what stays in the object. -/
def getResultSet (r : MysqlResults) : Option (List Row) × MysqlResults :=
  if !r.hasValue then (none, r)
  else match r.mode with
    | .nativeString => (some r.resultSet, r)
    | _ => (some r.resultSet, { r with resultSet := [], hasValue := false })

end MysqlResults

/-! ## The output check (`mysql_binder.h`, `mysql_binder.cc`) -/

/-- `MysqlOutputType<T>::types`. -/
def OutputArg.types : OutputArg → List FieldType
  | .int8 | .uint8 => [.tiny]
  | .int16 | .uint16 => [.short, .year]
  | .int32 | .uint32 => [.long, .int24]
  | .int64 | .uint64 => [.longlong]
  | .float => [.float]
  | .double => [.double]
  | .mysqlTime => [.year, .time, .date, .datetime, .timestamp]
  | .string => [.year, .time, .date, .datetime, .timestamp, .string, .varString, .tinyBlob, .blob,
      .mediumBlob, .longBlob, .bit, .newdecimal]
  | .mysqlBlob => [.tinyBlob, .blob, .mediumBlob, .longBlob, .bit]

/-- `OutputTypeValid<T>`. -/
def OutputArg.valid (t : OutputArg) (f : FieldType) : Bool := f ∈ t.types

/-- `sizeof(T)` of the fixed-width types; the others have no buffer of fixed size. -/
def OutputArg.size : OutputArg → Option ℕ
  | .int8 | .uint8 => some 1
  | .int16 | .uint16 => some 2
  | .int32 | .uint32 => some 4
  | .int64 | .uint64 => some 8
  | .float => some 4
  | .double => some 8
  | .mysqlTime => some 48
  | .string | .mysqlBlob => none

/-- `CheckFieldsOutputArgs`: the empty text when the columns fit the arguments. -/
def checkFieldsOutputArgs (outputs : List OutputArg) (fields : List Field) : String :=
  let numFields := fields.length
  let numArgs := outputs.length
  if numFields ≠ numArgs then
    s!"The query field count is {numFields}, but you give {numArgs} OutputArgs."
  else
    let failed := ((outputs.zip fields).filter fun p => !p.1.valid p.2.type).map fun p => p.2.name
    if failed.isEmpty then "" else
      "Bind output type warning for fields: (" ++ String.intercalate ", " failed ++ ")."

end TrpcMysql
