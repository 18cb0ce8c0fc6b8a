import Mathlib.Data.List.Indexes
import Mathlib.Logic.Function.Basic
import TrpcMysql.Executor.Data
import TrpcMysql.Text.LittleEndian

/-!
# Output buffers

The `QueryHandle` of a query in bind mode (`mysql_executor.h`) and the output half of
`mysql_binder.h`: the buffers that the columns of a row are fetched into, the MYSQL_BINDs that point
to them, and the elements that are read out of them.

* A buffer is a `std::vector`. When it grows beyond its capacity it moves to another block of memory
  and gives the old one up.
* `mysql_stmt_bind_result` copies the binds. What the executor does to its own binds afterwards, the
  statement does not see.
* `mysql_stmt_fetch` stores through the copies, `mysql_stmt_fetch_column` through the bind it is
  given. A NULL leaves the buffer and the length as they were.

The bytes of a row are those the library stores for a bind of the column's type: the text, the
blob, or the object representation of a number (little-endian) or a MYSQL_TIME.
-/

namespace TrpcMysql

open Function LittleEndian

/-- A position in one of the blocks that a buffer has had. -/
structure BufferPtr where
  block : ℕ := 0
  offset : ℕ := 0
  deriving DecidableEq, Repr

/-- A MYSQL_BIND of an output column. Its `is_null` and `length` point to the column's entries of
`null_flag_buffer` and `output_length`. -/
structure OutputBind where
  bufferType : FieldType := .other 0
  buffer : BufferPtr := {}
  bufferLength : ℕ := 0
  isUnsigned : Bool := false
  deriving DecidableEq, Repr

/-- One column of a `QueryHandle`, with the statement's copy of its bind. -/
structure OutputColumn where
  output : OutputArg
  field : Field := { name := "", type := .other 0 }
  /-- the memory of the buffer; it is in `block` now -/
  blocks : ℕ → Bytes := fun _ => []
  block : ℕ := 0
  capacity : ℕ := 0
  bind : OutputBind := {}
  bound : OutputBind := {}
  outputLength : ℕ := 0
  nullFlag : Bool := false
  /-- history: something was stored outside the buffer -/
  wild : Bool := false

/-- The columns of a `QueryHandle`. -/
abbrev QueryHandle := List OutputColumn

/-- Types that a value of any length comes in; the others ignore `buffer_length`. -/
def FieldType.dynamic : FieldType → Bool
  | .tiny | .short | .long | .longlong | .int24 | .year | .float | .double => false
  | .timestamp | .date | .time | .datetime => false
  | _ => true

/-- The integer types. -/
def FieldType.integer : FieldType → Bool
  | .tiny | .short | .long | .longlong | .int24 | .year => true
  | _ => false

/-- `std::string` and `MysqlBlob`. -/
def OutputArg.dynamic : OutputArg → Bool
  | .string | .mysqlBlob => true
  | _ => false

/-- `data` with `bytes` in the place of what stood at `offset`. -/
def overwrite (data : Bytes) (offset : ℕ) (bytes : Bytes) : Bytes :=
  data.take offset ++ bytes ++ data.drop (offset + bytes.length)

def TRPC_BIND_BUFFER_MIN_SIZE : ℕ := 32

namespace OutputColumn

variable (c : OutputColumn)

/-- What the buffer holds. -/
def data : Bytes := c.blocks c.block

/-- `resize`; the memory doubles at least when it grows. -/
def resize (n : ℕ) : OutputColumn :=
  let bytes := c.data.take n ++ List.replicate (n - c.data.length) 0
  if n ≤ c.capacity then { c with blocks := update c.blocks c.block bytes }
  else { c with
    blocks := update c.blocks (c.block + 1) bytes
    block := c.block + 1
    capacity := max (2 * c.data.length) n }

/-! ## Before the statement runs -/

/-- The constructor of `QueryHandle`: the zeroed bind, and a buffer for what has any length. -/
def new (output : OutputArg) (dynamicBufferSize : ℕ) : OutputColumn :=
  if output.dynamic then resize { output := output } dynamicBufferSize else { output := output }

/-- `StepOutputBind<T>`. -/
def stepOutputBind : OutputColumn :=
  match c.output, c.output.size with
  | .string, _ =>
    let c := if c.data.isEmpty then c.resize TRPC_BIND_BUFFER_MIN_SIZE else c
    { c with bind := { c.bind with bufferType := .string, buffer := ⟨c.block, 0⟩, bufferLength := c.data.length } }
  | _, some size =>
    let c := c.resize size
    { c with bind := { c.bind with buffer := ⟨c.block, 0⟩ } }
  | _, none =>
    let c := if c.data.isEmpty then c.resize TRPC_BIND_BUFFER_MIN_SIZE else c
    { c with bind := { c.bind with buffer := ⟨c.block, 0⟩, bufferLength := c.data.length } }

/-- `BindOutputs` for one column: the field's type, then the bind. -/
def bindOutput (field : Field) : OutputColumn :=
  stepOutputBind { c with field := field, bind := { c.bind with bufferType := field.type } }

/-- `mysql_stmt_bind_result` for one column. -/
def bindResult : OutputColumn := { c with bound := c.bind }

/-! ## Fetching -/

/-- Store `bytes` at `p`. -/
def store (p : BufferPtr) (bytes : Bytes) : OutputColumn :=
  { c with
    blocks := update c.blocks p.block (overwrite (c.blocks p.block) p.offset bytes)
    wild := c.wild || !bytes.isEmpty &&
      (p.block != c.block || decide ((c.blocks p.block).length < p.offset + bytes.length)) }

/-- What a fetch through `bind` does to the column, from `offset` of the value on. -/
def fetchThrough (bind : OutputBind) (offset : ℕ) : Option Bytes → OutputColumn
  | none => { c with nullFlag := true }
  | some bytes =>
    let rest := bytes.drop offset
    { c.store bind.buffer (if bind.bufferType.dynamic then rest.take bind.bufferLength else rest) with
      outputLength := bytes.length, nullFlag := false }

/-- `mysql_stmt_fetch` for one column. -/
def fetch (value : Option Bytes) : OutputColumn := c.fetchThrough c.bound 0 value

/-- `mysql_stmt_fetch` reports the column as truncated. -/
def truncated : Option Bytes → Bool
  | none => false
  | some bytes =>
    if c.bound.bufferType.dynamic then decide (c.bound.bufferLength < bytes.length)
    else c.bound.bufferType.integer && (c.bound.isUnsigned != c.field.unsigned) &&
      (intValue c.field.unsigned bytes != intValue false bytes)

/-- The value does not fit the buffer. -/
def short : Bool := decide (c.data.length < c.outputLength)

/-- The buffer gets the size of the value, and the bind points to its new part. -/
def enlarge : OutputColumn :=
  let c' := c.resize c.outputLength
  { c' with bind := { c'.bind with bufferLength := c.outputLength, buffer := ⟨c'.block, c.data.length⟩ } }

/-- `mysql_stmt_fetch_column` through the executor's bind. -/
def fetchColumn (offset : ℕ) (value : Option Bytes) : OutputColumn := c.fetchThrough c.bind offset value

/-- The bind points to the start of the buffer again. -/
def restore : OutputColumn := { c with bind := { c.bind with buffer := ⟨c.block, 0⟩ } }

/-- The body of the loop of `FetchTruncatedResults`, when `mysql_stmt_fetch_column` succeeds. -/
def fetchTruncated (value : Option Bytes) : OutputColumn :=
  if c.short then (c.enlarge.fetchColumn c.data.length value).restore else c

/-- `n` bytes of memory, from where the bind points to; what lies behind the block is not modelled. -/
def read (n : ℕ) : Bytes := ((c.blocks c.bind.buffer.block).drop c.bind.buffer.offset).take n

/-- `StepTupleSet`: a NULL leaves a string or blob empty. -/
def stepTupleSet : Bytes :=
  match c.output.size with
  | some size => c.read size
  | none => if c.nullFlag then [] else c.read c.outputLength

end OutputColumn

/-- The value of column `i`. -/
def ServerRow.value (row : ServerRow) (i : ℕ) : Option Bytes := row[i]?.join

namespace QueryHandle

def new (outputs : List OutputArg) (dynamicBufferSize : ℕ) : QueryHandle :=
  outputs.map fun output => OutputColumn.new output dynamicBufferSize

def bindOutputs (h : QueryHandle) (fields : List Field) : QueryHandle := List.zipWith OutputColumn.bindOutput h fields

/-- `mysql_stmt_bind_result`. -/
def bindResult (h : QueryHandle) : QueryHandle := h.map OutputColumn.bindResult

/-- `mysql_stmt_fetch` of a row. -/
def fetch (h : QueryHandle) (row : ServerRow) : QueryHandle := h.mapIdx fun i c => c.fetch (row.value i)

/-- `mysql_stmt_fetch` returns MYSQL_DATA_TRUNCATED. -/
def truncated (h : QueryHandle) (row : ServerRow) : Bool :=
  (h.mapIdx fun i c => c.truncated (row.value i)).any id

/-- `FetchTruncatedResults`, over `dynamic_buffer_index`, when each `mysql_stmt_fetch_column` succeeds. -/
def fetchTruncatedResults (h : QueryHandle) (row : ServerRow) : QueryHandle :=
  h.mapIdx fun i c => if c.output.dynamic then c.fetchTruncated (row.value i) else c

/-- The buffers after the row is fetched, when each `mysql_stmt_fetch_column` succeeds. -/
def fetchRow (h : QueryHandle) (row : ServerRow) : QueryHandle :=
  if h.truncated row then (h.fetch row).fetchTruncatedResults row else h.fetch row

/-- `SetResultTuple`. -/
def setResultTuple (h : QueryHandle) : Row := h.map OutputColumn.stepTupleSet

def nullFlags (h : QueryHandle) : List Bool := h.map OutputColumn.nullFlag

end QueryHandle

end TrpcMysql
