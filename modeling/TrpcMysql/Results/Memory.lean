import Mathlib.Data.List.Indexes
import TrpcMysql.Executor.Data

/-!
# Results objects and the memory they point into

`MysqlResults<NativeString>` keeps its rows as views into a MYSQL_RES, and the MYSQL_RES itself in
`mysql_res_`. Here the objects stand in a memory with the results that libmysqlclient has stored:
the operations of an object as `mysql_results.h` writes them, and the filling of an object by
`QueryAll`. A step that must not happen is a `Fault`.

A moved-from vector or string is empty.
-/

namespace TrpcMysql

open Function

abbrev ObjId := ℕ

/-- A `std::string_view`: some bytes of a field of a stored result, or the literal "". -/
inductive StringView where
  | field (res : ResPtr) (row col length : ℕ)
  | literal
  deriving DecidableEq

/-- A `MysqlResults<NativeString>`. -/
structure NativeResults where
  option : MysqlResultsOption := {}
  resultSet : List (List StringView) := []
  fieldsName : List String := []
  nullFlags : List (List Bool) := []
  errorNumber : ℤ := 0
  errorMessage : String := ""
  affectedRows : ℕ := 0
  hasValue : Bool := false
  mysqlRes : Option ResPtr := none
  deriving DecidableEq

/-- A MYSQL_RES: its data, until it is freed. -/
structure MysqlRes where
  set : ResultSet
  freed : Bool := false

/-- The objects of a program, and the results that `mysql_store_result` made. -/
structure Memory where
  objects : ObjId → Option NativeResults := fun _ => none
  nextObj : ObjId := 0
  results : ResPtr → Option MysqlRes := fun _ => none
  nextRes : ResPtr := 0

/-- What must not happen; `noObject` is the caller's mistake. -/
inductive Fault where
  | doubleFree
  | assertion
  | useAfterFree
  | noObject
  deriving DecidableEq

/-- What the server and the library answer to the query of `QueryAll`. -/
inductive QueryReply where
  | failed (e : MysqlError)
  | noResult (number : ℤ) (message : String)
  | stored (set : ResultSet)

namespace Memory

variable (m : Memory)

def object (x : ObjId) : Except Fault NativeResults :=
  match m.objects x with
  | some o => .ok o
  | none => .error .noObject

def put (x : ObjId) (o : NativeResults) : Memory := { m with objects := update m.objects x (some o) }

def new (o : NativeResults) : Memory := { m.put m.nextObj o with nextObj := m.nextObj + 1 }

/-- `mysql_store_result`. -/
def mysqlStoreResult (set : ResultSet) : ResPtr × Memory :=
  (m.nextRes, { m with results := update m.results m.nextRes (some { set := set }), nextRes := m.nextRes + 1 })

/-- `mysql_free_result`. -/
def mysqlFreeResult (p : ResPtr) : Except Fault Memory :=
  match m.results p with
  | some { set, freed := false } => .ok { m with results := update m.results p (some { set := set, freed := true }) }
  | _ => .error .doubleFree

/-- The bytes that a view shows. -/
def read : StringView → Except Fault Bytes
  | .field p row col length =>
    match m.results p with
    | some { set, freed := false } =>
      match set.rows[row]?.bind (·[col]?) with
      | some (some bytes) => .ok (bytes.take length)
      | _ => .error .useAfterFree
    | _ => .error .useAfterFree
  | .literal => .ok []

end Memory

namespace NativeResults

/-- The part of `Clear`, and of the destructor, that gives the stored result back. -/
def freeResult (o : NativeResults) (m : Memory) : Except Fault Memory :=
  match o.mysqlRes with
  | some p => m.mysqlFreeResult p
  | none => .ok m

/-- `Clear`. -/
def clear (o : NativeResults) (m : Memory) : Except Fault (NativeResults × Memory) := do
  let m ← o.freeResult m
  return ({ o with nullFlags := [], errorMessage := "", fieldsName := [], hasValue := false, affectedRows := 0,
                   resultSet := [], mysqlRes := none }, m)

def setRawMysqlRes (o : NativeResults) (p : ResPtr) : Except Fault NativeResults :=
  if o.mysqlRes = none then .ok { o with mysqlRes := some p } else .error .assertion

def setError (o : NativeResults) (message : String) (number : ℤ) : NativeResults :=
  { o with errorMessage := message, errorNumber := number }

/-- The views of one row. -/
def fetchRow (p : ResPtr) (i : ℕ) (row : ServerRow) : List StringView :=
  row.mapIdx fun j value =>
    match value with
    | some bytes => .field p i j bytes.length
    | none => .literal

/-- The loop over the rows of a stored result. -/
def fetchRows (o : NativeResults) (p : ResPtr) (set : ResultSet) : NativeResults :=
  { o with
    resultSet := o.resultSet ++ set.rows.mapIdx (fetchRow p)
    nullFlags := o.nullFlags ++ set.rows.map fun row => row.map Option.isNone }

/-- `QueryAll`. -/
def queryAll (o : NativeResults) (reply : QueryReply) (m : Memory) : Except Fault (NativeResults × Memory) := do
  let (o, m) ← o.clear m
  match reply with
  | .failed e => return (o.setError e.message e.number, m)
  | .noResult number message => return (o.setError message number, m)
  | .stored set =>
    let (p, m) := m.mysqlStoreResult set
    let o ← (o.fetchRows p set).setRawMysqlRes p
    return ({ o with fieldsName := o.fieldsName ++ set.fields.map Field.name, hasValue := true }, m)

/-- `GetResultSet` into a vector of vectors of strings. -/
def getResultSet (o : NativeResults) (m : Memory) : Except Fault (Option (List (List Bytes))) :=
  if !o.hasValue then .ok none
  else some <$> o.resultSet.mapM fun row => row.mapM m.read

/-- What a move takes. -/
def moved (o : NativeResults) (errorNumber : ℤ) : NativeResults := { o with errorNumber := errorNumber }

/-- What a move leaves behind. -/
def movedFrom (o : NativeResults) : NativeResults :=
  { o with resultSet := [], fieldsName := [], nullFlags := [], errorMessage := "", mysqlRes := none }

end NativeResults

/-- What a program does with results objects. -/
inductive ResultsOp where
  | construct (option : MysqlResultsOption)
  | queryAll (x : ObjId) (reply : QueryReply)
  | clear (x : ObjId)
  | getResultSet (x : ObjId)
  | moveConstruct (x : ObjId)
  | moveAssign (x y : ObjId)
  | destroy (x : ObjId)

namespace Memory

/-- One operation. A new object gets the next number. -/
def step (m : Memory) : ResultsOp → Except Fault Memory
  | .construct option => .ok (m.new { option := option })
  | .queryAll x reply => do
    let (o, m) ← (← m.object x).queryAll reply m
    return m.put x o
  | .clear x => do
    let (o, m) ← (← m.object x).clear m
    return m.put x o
  | .getResultSet x => do
    let _ ← (← m.object x).getResultSet m
    return m
  | .moveConstruct x => do
    let o ← m.object x
    return (m.put x o.movedFrom).new (o.moved 0)
  | .moveAssign x y => do
    let o ← m.object x
    let o' ← m.object y
    -- `error_number_` stays as it was
    if x = y then return m
    else return (m.put y o'.movedFrom).put x (o'.moved o.errorNumber)
  | .destroy x => do
    let m ← (← m.object x).freeResult m
    return { m with objects := update m.objects x none }

/-- A sequence of operations. -/
def run (m : Memory) : List ResultsOp → Except Fault Memory
  | [] => .ok m
  | op :: ops => do (← m.step op).run ops

end Memory

end TrpcMysql
