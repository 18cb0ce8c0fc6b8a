import Mathlib.Data.List.Forall2
import TrpcMysql.Executor.Columns

/-!
# The output check

`CheckFieldsOutputArgs` and the binding of the output columns with their indices: the columns come from the
server, the `OutputArgs` from a template pack, and both are walked in step by hand-kept counters. Every access
to `fields_meta`, `output_binds`, `output_buffer` and `null_flag_buffer` is checked here, and so is every
metadata call, which needs a result.

`output_check_guards_iff`: `QueryAllInternal` gets past the check exactly if the columns fit, says in column
order which do not, and makes no call on null metadata and no access out of range, if and only if the prepared
statement has a result set: for one without, `CheckFieldsOutputArgs` asks null metadata for its number of
columns.
-/

namespace TrpcMysql

open Conc

/-! ## The check, with its indices -/

/-- `mysql_num_fields`; there is none of null metadata. -/
def mysqlNumFields (res : Option (List Field)) : Option ℕ := res.map List.length

/-- `mysql_fetch_fields`. -/
def mysqlFetchFields (res : Option (List Field)) : Option (List Field) := res

/-- The fold over `OutputArgs`, with `i` and `failed_index`; `none` is an index out of range. -/
def failedIndex (fieldsMeta : List Field) : List OutputArg → ℕ → List ℕ → Option (List ℕ)
  | [], _, failed => some failed
  | t :: ts, i, failed => do
    let field ← fieldsMeta[i]?
    failedIndex fieldsMeta ts (i + 1) (if t.valid field.type then failed else failed ++ [i])

/-- The message loop, from the second failed index on. -/
def appendNames (fieldsMeta : List Field) : List ℕ → String → Option String
  | [], error => some error
  | i :: is, error => do
    let field ← fieldsMeta[i]?
    appendNames fieldsMeta is (error ++ ", " ++ field.name)

/-- `CheckFieldsOutputArgs`; `none` is a call on null metadata or an index out of range. -/
def checkFields (outputs : List OutputArg) (res : Option (List Field)) : Option String := do
  let numFields ← mysqlNumFields res
  if numFields ≠ outputs.length then
    return s!"The query field count is {numFields}, but you give {outputs.length} OutputArgs."
  let fieldsMeta ← mysqlFetchFields res
  match ← failedIndex fieldsMeta outputs 0 [] with
  | [] => return ""
  | i :: is =>
    let field ← fieldsMeta[i]?
    let error ← appendNames fieldsMeta is ("Bind output type warning for fields: (" ++ field.name)
    return error ++ ")."

/-! ## The accesses of the binding -/

/-- An access with an index. -/
inductive Access where
  | fieldsMeta (i : ℕ)
  | outputBinds (i : ℕ)
  | outputBuffer (i : ℕ)
  | nullFlagBuffer (i : ℕ)
  | outputLength (i : ℕ)

/-- The statement has `columns` columns, and the vectors of the `QueryHandle` have `fieldCount` elements. -/
def Access.InRange (columns fieldCount : ℕ) : Access → Prop
  | fieldsMeta i => i < columns
  | outputBinds i | outputBuffer i | nullFlagBuffer i | outputLength i => i < fieldCount

/-- The accesses of the constructor of `QueryHandle` and of `BindOutputs`, in their order. -/
def bindAccesses (outputs : List OutputArg) (fieldCount : ℕ) : List Access :=
  -- ResizeBuffers
  ((List.range outputs.length).filter fun i => (outputs[i]?).any OutputArg.dynamic).map .outputBuffer ++
  -- the types of the columns
  (List.range fieldCount).flatMap (fun i => [.outputBinds i, .fieldsMeta i]) ++
  -- BindOutputImpl
  (List.range outputs.length).flatMap (fun i => [.outputBinds i, .outputBuffer i, .nullFlagBuffer i]) ++
  -- the length pointers
  (List.range fieldCount).flatMap fun i => [.outputBinds i, .outputLength i]

namespace MysqlExecutor

variable (outputs : List OutputArg) (stmt : MysqlStatement) (r : MysqlResults) (args : List InputArg)

/-- What `QueryAllInternal` does with the metadata that it gives to `CheckFieldsOutputArgs`. -/
def queryChecked : Option (List Field) → XProg (Bool × MysqlResults)
  | none => crash
  | some fields => do
    let message := checkFieldsOutputArgs outputs fields
    if message ≠ "" then
      let r := r.setError message TRPC_MYSQL_STMT_PARAMS_ERROR
      endStatement stmt
      return (false, r)
    bindInputArgs args
    if !(← stmt.bindParam args) then
      let r ← setStmtError r stmt
      endStatement stmt
      return (false, r)
    queryPrepared outputs stmt r

/-- What `QueryAllInternal` does with the metadata that `BindOutputs` gets. -/
def queryBinding : Option (List Field) → XProg (Bool × MysqlResults)
  | none => crash
  | some fields => queryBound ((QueryHandle.new outputs r.option.dynamicBufferInitSize).bindOutputs fields) stmt r

theorem queryAllBind_eq (sql : Sql) : queryAllBind outputs r sql args = (do
    let r ← clearResults r
    let (ok, stmt) ← MysqlStatement.init { mysql := (← getThis).mysql } sql
    if !ok then
      let r ← setStmtError r stmt
      endStatement stmt
      return (false, r)
    queryChecked outputs stmt r args (← stmt.getResultsMeta)) := rfl

theorem queryPrepared_eq :
    queryPrepared outputs stmt r = (do queryBinding outputs stmt r (← stmt.getResultsMeta)) := rfl

end MysqlExecutor

/-! ## The fold and the message -/

/-- The columns are as many as the arguments, and each has a type of its argument. -/
def ColumnsFit (outputs : List OutputArg) (fields : List Field) : Prop :=
  List.Forall₂ (fun t f => f.type ∈ OutputArg.types t) outputs fields

/-- Column `i` does not have a type of its argument. -/
def Offends (outputs : List OutputArg) (fields : List Field) (i : ℕ) : Prop :=
  ∃ t f, outputs[i]? = some t ∧ fields[i]? = some f ∧ f.type ∉ OutputArg.types t

def namesAt (fields : List Field) (is : List ℕ) : List String := is.filterMap fun i => (fields[i]?).map Field.name

/-- The message names the offending columns, in column order. -/
def NamesOffending (outputs : List OutputArg) (fields : List Field) (message : String) : Prop :=
  ∃ is : List ℕ, is.Pairwise (· < ·) ∧ (∀ i, i ∈ is ↔ Offends outputs fields i) ∧
    message = "Bind output type warning for fields: (" ++ ", ".intercalate (namesAt fields is) ++ ")."

/-- The failed indices of the arguments `ts`, from column `i` on. -/
def failedFrom (i : ℕ) : List OutputArg → List Field → List ℕ
  | t :: ts, f :: fs => if t.valid f.type then failedFrom (i + 1) ts fs else i :: failedFrom (i + 1) ts fs
  | _, _ => []

section Fold

variable {fields before fs : List Field} {outputs ts : List OutputArg} {i j : ℕ}

theorem failedIndex_eq (hlen : ts.length = fs.length) (failed : List ℕ) :
    failedIndex (before ++ fs) ts before.length failed = some (failed ++ failedFrom before.length ts fs) := by
  induction ts generalizing before fs failed with
  | nil => simp [failedIndex, failedFrom]
  | cons t ts ih =>
    cases fs with
    | nil => simp at hlen
    | cons f fs =>
      have hfield : (before ++ f :: fs)[before.length]? = some f := by simp
      have hnext := @ih (before ++ [f]) fs (by simpa using hlen)
        (if t.valid f.type then failed else failed ++ [before.length])
      simp only [List.append_assoc, List.singleton_append, List.length_append, List.length_singleton] at hnext
      simp only [failedIndex, hfield, Option.bind_eq_bind, Option.bind_some, hnext, failedFrom]
      split <;> simp

theorem le_of_mem_failedFrom (h : j ∈ failedFrom i ts fs) : i ≤ j := by
  induction ts generalizing i fs with
  | nil => simp [failedFrom] at h
  | cons t ts ih =>
    cases fs with
    | nil => simp [failedFrom] at h
    | cons f fs =>
      rw [failedFrom] at h
      split at h
      · have := ih h
        omega
      · rcases List.mem_cons.1 h with rfl | h
        · exact Nat.le_refl _
        · have := ih h
          omega

theorem pairwise_failedFrom : (failedFrom i ts fs).Pairwise (· < ·) := by
  induction ts generalizing i fs with
  | nil => simp [failedFrom]
  | cons t ts ih =>
    cases fs with
    | nil => simp [failedFrom]
    | cons f fs =>
      rw [failedFrom]
      split
      · exact ih
      · exact List.pairwise_cons.2 ⟨fun j hj => le_of_mem_failedFrom hj, ih⟩

theorem mem_failedFrom : i + j ∈ failedFrom i ts fs ↔ Offends ts fs j := by
  induction ts generalizing i j fs with
  | nil => simp [failedFrom, Offends]
  | cons t ts ih =>
    cases fs with
    | nil => simp [failedFrom, Offends]
    | cons f fs =>
      cases j with
      | zero =>
        have hlater : i ∉ failedFrom (i + 1) ts fs := fun h => by
          have := le_of_mem_failedFrom h
          omega
        by_cases hv : t.valid f.type = true
        · have hmem : f.type ∈ t.types := by simpa [OutputArg.valid] using hv
          simp [failedFrom, hv, hlater, Offends, hmem]
        · have hmem : f.type ∉ t.types := by simpa [OutputArg.valid] using hv
          simp [failedFrom, hv, Offends, hmem]
      | succ j =>
        have hshift : i + (j + 1) = i + 1 + j := by omega
        have hne : i + 1 + j ≠ i := by omega
        have hnext : Offends (t :: ts) (f :: fs) (j + 1) ↔ Offends ts fs j := Iff.rfl
        rw [failedFrom, hshift, hnext, ← ih (i := i + 1)]
        split
        · rfl
        · simp [hne]

theorem mem_failedFrom_zero : j ∈ failedFrom 0 outputs fields ↔ Offends outputs fields j := by
  have h : 0 + j ∈ failedFrom 0 outputs fields ↔ Offends outputs fields j := mem_failedFrom
  rwa [Nat.zero_add] at h

theorem appendNames_eq {is : List ℕ} (his : ∀ j ∈ is, j < fields.length) (before name : String) :
    appendNames fields is (before ++ name) = some (before ++ ", ".intercalate (name :: namesAt fields is)) := by
  induction is generalizing before name with
  | nil => simp [appendNames, namesAt]
  | cons j js ih =>
    obtain ⟨f, hj⟩ : ∃ f, fields[j]? = some f := ⟨_, List.getElem?_eq_getElem (his j (by simp))⟩
    have hrest := ih (fun k hk => his k (by simp [hk])) (before ++ name ++ ", ") f.name
    have hnames : namesAt fields (j :: js) = f.name :: namesAt fields js := by simp [namesAt, hj]
    rw [appendNames, hj, hnames, String.intercalate_cons_cons]
    simpa [String.append_assoc] using hrest

/-- The names of the failed columns, as the columns and the arguments side by side give them. -/
theorem namesAt_failedFrom (before fs : List Field) (ts : List OutputArg) :
    namesAt (before ++ fs) (failedFrom before.length ts fs) =
    ((ts.zip fs).filter fun p => !p.1.valid p.2.type).map fun p => p.2.name := by
  induction ts generalizing before fs with
  | nil => simp [failedFrom, namesAt]
  | cons t ts ih =>
    cases fs with
    | nil => simp [failedFrom, namesAt]
    | cons f fs =>
      have hrest := @ih (before ++ [f]) fs
      simp only [List.append_assoc, List.singleton_append, List.length_append, List.length_singleton] at hrest
      rw [failedFrom]
      split
      · rename_i hv
        simp [hv, hrest]
      · rename_i hv
        have hcons : namesAt (before ++ f :: fs) (before.length :: failedFrom (before.length + 1) ts fs) =
            f.name :: namesAt (before ++ f :: fs) (failedFrom (before.length + 1) ts fs) := by
          simp [namesAt]
        rw [hcons, hrest]
        simp [hv]

theorem Offends.lt (h : Offends outputs fields j) : j < fields.length := by
  obtain ⟨-, f, -, hf, -⟩ := h
  exact (List.getElem?_eq_some_iff.1 hf).1

/-- **On a result the check with its indices is the check of the model.** -/
theorem checkFields_some : checkFields outputs (some fields) = some (checkFieldsOutputArgs outputs fields) := by
  by_cases hlen : fields.length = outputs.length
  · have hfailed : failedIndex fields outputs 0 [] = some (failedFrom 0 outputs fields) :=
      @failedIndex_eq [] fields outputs hlen.symm []
    have hnames : ((outputs.zip fields).filter fun p => !p.1.valid p.2.type).map (fun p => p.2.name) =
        namesAt fields (failedFrom 0 outputs fields) := (namesAt_failedFrom [] fields outputs).symm
    have hrange : ∀ i ∈ failedFrom 0 outputs fields, i < fields.length := fun i hi =>
      (mem_failedFrom_zero.1 hi).lt
    simp only [checkFields, checkFieldsOutputArgs, mysqlNumFields, mysqlFetchFields, Option.map_some,
      Option.bind_eq_bind, Option.bind_some, hlen, ne_eq, not_true_eq_false, if_false, hfailed, hnames]
    cases hf : failedFrom 0 outputs fields with
    | nil => simp [namesAt]
    | cons i is =>
      rw [hf] at hrange
      obtain ⟨f, hi⟩ : ∃ f, fields[i]? = some f := ⟨_, List.getElem?_eq_getElem (hrange i (by simp))⟩
      have hlater : ∀ j ∈ is, j < fields.length := fun j hj => hrange j (List.mem_cons_of_mem i hj)
      have happend := appendNames_eq hlater "Bind output type warning for fields: (" f.name
      have hcons : namesAt fields (i :: is) = f.name :: namesAt fields is := by simp [namesAt, hi]
      simp [hi, happend, hcons]
  · simp [checkFields, checkFieldsOutputArgs, mysqlNumFields, hlen]

theorem columnsFit_iff :
    ColumnsFit outputs fields ↔ outputs.length = fields.length ∧ ∀ i, ¬ Offends outputs fields i := by
  unfold ColumnsFit
  rw [List.forall₂_iff_get]
  constructor
  · rintro ⟨hlen, h⟩
    refine ⟨hlen, ?_⟩
    rintro i ⟨t, f, ht, hf, hno⟩
    obtain ⟨hi, rfl⟩ := List.getElem?_eq_some_iff.1 ht
    obtain ⟨hi', rfl⟩ := List.getElem?_eq_some_iff.1 hf
    exact hno (h i hi hi')
  · rintro ⟨hlen, h⟩
    refine ⟨hlen, fun i hi hi' => ?_⟩
    by_contra hno
    exact h i ⟨_, _, List.getElem?_eq_getElem hi, List.getElem?_eq_getElem hi', hno⟩

/-- **The check is passed exactly by the columns that fit.** -/
theorem check_empty_iff : checkFieldsOutputArgs outputs fields = "" ↔ ColumnsFit outputs fields := by
  rw [columnsFit_iff]
  constructor
  · intro h
    obtain ⟨hlen, hvalid⟩ := checked_columns h
    refine ⟨hlen.symm, ?_⟩
    rintro i ⟨t, f, ht, hf, hno⟩
    exact hno (by simpa [OutputArg.valid] using hvalid i t f ht hf)
  · rintro ⟨hlen, h⟩
    have hnone : failedFrom 0 outputs fields = [] :=
      List.eq_nil_iff_forall_not_mem.2 fun i hi => h i (mem_failedFrom_zero.1 hi)
    have hnames := namesAt_failedFrom [] fields outputs
    simp only [List.length_nil, hnone, List.nil_append, namesAt, List.filterMap_nil] at hnames
    simp [checkFieldsOutputArgs, hlen, ← hnames]

/-- **Where only types differ, the message names the offending columns.** -/
theorem check_names (hlen : outputs.length = fields.length) (hno : ¬ ColumnsFit outputs fields) :
    NamesOffending outputs fields (checkFieldsOutputArgs outputs fields) := by
  refine ⟨failedFrom 0 outputs fields, pairwise_failedFrom, fun i => mem_failedFrom_zero, ?_⟩
  have hnames := namesAt_failedFrom [] fields outputs
  simp only [List.length_nil, List.nil_append] at hnames
  have hmessage : checkFieldsOutputArgs outputs fields ≠ "" := fun h => hno (check_empty_iff.1 h)
  unfold checkFieldsOutputArgs at hmessage ⊢
  simp only [hlen, ne_eq, not_true_eq_false, if_false, ← hnames] at hmessage ⊢
  split
  · rename_i hempty
    rw [if_pos hempty] at hmessage
    exact absurd rfl hmessage
  · rfl

end Fold

/-! ## The guard -/

/-- What the output check is for, on a statement with the metadata `res`. -/
structure OutputsGuarded (outputs : List OutputArg) (res : Option (List Field)) : Prop where
  /-- there is no call on null metadata, and no field out of range -/
  checks : (checkFields outputs res).isSome = true
  /-- the arguments are bound next, if the columns fit -/
  passes : ∀ (stmt : MysqlStatement) (r : MysqlResults) (args : List InputArg),
    (MysqlExecutor.queryChecked outputs stmt r args res).next = (do
      MysqlExecutor.bindInputArgs args
      stmt.bindParam args).next ↔ ColumnsFit outputs (res.getD [])
  /-- it ends with an error otherwise -/
  refuses : ¬ ColumnsFit outputs (res.getD []) → ∃ message,
    (outputs.length = (res.getD []).length → NamesOffending outputs (res.getD []) message) ∧
      ∀ (stmt : MysqlStatement) (r : MysqlResults) (args : List InputArg),
        MysqlExecutor.queryChecked outputs stmt r args res = (do
          MysqlExecutor.endStatement stmt
          return (false, r.setError message TRPC_MYSQL_STMT_PARAMS_ERROR))
  /-- the binding has metadata, and every index of it is in range -/
  binds : ColumnsFit outputs (res.getD []) →
    (∀ a ∈ bindAccesses outputs (res.getD []).length, a.InRange (res.getD []).length (res.getD []).length) ∧
      ∀ (stmt : MysqlStatement) (r : MysqlResults), MysqlExecutor.queryBinding outputs stmt r res =
        MysqlExecutor.queryBound
          ((QueryHandle.new outputs r.option.dynamicBufferInitSize).bindOutputs (res.getD [])) stmt r

theorem bindAccesses_inRange {outputs : List OutputArg} {n : ℕ} (hlen : outputs.length = n) {a : Access}
    (ha : a ∈ bindAccesses outputs n) : a.InRange n n := by
  subst hlen
  simp only [bindAccesses, List.mem_append, List.mem_map, List.mem_filter, List.mem_range, List.mem_flatMap,
    List.mem_cons, List.not_mem_nil, or_false] at ha
  obtain ((⟨i, ⟨hi, -⟩, rfl⟩ | ⟨i, hi, rfl | rfl⟩) | ⟨i, hi, rfl | rfl | rfl⟩) | ⟨i, hi, rfl | rfl⟩ := ha
  all_goals exact hi

/-- **For every list of `OutputArgs` and every metadata, the check guards the binding if and only if the
prepared statement has a result set.** -/
theorem output_check_guards_iff (outputs : List OutputArg) (res : Option (List Field)) :
    OutputsGuarded outputs res ↔ res ≠ none := by
  constructor
  · rintro h rfl
    exact absurd h.checks (by simp [checkFields, mysqlNumFields])
  · intro hres
    obtain ⟨fields, rfl⟩ := Option.ne_none_iff_exists'.1 hres
    constructor
    · rw [checkFields_some]
      rfl
    · intro stmt r args
      rw [Option.getD_some, ← check_empty_iff]
      by_cases hcheck : checkFieldsOutputArgs outputs fields = ""
      · refine iff_of_true ?_ hcheck
        cases hargs : (bindInputImpl args).isSome <;>
          simp [MysqlExecutor.queryChecked, hcheck, MysqlExecutor.bindInputArgs, hargs, crash, xop, Prog.op,
            MysqlStatement.bindParam, Prog.next]
      · -- the statement is closed next
        have hnext : (MysqlExecutor.queryChecked outputs stmt r args (some fields)).next ≠ (do
            MysqlExecutor.bindInputArgs args
            stmt.bindParam args).next := by
          cases hargs : (bindInputImpl args).isSome <;> cases hq : stmt.mysqlStmt <;>
            simp [MysqlExecutor.queryChecked, hcheck, MysqlExecutor.endStatement, MysqlStatement.closeStatement,
              MysqlStatement.destroy, hq, MysqlExecutor.bindInputArgs, hargs, crash, xop, Prog.op,
              MysqlStatement.bindParam, Prog.next,
              Prog.pure_eq]
        exact iff_of_false hnext hcheck
    · intro hno
      have hcheck : checkFieldsOutputArgs outputs fields ≠ "" := fun h => hno (check_empty_iff.1 h)
      refine ⟨checkFieldsOutputArgs outputs fields, fun hlen => check_names hlen hno, fun stmt r args => ?_⟩
      simp [MysqlExecutor.queryChecked, hcheck]
    · intro hfits
      exact ⟨fun a ha => bindAccesses_inRange (columnsFit_iff.1 hfits).1 ha, fun stmt r => rfl⟩

/-- A `delete`, into results of one integer: its metadata is null. -/
theorem output_check_null : ¬ ∀ (outputs : List OutputArg) (res : Option (List Field)), OutputsGuarded outputs res :=
  fun h => absurd (h [.int32] none).checks (by decide)

end TrpcMysql
