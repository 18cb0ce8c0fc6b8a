import TrpcMysql.Executor.Columns

/-!
# Null flags

A query in bind mode copies the flag buffer that the library writes for every row; a query for native
strings writes the flags of each row itself. Either way `IsValueNull` tells what the server sent
(`null_flags_match`): `Clear` has emptied the flags, every row adds one line of them, and all lines
have the width of the result, so that the width of the first is the width of all.
-/

namespace TrpcMysql

open Conc MysqlExecutor

/-- The null flags of the results are those of the rows, which have `width` columns. -/
structure FlagsMatch (rows : List ServerRow) (width : ℕ) (r : MysqlResults) : Prop where
  lines : r.nullFlags.length = rows.length
  columns : ∀ flags ∈ r.nullFlags, flags.length = width
  inside : ∀ (i j : ℕ) (row : ServerRow), rows[i]? = some row → j < width →
    (r.isValueNull i j = true ↔ row.value j = none)
  outside : ∀ i j, rows.length ≤ i ∨ width ≤ j → r.isValueNull i j = false

/-- Flags of one width, line by line as the rows have them. -/
theorem FlagsMatch.of_eq {rows : List ServerRow} {width : ℕ} {r : MysqlResults}
    (h : r.nullFlags = rows.map fun row => (List.range width).map fun j => (row.value j).isNone) :
    FlagsMatch rows width r := by
  have hlength : r.nullFlags.length = rows.length := by rw [h, List.length_map]
  have hcolumns : ∀ flags ∈ r.nullFlags, flags.length = width := by
    intro flags hflags
    rw [h, List.mem_map] at hflags
    obtain ⟨row, -, rfl⟩ := hflags
    simp
  -- the first line tells the width of all
  have hnull : ∀ i j, r.isValueNull i j =
      if rows.length ≤ i ∨ width ≤ j then false else (r.nullFlags.getD i []).getD j false := by
    intro i j
    unfold MysqlResults.isValueNull
    cases hf : r.nullFlags with
    | nil =>
      have : rows.length = 0 := by rw [← hlength, hf]; rfl
      simp [this]
    | cons flags rest =>
      simp only [← hf, hlength, hcolumns flags (by rw [hf]; exact List.mem_cons_self)]
  refine ⟨hlength, hcolumns, fun i j row hrow hj => ?_, fun i j hout => by rw [hnull, if_pos hout]⟩
  obtain ⟨hi, -⟩ := List.getElem?_eq_some_iff.1 hrow
  have hin : ¬ (rows.length ≤ i ∨ width ≤ j) := by omega
  rw [hnull, if_neg hin, h]
  simp [List.getD, hrow, hj]

/-- The lines of native strings, whose rows all have the width of the result. -/
theorem native_flags {rows : List ServerRow} {width : ℕ} (h : ∀ row ∈ rows, row.length = width) :
    (rows.map fun row => row.map Option.isNone) =
      rows.map fun row => (List.range width).map fun j => (row.value j).isNone := by
  refine List.map_congr_left fun row hrow => List.ext_getElem? fun j => ?_
  rw [← h row hrow]
  by_cases hj : j < row.length <;> simp [ServerRow.value, hj]

/-- A query for native strings with the result `set`, on a connected executor. -/
theorem query_native (set : ResultSet) : (queryAll { mode := .nativeString }
    (.user (ascii "select id, email from users")) []).Path libCalls [.freed none, .stored ⟨0, set⟩]
    (true, { MysqlResults.native { mode := .nativeString } ⟨0, set⟩ with hasValue := true }) := by
  have hrun : (queryAll { mode := .nativeString } (.user (ascii "select id, email from users")) []).run clientExec
      connectedExecutor (List.replicate 6 { rows := some set }) = some _ := rfl
  have hpath := path_of_run _ _ hrun
  rw [MysqlResults.foldl_pushRow] at hpath
  exact hpath

end TrpcMysql
