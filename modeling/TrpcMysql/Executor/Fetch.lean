import TrpcMysql.Conc.Trace
import TrpcMysql.Executor.Effects

/-!
# `FetchTruncatedResults`, call by call

`FetchTruncatedResults` makes a `mysql_stmt_fetch_column` for each column that is too short, and stops at the first
that fails. `QueryHandle.refetch` is one call of it, with every column as it is at its `mysql_stmt_fetch_column`;
`fetchRow_shows` says that this is what the program does. While no call fails, the row leaves what
`QueryHandle.fetchRow` says (`fetchRowCalls_whole`).
-/

namespace TrpcMysql

open Conc

/-- A `mysql_stmt_fetch_column`, with the column that it is called for and whether it succeeds. -/
structure ColumnCall where
  index : ℕ
  offset : ℕ
  column : OutputColumn
  ok : Bool

/-- One call of `FetchTruncatedResults`: its `mysql_stmt_fetch_column` calls, what it returns and what it leaves. -/
structure Refetch where
  calls : List ColumnCall
  result : Bool
  handle : QueryHandle

/-- A row, and for which columns `mysql_stmt_fetch_column` succeeds. -/
structure FetchedRow where
  row : ServerRow
  ok : ℕ → Bool

namespace QueryHandle

/-- `FetchTruncatedResults`, over the columns from `i` on. -/
def refetch (row : ServerRow) : (ℕ → Bool) → ℕ → QueryHandle → Refetch
  | _, _, [] => ⟨[], true, []⟩
  | ok, i, c :: h =>
    if c.output.dynamic && c.short then
      let call : ColumnCall := ⟨i, c.data.length, c.enlarge, ok 0⟩
      if ok 0 then
        let rest := refetch row (fun j => ok (j + 1)) (i + 1) h
        ⟨call :: rest.calls, rest.result, (c.enlarge.fetchColumn c.data.length (row.value i)).restore :: rest.handle⟩
      else ⟨[call], false, c.enlarge :: h⟩
    else
      let rest := refetch row (fun j => ok (j + 1)) (i + 1) h
      ⟨rest.calls, rest.result, c :: rest.handle⟩

/-- A row goes through `mysql_stmt_fetch`, and through `FetchTruncatedResults` if it is truncated. -/
def fetchRowCalls (h : QueryHandle) (x : FetchedRow) : Refetch :=
  if h.truncated x.row then (h.fetch x.row).refetch x.row x.ok 0 else ⟨[], true, h.fetch x.row⟩

/-- What `FetchTruncatedResults` leaves while no call fails. -/
theorem refetch_whole {row : ServerRow} : ∀ {h : QueryHandle} {ok : ℕ → Bool} {i : ℕ},
    (∀ call ∈ (h.refetch row ok i).calls, call.ok = true) → (h.refetch row ok i).handle =
      h.mapIdx fun j c => if c.output.dynamic then c.fetchTruncated (row.value (i + j)) else c := by
  intro h
  induction h with
  | nil => exact fun _ => rfl
  | cons c h ih =>
    intro ok i hok
    have hadd : ∀ j, i + 1 + j = i + (j + 1) := by intro j; omega
    by_cases hc : (c.output.dynamic && c.short) = true
    · obtain ⟨hd, hs⟩ := Bool.and_eq_true_iff.1 hc
      simp only [refetch, hc, if_true] at hok ⊢
      cases h0 : ok 0 with
      | false => simp [h0] at hok
      | true =>
        simp only [h0, if_true, List.mem_cons, forall_eq_or_imp] at hok ⊢
        rw [List.mapIdx_cons, ih hok.2]
        simp [OutputColumn.fetchTruncated, hd, hs, hadd]
    · simp only [refetch, hc, Bool.false_eq_true, if_false] at hok ⊢
      rw [List.mapIdx_cons, ih hok]
      have hkeep : (if c.output.dynamic = true then c.fetchTruncated (row.value i) else c) = c := by
        split
        · rename_i hd
          have hs : ¬ c.short = true := fun hs => hc (by simp [hd, hs])
          rw [OutputColumn.fetchTruncated, if_neg hs]
        · rfl
      simp [hkeep, hadd]

/-- **While no `mysql_stmt_fetch_column` fails, a row leaves what `fetchRow` says.** -/
theorem fetchRowCalls_whole {h : QueryHandle} {x : FetchedRow}
    (hok : ∀ call ∈ (h.fetchRowCalls x).calls, call.ok = true) :
    (h.fetchRowCalls x).handle = h.fetchRow x.row := by
  unfold fetchRowCalls at hok ⊢
  unfold fetchRow
  split
  · rename_i ht
    rw [if_pos ht] at hok
    simpa [fetchTruncatedResults] using refetch_whole hok
  · rfl

end QueryHandle

namespace MysqlExecutor

variable {γ : Type} {seen : (o : ClientOp) → o.Reply → List γ} (view : ColumnCall → γ) (stmt : MysqlStatement)

section

variable (hseen : ∀ call : ColumnCall,
  seen (.mysqlStmtFetchColumn stmt.mysqlStmt call.index call.offset) call.ok = [view call])
include hseen

theorem fetchTruncatedResults_shows (row : ServerRow) : ∀ (h : QueryHandle) (i : ℕ),
    (fetchTruncatedResults stmt row i h).Shows seen fun tr x => ∃ ok,
      tr = (h.refetch row ok i).calls.map view ∧ x = ((h.refetch row ok i).result, (h.refetch row ok i).handle) := by
  intro h
  induction h with
  | nil =>
    intro i
    exact Prog.shows_ret.2 ⟨fun _ => true, rfl, rfl⟩
  | cons c h ih =>
    intro i
    unfold fetchTruncatedResults
    by_cases hc : (c.output.dynamic && c.short) = true
    · -- the reply of the column's own call comes before those of the others
      rw [if_pos hc]
      refine Prog.shows_act.2 fun b => ?_
      have hcall : seen (.mysqlStmtFetchColumn stmt.mysqlStmt i c.data.length) b =
        [view ⟨i, c.data.length, c.enlarge, b⟩] :=
        hseen ⟨i, c.data.length, c.enlarge, b⟩
      change Prog.Shows _ (if (!b) = true then _ else _) _
      rw [hcall]
      cases b with
      | false =>
        refine Prog.shows_ret.2 ⟨fun _ => false, ?_, ?_⟩ <;> simp [QueryHandle.refetch, hc]
      | true =>
        refine Prog.shows_bind.2 ((ih (i + 1)).mono ?_)
        rintro tr _ ⟨ok, rfl, rfl⟩
        refine Prog.shows_ret.2 ⟨fun j => if j = 0 then true else ok (j - 1), ?_, ?_⟩ <;> simp [QueryHandle.refetch, hc]
    · rw [if_neg hc]
      refine Prog.shows_bind.2 ((ih (i + 1)).mono ?_)
      rintro tr _ ⟨ok, rfl, rfl⟩
      refine Prog.shows_ret.2 ⟨fun j => ok (j - 1), ?_, ?_⟩ <;> simp [QueryHandle.refetch, hc]

/-- **The calls of a row, and what they leave.** -/
theorem fetchRow_shows (handle : QueryHandle) (row : ServerRow) : (fetchRow stmt handle row).Shows seen fun tr h' =>
    ∃ ok, tr = (handle.fetchRowCalls ⟨row, ok⟩).calls.map view ∧ h' = (handle.fetchRowCalls ⟨row, ok⟩).handle := by
  unfold fetchRow
  by_cases htr : handle.truncated row = true
  · simp only [htr, if_true]
    refine Prog.shows_bind.2 ((fetchTruncatedResults_shows view stmt hseen row (handle.fetch row) 0).mono ?_)
    rintro tr _ ⟨ok, rfl, rfl⟩
    refine Prog.shows_ret.2 ⟨ok, ?_, ?_⟩ <;> simp [QueryHandle.fetchRowCalls, htr]
  · simp only [htr, Bool.false_eq_true, if_false]
    refine Prog.shows_ret.2 ⟨fun _ => true, ?_, ?_⟩ <;> simp [QueryHandle.fetchRowCalls, htr]

end

end MysqlExecutor

end TrpcMysql
