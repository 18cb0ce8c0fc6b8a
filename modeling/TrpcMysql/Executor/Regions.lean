import TrpcMysql.Executor.Dynamic
import TrpcMysql.Executor.Fetch

/-!
# The memory handed to `mysql_stmt_fetch_column`

`FetchTruncatedResults` enlarges a buffer and points the bind past the bytes that are already there, with the
size of the whole buffer for its length. `fetchResults_shows` says which calls `FetchResults` makes, each with the
column as it is there.

* `regions_live_iff`: a bind that is handed to the library stays within its buffer, and between the rows
  describes the whole of it, exactly while no value is longer than the first size of its buffer.
-/

namespace TrpcMysql

open Conc

namespace OutputColumn

/-- The bind's region lies in the buffer. -/
def InRegion (c : OutputColumn) : Prop :=
  c.bind.buffer.block = c.block ∧ c.bind.buffer.offset + c.bind.bufferLength ≤ c.data.length

/-- The bind describes the buffer from its start to its end. -/
def BindsWhole (c : OutputColumn) : Prop := c.bind.buffer = ⟨c.block, 0⟩ ∧ c.bind.bufferLength = c.data.length

instance : DecidablePred InRegion := fun _ => inferInstanceAs (Decidable (_ ∧ _))

end OutputColumn

namespace QueryHandle

/-- Each string and blob has its bind on the whole buffer. -/
def BindsWhole (h : QueryHandle) : Prop := ∀ c ∈ h, c.output.dynamic = true → c.BindsWhole

/-- Every region that is handed to the library lies in its buffer, and before and after each row the binds
describe their buffers. -/
def RegionsLive : QueryHandle → List FetchedRow → Prop
  | h, [] => h.BindsWhole
  | h, x :: rows =>
    h.BindsWhole ∧ (∀ call ∈ (h.fetchRowCalls x).calls, call.column.InRegion) ∧
      RegionsLive (h.fetchRowCalls x).handle rows

end QueryHandle

/-! ## The calls of the program -/

/-- What is seen of a fetch loop. -/
inductive FetchCall where
  | fetched (row : ServerRow)
  | column (index offset : ℕ) (ok : Bool)
  deriving DecidableEq

def fetchCalls : (o : ClientOp) → o.Reply → List FetchCall
  | .mysqlStmtFetch _, .row row => [.fetched row]
  | .mysqlStmtFetchColumn _ index offset, ok => [.column index offset ok]
  | _, _ => []

/-- An execution shows what its operations show. -/
theorem fetched_of_run {α : Type} {p : XProg α} {a : α} {s' : ExecSt} {rest : List ClientAnswer}
    (as : List ClientAnswer) (s : ExecSt) (h : p.run clientExec s as = some (a, s', rest)) :
    p.Path fetchCalls (p.seen clientExec fetchCalls s as) a := Prog.run_path h

def ColumnCall.seen (call : ColumnCall) : FetchCall := .column call.index call.offset call.ok

namespace QueryHandle

/-- What is seen of the rows. -/
def fetchLoopCalls : QueryHandle → List FetchedRow → List FetchCall
  | _, [] => []
  | h, x :: rows =>
    .fetched x.row :: ((h.fetchRowCalls x).calls.map ColumnCall.seen ++ fetchLoopCalls (h.fetchRowCalls x).handle rows)

end QueryHandle

namespace MysqlExecutor

variable (stmt : MysqlStatement)

theorem fetchLoop_shows : ∀ (n : ℕ) (handle : QueryHandle) (r : MysqlResults),
    (fetchLoop stmt n handle r).Shows fetchCalls fun tr _ => ∃ rows, tr = handle.fetchLoopCalls rows := by
  intro n
  induction n with
  | zero =>
    intro handle r
    refine Prog.shows_act.2 fun f => ?_
    cases f with
    | noData => exact Prog.shows_ret.2 ⟨[], rfl⟩
    | error => exact Prog.shows_ret.2 ⟨[], rfl⟩
    | row row => exact Prog.shows_act.2 fun e => e.elim
  | succ n ih =>
    intro handle r
    refine Prog.shows_act.2 fun f => ?_
    cases f with
    | noData => exact Prog.shows_ret.2 ⟨[], rfl⟩
    | error => exact Prog.shows_ret.2 ⟨[], rfl⟩
    | row row =>
      change Prog.Shows _ (fetchRow stmt handle row >>= _) _
      refine Prog.shows_bind.2 ((fetchRow_shows ColumnCall.seen stmt (fun _ => rfl) handle row).mono ?_)
      rintro tr _ ⟨ok, rfl, rfl⟩
      refine (ih _ _).mono ?_
      rintro tr _ ⟨rows, rfl⟩
      exact ⟨⟨row, ok⟩ :: rows, rfl⟩

/-- **The calls of `FetchResults` are those of its rows, one row after the other.** -/
theorem fetchResults_shows (handle : QueryHandle) (r : MysqlResults) :
    (fetchResults handle stmt r).Shows fetchCalls fun tr _ => ∃ rows, tr = handle.fetchLoopCalls rows := by
  refine Prog.shows_act.2 fun n => ?_
  cases n with
  | none => exact Prog.shows_ret.2 ⟨[], rfl⟩
  | some n => exact (fetchLoop_shows stmt n handle r).mono fun tr x h => h

end MysqlExecutor

/-! ## Columns whose values fit -/

namespace OutputColumn

/-- A string or blob of which no value was longer than its buffer. -/
structure Small (n : ℕ) (c : OutputColumn) : Prop extends Fresh c where
  boundLength : c.bound.bufferLength = n
  bindLength : c.bind.bufferLength = n

variable {c : OutputColumn} {n : ℕ} {v : Option Bytes}

theorem Small.data_length (h : c.Small n) : c.data.length = n := h.size.trans h.boundLength

theorem Small.whole (h : c.Small n) : c.BindsWhole := ⟨h.bind, by rw [h.bindLength, h.data_length]⟩

theorem Small.not_short (h : c.Small n) : c.short = false := by
  have hlen := h.length
  simpa [short] using hlen

/-- A fetch stores no more than the buffer holds. -/
theorem Small.fetch_length (h : c.Small n) (v : Option Bytes) : (c.fetch v).data.length = n := by
  cases v with
  | none => exact h.data_length
  | some v =>
    have hsize := h.data_length
    rw [(Fresh.fetch h.toFresh).1, h.boundLength, List.length_append, List.length_drop, List.length_take]
    omega

theorem Small.fetch (h : c.Small n) (hv : ∀ b ∈ v, b.length ≤ n) : (c.fetch v).Small n := by
  cases v with
  | none =>
    have hfresh := h.toFresh.step_none
    rw [OutputColumn.step_none] at hfresh
    exact ⟨hfresh, h.boundLength, h.bindLength⟩
  | some v =>
    have hfits : v.length ≤ c.bound.bufferLength := by
      rw [h.boundLength]
      exact hv v rfl
    have hnot : decide (c.bound.bufferLength < v.length) = false := by simpa using hfits
    have hstep : c.step (some v) = c.fetch (some v) := by
      rw [OutputColumn.step, h.truncated_eq, hnot]
      rfl
    have hfresh := (h.toFresh.step_short hfits).1
    rw [hstep] at hfresh
    exact ⟨hfresh, h.boundLength, h.bindLength⟩

/-- A value that is longer is to be fetched again. -/
theorem Small.long (h : c.Small n) {b : Bytes} (hb : n < b.length) :
    c.truncated (some b) = true ∧ (c.fetch (some b)).short = true := by
  have hlen := h.fetch_length (some b)
  constructor
  · rw [h.truncated_eq, h.boundLength]
    exact decide_eq_true hb
  · rw [short, hlen]
    exact decide_eq_true hb

/-- The bind of an enlarged buffer reaches beyond its end, by what was in the buffer before. -/
theorem enlarge_outside (hshort : c.short = true) (hpos : 0 < c.data.length) : ¬ c.enlarge.InRegion := by
  have hlt : c.data.length < c.outputLength := by simpa [short] using hshort
  have hsize : c.enlarge.data.length = c.outputLength := by
    have h : c.enlarge.data = (c.resize c.outputLength).data := rfl
    rw [h, resize_data, List.length_append, List.length_take, List.length_replicate]
    omega
  rintro ⟨-, hregion⟩
  have hbind : c.data.length + c.outputLength ≤ c.enlarge.data.length := hregion
  omega

theorem bindOutput_output (f : Field) : (c.bindOutput f).output = c.output := by
  unfold bindOutput stepOutputBind
  dsimp only
  split
  · split
    · exact resize_rest.1
    · rfl
  · exact resize_rest.1
  · split
    · exact resize_rest.1
    · rfl

end OutputColumn

namespace QueryHandle

/-- All strings and blobs of the handle. -/
def Small (n : ℕ) (h : QueryHandle) : Prop := ∀ c ∈ h, c.output.dynamic = true → c.Small n

/-- The strings and blobs of the row fit into `n` bytes. -/
def Fits (outputs : List OutputArg) (n : ℕ) (row : ServerRow) : Prop :=
  ∀ j, DynamicAt outputs j → ∀ v, row.value j = some v → v.length ≤ n

variable {h : QueryHandle} {n : ℕ} {row : ServerRow} {ok : ℕ → Bool}

theorem Small.whole (hs : h.Small n) : h.BindsWhole := fun c hc hd => (hs c hc hd).whole

theorem mem_fetch {c : OutputColumn} : c ∈ h.fetch row ↔
    ∃ (j : ℕ) (d : OutputColumn), h[j]? = some d ∧ d.fetch (row.value j) = c := by
  rw [fetch, List.mem_mapIdx]
  constructor
  · rintro ⟨j, hj, rfl⟩
    exact ⟨j, _, List.getElem?_eq_getElem hj, rfl⟩
  · rintro ⟨j, d, hd, rfl⟩
    obtain ⟨hj, rfl⟩ := List.getElem?_eq_some_iff.1 hd
    exact ⟨j, hj, rfl⟩

theorem map_output_fetch : (h.fetch row).map OutputColumn.output = h.map OutputColumn.output := by
  refine List.ext_getElem? fun j => ?_
  rw [List.getElem?_map, List.getElem?_map, fetch, List.getElem?_mapIdx]
  cases h[j]? with
  | none => rfl
  | some c => exact congrArg some (OutputColumn.fetch_output _)

theorem dynamicAt_of_getElem {j : ℕ} {c : OutputColumn} (hc : h[j]? = some c) (hd : c.output.dynamic = true) :
    DynamicAt (h.map OutputColumn.output) j := ⟨c.output, by rw [List.getElem?_map, hc]; rfl, hd⟩

theorem Small.fetch (hs : h.Small n) (hrow : Fits (h.map OutputColumn.output) n row) : (h.fetch row).Small n := by
  intro c hc hd
  obtain ⟨j, d, hj, rfl⟩ := mem_fetch.1 hc
  rw [OutputColumn.fetch_output] at hd
  have hsmall := hs d (List.mem_of_getElem? hj) hd
  exact hsmall.fetch fun b hb => hrow j (dynamicAt_of_getElem hj hd) b hb

/-- Where no string or blob is short, nothing is fetched again. -/
theorem refetch_none (hn : ∀ c ∈ h, c.output.dynamic = true → c.short = false) : ∀ (ok : ℕ → Bool) (i : ℕ),
    h.refetch row ok i = ⟨[], true, h⟩ := by
  induction h with
  | nil => exact fun _ _ => rfl
  | cons c h ih =>
    intro ok i
    have hc : (c.output.dynamic && c.short) = false := by
      cases hd : c.output.dynamic with
      | false => rfl
      | true => simpa using hn c List.mem_cons_self hd
    simp only [refetch, hc, Bool.false_eq_true, if_false, ih fun c hc => hn c (List.mem_cons_of_mem _ hc)]

/-- Where one is, the library is called, and for a short column only. -/
theorem refetch_some (hn : ∃ c ∈ h, c.output.dynamic = true ∧ c.short = true) : ∀ (ok : ℕ → Bool) (i : ℕ),
    ∃ call ∈ (h.refetch row ok i).calls, ∃ c ∈ h, c.output.dynamic = true ∧ c.short = true ∧
      call.column = c.enlarge := by
  induction h with
  | nil =>
    obtain ⟨c, hc, -⟩ := hn
    cases hc
  | cons c h ih =>
    intro ok i
    by_cases hc : (c.output.dynamic && c.short) = true
    · have hc' := Bool.and_eq_true_iff.1 hc
      refine ⟨⟨i, c.data.length, c.enlarge, ok 0⟩, ?_, c, List.mem_cons_self, hc'.1, hc'.2, rfl⟩
      simp only [refetch, hc, if_true]
      split <;> simp
    · obtain ⟨d, hd, hdyn, hshort⟩ := hn
      have hrest : ∃ c ∈ h, c.output.dynamic = true ∧ c.short = true := by
        rcases List.mem_cons.1 hd with rfl | hd
        · exact absurd (by simp [hdyn, hshort]) hc
        · exact ⟨d, hd, hdyn, hshort⟩
      obtain ⟨call, hcall, e, he, hcolumn⟩ := ih hrest (fun j => ok (j + 1)) (i + 1)
      refine ⟨call, ?_, e, List.mem_cons_of_mem _ he, hcolumn⟩
      simp only [refetch, hc, Bool.false_eq_true, if_false]
      exact hcall

/-- A row that fits makes no call, and leaves the buffers where they are. -/
theorem fetchRowCalls_fits (hs : h.Small n) (hrow : Fits (h.map OutputColumn.output) n row) :
    h.fetchRowCalls ⟨row, ok⟩ = ⟨[], true, h.fetch row⟩ := by
  have hsmall := hs.fetch hrow
  unfold fetchRowCalls
  split
  · exact refetch_none (fun c hc hd => (hsmall c hc hd).not_short) ok 0
  · rfl

/-- A row that does not fit hands out a region that leaves its buffer. -/
theorem fetchRowCalls_long (ok : ℕ → Bool) (hs : h.Small n) (hpos : 0 < n)
    (hrow : ¬ Fits (h.map OutputColumn.output) n row) :
    ∃ call ∈ (h.fetchRowCalls ⟨row, ok⟩).calls, ¬ call.column.InRegion := by
  simp only [Fits, not_forall, not_le] at hrow
  obtain ⟨j, ⟨t, ht, hd⟩, v, hv, hlong⟩ := hrow
  rw [List.getElem?_map, Option.map_eq_some_iff] at ht
  obtain ⟨c, hc, rfl⟩ := ht
  obtain ⟨htrunc, hshort⟩ := (hs c (List.mem_of_getElem? hc) hd).long hlong
  have hrow : h.truncated row = true := truncated_of_column hc (by rw [hv]; exact htrunc)
  have hmem : c.fetch (some v) ∈ h.fetch row := mem_fetch.2 ⟨j, c, hc, by rw [hv]⟩
  have hdyn : (c.fetch (some v)).output.dynamic = true := by
    rw [OutputColumn.fetch_output]
    exact hd
  have hcalls : ∃ call ∈ ((h.fetch row).refetch row ok 0).calls, ∃ c ∈ h.fetch row, c.output.dynamic = true ∧
      c.short = true ∧ call.column = c.enlarge := refetch_some ⟨_, hmem, hdyn, hshort⟩ ok 0
  obtain ⟨call, hcall, d, hd', hdyn', hshort', hcolumn⟩ := hcalls
  refine ⟨call, ?_, ?_⟩
  · unfold fetchRowCalls
    rw [if_pos hrow]
    exact hcall
  · -- what is fetched into a small column leaves its size
    obtain ⟨k, e, he, rfl⟩ := mem_fetch.1 hd'
    rw [OutputColumn.fetch_output] at hdyn'
    have hlen := (hs e (List.mem_of_getElem? he) hdyn').fetch_length (row.value k)
    rw [hcolumn]
    exact OutputColumn.enlarge_outside hshort' (by rw [hlen]; exact hpos)

/-- **The regions stay in their buffers exactly while the rows fit.** -/
theorem Small.regionsLive_iff (hpos : 0 < n) (rows : List FetchedRow) : ∀ {h : QueryHandle}, h.Small n →
    (h.RegionsLive rows ↔ ∀ x ∈ rows, Fits (h.map OutputColumn.output) n x.row) := by
  induction rows with
  | nil => exact fun hs => iff_of_true hs.whole (by simp)
  | cons x rows ih =>
    intro h hs
    obtain ⟨row, ok⟩ := x
    by_cases hrow : Fits (h.map OutputColumn.output) n row
    · have hrest := ih (hs.fetch hrow)
      rw [map_output_fetch] at hrest
      simp only [RegionsLive, fetchRowCalls_fits hs hrow, List.not_mem_nil, false_implies, implies_true, true_and,
        List.forall_mem_cons, hrow, hrest, hs.whole]
    · obtain ⟨call, hcall, hout⟩ := fetchRowCalls_long ok hs hpos hrow
      constructor
      · exact fun hlive => absurd (hlive.2.1 call hcall) hout
      · exact fun hfits => absurd (hfits ⟨row, ok⟩ List.mem_cons_self) hrow

variable {outputs : List OutputArg} {fields : List Field} {size : ℕ}

theorem map_output_bound (hlen : fields.length = outputs.length) :
    (bound outputs size fields).map OutputColumn.output = outputs := by
  refine List.ext_getElem? fun j => ?_
  rw [List.getElem?_map]
  cases ht : outputs[j]? with
  | none =>
    have hj : outputs.length ≤ j := List.getElem?_eq_none_iff.1 ht
    have hnone : (bound outputs size fields)[j]? = none :=
      List.getElem?_eq_none_iff.2 (by rw [length_bound hlen]; exact hj)
    rw [hnone]
    rfl
  | some t =>
    obtain ⟨hj, -⟩ := List.getElem?_eq_some_iff.1 ht
    have hj' : j < fields.length := by omega
    have hf : fields[j]? = some fields[j] := List.getElem?_eq_getElem hj'
    have hnew : (OutputColumn.new t size).output = t := by
      unfold OutputColumn.new
      split
      · exact OutputColumn.resize_rest.1
      · rfl
    rw [bound_getElem? ht hf, Option.map_some]
    exact congrArg some (OutputColumn.bindOutput_output _ |>.trans hnew)

theorem small_bound (hcheck : checkFieldsOutputArgs outputs fields = "") :
    (bound outputs size fields).Small (OutputColumn.bufferSize size) := by
  have hlen := (checked_columns hcheck).1
  have hout : (bound outputs size fields).map OutputColumn.output = outputs := map_output_bound hlen
  intro c hc hd
  obtain ⟨j, hj⟩ := List.mem_iff_getElem?.1 hc
  have hat := dynamicAt_of_getElem hj hd
  rw [hout] at hat
  obtain ⟨c', hc', hfresh, hsize, -⟩ := dynamic_column size hcheck hat
  obtain rfl : c = c' := Option.some.inj (hj.symm.trans hc')
  refine ⟨hfresh, hsize, ?_⟩
  -- the statement's copy is the bind
  have hbind : c.bind = c.bound := by
    obtain ⟨d, -, rfl⟩ := List.mem_map.1 (show c ∈ QueryHandle.bindResult _ from hc)
    rfl
  rw [hbind, hsize]

/-- The rows are seen. -/
theorem fetched_mem_fetchLoopCalls {h : QueryHandle} {rows : List FetchedRow} :
    .fetched row ∈ h.fetchLoopCalls rows ↔ ∃ x ∈ rows, x.row = row := by
  induction rows generalizing h with
  | nil => simp [fetchLoopCalls]
  | cons x rows ih =>
    have hcalls : .fetched row ∉ (h.fetchRowCalls x).calls.map ColumnCall.seen := by
      simp [ColumnCall.seen]
    simp only [fetchLoopCalls, List.mem_cons, List.mem_append, hcalls, ih, false_or, FetchCall.fetched.injEq,
      exists_eq_or_imp]
    rw [eq_comm]

end QueryHandle

/-- **Every region that `FetchTruncatedResults` hands to the library lies in its buffer, and between the rows each
bind describes its buffer, exactly if no string or blob is longer than the first size of its buffer.** -/
theorem regions_live_iff {outputs : List OutputArg} {fields : List Field} {size : ℕ} {stmt : MysqlStatement}
    {r : MysqlResults} {tr : List FetchCall} {x : Bool × MysqlResults}
    (hcheck : checkFieldsOutputArgs outputs fields = "")
    (hpath : (MysqlExecutor.fetchResults (.bound outputs size fields) stmt r).Path fetchCalls tr x) :
    ∃ rows, tr = (QueryHandle.bound outputs size fields).fetchLoopCalls rows ∧
      ((QueryHandle.bound outputs size fields).RegionsLive rows ↔
        ∀ row, .fetched row ∈ tr → QueryHandle.Fits outputs (OutputColumn.bufferSize size) row) := by
  obtain ⟨rows, rfl⟩ := MysqlExecutor.fetchResults_shows stmt _ r _ _ hpath
  refine ⟨rows, rfl, ?_⟩
  have hsmall : (QueryHandle.bound outputs size fields).Small (OutputColumn.bufferSize size) :=
    QueryHandle.small_bound hcheck
  have hlive := hsmall.regionsLive_iff (OutputColumn.bufferSize_pos size) rows
  rw [QueryHandle.map_output_bound (checked_columns hcheck).1] at hlive
  rw [hlive]
  constructor
  · intro h row hrow
    obtain ⟨y, hy, rfl⟩ := QueryHandle.fetched_mem_fetchLoopCalls.1 hrow
    exact h y hy
  · exact fun h y hy => h y.row (QueryHandle.fetched_mem_fetchLoopCalls.2 ⟨y, hy, rfl⟩)

/-- Two bytes through a buffer of four. -/
theorem fetch_two : (MysqlExecutor.fetchResults (.bound [.string] 4 [{ name := "v", type := .varString }])
    { mysqlStmt := some 0, mysql := some 0 } { mode := .bindType [.string] }).Path fetchCalls
    [.fetched [some [97, 98]]]
    (true, { mode := .bindType [.string], resultSet := [[[97, 98]]], nullFlags := [[false]] }) :=
  fetched_of_run (List.replicate 3 {}) (pendingRows [[some [97, 98]]]) rfl

/-- Six bytes through the same buffer: the last two are asked for. -/
theorem fetch_six : (MysqlExecutor.fetchResults (.bound [.string] 4 [{ name := "v", type := .varString }])
    { mysqlStmt := some 0, mysql := some 0 } { mode := .bindType [.string] }).Path fetchCalls
    [.fetched [some [97, 98, 99, 100, 101, 102]], .column 0 4 true]
    (true, { mode := .bindType [.string], resultSet := [[[97, 98, 99, 100, 101, 102]]], nullFlags := [[false]] }) :=
  fetched_of_run (List.replicate 4 {}) (pendingRows [[some [97, 98, 99, 100, 101, 102]]]) rfl

theorem regions_live_two : ∃ rows, [.fetched [some [97, 98]]] =
    (QueryHandle.bound [.string] 4 [{ name := "v", type := .varString }]).fetchLoopCalls rows ∧
      (QueryHandle.bound [.string] 4 [{ name := "v", type := .varString }]).RegionsLive rows := by
  obtain ⟨rows, htr, hiff⟩ := regions_live_iff (by decide) fetch_two
  refine ⟨rows, htr, hiff.2 ?_⟩
  rintro row hrow j ⟨t, ht, -⟩ v hv
  obtain ⟨hj, -⟩ := List.getElem?_eq_some_iff.1 ht
  obtain rfl : j = 0 := by simpa using hj
  obtain rfl : row = [some [97, 98]] := by simpa using hrow
  cases hv
  decide

/-- The bind of a second fetch is as long as the whole buffer, from its fourth byte on. -/
theorem region_outside : ¬ ∀ (outputs : List OutputArg) (fields : List Field) (size : ℕ) (stmt : MysqlStatement)
    (r : MysqlResults) (tr : List FetchCall) (x : Bool × MysqlResults) (rows : List FetchedRow),
      checkFieldsOutputArgs outputs fields = "" →
      (MysqlExecutor.fetchResults (.bound outputs size fields) stmt r).Path fetchCalls tr x →
      tr = (QueryHandle.bound outputs size fields).fetchLoopCalls rows →
      (QueryHandle.bound outputs size fields).RegionsLive rows := by
  intro h
  have hlive := h [.string] [{ name := "v", type := .varString }] 4 _ _ _ _
    [⟨[some [97, 98, 99, 100, 101, 102]], fun _ => true⟩] (by decide) fetch_six rfl
  have hregion := hlive.2.1 _ List.mem_cons_self
  revert hregion
  decide

end TrpcMysql
