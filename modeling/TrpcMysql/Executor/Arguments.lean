import TrpcMysql.Executor.Calls

/-!
# The number of arguments

`mysql_stmt_bind_param` reads as many entries as the statement has markers. `MysqlStatement` knows that
number (`params_count_`), and no code compares it with the number of arguments: the array goes to the
library as it is (`argument_count_iff`).
-/

namespace TrpcMysql

open Conc MysqlExecutor

/-- What a caller may expect of the arguments of a call with the trace `tr` and the results `r`: an array
that is bound has an entry for each marker, and with another number of arguments the call ends with an
error and does not execute the statement. -/
structure ArgumentsChecked (args : List InputArg) (tr : List LibCall) (r : MysqlResults) : Prop where
  bound : ∀ n k, .markers n ∈ tr → .bindParam k ∈ tr → k = n
  refused : ∀ n, .markers n ∈ tr → n ≠ args.length → r.errorNumber ≠ 0 ∧ .execute ∉ tr

/-- With the right number of arguments there is nothing to check. -/
theorem ArgumentsChecked.of_count {args : List InputArg} {tr : List LibCall} {r : MysqlResults}
    (hbind : ∀ k, .bindParam k ∈ tr → k = args.length) (h : ∀ n, .markers n ∈ tr → n = args.length) :
    ArgumentsChecked args tr r where
  bound n k hn hk := (hbind k hk).trans (h n hn).symm
  refused n hn hne := absurd (h n hn) hne

variable {outputs : List OutputArg} {r : MysqlResults} {args : List InputArg} {tr : List LibCall}

theorem mem_exec {exec : List LibCall} (h : exec = [] ∨ exec = [.execute]) {c : LibCall} (hc : c ∈ exec) :
    c = .execute := by
  obtain rfl | rfl := h
  · cases hc
  · exact List.mem_singleton.1 hc

/-- Of a query's trace it counts whether the columns pass the check: the array is bound then. -/
theorem QueryBindTrace.checked_iff {x : Bool × MysqlResults} (h : QueryBindTrace outputs r args tr x) :
    ArgumentsChecked args tr x.2 ↔ ∀ n fields, .markers n ∈ tr → .metadata (some fields) ∈ tr →
      checkFieldsOutputArgs outputs fields = "" → n = args.length := by
  cases h with
  | unprepared =>
    constructor
    · intro _ n fields hn
      simp at hn
    · intro _
      exact .of_count (by simp) (by simp)
  | refused hcheck =>
    constructor
    · intro _ n fields _ hfields hpass
      simp only [List.mem_cons, LibCall.metadata.injEq, Option.some.injEq, reduceCtorEq, List.not_mem_nil,
        or_false, false_or] at hfields
      exact absurd (hfields ▸ hpass) hcheck
    · intro _
      exact ⟨fun n k _ hk => by simp at hk,
        fun n _ _ => ⟨by simp [MysqlResults.setError, TRPC_MYSQL_STMT_PARAMS_ERROR], by simp⟩⟩
  | unbound hcheck =>
    constructor
    · intro h n fields hn _ _
      exact (h.bound n _ hn (by simp)).symm
    · intro h
      exact .of_count (by simp) fun n hn => h n _ hn (by simp) hcheck
  | failed hcheck hexec =>
    constructor
    · intro h n fields hn _ _
      exact (h.bound n _ hn (by simp)).symm
    · intro h
      refine .of_count (fun k hk => ?_) fun n hn => h n _ hn (by simp) hcheck
      simp only [List.mem_append] at hk
      obtain (hk | hk) | hk := hk
      · simpa using hk
      · cases mem_exec hexec hk
      · obtain ⟨row, hk⟩ | ⟨ok, hk⟩ := QueryHandle.mem_rowCalls hk <;> cases hk
  | done hcheck hexec =>
    constructor
    · intro h n fields hn _ _
      exact (h.bound n _ hn (by simp)).symm
    · intro h
      refine .of_count (fun k hk => ?_) fun n hn => h n _ hn (by simp) hcheck
      simp only [List.mem_append] at hk
      obtain ((hk | hk) | hk) | hk := hk
      · simpa using hk
      · cases mem_exec hexec hk
      · obtain ⟨row, hk⟩ | ⟨ok, hk⟩ := QueryHandle.mem_rowCalls hk <;> cases hk
      · simp at hk

theorem ExecuteTrace.checked_iff {x : ℕ × MysqlResults} (h : ExecuteTrace r args tr x) :
    ArgumentsChecked args tr x.2 ↔ ∀ n, .markers n ∈ tr → n = args.length := by
  have hbind : ∀ k, .bindParam k ∈ tr → k = args.length := by
    intro k hk
    cases h with
    | unprepared => simp at hk
    | failed hexec | done hexec =>
      obtain hk | hk := List.mem_append.1 hk
      · simpa using hk
      · cases mem_exec hexec hk
  refine ⟨fun hc n hn => ?_, fun hc => .of_count hbind hc⟩
  cases h with
  | unprepared => simp at hn
  | failed hexec | done hexec => exact (hc.bound n _ hn (by simp)).symm

/-- **The arguments are as a caller may expect exactly if their number is right** whenever the statement is
prepared and, in a query, its columns pass the check. -/
theorem argument_count_iff (r : MysqlResults) (sql : Sql) (args : List InputArg) :
    (∀ outputs tr x, (queryAllBind outputs r sql args).Path libCalls tr x →
      (ArgumentsChecked args tr x.2 ↔ ∀ n fields, .markers n ∈ tr → .metadata (some fields) ∈ tr →
        checkFieldsOutputArgs outputs fields = "" → n = args.length)) ∧
      ∀ tr x, (executePrepared r sql args).Path libCalls tr x →
        (ArgumentsChecked args tr x.2 ↔ ∀ n, .markers n ∈ tr → n = args.length) := by
  constructor
  · intro outputs tr x hpath
    exact (queryAllBind_calls r sql args outputs tr x hpath).checked_iff
  · intro tr x hpath
    exact (executePrepared_calls r sql args tr x hpath).checked_iff

/-- An `Execute` with one or two arguments for two markers, on a connected executor, when every call succeeds. -/
theorem execute_two {args : List InputArg} (h : args = [.string [49]] ∨ args = [.string [49], .string [50]]) :
    (executePrepared { mode := .onlyExec } (.user (ascii "delete from users where id in (?, ?)")) args).Path libCalls
      [.freed none, .markers 2, .bindParam args.length, .execute] (0, { mode := .onlyExec }) := by
  rcases h with rfl | rfl <;> exact path_of_run (List.replicate 14 { params := 2 }) connectedExecutor rfl

theorem argument_count_two : ArgumentsChecked [.string [49], .string [50]]
    [.freed none, .markers 2, .bindParam 2, .execute] { mode := .onlyExec } :=
  ((argument_count_iff _ _ _).2 _ _ (execute_two (.inr rfl))).2 (by simp)

/-- One argument for two markers is bound, and the statement is executed. -/
theorem argument_missing : ¬ ∀ (r : MysqlResults) (sql : Sql) (args : List InputArg) (tr : List LibCall)
    (x : ℕ × MysqlResults), (executePrepared r sql args).Path libCalls tr x → ArgumentsChecked args tr x.2 := by
  intro h
  have := (h _ _ _ _ _ (execute_two (.inl rfl))).bound 2 1 (by simp) (by simp)
  omega

end TrpcMysql
