import TrpcMysql.Results.Moves
import TrpcMysql.Results.Views

/-!
# Results objects and their views

The results objects of `NativeString` stand here twice: among the executors that fill them, with their rows as bytes
(`Results.Release`), and in a memory, with their rows as views into stored results (`Results.Memory`). `Mirrors`
relates the two states of a program.

`native_run_mirrored`: whatever a program does with executors and such objects, the objects in the memory can do too,
and what they show at the end is what the objects of the program hold (`native_run_reads`).
-/

namespace TrpcMysql

open Function Conc

/-- The memory shows the objects of the program, and its next result has the same number. -/
structure Shows (u : UserSt) (m : Memory) : Prop where
  next : m.nextObj = u.nextObj
  objects : ∀ x, (m.objects x).map (fun o => o.contents m) = u.objects x
  issued : m.nextRes = u.ledger.issued

/-- And its rows are valid. -/
structure Mirrors (u : UserSt) (m : Memory) : Prop extends Shows u m where
  valid : m.Valid ∅

/-- The steps of a program whose results objects are all of `NativeString`. -/
def UserOp.native : UserOp → Bool
  | construct mode _ => mode = .nativeString
  | _ => true

section Steps

variable {u u' : UserSt} {m m' : Memory} {x y : ObjId} {o : NativeResults} {r : MysqlResults}

/-! ## What the memory shows -/

theorem Shows.get (h : Shows u m) (hx : u.objects x = some r) : ∃ o, m.objects x = some o ∧ o.contents m = r :=
  Option.map_eq_some_iff.1 ((h.objects x).trans hx)

theorem Shows.put (h : Shows u m) (hr : o.contents m = r) : Shows (u.put x r) (m.put x o) := by
  refine ⟨h.next, fun y => ?_, h.issued⟩
  by_cases hy : y = x
  · subst hy
    simp only [Memory.put, UserSt.put, update_self, Option.map_some]
    exact congrArg some hr
  · have hm : (m.put x o).objects y = m.objects y := update_of_ne hy ..
    have hu : (u.put x r).objects y = u.objects y := update_of_ne hy ..
    rw [hm, hu]
    exact h.objects y

theorem Shows.new (h : Shows u m) (hr : o.contents m = r) : Shows (u.new r) (m.new o) := by
  have hput := (h.put (x := m.nextObj) hr).objects
  refine ⟨congrArg (· + 1) h.next, fun x => ?_, h.issued⟩
  rw [UserSt.new, ← h.next]
  exact hput x

/-- No object shows anything new. -/
structure Memory.Keeps (m m' : Memory) : Prop where
  objects : m'.objects = m.objects
  nextObj : m'.nextObj = m.nextObj
  contents : ∀ x o, m.objects x = some o → o.contents m' = o.contents m

theorem Shows.kept (h : Shows u m) (hq : m.Keeps m') (hobjects : u'.objects = u.objects) (hnext : u'.nextObj = u.nextObj)
    (hissued : m'.nextRes = u'.ledger.issued) : Shows u' m' := by
  refine ⟨by rw [hq.nextObj, h.next, hnext], fun x => ?_, hissued⟩
  rw [hobjects, ← h.objects x, hq.objects]
  cases hx : m.objects x with
  | none => rfl
  | some o => exact congrArg some (hq.contents x o hx)

/-- The result of an object is freed. -/
theorem freeResult_keeps (h : m.Valid ∅) (hx : m.objects x = some o) :
    ∃ m', o.freeResult m = .ok m' ∧ m.Keeps m' ∧ m'.nextRes = m.nextRes := by
  unfold NativeResults.freeResult
  rcases h.holds x o (Set.notMem_empty x) hx with ⟨hr, -, -⟩ | ⟨p, set, hr, hp, -, -⟩
  · rw [hr]
    exact ⟨m, rfl, ⟨rfl, rfl, fun _ _ _ => rfl⟩, rfl⟩
  · rw [hr]
    simp only [Memory.mysqlFreeResult, hp]
    refine ⟨_, rfl, ⟨rfl, rfl, fun y o' _ => ?_⟩, rfl⟩
    -- its rows are still what they were
    simp only [NativeResults.contents, NativeResults.held, MysqlResults.mk.injEq, true_and, and_true]
    cases hq : o'.mysqlRes with
    | none => rfl
    | some q =>
      by_cases hqp : q = p
      · subst hqp
        simp [hp]
      · simp [hqp]

/-- A result is stored. -/
theorem store_keeps (hnew : ∀ x o p, m.objects x = some o → o.mysqlRes = some p → p ≠ m.nextRes) (set : ResultSet) :
    m.Keeps (m.mysqlStoreResult set).2 := by
  refine ⟨rfl, rfl, fun x o hx => ?_⟩
  simp only [NativeResults.contents, NativeResults.held, MysqlResults.mk.injEq, true_and, and_true]
  cases hp : o.mysqlRes with
  | none => rfl
  | some p =>
    have hne : p ≠ m.nextRes := hnew x o p hx hp
    simp [Memory.mysqlStoreResult, hne]

/-! ## One step -/

/-- The memory can do what the program does. -/
def Mirrored (u' : UserSt) (m : Memory) : Prop := ∃ ops m', m.run ops = .ok m' ∧ Mirrors u' m'

theorem Mirrors.one (h : Mirrors u m) {op : ResultsOp} (hm : m.step op = .ok m') (hs : Shows u' m') : Mirrored u' m := by
  have hvalid := h.valid.step op
  rw [hm] at hvalid
  refine ⟨[op], m', ?_, hs, hvalid⟩
  rw [Memory.run, hm]
  rfl

theorem object_eq (hx : m.objects x = some o) : m.object x = .ok o := by rw [Memory.object, hx]

theorem clear_shows (h : m.Valid ∅) (hx : m.objects x = some o) :
    ∃ o' m', o.clear m = .ok (o', m') ∧ m.Keeps m' ∧ m'.nextRes = m.nextRes ∧ o'.mysqlRes = none ∧
      o'.contents m' = (o.contents m).cleared := by
  obtain ⟨m', hfree, hq, hres⟩ := freeResult_keeps h hx
  have hclear : o.clear m = .ok ({ o with
      nullFlags := [], errorMessage := "", fieldsName := [], hasValue := false, affectedRows := 0, resultSet := []
      mysqlRes := none }, m') := by
    rw [NativeResults.clear, hfree]
    rfl
  exact ⟨_, m', hclear, hq, hres, rfl, rfl⟩

theorem mirrored_construct (h : Mirrors u m) (option : MysqlResultsOption) :
    Mirrored (u.new { mode := .nativeString, option := option }) m := by
  have hstep : m.step (.construct option) = .ok (m.new { option := option }) := rfl
  exact h.one hstep (h.toShows.new rfl)

theorem mirrored_queryAll (h : Mirrors u m) {e : ℕ} {sql : Sql} {args : List InputArg} {as : List ClientAnswer}
    (hs : u.step (.queryAll e x sql args as) = some u') : Mirrored u' m := by
  simp only [UserSt.step, Option.bind_eq_bind, Option.bind_eq_some_iff, Option.pure_def] at hs
  obtain ⟨r, hx, ⟨⟨ok, r'⟩, u₁⟩, hcall, hs⟩ := hs
  cases hs
  obtain ⟨hpath, hobjects, hnext, hl⟩ := UserSt.call_spec hcall
  obtain ⟨r₁, htrace, hr₁⟩ := MysqlExecutor.queryAll_calls r sql args _ _ hpath
  obtain ⟨o, ho, rfl⟩ := h.get hx
  obtain ⟨o₁, m₁, hclear, hq, hres, hnone, hcont⟩ := clear_shows h.valid ho
  have hstep : ∀ (reply : QueryReply) (o' : NativeResults) (m' : Memory), o.queryAll reply m = .ok (o', m') →
      m.step (.queryAll x reply) = .ok (m'.put x o') := by
    intro reply o' m' hall
    simp only [Memory.step, object_eq ho]
    show (o.queryAll reply m >>= _) = _
    rw [hall]
    rfl
  have htrace : QueryNativeTrace (o.contents m) _ _ := htrace
  -- the trace of the call says which of the two replies of the heap it was
  generalize hcs : u.calls e (MysqlExecutor.queryAll (o.contents m) sql args) as = tr at htrace hl
  cases htrace with
  | @failed message number =>
    obtain rfl : r' = (o.contents m).cleared.setError message number := hr₁
    have hall : o.queryAll (.noResult number message) m = .ok (o₁.setError message number, m₁) := by
      rw [NativeResults.queryAll, hclear]
      rfl
    refine h.one (hstep _ _ _ hall) (Shows.put ?_ (congrArg (MysqlResults.setError · message number) hcont))
    refine h.toShows.kept hq hobjects hnext ?_
    rw [hres, h.issued, hl]
    exact (Ledger.giveBack_issued ..).symm
  | @done res =>
    obtain rfl : r' = { (o.contents m).cleared.native res with hasValue := true } := hr₁
    -- the pointer the ledger hands out is the one the heap is about to allocate
    have hptr : res.ptr = m₁.nextRes := by
      rw [hres, h.issued]
      exact UserSt.stored_calls (by rw [hcs]; simp)
    have hset : (o₁.fetchRows m₁.nextRes res.set).setRawMysqlRes m₁.nextRes =
        .ok { o₁.fetchRows m₁.nextRes res.set with mysqlRes := some m₁.nextRes } := if_pos hnone
    have hall : o.queryAll (.stored res.set) m = .ok ({ o₁.fetchRows m₁.nextRes res.set with
        mysqlRes := some m₁.nextRes, fieldsName := o₁.fieldsName ++ res.set.fields.map Field.name, hasValue := true },
        (m₁.mysqlStoreResult res.set).2) := by
      rw [NativeResults.queryAll, hclear]
      change ((o₁.fetchRows m₁.nextRes res.set).setRawMysqlRes m₁.nextRes >>= _) = _
      rw [hset]
      rfl
    refine h.one (hstep _ _ _ hall) (Shows.put ?_ ?_)
    · have hnew : ∀ y o' p, m₁.objects y = some o' → o'.mysqlRes = some p → p ≠ m₁.nextRes := by
        rw [hq.objects, hres]
        exact fun y o' p => (h.valid.store res.set).2 y o' p (Set.notMem_empty y)
      have hq₂ := store_keeps hnew res.set
      refine h.toShows.kept ⟨hq₂.objects.trans hq.objects, hq₂.nextObj.trans hq.nextObj, fun y o' hy => ?_⟩ hobjects
        hnext ?_
      · rw [hq₂.contents y o' (by rw [hq.objects]; exact hy), hq.contents y o' hy]
      · show m₁.nextRes + 1 = _
        rw [hres, h.issued, hl]
        exact congrArg (· + 1) (Ledger.giveBack_issued u.ledger _).symm
    · rw [NativeResults.queryAll_contents hall, MysqlResults.pushRows_eq]
      simp [MysqlResults.native, MysqlResults.setFieldsName, hptr]

theorem mirrored_executor (h : Mirrors u m) {e : ℕ} {c : ExecutorCall} {as : List ClientAnswer}
    (hs : u.step (.executor e c as) = some u') : Mirrored u' m := by
  simp only [UserSt.step, Option.bind_eq_bind, Option.pure_def] at hs
  split at hs
  · cases hs
  rename_i hc
  obtain ⟨⟨⟨⟩, u₁⟩, hcall, hs⟩ := Option.bind_eq_some_iff.1 hs
  cases hs
  obtain ⟨hpath, hobjects, hnext, hl⟩ := UserSt.call_spec hcall
  have htr := (ExecutorCall.plain (Bool.eq_false_of_not_eq_true hc)).shows (fun o r h => h r) _ _ hpath
  rw [htr] at hl
  refine ⟨[], m, rfl, h.toShows.kept ⟨rfl, rfl, fun _ _ _ => rfl⟩ hobjects hnext ?_, h.valid⟩
  rw [hl]
  exact h.issued

theorem mirrored_clear (h : Mirrors u m) (hs : u.step (.clear x) = some u') : Mirrored u' m := by
  simp only [UserSt.step, Option.bind_eq_bind, Option.bind_eq_some_iff, Option.pure_def, Option.some.injEq] at hs
  obtain ⟨r, hx, rfl⟩ := hs
  obtain ⟨o, ho, rfl⟩ := h.get hx
  obtain ⟨o₁, m₁, hclear, hq, hres, -, hcont⟩ := clear_shows h.valid ho
  have hstep : m.step (.clear x) = .ok (m₁.put x o₁) := by
    simp only [Memory.step, object_eq ho]
    show (o.clear m >>= _) = _
    rw [hclear]
    rfl
  refine h.one hstep (Shows.put ?_ hcont)
  refine h.toShows.kept hq rfl rfl ?_
  rw [hres, h.issued]
  exact (Ledger.giveBack_issued ..).symm

theorem mirrored_moveConstruct (h : Mirrors u m) (hs : u.step (.moveConstruct x) = some u') : Mirrored u' m := by
  simp only [UserSt.step, Option.bind_eq_bind, Option.bind_eq_some_iff, Option.pure_def, Option.some.injEq] at hs
  obtain ⟨r, hx, rfl⟩ := hs
  obtain ⟨o, ho, rfl⟩ := h.get hx
  have hstep : m.step (.moveConstruct x) = .ok ((m.put x o.movedFrom).new (o.moved 0)) := by
    simp only [Memory.step, object_eq ho]
    rfl
  exact h.one hstep (Shows.new (h.toShows.put rfl) rfl)

theorem mirrored_moveAssign (h : Mirrors u m) (hs : u.step (.moveAssign x y) = some u') : Mirrored u' m := by
  simp only [UserSt.step, Option.bind_eq_bind, Option.bind_eq_some_iff, Option.pure_def] at hs
  obtain ⟨r, hx, r', hy, hs⟩ := hs
  obtain ⟨o, ho, rfl⟩ := h.get hx
  obtain ⟨o', ho', rfl⟩ := h.get hy
  split at hs
  · cases hs
  have hstep : m.step (.moveAssign x y) =
      .ok (if x = y then m else (m.put y o'.movedFrom).put x (o'.moved o.errorNumber)) := by
    simp only [Memory.step, object_eq ho, object_eq ho']
    show (if x = y then Except.ok m else _) = _
    split <;> rfl
  split at hs
  · rename_i hxy
    cases hs
    rw [if_pos hxy] at hstep
    exact h.one hstep h.toShows
  · rename_i hxy
    cases hs
    rw [if_neg hxy] at hstep
    exact h.one hstep (Shows.put (h.toShows.put rfl) rfl)

theorem mirrored_destroy (h : Mirrors u m) (hs : u.step (.destroy x) = some u') : Mirrored u' m := by
  simp only [UserSt.step, Option.bind_eq_bind, Option.bind_eq_some_iff, Option.pure_def, Option.some.injEq] at hs
  obtain ⟨r, hx, rfl⟩ := hs
  obtain ⟨o, ho, rfl⟩ := h.get hx
  obtain ⟨m₁, hfree, hq, hres⟩ := freeResult_keeps h.valid ho
  have hstep : m.step (.destroy x) = .ok { m₁ with objects := update m₁.objects x none } := by
    simp only [Memory.step, object_eq ho]
    show (o.freeResult m >>= _) = _
    rw [hfree]
    rfl
  have hs : Shows (u.freeResult (o.contents m)) m₁ := h.toShows.kept hq rfl rfl (by
    rw [hres, h.issued]
    exact (Ledger.giveBack_issued ..).symm)
  refine h.one hstep ⟨hs.next, fun y => ?_, hs.issued⟩
  by_cases hy : y = x
  · subst hy
    simp
  · have hm : update m₁.objects x none y = m₁.objects y := update_of_ne hy ..
    have hu : update u.objects x none y = u.objects y := update_of_ne hy ..
    show Option.map _ (update m₁.objects x none y) = update u.objects x none y
    rw [hm, hu]
    exact hs.objects y

theorem mirrored_getResultSet (h : Mirrors u m) (hs : u.step (.getResultSet x) = some u') : Mirrored u' m := by
  simp only [UserSt.step, Option.bind_eq_bind, Option.bind_eq_some_iff, Option.pure_def, Option.some.injEq] at hs
  obtain ⟨r, hx, rfl⟩ := hs
  obtain ⟨o, ho, rfl⟩ := h.get hx
  have hread := NativeResults.getResultSet_of_holds (h.valid.holds x o (Set.notMem_empty x) ho)
  have hstep : m.step (.getResultSet x) = .ok m := by
    simp only [Memory.step, object_eq ho]
    show (o.getResultSet m >>= _) = _
    rw [hread]
    rfl
  -- the rows stay in the object
  have hkeep : (o.contents m).getResultSet.2 = o.contents m := by
    unfold MysqlResults.getResultSet
    split <;> rfl
  have hput : u.put x (o.contents m).getResultSet.2 = u := by
    rw [hkeep, UserSt.put, ← hx, update_eq_self]
  rw [hput]
  exact h.one hstep h.toShows

/-- **The memory can do whatever the program does in a step.** -/
theorem Mirrors.step (h : Mirrors u m) {op : UserOp} (hop : op.native = true) (hs : u.step op = some u') :
    Mirrored u' m := by
  cases op with
  | construct mode option =>
    obtain rfl : mode = .nativeString := by simpa [UserOp.native] using hop
    cases hs
    exact mirrored_construct h option
  | queryAll e x sql args as => exact mirrored_queryAll h hs
  | execute e x sql args as =>
    simp only [UserSt.step, Option.bind_eq_bind, Option.bind_eq_some_iff, Option.pure_def] at hs
    obtain ⟨r, hx, hs⟩ := hs
    obtain ⟨o, ho, rfl⟩ := h.get hx
    cases hs
  | executor e c as => exact mirrored_executor h hs
  | getResultSet x => exact mirrored_getResultSet h hs
  | clear x => exact mirrored_clear h hs
  | moveConstruct x => exact mirrored_moveConstruct h hs
  | moveAssign x y => exact mirrored_moveAssign h hs
  | destroy x => exact mirrored_destroy h hs

/-- What the caller reads is the same. -/
theorem Mirrors.reads (h : Mirrors u m) (hx : u.objects x = some r) :
    ∃ o, m.objects x = some o ∧ o.getResultSet m = .ok r.getResultSet.1 := by
  obtain ⟨o, ho, rfl⟩ := h.get hx
  refine ⟨o, ho, ?_⟩
  rw [NativeResults.getResultSet_of_holds (h.valid.holds x o (Set.notMem_empty x) ho)]
  unfold MysqlResults.getResultSet
  cases hv : o.hasValue <;> simp [NativeResults.contents, hv]

end Steps

/-! ## Runs -/

theorem run_append {m m' : Memory} {ops ops' : List ResultsOp} (h : m.run ops = .ok m') :
    m.run (ops ++ ops') = m'.run ops' := by
  induction ops generalizing m with
  | nil =>
    cases h
    rfl
  | cons op ops ih =>
    rw [Memory.run] at h
    cases hs : m.step op with
    | error f =>
      rw [hs] at h
      cases h
    | ok m₁ =>
      rw [hs] at h
      rw [List.cons_append, Memory.run, hs]
      exact ih h

/-- **Whatever a program does with objects of `NativeString`, those in the memory can do.** -/
theorem native_run_mirrored {ops : List UserOp} {u u' : UserSt} {m : Memory} (h : Mirrors u m)
    (hops : ∀ op ∈ ops, op.native = true) (hr : UserSt.run ops u = some u') : Mirrored u' m := by
  induction ops generalizing u m with
  | nil =>
    cases hr
    exact ⟨[], m, rfl, h⟩
  | cons op ops ih =>
    obtain ⟨u₁, hs, hr⟩ := Option.bind_eq_some_iff.1 hr
    obtain ⟨rops, m₁, hm, h₁⟩ := h.step (hops op List.mem_cons_self) hs
    obtain ⟨rops', m', hm', h'⟩ := ih h₁ (fun op hop => hops op (List.mem_cons_of_mem _ hop)) hr
    exact ⟨rops ++ rops', m', (run_append hm).trans hm', h'⟩

theorem mirrors_empty : Mirrors {} {} := ⟨⟨rfl, fun _ => rfl, rfl⟩, .empty⟩

/-- **The rows that a program's objects hold are those that the views of the same objects show**, in a memory in
which all views are valid. -/
theorem native_run_reads {ops : List UserOp} {u : UserSt} (hops : ∀ op ∈ ops, op.native = true)
    (hr : UserSt.run ops {} = some u) : ∃ rops m, ({} : Memory).run rops = .ok m ∧ m.RowsValid ∧
      ∀ x r, u.objects x = some r → ∃ o, m.objects x = some o ∧ o.getResultSet m = .ok r.getResultSet.1 := by
  obtain ⟨rops, m, hm, h⟩ := native_run_mirrored mirrors_empty hops hr
  exact ⟨rops, m, hm, h.valid.rowsValid, fun x r hx => h.reads hx⟩

end TrpcMysql
