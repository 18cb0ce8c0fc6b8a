import TrpcMysql.Executor.Reuse
import TrpcMysql.Results.Release

/-!
# Moving a results object

The move constructor and the move assignment of `MysqlResults` list nine fields by hand. Both forget
`error_number_`: a constructed target has none, an assigned one keeps its own. And both leave `has_value_`
of the source as it was, with the rows gone.

`move_transfers_iff`: in every state that a program reaches, a move transfers what the source reports, and
leaves a source without a value, if and only if the source has the error number that the target has anyway
and no value to give.
-/

namespace TrpcMysql

open Function Conc

namespace MysqlResults

variable {r : MysqlResults}

theorem observe_moved_iff {n : ℤ} : (r.moved n).observe = r.observe ↔ r.errorNumber = n := by
  constructor
  · intro h
    have hn : n = r.errorNumber := congrArg Observed.errorNumber h
    exact hn.symm
  · rintro rfl
    rfl

theorem value_eq_none_iff : r.getResultSet.1 = none ↔ r.hasValue = false := by
  unfold getResultSet
  cases hv : r.hasValue with
  | false => simp
  | true => cases hm : r.mode <;> simp

/-- The source of a move still says that it has a value, if it had one. -/
theorem value_movedFrom_iff : r.movedFrom.getResultSet.1 = none ↔ r.hasValue = false := value_eq_none_iff

end MysqlResults

namespace UserSt

/-- The states of the runs. -/
inductive Reached : UserSt → Prop
  | init : Reached {}
  | step {u u' : UserSt} (op : UserOp) (h : Reached u) (hs : u.step op = some u') : Reached u'

/-- The state after the steps, if each is one of the program. -/
def run : List UserOp → UserSt → Option UserSt
  | [], u => some u
  | op :: ops, u => (u.step op).bind (run ops)

theorem Reached.run {ops : List UserOp} {u u' : UserSt} (h : Reached u) (hr : run ops u = some u') : Reached u' := by
  induction ops generalizing u with
  | nil =>
    cases hr
    exact h
  | cons op ops ih =>
    obtain ⟨u₁, hs, hr⟩ := Option.bind_eq_some_iff.1 hr
    exact ih (h.step op hs) hr

/-- After a move the target shows what the source showed, and the source has no value. -/
def Transfers (u : UserSt) (op : UserOp) (u' : UserSt) : Prop :=
  let after (target source : ObjId) : Prop :=
    (u'.objects target).map MysqlResults.observe = (u.objects source).map MysqlResults.observe ∧
      (u'.objects source).map (fun r => r.getResultSet.1) = some none
  match op with
  | .moveConstruct x => after u.nextObj x
  | .moveAssign x y => after x y
  | _ => True

/-- The source has no value, and the error number that the target has anyway. -/
def Movable (u : UserSt) : UserOp → Prop
  | .moveConstruct x => ∀ r ∈ u.objects x, r.errorNumber = 0 ∧ r.hasValue = false
  | .moveAssign x y => ∀ t ∈ u.objects x, ∀ r ∈ u.objects y, r.errorNumber = t.errorNumber ∧ r.hasValue = false
  | _ => True

variable {u u' : UserSt} {op : UserOp} {x y e : ℕ} {r t : MysqlResults}

/-! ## Objects are numbered -/

/-- The objects that exist are those that were constructed. -/
def Bound (u : UserSt) : Prop := ∀ x r, u.objects x = some r → x < u.nextObj

theorem Bound.put (h : u.Bound) (hx : u.objects x = some r) : (u.put x t).Bound := bound_put h (h x r hx)

/-- A call touches no object. -/
theorem Bound.call {α : Type} {p : XProg α} {as : List ClientAnswer} {a : α} (h : u.Bound)
    (hcall : u.call e p as = some (a, u')) : u'.Bound ∧ u'.objects = u.objects := by
  obtain ⟨-, hobjects, hnext, -⟩ := call_spec hcall
  refine ⟨?_, hobjects⟩
  unfold Bound
  rw [hobjects, hnext]
  exact h

theorem Bound.step (h : u.Bound) (hs : u.step op = some u') : u'.Bound := by
  cases op <;> simp only [UserSt.step, Option.bind_eq_bind, Option.pure_def] at hs
  case construct =>
    cases hs
    exact bound_new h
  case queryAll =>
    obtain ⟨r, hx, hs⟩ := Option.bind_eq_some_iff.1 hs
    obtain ⟨⟨⟨ok, r'⟩, u₁⟩, hcall, hs⟩ := Option.bind_eq_some_iff.1 hs
    cases hs
    obtain ⟨hb, hobjects⟩ := h.call hcall
    exact hb.put (by rw [hobjects]; exact hx)
  case execute =>
    obtain ⟨r, hx, hs⟩ := Option.bind_eq_some_iff.1 hs
    split at hs
    · cases hs
    · obtain ⟨⟨⟨ok, r'⟩, u₁⟩, hcall, hs⟩ := Option.bind_eq_some_iff.1 hs
      cases hs
      obtain ⟨hb, hobjects⟩ := h.call hcall
      exact hb.put (by rw [hobjects]; exact hx)
  case executor =>
    split at hs
    · cases hs
    · obtain ⟨⟨⟨⟩, u₁⟩, hcall, hs⟩ := Option.bind_eq_some_iff.1 hs
      cases hs
      exact (h.call hcall).1
  case getResultSet =>
    obtain ⟨r, hx, hs⟩ := Option.bind_eq_some_iff.1 hs
    cases hs
    exact h.put hx
  case clear x =>
    obtain ⟨r, hx, hs⟩ := Option.bind_eq_some_iff.1 hs
    cases hs
    have hfreed : (u.freeResult r).Bound := h
    exact hfreed.put hx
  case moveConstruct =>
    obtain ⟨r, hx, hs⟩ := Option.bind_eq_some_iff.1 hs
    cases hs
    exact bound_new (h.put hx)
  case moveAssign x y =>
    obtain ⟨r, hx, hs⟩ := Option.bind_eq_some_iff.1 hs
    obtain ⟨r', hy, hs⟩ := Option.bind_eq_some_iff.1 hs
    split at hs
    · cases hs
    · split at hs
      · cases hs
        exact h
      · rename_i hxy
        cases hs
        -- the moved-from object is written first, then the target
        have hx' : (u.put y r'.movedFrom).objects x = some r := (update_of_ne hxy ..).trans hx
        exact (h.put hy).put hx'
  case destroy x =>
    obtain ⟨r, -, hs⟩ := Option.bind_eq_some_iff.1 hs
    cases hs
    intro z r' hz
    -- the destroyed object is gone, the others are as before
    have hz : update u.objects x none z = some r' := hz
    by_cases hzx : z = x
    · subst hzx
      simp at hz
    · rw [update_of_ne hzx] at hz
      exact h z r' hz

theorem Reached.bound (h : Reached u) : u.Bound := by
  induction h with
  | init => intro x r hx; cases hx
  | step op _ hs ih => exact ih.step hs

/-! ## Moves -/

/-- **In every state that a program reaches, a move transfers all that the source shows and leaves it without
a value, if and only if the source has the error number that the target has anyway, and no value.** -/
theorem move_transfers_iff (h : Reached u) (hs : u.step op = some u') : u.Transfers op u' ↔ u.Movable op := by
  cases op <;> try exact Iff.rfl
  case moveConstruct x =>
    simp only [UserSt.step, Option.bind_eq_bind, Option.bind_eq_some_iff, Option.pure_def, Option.some.injEq] at hs
    obtain ⟨r, hx, rfl⟩ := hs
    have hne : x ≠ u.nextObj := Nat.ne_of_lt (h.bound x r hx)
    have htarget : ((u.put x r.movedFrom).new (r.moved 0)).objects u.nextObj = some (r.moved 0) := update_self ..
    have hsource : ((u.put x r.movedFrom).new (r.moved 0)).objects x = some r.movedFrom :=
      (update_of_ne hne ..).trans (update_self ..)
    simp [Transfers, Movable, htarget, hsource, hx, MysqlResults.observe_moved_iff, MysqlResults.value_movedFrom_iff]
  case moveAssign x y =>
    simp only [UserSt.step, Option.bind_eq_bind, Option.bind_eq_some_iff, Option.pure_def] at hs
    obtain ⟨t, hx, r, hy, hs⟩ := hs
    split at hs
    · cases hs
    split at hs
    · -- an assignment of an object to itself
      rename_i hxy
      subst hxy
      cases hs
      obtain rfl : t = r := Option.some.inj (hx.symm.trans hy)
      simp [Transfers, Movable, hx, MysqlResults.value_eq_none_iff]
    · rename_i hxy
      cases hs
      have htarget : ((u.put y r.movedFrom).put x (r.moved t.errorNumber)).objects x =
          some (r.moved t.errorNumber) := update_self ..
      have hsource : ((u.put y r.movedFrom).put x (r.moved t.errorNumber)).objects y = some r.movedFrom :=
        (update_of_ne (Ne.symm hxy) ..).trans (update_self ..)
      simp [Transfers, Movable, htarget, hsource, hx, hy, MysqlResults.observe_moved_iff,
        MysqlResults.value_movedFrom_iff]

/-- A connected executor and a results object for statements without rows, after a statement that succeeds. -/
def executed : List UserOp :=
  [.executor 0 .construct (List.replicate 6 {}), .executor 0 .connect (List.replicate 5 {}), .construct .onlyExec {},
    .execute 0 0 (.user (ascii "delete from t")) [] (List.replicate 9 {})]

/-- The object of `executed` is moved. -/
theorem move_executed : ∃ u u' : UserSt, run executed {} = some u ∧ u.step (.moveConstruct 0) = some u' ∧
    (u.Transfers (.moveConstruct 0) u' ↔ u.Movable (.moveConstruct 0)) ∧ u.Movable (.moveConstruct 0) := by
  have hu : ((run executed {}).get (by decide +kernel)).Movable (.moveConstruct 0) := by
    unfold Movable
    decide +kernel
  exact ⟨_, _, (Option.some_get _).symm, (Option.some_get (by decide +kernel)).symm,
    move_transfers_iff (Reached.init.run (Option.some_get _).symm) (Option.some_get _).symm, hu⟩

/-- A query that fails, since the connection is lost. -/
def failed : List UserOp :=
  [.executor 0 .construct (List.replicate 6 {}), .executor 0 .connect (List.replicate 5 {}), .construct .nativeString {},
    .queryAll 0 0 (.user (ascii "select 'a'")) [] [{}, {}, {}, { ok := false }, {}, {}, {}, {}]]

/-- What is moved out of an object with an error is a success. -/
theorem move_forgets_error : ¬ ∀ (u u' : UserSt) (op : UserOp), Reached u → u.step op = some u' → u.Transfers op u' := by
  intro h
  have hmoved := h ((run failed {}).get (by decide +kernel)) _ (.moveConstruct 0)
    (Reached.init.run (Option.some_get _).symm) (Option.some_get (by decide +kernel)).symm
  exact absurd hmoved.1 (by decide +kernel)

end UserSt

end TrpcMysql
