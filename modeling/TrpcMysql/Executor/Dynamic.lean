import Mathlib.Data.List.ReduceOption
import Mathlib.Data.Nat.Basic
import Mathlib.Order.Basic
import TrpcMysql.Executor.Columns
import TrpcMysql.Text.Prefixes

/-!
# Strings and blobs

A buffer for a string or blob has its size from `dynamic_buffer_init_size`, and a longer value makes
`FetchTruncatedResults` resize it and fetch the rest. The buffer moves to new memory then, and the
statement's copy of the bind still points to the old one: from there on (`Stale`) every further
value is stored into memory that the buffer gave up, and its element is what the buffer holds, but for the
part beyond the buffer's end. So values come out in full up to the first that is longer than its buffer, and
after that those that the buffer holds anyway (`fetch_faithful_iff`).
-/

namespace TrpcMysql

open Function Conc Prefixes

namespace OutputColumn

variable {c : OutputColumn} {v : Bytes}

/-- A string or blob between two rows: the statement may store no more than what fits. -/
structure Dynamic (c : OutputColumn) : Prop where
  output : c.output.dynamic = true
  bindType : c.bind.bufferType.dynamic = true
  boundType : c.bound.bufferType.dynamic = true
  bind : c.bind.buffer = ⟨c.block, 0⟩
  fits : c.bound.bufferLength ≤ c.data.length
  length : c.outputLength ≤ c.data.length

/-- The buffer is where it was when the statement was bound. -/
structure Fresh (c : OutputColumn) : Prop extends Dynamic c where
  bound : c.bound.buffer = ⟨c.block, 0⟩
  size : c.data.length = c.bound.bufferLength
  capacity : c.capacity = c.bound.bufferLength

/-- The buffer has moved. -/
structure Stale (c : OutputColumn) : Prop extends Dynamic c where
  bound : c.bound.buffer.block < c.block

theorem size_of_dynamic {t : OutputArg} (h : t.dynamic = true) : t.size = none := by
  cases t <;> first | rfl | cases h

/-- The element of a string or blob. -/
theorem Dynamic.element (h : c.Dynamic) : c.stepTupleSet = if c.nullFlag then [] else c.data.take c.outputLength := by
  unfold stepTupleSet
  rw [size_of_dynamic h.output]
  simp [read, h.bind, data]

/-! ## One value -/

/-- A NULL changes the flag only. -/
theorem step_none : c.step none = { c with nullFlag := true } := by
  simp [step, next, truncated, fetch_none]

theorem Dynamic.truncated_eq (h : c.Dynamic) : c.truncated (some v) = decide (c.bound.bufferLength < v.length) := by
  simp [truncated, h.boundType]

theorem Dynamic.fetch_eq (h : c.Dynamic) : c.fetch (some v) =
    { c.store c.bound.buffer (v.take c.bound.bufferLength) with outputLength := v.length, nullFlag := false } := by
  simp [fetch, fetchThrough, h.boundType]

theorem Dynamic.fetch_data (h : c.Dynamic) :
    (c.fetch (some v)).data = (c.store c.bound.buffer (v.take c.bound.bufferLength)).data := by
  rw [h.fetch_eq]
  rfl

theorem Dynamic.fetch_wild (h : c.Dynamic) :
    (c.fetch (some v)).wild = (c.store c.bound.buffer (v.take c.bound.bufferLength)).wild := by
  rw [h.fetch_eq]

theorem fetchTruncated_short {v : Option Bytes} (h : c.outputLength ≤ c.data.length) : c.fetchTruncated v = c := by
  have hshort : c.short = false := decide_eq_false (Nat.not_lt.2 h)
  rw [fetchTruncated, hshort]
  rfl

/-- What `FetchTruncatedResults` makes of a column whose value is longer than its buffer. -/
structure Lengthened (c : OutputColumn) (v : Bytes) (c' : OutputColumn) : Prop where
  output : c'.output = c.output
  bindType : c'.bind.bufferType = c.bind.bufferType
  bound : c'.bound = c.bound
  block : c'.block = (c.resize v.length).block
  bind : c'.bind.buffer = ⟨c'.block, 0⟩
  data : c'.data = grow c.data v
  length : c'.outputLength = v.length
  nullFlag : c'.nullFlag = false
  wild : c'.wild = c.wild

theorem fetchTruncated_long (hbind : c.bind.bufferType.dynamic = true) (hv : c.outputLength = v.length)
    (hlong : c.data.length < v.length) : Lengthened c v (c.fetchTruncated (some v)) := by
  -- the resized column, its bind on the new end
  set c₁ : OutputColumn := c.enlarge with hc₁
  have hbindType : c₁.bind.bufferType = c.bind.bufferType := by
    change (c.resize c.outputLength).bind.bufferType = c.bind.bufferType
    rw [resize_rest.2.2.1]
  have hrest : (v.drop c.data.length).take c₁.bind.bufferLength = v.drop c.data.length := by
    refine List.take_of_length_le ?_
    rw [show c₁.bind.bufferLength = c.outputLength from rfl, hv, List.length_drop]
    omega
  set c₂ := c₁.store ⟨c₁.block, c.data.length⟩ (v.drop c.data.length) with hc₂
  have heq : c.fetchTruncated (some v) =
      { c₂ with outputLength := v.length, nullFlag := false, bind := { c₁.bind with buffer := ⟨c₁.block, 0⟩ } } := by
    have hfetch : c₁.fetchColumn c.data.length (some v) =
        { c₂ with outputLength := v.length, nullFlag := false } := by
      simp only [fetchColumn, fetchThrough, hbindType, hbind, if_true, hrest, hc₂]
      rfl
    have hshort : c.short = true := decide_eq_true (hv ▸ hlong)
    rw [fetchTruncated, if_pos hshort, ← hc₁, hfetch]
    rfl
  have hdata₁ : c₁.data = c.data ++ List.replicate (v.drop c.data.length).length 0 := by
    rw [show c₁.data = (c.resize c.outputLength).data from rfl, resize_data, hv,
      List.take_of_length_le (Nat.le_of_lt hlong), List.length_drop]
  have hdata : c₂.data = grow c.data v := by
    rw [hc₂, store_data_self, hdata₁, overwrite_tail, grow]
  have hwild : c₂.wild = c.wild := by
    rw [hc₂, store_wild_self (by rw [hdata₁]; simp)]
    exact resize_wild
  rw [heq, ← hv]
  exact ⟨resize_rest.1, hbindType, resize_rest.2.2.2.1, by rw [← hv]; rfl, rfl, hdata, hv, rfl, hwild⟩

/-! ## Values up to the first long one -/

theorem Fresh.step_none (h : c.Fresh) : (c.step none).Fresh := by
  rw [OutputColumn.step_none]
  exact ⟨⟨h.output, h.bindType, h.boundType, h.bind, h.fits, h.length⟩, h.bound, h.size, h.capacity⟩

/-- A value that fits into the buffer is stored there. -/
theorem Fresh.fetch (h : c.Fresh) :
    (c.fetch (some v)).data = v.take c.bound.bufferLength ++ c.data.drop (v.take c.bound.bufferLength).length ∧
      (c.fetch (some v)).wild = c.wild := by
  rw [h.fetch_data, h.fetch_wild, h.bound]
  have hfits : 0 + (v.take c.bound.bufferLength).length ≤ c.data.length := by
    have := h.fits
    simp only [List.length_take]
    omega
  exact ⟨(store_data_self 0 _).trans (overwrite_zero _ _), store_wild_self hfits⟩

theorem Fresh.step_short (h : c.Fresh) (hv : v.length ≤ c.bound.bufferLength) :
    (c.step (some v)).Fresh ∧ (c.step (some v)).stepTupleSet = v ∧ (c.step (some v)).wild = c.wild ∧
      (c.step (some v)).bound = c.bound := by
  have hnot : decide (c.bound.bufferLength < v.length) = false := by simpa using hv
  have hstep : c.step (some v) = c.fetch (some v) := by
    rw [step, h.truncated_eq, hnot]
    rfl
  obtain ⟨hdata, hwild⟩ := h.fetch (v := v)
  rw [List.take_of_length_le hv] at hdata
  have hsize : (c.fetch (some v)).data.length = c.bound.bufferLength := by
    rw [hdata, List.length_append, List.length_drop, h.size]
    omega
  have hfresh : (c.fetch (some v)).Fresh := by
    have hfits : c.bound.bufferLength ≤ (c.fetch (some v)).data.length := hsize.ge
    have hlength : v.length ≤ (c.fetch (some v)).data.length := by omega
    exact ⟨⟨h.output, h.bindType, h.boundType, h.bind, hfits, hlength⟩, h.bound, hsize, h.capacity⟩
  rw [hstep]
  refine ⟨hfresh, ?_, hwild, rfl⟩
  rw [hfresh.element, hdata]
  exact List.take_left

theorem Fresh.step_long (h : c.Fresh) (hv : c.bound.bufferLength < v.length) :
    (c.step (some v)).Stale ∧ (c.step (some v)).data = v ∧ (c.step (some v)).stepTupleSet = v ∧
      (c.step (some v)).wild = c.wild ∧ (c.step (some v)).bound = c.bound := by
  have hstep : c.step (some v) = (c.fetch (some v)).fetchTruncated (some v) := by
    rw [step, h.truncated_eq, decide_eq_true hv, next, h.output]
    rfl
  obtain ⟨hdata, hwild⟩ := h.fetch (v := v)
  have hlen : (v.take c.bound.bufferLength).length = c.bound.bufferLength := by
    rw [List.length_take]
    omega
  rw [hlen, List.drop_eq_nil_of_le h.size.le, List.append_nil] at hdata
  have hlong : (c.fetch (some v)).data.length < v.length := by rw [hdata, hlen]; exact hv
  have hr := fetchTruncated_long (c := c.fetch (some v)) (v := v) h.bindType rfl hlong
  rw [← hstep] at hr
  have hall : (c.step (some v)).data = v := by
    rw [hr.data, hdata]
    exact grow_of_extension (List.take_prefix _ _)
  -- the buffer was full, so it moves
  have hblock : (c.step (some v)).block = c.block + 1 := by
    have hmove : ¬ v.length ≤ (c.fetch (some v)).capacity := by
      rw [show (c.fetch (some v)).capacity = c.capacity from rfl, h.capacity]
      omega
    rw [hr.block, resize_block, if_neg hmove]
    rfl
  have hbound : (c.step (some v)).bound = c.bound := hr.bound
  have hstale : (c.step (some v)).Stale := by
    refine ⟨⟨?_, ?_, hbound ▸ h.boundType, hr.bind, ?_, ?_⟩, ?_⟩
    · rw [hr.output]
      exact h.output
    · rw [hr.bindType]
      exact h.bindType
    · rw [hbound, hall]
      exact hv.le
    · rw [hr.length, hall]
    · rw [hbound, h.bound, hblock]
      exact Nat.lt_succ_self _
  refine ⟨hstale, hall, ?_, hr.wild.trans hwild, hbound⟩
  rw [hstale.element, hr.nullFlag, hr.length, hall]
  simp

/-! ## Values after it -/

theorem Stale.step_none (h : c.Stale) : (c.step none).Stale := by
  rw [OutputColumn.step_none]
  exact ⟨⟨h.output, h.bindType, h.boundType, h.bind, h.fits, h.length⟩, h.bound⟩

/-- What a further value does: it goes to the old memory, and the buffer is extended at most. -/
theorem Stale.step_some (h : c.Stale) (v : Bytes) :
    (c.step (some v)).Stale ∧ (c.step (some v)).data = grow c.data v ∧
      (c.step (some v)).stepTupleSet = (grow c.data v).take v.length ∧
      (c.step (some v)).wild = (c.wild || !(v.take c.bound.bufferLength).isEmpty) ∧
      (c.step (some v)).bound = c.bound := by
  -- the library still writes to the block of the first bind, which the column has left
  have hout : c.bound.buffer.block ≠ c.block := h.bound.ne
  have hdata : (c.fetch (some v)).data = c.data := by
    rw [h.fetch_data]
    exact store_data_other hout _
  have hwild : (c.fetch (some v)).wild = (c.wild || !(v.take c.bound.bufferLength).isEmpty) := by
    rw [h.fetch_wild]
    exact store_wild_other hout _
  have hfits := h.fits
  by_cases hlong : c.data.length < v.length
  · -- the buffer grows
    have hstep : c.step (some v) = (c.fetch (some v)).fetchTruncated (some v) := by
      rw [step, h.truncated_eq, decide_eq_true (by omega), next, h.output]
      rfl
    have hr := fetchTruncated_long (c := c.fetch (some v)) (v := v) h.bindType rfl (by rw [hdata]; exact hlong)
    rw [← hstep] at hr
    have hall := hr.data
    rw [hdata] at hall
    have hbound : (c.step (some v)).bound = c.bound := hr.bound
    have hlen : (grow c.data v).length = v.length := by
      rw [length_grow]
      omega
    have hstale : (c.step (some v)).Stale := by
      refine ⟨⟨?_, ?_, hbound ▸ h.boundType, hr.bind, ?_, ?_⟩, ?_⟩
      · rw [hr.output]
        exact h.output
      · rw [hr.bindType]
        exact h.bindType
      · rw [hbound, hall, hlen]
        omega
      · rw [hr.length, hall, hlen]
      · rw [hbound, hr.block]
        exact lt_of_lt_of_le h.bound (le_resize_block (c := c.fetch (some v)))
    refine ⟨hstale, hall, ?_, hr.wild.trans hwild, hbound⟩
    rw [hstale.element, hr.nullFlag, hr.length, hall]
    rfl
  · -- the buffer stays as it is
    have hsame : grow c.data v = c.data := by
      rw [grow, List.drop_eq_nil_of_le (by omega), List.append_nil]
    have hstep : c.step (some v) = c.fetch (some v) := by
      rw [step, next]
      split
      · exact fetchTruncated_short (by rw [hdata]; exact not_lt.1 hlong)
      · rfl
    have hstale : (c.fetch (some v)).Stale :=
      ⟨⟨h.output, h.bindType, h.boundType, h.bind, by rw [hdata]; exact hfits,
        by rw [hdata]; exact not_lt.1 hlong⟩, h.bound⟩
    rw [hstep, hsame]
    refine ⟨hstale, hdata, ?_, hwild, rfl⟩
    rw [hstale.element, hdata]
    rfl

/-! ## All values -/

/-- A look at a column whose value fits does nothing. -/
theorem next_eq_step {v : Option Bytes} {b : Bool} (h : (c.step v).Dynamic) (hb : c.truncated v = true → b = true) :
    c.next b v = c.step v := by
  cases ht : c.truncated v with
  | true => rw [step, ht, hb ht]
  | false =>
    have hstep : c.step v = c.fetch v := by
      rw [step, ht]
      rfl
    rw [hstep] at h ⊢
    rw [next]
    split
    · exact fetchTruncated_short h.length
    · rfl

/-- The two states that the buffer can be in. -/
def Settled (c : OutputColumn) : Prop := c.Fresh ∨ c.Stale

theorem Settled.dynamic (h : c.Settled) : c.Dynamic := h.elim Fresh.toDynamic Stale.toDynamic

theorem Settled.step (h : c.Settled) (v : Option Bytes) : (c.step v).Settled := by
  rcases h with h | h
  · cases v with
    | none => exact .inl h.step_none
    | some v =>
      by_cases hv : v.length ≤ c.bound.bufferLength
      · exact .inl (h.step_short hv).1
      · exact .inr (h.step_long (Nat.lt_of_not_le hv)).1
  · cases v with
    | none => exact .inr h.step_none
    | some v => exact .inr (h.step_some v).1

theorem Settled.alone (h : c.Settled) : c.Alone :=
  .of_inv h (fun _ v hc => hc.step v) fun _ v _ hc hb => next_eq_step (hc.step v).dynamic hb

theorem Fresh.alone (h : c.Fresh) : c.Alone := Settled.alone (.inl h)

/-- Each value comes out in full. -/
def Delivers (c : OutputColumn) (vs : List (Option Bytes)) : Prop :=
  ∀ i v, vs[i]? = some (some v) → (c.run (vs.take (i + 1))).stepTupleSet = v

variable {vs : List (Option Bytes)}

theorem delivers_cons {v : Option Bytes} :
    c.Delivers (v :: vs) ↔ (∀ b, v = some b → (c.step v).stepTupleSet = b) ∧ (c.step v).Delivers vs := by
  constructor
  · intro h
    exact ⟨fun b hb => h 0 b (by rw [hb]; rfl), fun i b hb => h (i + 1) b hb⟩
  · rintro ⟨hhead, htail⟩ i b hb
    cases i with
    | zero => exact hhead b (Option.some.inj hb)
    | succ i => exact htail i b hb

/-- **After the buffer has moved** the values come out that it holds anyway: each is nested with the
longest so far. -/
theorem Stale.delivers_iff : ∀ {vs : List (Option Bytes)} {c : OutputColumn}, c.Stale →
    (c.Delivers vs ↔ (c.data :: vs.reduceOption).Pairwise Nested) := by
  intro vs
  induction vs with
  | nil =>
    intro c _
    exact ⟨fun _ => List.pairwise_singleton _ _, fun _ i v hv => by cases hv⟩
  | cons v vs ih =>
    intro c h
    cases v with
    | none =>
      rw [delivers_cons, ih h.step_none, List.reduceOption_cons_of_none, OutputColumn.step_none]
      exact ⟨fun h => h.2, fun h => ⟨fun b hb => (by cases hb), h⟩⟩
    | some v =>
      obtain ⟨hstale, hdata, helem, -⟩ := h.step_some v
      rw [delivers_cons, ih hstale, hdata, helem, List.reduceOption_cons_of_some, pairwise_cons_cons,
        ← take_grow_iff]
      simp

/-- The values from the first on that is longer than the buffer. -/
def fromLong (size : ℕ) (vs : List (Option Bytes)) : List Bytes :=
  vs.reduceOption.dropWhile fun v => decide (v.length ≤ size)

theorem fromLong_none (size : ℕ) : fromLong size (none :: vs) = fromLong size vs := rfl

theorem fromLong_short {size : ℕ} (h : v.length ≤ size) : fromLong size (some v :: vs) = fromLong size vs := by
  simp [fromLong, List.reduceOption_cons_of_some, h]

theorem fromLong_long {size : ℕ} (h : size < v.length) : fromLong size (some v :: vs) = v :: vs.reduceOption := by
  have hnot : ¬ v.length ≤ size := by omega
  simp [fromLong, List.reduceOption_cons_of_some, hnot]

/-- **All values come out in full exactly if those from the first long one on are nested.** -/
theorem Fresh.delivers_iff : ∀ {vs : List (Option Bytes)} {c : OutputColumn}, c.Fresh →
    (c.Delivers vs ↔ (fromLong c.bound.bufferLength vs).Pairwise Nested) := by
  intro vs
  induction vs with
  | nil =>
    intro c _
    exact ⟨fun _ => .nil, fun _ i v hv => by cases hv⟩
  | cons v vs ih =>
    intro c h
    cases v with
    | none =>
      rw [delivers_cons, ih h.step_none, fromLong_none, OutputColumn.step_none]
      exact ⟨fun h => h.2, fun h => ⟨fun b hb => (by cases hb), h⟩⟩
    | some v =>
      rw [delivers_cons]
      by_cases hv : v.length ≤ c.bound.bufferLength
      · obtain ⟨hfresh, helem, -, hbound⟩ := h.step_short hv
        rw [ih hfresh, helem, hbound, fromLong_short hv]
        simp
      · obtain ⟨hstale, hdata, helem, -⟩ := h.step_long (Nat.lt_of_not_le hv)
        rw [hstale.delivers_iff, helem, hdata, fromLong_long (Nat.lt_of_not_le hv)]
        simp

/-- After the buffer has moved, every byte goes to memory that it gave up. -/
theorem Stale.wild_iff : ∀ {vs : List (Option Bytes)} {c : OutputColumn}, c.Stale → 0 < c.bound.bufferLength →
    ((c.run vs).wild = false ↔ c.wild = false ∧ ∀ v ∈ vs.reduceOption, v = []) := by
  intro vs
  induction vs with
  | nil =>
    intro c _ _
    simp
  | cons v vs ih =>
    intro c h hpos
    cases v with
    | none =>
      have hbound : (c.step none).bound = c.bound := by rw [OutputColumn.step_none]
      rw [run_cons, ih h.step_none (by rw [hbound]; exact hpos), List.reduceOption_cons_of_none,
        OutputColumn.step_none]
    | some v =>
      obtain ⟨hstale, -, -, hwild, hbound⟩ := h.step_some v
      have hempty : (!(v.take c.bound.bufferLength).isEmpty) = false ↔ v = [] := by
        have hne : c.bound.bufferLength ≠ 0 := by omega
        simp [hne]
      rw [run_cons, ih hstale (by rw [hbound]; exact hpos), hwild, List.reduceOption_cons_of_some,
        Bool.or_eq_false_iff, hempty, List.forall_mem_cons, and_assoc]

/-- **The stores stay in the buffer exactly if nothing but NULLs and empty values comes after the first long
one.** -/
theorem Fresh.wild_iff : ∀ {vs : List (Option Bytes)} {c : OutputColumn}, c.Fresh → 0 < c.bound.bufferLength →
    ((c.run vs).wild = false ↔ c.wild = false ∧ ∀ v ∈ (fromLong c.bound.bufferLength vs).tail, v = []) := by
  intro vs
  induction vs with
  | nil =>
    intro c _ _
    simp [fromLong]
  | cons v vs ih =>
    intro c h hpos
    cases v with
    | none =>
      have hbound : (c.step none).bound = c.bound := by rw [OutputColumn.step_none]
      rw [run_cons, ih h.step_none (by rw [hbound]; exact hpos), hbound, fromLong_none, OutputColumn.step_none]
    | some v =>
      rw [run_cons]
      by_cases hv : v.length ≤ c.bound.bufferLength
      · obtain ⟨hfresh, -, hwild, hbound⟩ := h.step_short hv
        rw [ih hfresh (by rw [hbound]; exact hpos), hbound, hwild, fromLong_short hv]
      · obtain ⟨hstale, -, -, hwild, hbound⟩ := h.step_long (Nat.lt_of_not_le hv)
        rw [hstale.wild_iff (by rw [hbound]; exact hpos), hwild, fromLong_long (Nat.lt_of_not_le hv), List.tail_cons]

/-! ## The bound column -/

/-- The size that a string's or blob's buffer has when the statement is bound. -/
def bufferSize (dynamicBufferSize : ℕ) : ℕ :=
  if dynamicBufferSize = 0 then TRPC_BIND_BUFFER_MIN_SIZE else dynamicBufferSize

theorem bufferSize_pos (size : ℕ) : 0 < bufferSize size := by
  unfold bufferSize TRPC_BIND_BUFFER_MIN_SIZE
  split <;> omega

/-- The buffer of a string or blob before it is bound. -/
theorem new_dynamic {t : OutputArg} (ht : t.dynamic = true) (size : ℕ) :
    (new t size).data = List.replicate size 0 ∧ (new t size).capacity = size ∧ (new t size).output = t ∧
      (new t size).outputLength = 0 ∧ (new t size).wild = false := by
  rw [new, if_pos ht]
  refine ⟨?_, ?_, resize_rest.1, resize_rest.2.2.2.2.1, resize_wild⟩
  · rw [resize_data]
    simp [data]
  · unfold resize
    split
    · rename_i h
      exact (Nat.le_zero.1 h).symm
    · simp [data]

/-- The column with a buffer that is not empty. -/
def filled (c : OutputColumn) : OutputColumn := if c.data.isEmpty then c.resize TRPC_BIND_BUFFER_MIN_SIZE else c

theorem filled_rest : c.filled.output = c.output ∧ c.filled.bind = c.bind ∧
    c.filled.outputLength = c.outputLength ∧ c.filled.wild = c.wild := by
  unfold filled
  split
  · exact ⟨resize_rest.1, resize_rest.2.2.1, resize_rest.2.2.2.2.1, resize_wild⟩
  · exact ⟨rfl, rfl, rfl, rfl⟩

theorem filled_size {size : ℕ} (hdata : c.data = List.replicate size 0) (hcap : c.capacity = size) :
    c.filled.data.length = bufferSize size ∧ c.filled.capacity = bufferSize size := by
  unfold filled bufferSize
  by_cases hsize : size = 0
  · subst hsize
    have hcapacity : (c.resize TRPC_BIND_BUFFER_MIN_SIZE).capacity = TRPC_BIND_BUFFER_MIN_SIZE := by
      simp [resize, hdata, hcap, TRPC_BIND_BUFFER_MIN_SIZE]
    simp [hdata, hcapacity, resize_data]
  · have hne : ¬ c.data.isEmpty = true := by
      rw [hdata]
      simpa using hsize
    rw [if_neg hne, if_neg hsize]
    exact ⟨by rw [hdata, List.length_replicate], hcap⟩

/-- `StepOutputBind` of a string or blob. -/
theorem stepOutputBind_dynamic (h : c.output.dynamic = true) : ∃ type, (type = .string ∨ type = c.bind.bufferType ∧
    c.output = .mysqlBlob) ∧ c.stepOutputBind = { c.filled with bind := { c.filled.bind with
      bufferType := type, buffer := ⟨c.filled.block, 0⟩, bufferLength := c.filled.data.length } } := by
  unfold stepOutputBind
  cases ho : c.output with
  | string => exact ⟨.string, .inl rfl, rfl⟩
  | mysqlBlob =>
    exact ⟨c.filled.bind.bufferType, .inr ⟨congrArg OutputBind.bufferType filled_rest.2.1, rfl⟩, rfl⟩
  | _ => simp [ho, OutputArg.dynamic] at h

/-- **A string or blob starts with a buffer of its own.** -/
theorem bound_fresh {t : OutputArg} {f : Field} (ht : t.dynamic = true) (hf : t.valid f.type = true) (size : ℕ) :
    ((new t size).bindOutput f).bindResult.Fresh ∧
      ((new t size).bindOutput f).bindResult.bound.bufferLength = bufferSize size ∧
      ((new t size).bindOutput f).bindResult.wild = false := by
  obtain ⟨hdata, hcap, hout, hlen, hwild⟩ := new_dynamic ht size
  set c : OutputColumn := { new t size with field := f, bind := { (new t size).bind with bufferType := f.type } }
    with hc
  obtain ⟨hsize, hcapacity⟩ := filled_size (c := c) hdata hcap
  obtain ⟨type, htype, hbind⟩ := stepOutputBind_dynamic (c := c) (by rw [hc]; simpa [hout] using ht)
  have hdyn : type.dynamic = true := by
    rcases htype with rfl | ⟨rfl, hblob⟩
    · rfl
    · have hblob : t = .mysqlBlob := hout.symm.trans hblob
      subst hblob
      simp only [OutputArg.valid, OutputArg.types, List.mem_cons, List.not_mem_nil, or_false, decide_eq_true_eq] at hf
      show f.type.dynamic = true
      rcases hf with hf | hf | hf | hf | hf <;> rw [hf] <;> rfl
  rw [bindOutput, ← hc, hbind]
  have hzero : c.filled.outputLength ≤ c.filled.data.length := by
    rw [filled_rest.2.2.1, show c.outputLength = 0 from hlen]
    exact Nat.zero_le _
  refine ⟨⟨⟨?_, hdyn, hdyn, rfl, le_rfl, hzero⟩, rfl, rfl, hcapacity.trans hsize.symm⟩, hsize, ?_⟩
  · exact (congrArg OutputArg.dynamic ((filled_rest (c := c)).1.trans hout)).trans ht
  · exact filled_rest.2.2.2.trans hwild

end OutputColumn

/-! ## All columns -/

/-- Output `j` is a string or blob. -/
def DynamicAt (outputs : List OutputArg) (j : ℕ) : Prop := ∃ t, outputs[j]? = some t ∧ t.dynamic = true

/-- One tuple for each row, and in it the bytes of each string and blob that is not NULL, in full. -/
structure Faithful (outputs : List OutputArg) (rows : List ServerRow) (tuples : List Row) : Prop where
  length : tuples.length = rows.length
  element : ∀ (i j : ℕ) (row : ServerRow) (tuple : Row) (v : Bytes), rows[i]? = some row → tuples[i]? = some tuple →
    DynamicAt outputs j → row.value j = some v → tuple[j]? = some v

/-- Whatever is fetched into a string's or blob's buffer is stored in that buffer. -/
def InBounds (outputs : List OutputArg) (size : ℕ) (fields : List Field) (rows : List ServerRow) : Prop :=
  ∀ (j : ℕ) (c : OutputColumn), DynamicAt outputs j →
    ((QueryHandle.bound outputs size fields).fetchRows rows)[j]? = some c → c.wild = false

section Tuples

variable {outputs : List OutputArg} {fields : List Field} {size : ℕ} {rows : List ServerRow} {j : ℕ}

/-- The column that a string or blob is bound to. -/
theorem dynamic_column (size : ℕ) (hcheck : checkFieldsOutputArgs outputs fields = "") (hj : DynamicAt outputs j) :
    ∃ c : OutputColumn, (QueryHandle.bound outputs size fields)[j]? = some c ∧ c.Fresh ∧
      c.bound.bufferLength = OutputColumn.bufferSize size ∧ c.wild = false := by
  obtain ⟨t, ht, hdyn⟩ := hj
  obtain ⟨hlen, hvalid⟩ := checked_columns hcheck
  obtain ⟨hlt, -⟩ := List.getElem?_eq_some_iff.1 ht
  have hj : j < fields.length := by omega
  have hf : fields[j]? = some fields[j] := List.getElem?_eq_getElem hj
  exact ⟨_, QueryHandle.bound_getElem? ht hf, OutputColumn.bound_fresh hdyn (hvalid j t _ ht hf) size⟩

/-- The tuples are faithful exactly if each column delivers its values. -/
theorem faithful_iff_delivers (hcheck : checkFieldsOutputArgs outputs fields = "") :
    Faithful outputs rows ((QueryHandle.bound outputs size fields).tuples rows) ↔
      ∀ j, DynamicAt outputs j → ∀ c, (QueryHandle.bound outputs size fields)[j]? = some c →
        c.Delivers (columnOf rows j) := by
  constructor
  · intro h j hj c hc i v hv
    obtain ⟨c', hc', hfresh, -⟩ := dynamic_column size hcheck hj
    obtain rfl : c = c' := Option.some.inj (hc.symm.trans hc')
    simp only [columnOf, List.getElem?_map, Option.map_eq_some_iff] at hv
    obtain ⟨row, hrow, hv⟩ := hv
    obtain ⟨hi, -⟩ := List.getElem?_eq_some_iff.1 hrow
    have htuple := QueryHandle.tuples_getElem? rows (.bound outputs size fields) i
    rw [if_pos hi] at htuple
    have helem := QueryHandle.tuples_element hc hfresh.alone htuple
    exact Option.some.inj (helem.symm.trans (h.element i j row _ v hrow htuple hj hv))
  · intro h
    refine ⟨QueryHandle.length_tuples rows _, fun i j row tuple v hrow htuple hj hv => ?_⟩
    obtain ⟨c, hc, hfresh, -⟩ := dynamic_column size hcheck hj
    rw [QueryHandle.tuples_element hc hfresh.alone htuple]
    have hvalue : (columnOf rows j)[i]? = some (some v) := by rw [columnOf_getElem? hrow, hv]
    exact congrArg some (h j hj c hc i v hvalue)

/-- No store leaves its buffer exactly if none does in any column. -/
theorem inBounds_iff (hcheck : checkFieldsOutputArgs outputs fields = "") : InBounds outputs size fields rows ↔
    ∀ j, DynamicAt outputs j → ∀ v ∈ (OutputColumn.fromLong (OutputColumn.bufferSize size) (columnOf rows j)).tail,
      v = [] := by
  refine forall_congr' fun j => ?_
  by_cases hj : DynamicAt outputs j
  · obtain ⟨c, hc, hfresh, hsize, hwild⟩ := dynamic_column size hcheck hj
    have hrows := QueryHandle.fetchRows_getElem? rows hc hfresh.alone
    have hiff : (c.run (columnOf rows j)).wild = false ↔ _ :=
      hfresh.wild_iff (by rw [hsize]; exact OutputColumn.bufferSize_pos size)
    rw [hsize] at hiff
    refine ⟨fun h _ => (hiff.1 (h _ hj hrows)).2, fun h c' _ hc' => ?_⟩
    obtain rfl : c.run (columnOf rows j) = c' := Option.some.inj (hrows.symm.trans hc')
    exact hiff.2 ⟨hwild, h hj⟩
  · exact ⟨fun _ h => absurd h hj, fun _ _ h => absurd h hj⟩

end Tuples

/-- Empty values are nested with any other. -/
theorem pairwise_of_tail_nil {α : Type} : ∀ {vs : List (List α)}, (∀ v ∈ vs.tail, v = []) → vs.Pairwise Nested
  | [], _ => .nil
  | v :: vs, h => by
    have hrest : vs.Pairwise Nested := List.pairwise_of_forall_mem_list fun x hx y _ => by
      rw [h x hx]
      exact .inl List.nil_prefix
    exact .cons (fun x hx => by rw [h x hx]; exact .inr List.nil_prefix) hrest

/-- **Strings and blobs come out in full exactly if**, in each of their columns, the values from the first on
that is longer than its buffer are prefixes of one another; and they do so without a store into memory
that a buffer gave up exactly if only NULLs and empty values come after that first one. -/
theorem fetch_faithful_iff {outputs : List OutputArg} {fields : List Field} {size : ℕ} {stmt : MysqlStatement}
    {r r' : MysqlResults} {tr : List LibCall} (hcheck : checkFieldsOutputArgs outputs fields = "")
    (hpath : (MysqlExecutor.fetchResults (.bound outputs size fields) stmt r).Path libCalls tr (true, r'))
    (hrefetched : Refetched tr) : ∃ tuples, r'.resultSet = r.resultSet ++ tuples ∧
      (Faithful outputs (servedRows tr) tuples ↔ ∀ j, DynamicAt outputs j →
        (OutputColumn.fromLong (OutputColumn.bufferSize size) (columnOf (servedRows tr) j)).Pairwise Nested) ∧
      (Faithful outputs (servedRows tr) tuples ∧ InBounds outputs size fields (servedRows tr) ↔
        ∀ j, DynamicAt outputs j →
          ∀ v ∈ (OutputColumn.fromLong (OutputColumn.bufferSize size) (columnOf (servedRows tr) j)).tail, v = []) := by
  obtain ⟨xs, rfl, hr⟩ := MysqlExecutor.fetchResults_calls stmt r _ _ _ hpath
  rw [QueryHandle.servedRows_rowCalls]
  have htuples := QueryHandle.tuplesWith_whole hrefetched
  generalize xs.map FetchedRow.row = rows at htuples ⊢
  have hfaithful : Faithful outputs rows ((QueryHandle.bound outputs size fields).tuples rows) ↔
      ∀ j, DynamicAt outputs j →
        (OutputColumn.fromLong (OutputColumn.bufferSize size) (columnOf rows j)).Pairwise Nested := by
    rw [faithful_iff_delivers hcheck]
    refine forall_congr' fun j => forall_congr' fun hj => ?_
    obtain ⟨c, hc, hfresh, hsize, -⟩ := dynamic_column size hcheck hj
    rw [← hsize, ← hfresh.delivers_iff]
    refine ⟨fun h => h c hc, fun h c' hc' => ?_⟩
    obtain rfl : c = c' := Option.some.inj (hc.symm.trans hc')
    exact h
  refine ⟨_, (congrArg MysqlResults.resultSet hr).trans (congrArg (r.resultSet ++ ·) htuples), hfaithful, ?_⟩
  rw [hfaithful, inBounds_iff hcheck]
  exact ⟨fun h => h.2, fun h => ⟨fun j hj => pairwise_of_tail_nil (h j hj), h⟩⟩

/-- Six bytes and then two, through a buffer of four: the second text comes out as the first begins. -/
theorem fetch_six_two : (MysqlExecutor.fetchResults (.bound [.string] 4 [{ name := "v", type := .varString }])
    { mysqlStmt := some 0, mysql := some 0 } { mode := .bindType [.string] }).Path libCalls
    [.fetched [some [97, 98, 99, 100, 101, 102]], .refetched true, .fetched [some [120, 121]]]
    (true, { mode := .bindType [.string]
             resultSet := [[[97, 98, 99, 100, 101, 102]], [[97, 98]]]
             nullFlags := [[false], [false]] }) :=
  path_of_run (List.replicate 5 {}) (pendingRows [[some [97, 98, 99, 100, 101, 102]], [some [120, 121]]]) rfl

/-- Six bytes and then none, through the same buffer. -/
theorem fetch_six_none : (MysqlExecutor.fetchResults (.bound [.string] 4 [{ name := "v", type := .varString }])
    { mysqlStmt := some 0, mysql := some 0 } { mode := .bindType [.string] }).Path libCalls
    [.fetched [some [97, 98, 99, 100, 101, 102]], .refetched true, .fetched [some []]]
    (true, { mode := .bindType [.string]
             resultSet := [[[97, 98, 99, 100, 101, 102]], [[]]]
             nullFlags := [[false], [false]] }) :=
  path_of_run (List.replicate 5 {}) (pendingRows [[some [97, 98, 99, 100, 101, 102]], [some []]]) rfl

theorem fetch_faithful_six_none :
    Faithful [.string] [[some [97, 98, 99, 100, 101, 102]], [some []]] [[[97, 98, 99, 100, 101, 102]], [[]]] := by
  obtain ⟨tuples, htuples, hiff, -⟩ := fetch_faithful_iff (by decide) fetch_six_none (by simp [Refetched])
  obtain rfl : [[[97, 98, 99, 100, 101, 102]], [[]]] = tuples := htuples
  refine hiff.2 fun j hj => ?_
  obtain ⟨t, ht, -⟩ := hj
  obtain ⟨hj, -⟩ := List.getElem?_eq_some_iff.1 ht
  obtain rfl : j = 0 := by simpa using hj
  decide

/-- A short text after a long one is not the server's. -/
theorem fetch_stale_text : ¬ ∀ (outputs : List OutputArg) (fields : List Field) (size : ℕ) (stmt : MysqlStatement)
    (r r' : MysqlResults) (tr : List LibCall), checkFieldsOutputArgs outputs fields = "" →
      (MysqlExecutor.fetchResults (.bound outputs size fields) stmt r).Path libCalls tr (true, r') → Refetched tr →
      ∃ tuples, r'.resultSet = r.resultSet ++ tuples ∧ Faithful outputs (servedRows tr) tuples := by
  intro h
  obtain ⟨tuples, htuples, hf⟩ := h _ _ _ _ _ _ _ (by decide) fetch_six_two (by simp [Refetched])
  obtain rfl : [[[97, 98, 99, 100, 101, 102]], [[97, 98]]] = tuples := htuples
  have := hf.element 1 0 [some [120, 121]] [[97, 98]] [120, 121] rfl rfl ⟨.string, rfl, rfl⟩ rfl
  exact absurd this (by decide)

end TrpcMysql
