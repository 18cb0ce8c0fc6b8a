import Mathlib.Data.Int.Notation
import Mathlib.Tactic.Ring

/-!
# Integers in bytes

An integer of `w` bytes, the lowest first, unsigned or in two's complement. Bytes are read as either
(`intValue`), and every integer is written modulo `256 ^ w` (`intBytes`). Reading gives back what was written
exactly if it is in the range of the reader's type (`intValue_intBytes_iff`), and two readers agree on bytes
exactly if the one's value is in the other's range (`intValue_eq_iff`).
-/

namespace LittleEndian

/-- The number that little-endian bytes represent. -/
def natValue : List UInt8 → ℕ
  | [] => 0
  | b :: bytes => b.toNat + 256 * natValue bytes

/-- The same of an integer's bytes, in two's complement if it is signed. -/
def intValue (unsigned : Bool) (bytes : List UInt8) : ℤ :=
  if !unsigned && decide (256 ^ bytes.length ≤ 2 * natValue bytes) then natValue bytes - 256 ^ bytes.length
  else natValue bytes

/-- The `w` lowest bytes of a number. -/
def natBytes : ℕ → ℕ → List UInt8
  | 0, _ => []
  | w + 1, n => UInt8.ofNat n :: natBytes w (n / 256)

/-- An integer, modulo `256 ^ w`. -/
def intBytes (w : ℕ) (n : ℤ) : List UInt8 := natBytes w (n % 256 ^ w).toNat

/-- The integers of `w` bytes. -/
def InRange (unsigned : Bool) (w : ℕ) (n : ℤ) : Prop :=
  if unsigned then 0 ≤ n ∧ n < 256 ^ w else -256 ^ w ≤ 2 * n ∧ 2 * n < 256 ^ w

instance (unsigned : Bool) (w : ℕ) (n : ℤ) : Decidable (InRange unsigned w n) := by
  unfold InRange
  infer_instance

theorem natValue_lt : ∀ bytes : List UInt8, natValue bytes < 256 ^ bytes.length := by
  intro bytes
  induction bytes with
  | nil => decide
  | cons b bytes ih =>
    have hb := b.toNat_lt
    rw [natValue, List.length_cons, Nat.pow_succ]
    omega

@[simp] theorem length_natBytes : ∀ w n : ℕ, (natBytes w n).length = w := by
  intro w
  induction w with
  | zero => intro n; rfl
  | succ w ih => intro n; rw [natBytes, List.length_cons, ih]

@[simp] theorem length_intBytes (w : ℕ) (n : ℤ) : (intBytes w n).length = w := length_natBytes _ _

theorem natValue_natBytes : ∀ w n : ℕ, natValue (natBytes w n) = n % 256 ^ w := by
  intro w
  induction w with
  | zero => intro n; rw [Nat.pow_zero, Nat.mod_one]; rfl
  | succ w ih =>
    intro n
    rw [natBytes, natValue, ih, Nat.pow_succ', Nat.mod_mul]
    rfl

/-- What the signedness makes of the bytes, with their number and their number's bound. -/
theorem intValue_eq (unsigned : Bool) (bytes : List UInt8) : ∃ n m : ℤ, 0 ≤ n ∧ n < m ∧
    m = 256 ^ bytes.length ∧ n = natValue bytes ∧
    intValue unsigned bytes = if unsigned = false ∧ m ≤ 2 * n then n - m else n := by
  have hlt := natValue_lt bytes
  refine ⟨natValue bytes, 256 ^ bytes.length, by omega, by exact_mod_cast hlt, rfl, rfl, ?_⟩
  unfold intValue
  have hcast : ((256 ^ bytes.length : ℕ) : ℤ) = 256 ^ bytes.length := by push_cast; rfl
  have hiff : (256 : ℤ) ^ bytes.length ≤ 2 * natValue bytes ↔ 256 ^ bytes.length ≤ 2 * natValue bytes := by
    rw [← hcast]
    omega
  cases unsigned <;> simp [hiff]

theorem inRange_intValue (unsigned : Bool) (bytes : List UInt8) :
    InRange unsigned bytes.length (intValue unsigned bytes) := by
  obtain ⟨n, m, h0, hlt, hm, -, h⟩ := intValue_eq unsigned bytes
  unfold InRange
  rw [h, ← hm]
  cases unsigned <;> simp only [if_true, Bool.false_eq_true, Bool.true_eq_false, if_false, true_and, false_and]
  · split <;> omega
  · exact ⟨h0, hlt⟩

/-- **Two readers agree** exactly if the one's value is in the other's range. -/
theorem intValue_eq_iff (unsigned unsigned' : Bool) (bytes : List UInt8) :
    intValue unsigned bytes = intValue unsigned' bytes ↔ InRange unsigned bytes.length (intValue unsigned' bytes) := by
  refine ⟨fun h => h ▸ inRange_intValue unsigned bytes, fun h => ?_⟩
  obtain ⟨n, m, h0, hlt, hm, hn, hu⟩ := intValue_eq unsigned bytes
  obtain ⟨n', m', -, -, hm', hn', hu'⟩ := intValue_eq unsigned' bytes
  obtain rfl : m' = m := hm'.trans hm.symm
  obtain rfl : n' = n := hn'.trans hn.symm
  rw [hu, hu']
  unfold InRange at h
  rw [hu', ← hm] at h
  cases unsigned <;> cases unsigned' <;> simp only [if_true, Bool.false_eq_true, Bool.true_eq_false, if_false,
    true_and, false_and] at h ⊢
  · split <;> omega
  · by_cases hc : m' ≤ 2 * n'
    · rw [if_pos hc] at h ⊢
      omega
    · rw [if_neg hc]

/-- **A reader of the bytes gets the integer back** exactly if it is in the reader's range. -/
theorem intValue_intBytes_iff (unsigned : Bool) (w : ℕ) (n : ℤ) :
    intValue unsigned (intBytes w n) = n ↔ InRange unsigned w n := by
  constructor
  · intro h
    have := inRange_intValue unsigned (intBytes w n)
    rwa [h, length_intBytes] at this
  · intro h
    obtain ⟨k, m, h0, hlt, hm, hk, hu⟩ := intValue_eq unsigned (intBytes w n)
    rw [length_intBytes] at hm
    have hpos : 0 < m := by omega
    have hmod : k = n % m := by
      rw [hk, intBytes, natValue_natBytes, ← hm]
      have hnonneg := Int.emod_nonneg n hpos.ne'
      have hbound := Int.emod_lt_of_pos n hpos
      have hcast : ((256 ^ w : ℕ) : ℤ) = m := by rw [hm]; push_cast; rfl
      rw [Int.natCast_mod, hcast, Int.toNat_of_nonneg hnonneg, Int.emod_emod]
    rw [hu]
    unfold InRange at h
    rw [← hm] at h
    cases unsigned <;> simp only [if_true, Bool.false_eq_true, Bool.true_eq_false, if_false, true_and,
      false_and] at h ⊢
    · by_cases hn : 0 ≤ n
      · rw [hmod, Int.emod_eq_of_lt hn (by omega), if_neg (by omega)]
      · have : n % m = n + m := by
          rw [← Int.add_emod_right, Int.emod_eq_of_lt (by omega) (by omega)]
        rw [hmod, this, if_pos (by omega)]
        omega
    · rw [hmod, Int.emod_eq_of_lt h.1 h.2]

end LittleEndian
