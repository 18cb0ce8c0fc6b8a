import Mathlib.Logic.Function.Basic
import Mathlib.Data.Nat.Notation
import Mathlib.Tactic.Common

/-!
# A ledger of resources and their holders

Resources are numbered in the order in which they are issued, and the ledger counts how often each was
released. A holder holds one resource at most. `Settled` says that a resource is held and was not released,
or is not held and was released once. Giving back, issuing and handing over keep the balance; a resource
that is issued to nobody, or that its holder forgets, is lost (`Balanced.not_settled_issue`,
`Balanced.not_settled_forget`).
-/

/-- How many resources were issued, and how often each was released. -/
structure Ledger where
  issued : ℕ := 0
  released : ℕ → ℕ := fun _ => 0

namespace Ledger

open Function

/-- The next `k` resources are issued. -/
def issue (l : Ledger) (k : ℕ) : Ledger := { l with issued := l.issued + k }

def release (l : Ledger) (n : ℕ) : Ledger := { l with released := update l.released n (l.released n + 1) }

/-- What a holder holds is given back. -/
def giveBack (l : Ledger) : Option ℕ → Ledger
  | some n => l.release n
  | none => l

@[simp] theorem giveBack_issued (l : Ledger) (h : Option ℕ) : (l.giveBack h).issued = l.issued := by
  cases h <;> rfl

variable {ι : Type}

/-- The resources that were not released are those that are held; the others were released once. -/
def Settled (held : ι → Option ℕ) (l : Ledger) : Prop :=
  ∀ n < l.issued, ((∃ i, held i = some n) ∧ l.released n = 0) ∨ ((∀ i, held i ≠ some n) ∧ l.released n = 1)

/-- Each resource that is held has one holder, and the ledger is settled. -/
structure Balanced (held : ι → Option ℕ) (l : Ledger) : Prop where
  known : ∀ i n, held i = some n → n < l.issued
  fresh : ∀ n, l.issued ≤ n → l.released n = 0
  owner : ∀ i j n, held i = some n → held j = some n → i = j
  settled : Settled held l

theorem balanced_empty : Balanced (fun _ : ι => none) {} :=
  ⟨fun _ _ h => (by cases h), fun _ _ => rfl, fun _ _ _ h => (by cases h), fun _ h => (by cases h)⟩

namespace Balanced

variable {held : ι → Option ℕ} {l : Ledger} {i j : ι} {n : ℕ}

/-- **A resource that is issued to nobody is lost.** -/
theorem not_settled_issue (h : Balanced held l) {k : ℕ} (hk : 0 < k) : ¬ Settled held (l.issue k) := by
  intro hs
  rcases hs l.issued (Nat.lt_add_of_pos_right hk) with ⟨⟨i, hi⟩, -⟩ | ⟨-, h1⟩
  · exact Nat.lt_irrefl _ (h.known i _ hi)
  · have h0 : l.released l.issued = 0 := h.fresh _ (Nat.le_refl _)
    have h1 : l.released l.issued = 1 := h1
    omega

/-- **A resource that its holder forgets is lost.** -/
theorem not_settled_forget (h : Balanced held l) (hi : held i = some n) {held' : ι → Option ℕ}
    (hnone : ∀ k, held' k ≠ some n) : ¬ Settled held' l := by
  intro hs
  have hn := h.known i n hi
  rcases hs n hn with ⟨⟨k, hk⟩, -⟩ | ⟨-, h1⟩
  · exact hnone k hk
  · rcases h.settled n hn with ⟨-, h0⟩ | ⟨hnone, -⟩
    · omega
    · exact hnone i hi

variable [DecidableEq ι]

/-- **A holder gives back what it holds.** -/
theorem giveBack (h : Balanced held l) (i : ι) : Balanced (update held i none) (l.giveBack (held i)) := by
  cases hi : held i with
  | none =>
    have hsame : update held i none = held := by rw [← hi, update_eq_self]
    rw [hsame]
    exact h
  | some n =>
    have hn : n < l.issued := h.known i n hi
    -- what any other holder holds is as before
    have hne : ∀ {j m}, update held i none j = some m → j ≠ i ∧ held j = some m := by
      intro j m hj
      by_cases hji : j = i
      · subst hji
        rw [update_self] at hj
        cases hj
      · rw [update_of_ne hji] at hj
        exact ⟨hji, hj⟩
    refine ⟨fun j m hj => h.known j m (hne hj).2, fun m hm => ?_,
      fun j k m hj hk => h.owner j k m (hne hj).2 (hne hk).2, fun m hm => ?_⟩
    · have : m ≠ n := by
        have : l.issued ≤ m := hm
        omega
      exact (update_of_ne this ..).trans (h.fresh m hm)
    · by_cases hmn : m = n
      · -- the one that is given back
        subst hmn
        have hzero : l.released m = 0 := by
          rcases h.settled m hm with ⟨-, h0⟩ | ⟨hnone, -⟩
          · exact h0
          · exact absurd hi (hnone i)
        refine .inr ⟨fun j hj => ?_, ?_⟩
        · obtain ⟨hji, hj⟩ := hne hj
          exact hji (h.owner j i m hj hi)
        · show update l.released m (l.released m + 1) m = 1
          rw [update_self, hzero]
      · have hrel : (l.giveBack (some n)).released m = l.released m := update_of_ne hmn ..
        rw [hrel]
        rcases h.settled m hm with ⟨⟨j, hj⟩, h0⟩ | ⟨hnone, h1⟩
        · refine .inl ⟨⟨j, ?_⟩, h0⟩
          rw [update_of_ne ?_]
          · exact hj
          · rintro rfl
            exact hmn (Option.some.inj (hj.symm.trans hi))
        · exact .inr ⟨fun j hj => hnone j (hne hj).2, h1⟩

/-- **A resource is issued to a holder that holds none.** -/
theorem issue (h : Balanced held l) (hi : held i = none) :
    Balanced (update held i (some l.issued)) (l.issue 1) := by
  -- the holder has the new one, and the others what they had
  have hcases : ∀ {j m}, update held i (some l.issued) j = some m →
      (j = i ∧ m = l.issued) ∨ (j ≠ i ∧ held j = some m) := by
    intro j m hj
    by_cases hji : j = i
    · subst hji
      rw [update_self] at hj
      exact .inl ⟨rfl, (Option.some.inj hj).symm⟩
    · rw [update_of_ne hji] at hj
      exact .inr ⟨hji, hj⟩
  refine ⟨fun j m hj => ?_, fun m hm => ?_, fun j k m hj hk => ?_, fun m hm => ?_⟩
  · rcases hcases hj with ⟨-, rfl⟩ | ⟨-, hj⟩
    · exact Nat.lt_succ_self _
    · exact Nat.lt_succ_of_lt (h.known j m hj)
  · have : l.issued + 1 ≤ m := hm
    exact h.fresh m (by omega)
  · rcases hcases hj with ⟨hji, hm⟩ | ⟨-, hj'⟩ <;> rcases hcases hk with ⟨hki, hm'⟩ | ⟨-, hk'⟩
    · exact hji.trans hki.symm
    · have := h.known k m hk'
      omega
    · have := h.known j m hj'
      omega
    · exact h.owner j k m hj' hk'
  · by_cases hmn : m = l.issued
    · subst hmn
      exact .inl ⟨⟨i, update_self ..⟩, h.fresh _ (Nat.le_refl _)⟩
    · have hlt : m < l.issued := by
        have : m < l.issued + 1 := hm
        omega
      rcases h.settled m hlt with ⟨⟨j, hj⟩, h0⟩ | ⟨hnone, h1⟩
      · refine .inl ⟨⟨j, ?_⟩, h0⟩
        rw [update_of_ne ?_]
        · exact hj
        · rintro rfl
          rw [hi] at hj
          cases hj
      · refine .inr ⟨fun j hj => ?_, h1⟩
        rcases hcases hj with ⟨-, hm⟩ | ⟨-, hj⟩
        · exact hmn hm
        · exact hnone j hj

/-- **A resource is handed over to a holder that holds none.** -/
theorem handOver (h : Balanced held l) (hj : held j = none) :
    Balanced (update (update held i none) j (held i)) l := by
  -- what was held is held by the new holder, and nothing by the old
  have hback : ∀ {k m}, update (update held i none) j (held i) k = some m →
      (k = j ∧ held i = some m) ∨ (k ≠ i ∧ held k = some m) := by
    intro k m hk
    by_cases hkj : k = j
    · subst hkj
      rw [update_self] at hk
      exact .inl ⟨rfl, hk⟩
    · rw [update_of_ne hkj] at hk
      by_cases hki : k = i
      · subst hki
        rw [update_self] at hk
        cases hk
      · rw [update_of_ne hki] at hk
        exact .inr ⟨hki, hk⟩
  refine ⟨fun k m hk => ?_, h.fresh, fun k k' m hk hk' => ?_, fun m hm => ?_⟩
  · rcases hback hk with ⟨-, hk⟩ | ⟨-, hk⟩ <;> exact h.known _ m hk
  · rcases hback hk with ⟨hkj, h1⟩ | ⟨hki, h1⟩ <;> rcases hback hk' with ⟨hkj', h2⟩ | ⟨hki', h2⟩
    · exact hkj.trans hkj'.symm
    · exact absurd (h.owner k' i m h2 h1) hki'
    · exact absurd (h.owner k i m h1 h2) hki
    · exact h.owner k k' m h1 h2
  · rcases h.settled m hm with ⟨⟨k, hk⟩, h0⟩ | ⟨hnone, h1⟩
    · refine .inl ⟨?_, h0⟩
      by_cases hki : k = i
      · subst hki
        exact ⟨j, (update_self ..).trans hk⟩
      · refine ⟨k, ?_⟩
        rw [update_of_ne ?_, update_of_ne hki]
        · exact hk
        · rintro rfl
          rw [hj] at hk
          cases hk
    · refine .inr ⟨fun k hk => ?_, h1⟩
      rcases hback hk with ⟨-, hk⟩ | ⟨-, hk⟩
      · exact hnone i hk
      · exact hnone k hk

end Balanced

end Ledger
