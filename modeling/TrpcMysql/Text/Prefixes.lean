import Mathlib.Data.List.Basic
import Mathlib.Tactic.Common

/-!
# Prefixes of one another

Two lists are nested when one is a prefix of the other. A list that is laid over another, and only its
tail beyond the other's end is taken over (`grow`), comes out whole exactly if the two are nested
(`take_grow_iff`). Of nested lists `grow` is the longer one, so a family is nested pairwise
exactly if each member is nested with the longest before it (`pairwise_cons_cons`).
-/

namespace Prefixes

variable {α : Type} {d v x : List α} {vs : List (List α)}

def Nested (v w : List α) : Prop := v <+: w ∨ w <+: v

instance [DecidableEq α] : DecidableRel (Nested (α := α)) := fun _ _ => inferInstanceAs (Decidable (_ ∨ _))

/-- `d`, and what `v` has beyond its end. -/
def grow (d v : List α) : List α := d ++ v.drop d.length

theorem Nested.symm (h : Nested v d) : Nested d v := Or.symm h

/-- A prefix is nested with whatever the whole is nested with. -/
theorem Nested.of_start (h : v <+: d) (hx : Nested d x) : Nested v x := by
  rcases hx with hx | hx
  · exact .inl (h.trans hx)
  · exact List.prefix_or_prefix_of_prefix h hx

theorem grow_of_start (h : v <+: d) : grow d v = d := by
  rw [grow, List.drop_eq_nil_of_le h.length_le, List.append_nil]

theorem grow_of_extension (h : d <+: v) : grow d v = v := by
  obtain ⟨t, rfl⟩ := h
  rw [grow, List.drop_left]

theorem prefix_grow : d <+: grow d v := List.prefix_append _ _

theorem length_grow : (grow d v).length = max d.length v.length := by
  rw [grow, List.length_append, List.length_drop]
  omega

/-- **`v` comes out whole exactly if it is nested with `d`.** -/
theorem take_grow_iff : (grow d v).take v.length = v ↔ Nested d v := by
  constructor
  · intro h
    have hv : v <+: grow d v := List.prefix_iff_eq_take.2 h.symm
    exact List.prefix_or_prefix_of_prefix prefix_grow hv
  · rintro (h | h)
    · rw [grow_of_extension h, List.take_length]
    · rw [grow_of_start h]
      exact (List.prefix_iff_eq_take.1 h).symm

theorem pairwise_cons_cons :
    (d :: v :: vs).Pairwise Nested ↔ Nested d v ∧ (grow d v :: vs).Pairwise Nested := by
  simp only [List.pairwise_cons, List.mem_cons, forall_eq_or_imp]
  constructor
  · rintro ⟨⟨hdv, hd⟩, hv, hvs⟩
    refine ⟨hdv, fun x hx => ?_, hvs⟩
    rcases hdv with h | h
    · rw [grow_of_extension h]
      exact hv x hx
    · rw [grow_of_start h]
      exact hd x hx
  · rintro ⟨hdv, hlong, hvs⟩
    have hv : v <+: grow d v := List.prefix_iff_eq_take.2 (take_grow_iff.2 hdv).symm
    exact ⟨⟨hdv, fun x hx => (hlong x hx).of_start prefix_grow⟩,
      fun x hx => (hlong x hx).of_start hv, hvs⟩

end Prefixes
