import Mathlib.Data.List.Sort
import TrpcMysql.Conc.Interleave

/-!
# Calls that follow each other

Calls may share a *lane*, and a guard may ask that calls on one lane follow each other: none starts before those in
progress have ended. Then of two calls on a lane the earlier one has ended (`System.Reach.ended`), and what calls on
one lane leave in a common log stands there in the order of the calls (`System.Reach.inOrder`).
-/

namespace Conc

variable {W Op A C R L N : Type} {Resp : Op → Type} {lane : C → Option L} {log : W → List (ℕ × N)}

/-- The lane of call `i`. -/
def Config.laneOf (cf : Config W Op C R Resp) (lane : C → Option L) (i : ℕ) : Option L :=
  cf.frames[i]?.bind fun f => lane f.call

theorem Config.laneOf_eq {cf : Config W Op C R Resp} {i : ℕ} {c : C} {p : Prog Op Resp R}
    (hf : cf.frames[i]? = some ⟨c, p⟩) : cf.laneOf lane i = lane c := by
  simp [Config.laneOf, hf]

/-- Entries of one lane are in the order of their calls. -/
def InOrder (cf : Config W Op C R Resp) (lane : C → Option L) (x y : ℕ × N) : Prop :=
  ∀ l, cf.laneOf lane x.1 = some l → cf.laneOf lane y.1 = some l → x.1 ≤ y.1

variable {S : System W Op A C R Resp} {g : Guard W Op A C R Resp} {w₀ : W} {cf cf' : Config W Op C R Resp}

/-- Calls keep their lanes. -/
theorem System.step_lane {l : Label A C} {i : ℕ} (hs : S.step cf l = some cf') (hi : i < cf.frames.length) :
    cf'.laneOf lane i = cf.laneOf lane i := by
  cases l with
  | start c =>
    cases hs
    simp only [Config.laneOf, List.getElem?_append_left hi]
  | act j a =>
    obtain ⟨c, o, k, r, w', hf, -, rfl⟩ := System.step_act hs
    by_cases hij : i = j
    · subst hij
      simp only [Config.laneOf, List.getElem?_set_self hi, hf, Option.bind_some]
    · simp only [Config.laneOf, List.getElem?_set_ne (Ne.symm hij)]

/-- **Of two calls on a lane the earlier one has ended.** -/
theorem System.Reach.ended
    (hstart : ∀ cf c, g.start cf c → ∀ l, lane c = some l → ∀ i c', cf.Running i c' → lane c' ≠ some l)
    (h : S.Reach g w₀ cf) : ∀ {i j l c p}, i < j → cf.frames[i]? = some ⟨c, p⟩ → lane c = some l →
      cf.laneOf lane j = some l → p.done = true := by
  induction h with
  | init => exact fun _ hf => by simp at hf
  | @step cf cf' lb hr hg hs ih =>
    intro i j l c p hij hf hc hj
    cases lb with
    | start c' =>
      cases hs
      have hjlt : j < cf.frames.length + 1 := by
        by_contra hle
        rw [Config.laneOf, List.getElem?_eq_none (by simp; omega)] at hj
        cases hj
      have hi : i < cf.frames.length := by omega
      rw [List.getElem?_append_left hi] at hf
      rcases Nat.lt_or_ge j cf.frames.length with hlt | hge
      · rw [Config.laneOf, List.getElem?_append_left hlt] at hj
        exact ih hij hf hc hj
      · -- the new call waits for those in progress
        obtain rfl : j = cf.frames.length := by omega
        simp only [Config.laneOf, List.getElem?_concat_length, Option.bind_some] at hj
        by_contra hd
        exact hstart cf c' hg l hj i c ⟨p, hf, by simpa using hd⟩ hc
    | act k a =>
      obtain ⟨c', o, k', r, w', hf', -, rfl⟩ := System.step_act hs
      have hlen : k < cf.frames.length := (List.getElem?_eq_some_iff.1 hf').1
      have hi : i < cf.frames.length := by
        have := (List.getElem?_eq_some_iff.1 hf).1
        simpa using this
      have hj' : cf.laneOf lane j = some l := by
        rcases Nat.lt_or_ge j cf.frames.length with hlt | hge
        · rw [← System.step_lane hs hlt]
          exact hj
        · rw [Config.laneOf, List.getElem?_eq_none (by simpa using hge)] at hj
          cases hj
      by_cases hik : i = k
      · -- a call that takes a step is not done, so no later call of its lane is in progress
        subst hik
        rw [List.getElem?_set_self hlen] at hf
        cases hf
        have hdone := ih hij hf' hc hj'
        cases hdone
      · rw [List.getElem?_set_ne (Ne.symm hik)] at hf
        exact ih hij hf hc hj'

/-- **The log of a lane is in the order of the calls.** -/
theorem System.Reach.inOrder
    (hstart : ∀ cf c, g.start cf c → ∀ l, lane c = some l → ∀ i c', cf.Running i c' → lane c' ≠ some l)
    (hlog : ∀ i o a w r w', S.exec i o a w = some (r, w') → ∃ new : List N, log w' = log w ++ new.map (i, ·))
    (hw : log w₀ = []) (h : S.Reach g w₀ cf) :
    (∀ x ∈ log cf.world, x.1 < cf.frames.length) ∧ (log cf.world).Pairwise (InOrder cf lane) := by
  induction h with
  | init => simp [hw]
  | @step cf cf' lb hr hg hs ih =>
    obtain ⟨hlt, hord⟩ := ih
    -- what was in order stays so
    have hold : (log cf.world).Pairwise (InOrder cf' lane) := by
      refine hord.imp_of_mem fun {x y} hx hy hxy l hl hl' => hxy l ?_ ?_
      · rwa [← System.step_lane hs (hlt x hx)]
      · rwa [← System.step_lane hs (hlt y hy)]
    cases lb with
    | start c =>
      cases hs
      refine ⟨fun x hx => ?_, hold⟩
      have := hlt x hx
      simp
      omega
    | act i a =>
      obtain ⟨c, o, k, r, w', hf, he, rfl⟩ := System.step_act hs
      have hlen : i < cf.frames.length := (List.getElem?_eq_some_iff.1 hf).1
      obtain ⟨new, hnew⟩ := hlog i o a _ r w' he
      rw [hnew]
      refine ⟨fun x hx => ?_, List.pairwise_append.2 ⟨hold, ?_, fun x hx y hy l hl hl' => ?_⟩⟩
      · rw [List.length_set]
        rcases List.mem_append.1 hx with hx | hx
        · exact hlt x hx
        · obtain ⟨n, -, rfl⟩ := List.mem_map.1 hx
          exact hlen
      · rw [List.pairwise_map]
        exact List.pairwise_of_forall fun _ _ _ _ _ => Nat.le_refl i
      · obtain ⟨n, -, rfl⟩ := List.mem_map.1 hy
        -- call `i` goes on, so no later call of its lane has begun
        by_contra hgt
        rw [System.step_lane hs (hlt x hx)] at hl
        rw [System.step_lane hs hlen, Config.laneOf_eq hf] at hl'
        cases hr.ended hstart (by simpa using hgt) hf hl' hl

/-- A list with the indices of its entries in another one, in order, is a sublist of that one. -/
theorem sublist_of_indices {α β : Type} {l : List α} {f : α → Option β} {xs : List (ℕ × β)}
    (hord : xs.Pairwise fun x y => x.1 < y.1) (hmem : ∀ x ∈ xs, (l[x.1]?.bind f) = some x.2) :
    (xs.map Prod.snd).Sublist (l.filterMap f) := by
  let ys : List (ℕ × β) := l.zipIdx.filterMap fun x => (f x.1).map (x.2, ·)
  have hys : ys.map Prod.snd = l.filterMap f := by
    simp only [ys, List.map_filterMap, Option.map_map]
    calc l.zipIdx.filterMap (fun x => (f x.1).map (Prod.snd ∘ (x.2, ·)))
        = (l.zipIdx.map Prod.fst).filterMap f := by
          rw [List.filterMap_map]
          exact List.filterMap_congr fun x _ => by simp [Function.comp_def]
      _ = l.filterMap f := by rw [List.zipIdx_map_fst]
  have hsorted : ys.Pairwise fun x y => x.1 < y.1 := by
    have hidx : l.zipIdx.Pairwise fun x y => x.2 < y.2 := by
      rw [← List.pairwise_map (f := Prod.snd) (R := (· < ·)), List.zipIdx_map_snd]
      exact List.pairwise_lt_range'
    refine hidx.filterMap _ fun x y hxy a ha b hb => ?_
    obtain ⟨u, -, rfl⟩ := Option.map_eq_some_iff.1 ha
    obtain ⟨v, -, rfl⟩ := Option.map_eq_some_iff.1 hb
    exact hxy
  have hsub : xs ⊆ ys := by
    intro x hx
    obtain ⟨a, ha, hfa⟩ := Option.bind_eq_some_iff.1 (hmem x hx)
    exact List.mem_filterMap.2 ⟨(a, x.1), List.mem_zipIdx_iff_getElem?.2 ha, by simp [hfa]⟩
  have hnodup : xs.Nodup := hord.imp fun hlt heq => by
    subst heq
    exact Nat.lt_irrefl _ hlt
  have : Std.Antisymm fun x y : ℕ × β => x.1 < y.1 := ⟨fun x y hxy hyx => absurd hxy (Nat.not_lt_of_lt hyx)⟩
  have hxs : xs.Sublist ys := List.sublist_of_subperm_of_pairwise (List.subperm_of_subset hnodup hsub) hord hsorted
  rw [← hys]
  exact hxs.map Prod.snd

/-- The same, where each entry stands for the one at its index. -/
theorem sublistForall₂_of_indices {α β γ : Type} {R : γ → β → Prop} {l : List α} {f : α → Option β}
    {xs : List (ℕ × γ)} (hord : xs.Pairwise fun x y => x.1 < y.1)
    (hmem : ∀ x ∈ xs, ∃ y, (l[x.1]?.bind f) = some y ∧ R x.2 y) :
    List.SublistForall₂ R (xs.map Prod.snd) (l.filterMap f) := by
  -- the entries at the indices
  let at? : ℕ × γ → Option (ℕ × β) := fun x => (l[x.1]?.bind f).map (x.1, ·)
  have hall : List.Forall₂ R (xs.map Prod.snd) ((xs.filterMap at?).map Prod.snd) := by
    clear hord
    induction xs with
    | nil => exact .nil
    | cons x xs ih =>
      obtain ⟨y, hy, hR⟩ := hmem x List.mem_cons_self
      have hx : at? x = some (x.1, y) := Option.map_eq_some_iff.2 ⟨y, hy, rfl⟩
      rw [List.filterMap_cons_some hx]
      exact .cons hR (ih fun x' hx' => hmem x' (List.mem_cons_of_mem _ hx'))
  refine List.sublistForall₂_iff.2 ⟨_, hall, sublist_of_indices ?_ fun y hy => ?_⟩
  · refine hord.filterMap _ fun x y hxy a ha b hb => ?_
    obtain ⟨u, -, rfl⟩ := Option.map_eq_some_iff.1 ha
    obtain ⟨v, -, rfl⟩ := Option.map_eq_some_iff.1 hb
    exact hxy
  · obtain ⟨x, -, hx⟩ := List.mem_filterMap.1 hy
    obtain ⟨v, hv, rfl⟩ := Option.map_eq_some_iff.1 hx
    exact hv

end Conc
