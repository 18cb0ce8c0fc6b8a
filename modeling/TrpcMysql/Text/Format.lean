import Mathlib.Data.List.Count
import TrpcMysql.Text.Lexing

/-!
# Format strings and substitution

`format` is the part of the `fmt` syntax that a text without directives uses: `{}` takes the next
argument and a doubled brace stands for one brace. What a format string means from a directive on is
a parameter, and an unmatched brace or a missing argument is an error.

`substitute` puts arguments in the place of the marked bytes of a text. `format_counts` tells how
many braces go into a formatted text, and `substitute_inj` that the marked places show in the result.
-/

namespace SqlText

abbrev openBrace : UInt8 := 123
abbrev closeBrace : UInt8 := 125

def isBrace (b : UInt8) : Bool := b == openBrace || b == closeBrace

/-- The formatted text, if there is no error. -/
def format (directive : Text → List Text → Option Text) : Text → List Text → Option Text
  | [], _ => some []
  | [b], _ => if isBrace b then none else some [b]
  | b :: c :: t, as =>
    if b = openBrace then
      if c = openBrace then (format directive t as).map (openBrace :: ·)
      else if c = closeBrace then
        match as with
        | [] => none
        | a :: as => (format directive t as).map (a ++ ·)
      else directive (b :: c :: t) as
    else if b = closeBrace then
      if c = closeBrace then (format directive t as).map (closeBrace :: ·) else none
    else (format directive (c :: t) as).map (b :: ·)

/-- The text with the `k`-th marked byte replaced by the `k`-th argument. -/
def substitute : List Bool → Text → List Text → Text
  | true :: bs, _ :: t, a :: as => a ++ substitute bs t as
  | _ :: bs, b :: t, as => b :: substitute bs t as
  | _, _, _ => []

section Format

variable {directive : Text → List Text → Option Text} {t : Text} {as : List Text} {b : UInt8}

theorem format_cons (hb : isBrace b = false) :
    format directive (b :: t) as = (format directive t as).map (b :: ·) := by
  obtain ⟨ho, hc⟩ : b ≠ openBrace ∧ b ≠ closeBrace := by simpa [isBrace] using hb
  cases t with
  | nil => simp [format, hb]
  | cons c t => simp [format, ho, hc]

theorem format_field (a : Text) :
    format directive (openBrace :: closeBrace :: t) (a :: as) = (format directive t as).map (a ++ ·) := by
  have hne : closeBrace ≠ openBrace := by decide
  simp [format, hne]

theorem format_missing : format directive (openBrace :: closeBrace :: t) [] = none := by
  have hne : closeBrace ≠ openBrace := by decide
  simp [format, hne]

/-- Where a directive is an error: a field and a doubled brace take two braces each, and only the
doubled one leaves a brace. -/
theorem format_counts {x : UInt8} (hx : isBrace x = false) {n : ℕ} {out : Text}
    (h : format (fun _ _ => none) t (List.replicate n [x]) = some out) :
    ∃ fields doubled, t.countP isBrace = 2 * fields + 2 * doubled ∧ out.countP isBrace = doubled ∧
      out.length + fields + doubled = t.length := by
  generalize has : List.replicate n [x] = as at h
  fun_induction format (fun _ _ => none) t as generalizing n out with
  | case1 =>
    cases h
    exact ⟨0, 0, rfl, rfl, rfl⟩
  | case2 => cases h
  | case3 b as hb =>
    cases h
    exact ⟨0, 0, by simpa using hb, by simpa using hb, rfl⟩
  | case4 t as ih =>
    obtain ⟨o, ho, rfl⟩ := Option.map_eq_some_iff.1 h
    obtain ⟨f, d, h₁, h₂, h₃⟩ := ih has ho
    refine ⟨f, d + 1, ?_, ?_, ?_⟩
    · simp [isBrace] at h₁ ⊢; omega
    · simp [isBrace] at h₂ ⊢; omega
    · simp only [List.length_cons]; omega
  | case5 => cases h
  | case6 t a as hne ih =>
    obtain ⟨o, ho, rfl⟩ := Option.map_eq_some_iff.1 h
    cases n with
    | zero => cases has
    | succ n =>
      rw [List.replicate_succ] at has
      obtain ⟨rfl, htail⟩ := List.cons.inj has
      obtain ⟨f, d, h₁, h₂, h₃⟩ := ih htail ho
      refine ⟨f + 1, d, ?_, ?_, ?_⟩
      · simp [isBrace] at h₁ ⊢; omega
      · simpa [List.countP_cons, hx] using h₂
      · simp only [List.singleton_append, List.length_cons]; omega
  | case7 => cases h
  | case8 t as hne ih =>
    obtain ⟨o, ho, rfl⟩ := Option.map_eq_some_iff.1 h
    obtain ⟨f, d, h₁, h₂, h₃⟩ := ih has ho
    refine ⟨f, d + 1, ?_, ?_, ?_⟩
    · simp [isBrace] at h₁ ⊢; omega
    · simp [isBrace] at h₂ ⊢; omega
    · simp only [List.length_cons]; omega
  | case9 => cases h
  | case10 b c t as ho hc ih =>
    obtain ⟨o, hs, rfl⟩ := Option.map_eq_some_iff.1 h
    obtain ⟨f, d, h₁, h₂, h₃⟩ := ih has hs
    have hb : isBrace b = false := by simp [isBrace, ho, hc]
    refine ⟨f, d, ?_, ?_, ?_⟩
    · simpa [List.countP_cons, hb] using h₁
    · simpa [List.countP_cons, hb] using h₂
    · simp only [List.length_cons] at h₃ ⊢; omega

end Format

section Substitute

variable {bs bs' : List Bool} {t : Text} {x : UInt8}

/-- One byte for each marked one. -/
theorem substitute_replicate : ∀ {bs : List Bool} {t : Text} {n : ℕ}, bs.length = t.length → bs.count true ≤ n →
    substitute bs t (List.replicate n [x]) = List.zipWith (fun m b => if m then x else b) bs t := by
  intro bs
  induction bs with
  | nil => intro t n _ _; simp [substitute]
  | cons m bs ih =>
    intro t n hl hn
    cases t with
    | nil => cases hl
    | cons b t =>
      have htail : bs.length = t.length := by simpa using hl
      cases m with
      | false => simp [substitute, ih htail (by simpa using hn)]
      | true =>
        cases n with
        | zero => simp at hn
        | succ n => simp [substitute, List.replicate_succ, ih htail (by simpa using hn)]

/-- The braces of the text stay, if none is marked. -/
theorem countP_zipWith_marks (hx : isBrace x = false) : ∀ {bs : List Bool} {t : Text}, bs.length = t.length →
    (∀ i : ℕ, bs[i]? = some true → t[i]? = some question) →
    (List.zipWith (fun m b => if m then x else b) bs t).countP isBrace = t.countP isBrace := by
  intro bs
  induction bs with
  | nil =>
    intro t hl _
    rw [List.eq_nil_of_length_eq_zero hl.symm]
    rfl
  | cons m bs ih =>
    intro t hl h
    cases t with
    | nil => cases hl
    | cons b t =>
      have htail := ih (t := t) (by simpa using hl) fun i => h (i + 1)
      rw [List.zipWith_cons_cons, List.countP_cons, List.countP_cons, htail]
      cases m with
      | false => rfl
      | true =>
        have hb : b = question := by simpa using h 0 rfl
        have hbrace : isBrace question = false := by decide
        simp [hb, hbrace, hx]

/-- Markers of a byte that the argument is not show in the result. -/
theorem zipWith_marks_inj {y : UInt8} (hxy : x ≠ y) : ∀ {bs bs' : List Bool} {t : Text}, bs.length = t.length →
    bs'.length = t.length → (∀ i : ℕ, bs[i]? = some true → t[i]? = some y) →
    (∀ i : ℕ, bs'[i]? = some true → t[i]? = some y) →
    List.zipWith (fun m b => if m then x else b) bs t = List.zipWith (fun m b => if m then x else b) bs' t →
      bs = bs' := by
  intro bs
  induction bs with
  | nil =>
    intro bs' t hl hl' _ _ _
    have : bs'.length = 0 := by rw [hl', ← hl]; rfl
    exact (List.eq_nil_of_length_eq_zero this).symm
  | cons m bs ih =>
    intro bs' t hl hl' h h' heq
    cases t with
    | nil => cases hl
    | cons b t =>
      cases bs' with
      | nil => cases hl'
      | cons m' bs' =>
        rw [List.zipWith_cons_cons, List.zipWith_cons_cons] at heq
        obtain ⟨hb, ht⟩ := List.cons.inj heq
        have hbs : bs = bs' := ih (by simpa using hl) (by simpa using hl') (fun i => h (i + 1)) (fun i => h' (i + 1)) ht
        have hm : m = true → b = y := fun hm => by simpa using h 0 (by simp [hm])
        have hm' : m' = true → b = y := fun hm => by simpa using h' 0 (by simp [hm])
        cases m <;> cases m' <;> simp_all

end Substitute

end SqlText
