import Mathlib.Algebra.Group.Nat.Defs
import Mathlib.Data.List.Basic
import Mathlib.Data.List.Induction
import Mathlib.Data.List.TakeWhile
import Mathlib.Tactic.Common
import TrpcMysql.Text.Lexing

/-!
# Reading from a text

`std::istream` over a text in memory, as `>>` takes characters and unsigned numbers from it: `skipws` is
set, the base is ten, and the locale is the classic one.

A number ends where its digits end (`unsignedInt_digits`), and only in front of it a `-` counts as a sign.
Digits are known by their number and their value (`digits_inj`).
-/

namespace SqlText

/-! ## Digits -/

def isDigit (b : UInt8) : Bool := 48 ≤ b && b ≤ 57

/-- The number that decimal digits represent. -/
def value (ds : Text) : ℕ := ds.foldl (fun v b => 10 * v + (b.toNat - 48)) 0

theorem isDigit_iff {b : UInt8} : isDigit b = true ↔ 48 ≤ b.toNat ∧ b.toNat ≤ 57 := by
  simp [isDigit, UInt8.le_iff_toNat_le]

theorem value_append (ds : Text) (b : UInt8) : value (ds ++ [b]) = 10 * value ds + (b.toNat - 48) := by
  simp [value, List.foldl_append]

theorem value_lt {ds : Text} (h : ∀ b ∈ ds, isDigit b = true) : value ds < 10 ^ ds.length := by
  induction ds using List.reverseRecOn with
  | nil => decide
  | append_singleton ds b ih =>
    have hb := isDigit_iff.1 (h b (by simp))
    have hds := ih fun c hc => h c (by simp [hc])
    rw [value_append, List.length_append, List.length_singleton, Nat.pow_succ]
    omega

/-- Digits of the same number and the same value are the same. -/
theorem digits_inj {ds es : Text} (hd : ∀ b ∈ ds, isDigit b = true) (he : ∀ b ∈ es, isDigit b = true)
    (hlen : ds.length = es.length) (hv : value ds = value es) : ds = es := by
  induction ds using List.reverseRecOn generalizing es with
  | nil => exact (List.eq_nil_of_length_eq_zero hlen.symm).symm
  | append_singleton ds b ih =>
    obtain rfl | ⟨es, c, rfl⟩ := List.eq_nil_or_concat' es
    · simp at hlen
    · have hb := isDigit_iff.1 (hd b (by simp))
      have hc := isDigit_iff.1 (he c (by simp))
      rw [value_append, value_append] at hv
      have hbc : b = c := UInt8.toNat_inj.1 (by omega)
      have hds : ds = es := by
        apply ih (fun d hd' => hd d (by simp [hd'])) (fun d hd' => he d (by simp [hd']))
        · simpa using hlen
        · omega
      rw [hds, hbc]

/-! ## The stream -/

def isSpace (b : UInt8) : Bool := b == 32 || (9 ≤ b && b ≤ 13)

/-- What is still to be read, and `eofbit` and `failbit`. -/
structure Istream where
  rest : Text
  eof : Bool := false
  fail : Bool := false
  deriving DecidableEq, Repr

namespace Istream

/-- The sentry, before every `>>`. -/
def skip (s : Istream) : Istream :=
  if s.eof || s.fail then { s with fail := true }
  else if s.rest.all isSpace then { rest := [], eof := true, fail := true }
  else { s with rest := s.rest.dropWhile isSpace }

/-- `>>` to a `char`. It is left as it is if there is none. -/
def char (s : Istream) : Istream × Option UInt8 :=
  match s.skip with
  | { rest := b :: rest, eof, fail := false } => ({ rest, eof }, some b)
  | s => (s, none)

/-- A sign, and what follows. -/
def sign : Text → Bool × Text
  | b :: t => if b = 45 then (true, t) else if b = 43 then (false, t) else (false, b :: t)
  | [] => (false, [])

/-- `>>` to an `unsigned int`. It is left as it is if the sentry fails, and gets a number otherwise. -/
def unsignedInt (s : Istream) : Istream × Option ℕ :=
  let s := s.skip
  if s.fail then (s, none)
  else
    let (minus, t) := sign s.rest
    let digits := t.takeWhile isDigit
    let rest := t.dropWhile isDigit
    if digits = [] then ({ rest, eof := rest.isEmpty, fail := true }, some 0)
    else if 2 ^ 32 ≤ value digits then ({ rest, eof := rest.isEmpty, fail := true }, some (2 ^ 32 - 1))
    else ({ rest, eof := rest.isEmpty }, some (if minus then (2 ^ 32 - value digits) % 2 ^ 32 else value digits))

/-- A character that is there is taken. -/
theorem char_cons {b : UInt8} {t : Text} (hb : isSpace b = false) :
    char { rest := b :: t } = ({ rest := t }, some b) := by
  simp [char, skip, hb]

end Istream

/-! ## Numbers in a text -/

/-- A number stands at the front of `s`: blanks, a sign perhaps, and the digits up to `t`. -/
structure Numeral (s sign ds t : Text) : Prop where
  text : ∃ blanks : Text, (∀ b ∈ blanks, isSpace b = true) ∧ s = blanks ++ (sign ++ (ds ++ t))
  sign : sign = [] ∨ sign = [43] ∨ sign = [45]
  digits : ∀ b ∈ ds, isDigit b = true
  nonempty : ds ≠ []
  ends : ∀ b ∈ t.head?, isDigit b = false

/-- The `unsigned int` for a number: the largest one for what is too large, and a negative number from the top. -/
def unsignedOf (sign ds : Text) : ℕ :=
  if 2 ^ 32 ≤ value ds then 2 ^ 32 - 1 else if sign = [45] then (2 ^ 32 - value ds) % 2 ^ 32 else value ds

/-- `u` is to be read, and nothing failed so far. -/
structure Istream.Good (s : Istream) (u : Text) : Prop where
  rest : s.rest = u
  fail : s.fail = false
  eof : s.eof = true → u = []

theorem isSpace_of_digit {b : UInt8} (h : isDigit b = true) : isSpace b = false := by
  have hb := isDigit_iff.1 h
  simp [isSpace, ← UInt8.toNat_inj, UInt8.le_iff_toNat_le]
  exact ⟨by omega, fun _ => by omega⟩

theorem dropWhile_blanks {blanks t : Text} (h : ∀ b ∈ blanks, isSpace b = true) :
    (blanks ++ t).dropWhile isSpace = t.dropWhile isSpace := by
  rw [List.dropWhile_append, List.dropWhile_eq_nil_iff.2 h]
  rfl

namespace Istream

variable {s : Istream} {u sign ds t : Text}

/-- After a failure nothing is read. -/
theorem failed_unsignedInt (h : s.fail = true) : s.unsignedInt.1.fail = true ∧ s.unsignedInt.2 = none := by
  have hskip : s.skip.fail = true := by simp [skip, h]
  simp [unsignedInt, hskip]

theorem failed_char (h : s.fail = true) : s.char.1.fail = true := by
  have hskip : s.skip = { s with fail := true } := by simp [skip, h]
  simp [char, hskip]

theorem Good.skip_blank (h : s.Good u) (hu : ∀ b ∈ u, isSpace b = true) : s.skip.fail = true := by
  unfold skip
  split
  · rfl
  · rw [h.rest, if_pos (by simpa using hu)]

/-- Where something stands, the sentry takes the blanks. -/
theorem Good.skip_some (h : s.Good u) (hu : ∃ b ∈ u, isSpace b = false) :
    s.skip = { rest := u.dropWhile isSpace } := by
  obtain ⟨b, hb, hspace⟩ := hu
  have heof : s.eof = false := by
    by_contra hne
    have hnil := h.eof (by simpa using hne)
    simp [hnil] at hb
  have hall : ¬ u.all isSpace = true := fun hall => by
    have hb' := List.all_eq_true.1 hall b hb
    rw [hspace] at hb'
    cases hb'
  unfold skip
  rw [h.rest, if_neg (by simp [heof, h.fail]), if_neg hall]
  obtain ⟨rest, eof, fail⟩ := s
  obtain rfl : eof = false := heof
  obtain rfl : fail = false := h.fail
  rfl

theorem Good.blank_unsignedInt (h : s.Good u) (hu : ∀ b ∈ u, isSpace b = true) :
    s.unsignedInt.1.fail = true ∧ s.unsignedInt.2 = none := by
  have hskip := h.skip_blank hu
  simp [unsignedInt, hskip]

theorem Good.blank_char (h : s.Good u) (hu : ∀ b ∈ u, isSpace b = true) : s.char.1.fail = true := by
  have hskip := h.skip_blank hu
  unfold char
  split
  · rename_i heq
    rw [heq] at hskip
    cases hskip
  · exact hskip

theorem Good.some_char (h : s.Good u) {blanks : Text} {b : UInt8} (hblanks : ∀ b ∈ blanks, isSpace b = true)
    (hb : isSpace b = false) (hu : u = blanks ++ b :: t) : s.char.1.Good t := by
  have hskip := h.skip_some ⟨b, by simp [hu], hb⟩
  rw [hu, dropWhile_blanks hblanks, List.dropWhile_cons_of_neg (by simp [hb])] at hskip
  simp only [char, hskip]
  exact ⟨rfl, rfl, fun h => by cases h⟩

end Istream

namespace Numeral

variable {s sign ds t : Text}

/-- A number does not begin with a blank. -/
theorem dropWhile (h : Numeral s sign ds t) : s.dropWhile isSpace = sign ++ (ds ++ t) := by
  obtain ⟨blanks, hblanks, rfl⟩ := h.text
  rw [dropWhile_blanks hblanks]
  obtain ⟨d, ds', rfl⟩ := List.exists_cons_of_ne_nil h.nonempty
  have hd := isSpace_of_digit (h.digits d (by simp))
  rcases h.sign with rfl | rfl | rfl
  · simp [hd]
  · rw [List.singleton_append, List.dropWhile_cons_of_neg (by decide)]
  · rw [List.singleton_append, List.dropWhile_cons_of_neg (by decide)]

theorem some_mem (h : Numeral s sign ds t) : ∃ b ∈ s, isSpace b = false := by
  obtain ⟨blanks, -, rfl⟩ := h.text
  obtain ⟨d, ds', rfl⟩ := List.exists_cons_of_ne_nil h.nonempty
  exact ⟨d, by simp, isSpace_of_digit (h.digits d (by simp))⟩

theorem takeWhile (h : Numeral s sign ds t) : (ds ++ t).takeWhile isDigit = ds ∧ (ds ++ t).dropWhile isDigit = t := by
  rw [List.takeWhile_append_of_pos h.digits, List.dropWhile_append_of_pos h.digits]
  cases t with
  | nil => simp
  | cons b t => simp [h.ends b (by simp)]

theorem sign_eq (h : Numeral s sign ds t) : Istream.sign (sign ++ (ds ++ t)) = (decide (sign = [45]), ds ++ t) := by
  obtain ⟨d, ds', rfl⟩ := List.exists_cons_of_ne_nil h.nonempty
  have hd := isDigit_iff.1 (h.digits d (by simp))
  have hminus : d ≠ 45 := by
    rintro rfl
    simp at hd
  have hplus : d ≠ 43 := by
    rintro rfl
    simp at hd
  rcases h.sign with rfl | rfl | rfl
  · simp [Istream.sign, hminus, hplus]
  · rfl
  · rfl

/-- **`>>` takes a number whole**, and fails if it is too large. -/
theorem unsignedInt {st : Istream} (hst : st.Good s) (h : Numeral s sign ds t) : st.unsignedInt =
    ({ rest := t, eof := t.isEmpty, fail := decide (2 ^ 32 ≤ value ds) }, some (unsignedOf sign ds)) := by
  have hskip := hst.skip_some h.some_mem
  rw [h.dropWhile] at hskip
  simp only [Istream.unsignedInt, hskip, h.sign_eq, h.takeWhile, h.nonempty, if_false, Bool.false_eq_true, unsignedOf]
  by_cases hv : 4294967296 ≤ value ds
  · simp [hv]
  · simp [hv]

end Numeral

/-- Where something else than a number stands, `>>` stores 0 and fails. -/
theorem Istream.Good.other_unsignedInt {s : Istream} {u : Text} (h : s.Good u) (hu : ∃ b ∈ u, isSpace b = false)
    (hno : ∀ sign ds t, ¬ Numeral u sign ds t) : s.unsignedInt.1.fail = true ∧ s.unsignedInt.2 = some 0 := by
  have hskip := h.skip_some hu
  -- digits after the sign would be a number
  have hdigits : (Istream.sign (u.dropWhile isSpace)).2.takeWhile isDigit = [] := by
    by_contra hne
    obtain ⟨sign, hsign, htext⟩ : ∃ sign, (sign = [] ∨ sign = [43] ∨ sign = [45]) ∧
        u.dropWhile isSpace = sign ++ (Istream.sign (u.dropWhile isSpace)).2 := by
      cases u.dropWhile isSpace with
      | nil => exact ⟨[], by simp, rfl⟩
      | cons b t =>
        unfold Istream.sign
        by_cases hminus : b = 45
        · exact ⟨[45], by simp, by simp [hminus]⟩
        by_cases hplus : b = 43
        · exact ⟨[43], by simp, by simp [hplus]⟩
        · exact ⟨[], by simp, by simp [hminus, hplus]⟩
    generalize (Istream.sign (u.dropWhile isSpace)).2 = rest at htext hne
    apply hno sign (rest.takeWhile isDigit) (rest.dropWhile isDigit)
    refine ⟨⟨u.takeWhile isSpace, fun b hb => ?_, ?_⟩, hsign, fun b hb => ?_, hne, fun b hb => ?_⟩
    · exact List.mem_takeWhile_imp hb
    · rw [List.takeWhile_append_dropWhile, ← htext, List.takeWhile_append_dropWhile]
    · exact List.mem_takeWhile_imp hb
    · have := List.head?_dropWhile_not isDigit rest
      cases hr : (rest.dropWhile isDigit).head? with
      | none => simp [hr] at hb
      | some c => rw [hr] at this hb; simp at this hb; simp [← hb, this]
  simp [Istream.unsignedInt, hskip, hdigits]

namespace Istream

/-- Digits are a number, up to the byte that ends them. -/
theorem unsignedInt_digits {ds t : Text} (hd : ∀ b ∈ ds, isDigit b = true) (hne : ds ≠ [])
    (hv : value ds < 2 ^ 32) (ht : ∀ b ∈ t.head?, isDigit b = false) :
    unsignedInt { rest := ds ++ t } = ({ rest := t, eof := t.isEmpty }, some (value ds)) := by
  have hn : Numeral (ds ++ t) [] ds t := ⟨⟨[], by simp, rfl⟩, .inl rfl, hd, hne, ht⟩
  have hst : Good { rest := ds ++ t } (ds ++ t) := ⟨rfl, rfl, fun h => by cases h⟩
  have hlt : ¬ 4294967296 ≤ value ds := by omega
  rw [hn.unsignedInt hst]
  simp [unsignedOf, hlt]

/-- Whitespace in front of a number is skipped. -/
theorem unsignedInt_space {b : UInt8} {t : Text} (hb : isSpace b = true) (ht : ∃ c ∈ t, isSpace c = false) :
    unsignedInt { rest := b :: t } = unsignedInt { rest := t } := by
  have hall : t.all isSpace = false := by simpa using ht
  simp [unsignedInt, skip, hb, hall]

end Istream

end SqlText
