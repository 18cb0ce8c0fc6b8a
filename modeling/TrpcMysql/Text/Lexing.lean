import Mathlib.Data.List.Basic
import Mathlib.Tactic.Common

/-!
# How MySQL reads a text

The lexical structure of an SQL text with the default `sql_mode`, byte by byte.

* `literal`: one string literal. A doubled quote stands for a quote, and a backslash takes the byte
  after it along.
* `markers`: the question marks that stand for parameters. Those in quoted strings, in quoted
  identifiers and in comments do not. What stands in an executable comment is code.

`plain` tells the texts that need no escape: between quotes they are read as they are
(`literal_iff`).
-/

namespace SqlText

abbrev Text := List UInt8

abbrev quote : UInt8 := 39
abbrev doubleQuote : UInt8 := 34
abbrev backtick : UInt8 := 96
abbrev backslash : UInt8 := 92
abbrev percent : UInt8 := 37
abbrev underscore : UInt8 := 95
abbrev question : UInt8 := 63
abbrev newline : UInt8 := 10

/-! ## String literals -/

/-- What a backslash and the byte after it stand for. -/
def unescape (b : UInt8) : Text :=
  if b = percent ∨ b = underscore then [backslash, b]
  else match b with
    | 48 => [0]
    | 98 => [8]
    | 110 => [newline]
    | 114 => [13]
    | 116 => [9]
    | 90 => [26]
    | b => [b]

/-- The value of a literal after its opening quote `q`, and the text after the literal. -/
def literalBody (q : UInt8) : Text → Option (Text × Text)
  | [] => none
  | [b] => if b = q then some ([], []) else none
  | b :: c :: t =>
    if b = q then
      if c = q then (literalBody q t).map fun x => (q :: x.1, x.2) else some ([], c :: t)
    else if b = backslash then (literalBody q t).map fun x => (unescape c ++ x.1, x.2)
    else (literalBody q (c :: t)).map fun x => (b :: x.1, x.2)

/-- The string literal that a text begins with: its value, and the text after it. -/
def literal : Text → Option (Text × Text)
  | [] => none
  | b :: t => if b = quote ∨ b = doubleQuote then literalBody b t else none

/-- Between two `q` the text means itself: it has no `q`, and a backslash only before a wildcard. -/
def plain (q : UInt8) : Text → Bool
  | [] => true
  | [b] => b != q && b != backslash
  | b :: c :: t =>
    if b = backslash then (c == percent || c == underscore) && plain q t
    else b != q && plain q (c :: t)

theorem unescape_length (b : UInt8) : (unescape b).length = if b = percent ∨ b = underscore then 2 else 1 := by
  unfold unescape
  split
  · rfl
  · split <;> rfl

theorem unescape_wildcard {b : UInt8} (h : b = percent ∨ b = underscore) : unescape b = [backslash, b] := if_pos h

section Literal

variable {q : UInt8}

/-- A literal is longer than its value. -/
theorem literalBody_length {t v r : Text} (h : literalBody q t = some (v, r)) :
    v.length + r.length < t.length := by
  fun_induction literalBody q t generalizing v with
  | case1 => cases h
  | case2 => cases h; simp
  | case3 => cases h
  | case4 t ih =>
    obtain ⟨⟨w, r⟩, hx, heq⟩ := Option.map_eq_some_iff.1 h
    obtain ⟨rfl, rfl⟩ := Prod.mk.inj heq
    have := ih hx
    simp only [List.length_cons] at this ⊢
    omega
  | case5 => cases h; simp
  | case6 c t hb ih =>
    obtain ⟨⟨w, r⟩, hx, heq⟩ := Option.map_eq_some_iff.1 h
    obtain ⟨rfl, rfl⟩ := Prod.mk.inj heq
    have hx := ih hx
    have hc := unescape_length c
    simp only [List.length_cons, List.length_append] at hx ⊢
    split at hc <;> omega
  | case7 b c t hb hs ih =>
    obtain ⟨⟨w, r⟩, hx, heq⟩ := Option.map_eq_some_iff.1 h
    obtain ⟨rfl, rfl⟩ := Prod.mk.inj heq
    have := ih hx
    simp only [List.length_cons] at this ⊢
    omega

theorem literalBody_end {r : Text} (hr : r.head? ≠ some q) : literalBody q (q :: r) = some ([], r) := by
  cases r with
  | nil => simp [literalBody]
  | cons c r =>
    have hc : c ≠ q := by simpa using hr
    simp [literalBody, hc]

variable (hq : q ≠ backslash)
include hq

/-- A plain text is read as it is, whatever follows its closing quote. -/
theorem literalBody_of_plain {s r : Text} (hs : plain q s = true) (hr : r.head? ≠ some q) :
    literalBody q (s ++ q :: r) = some (s, r) := by
  fun_induction plain q s with
  | case1 => exact literalBody_end hr
  | case2 b =>
    obtain ⟨hb, hback⟩ : b ≠ q ∧ b ≠ backslash := by simpa using hs
    simp [literalBody, hb, hback, literalBody_end hr]
  | case3 c t ih =>
    obtain ⟨hc, ht⟩ : (c = percent ∨ c = underscore) ∧ plain q t = true := by simpa using hs
    simp [literalBody, hq.symm, ih ht, unescape_wildcard hc]
  | case4 b c t hback ih =>
    obtain ⟨hb, ht⟩ : b ≠ q ∧ plain q (c :: t) = true := by simpa using hs
    have h := ih ht
    rw [List.cons_append] at h
    simp [literalBody, hb, hback, h]

/-- A text that loses nothing when it is read is plain. -/
theorem plain_of_literalBody {s v : Text} (h : literalBody q (s ++ [q]) = some (v, [])) (hl : v.length = s.length) :
    plain q s = true := by
  fun_induction plain q s generalizing v with
  | case1 => rfl
  | case2 b =>
    -- a quote or a backslash takes the closing quote along
    by_cases hb : b = q
    · subst hb
      simp [literalBody] at h
    by_cases hback : b = backslash
    · subst hback
      simp [literalBody, hb] at h
    · simp [hb, hback]
  | case3 c t ih =>
    simp only [List.cons_append, literalBody, hq.symm, if_false, if_true] at h
    obtain ⟨⟨w, r⟩, hx, heq⟩ := Option.map_eq_some_iff.1 h
    obtain ⟨rfl, rfl⟩ := Prod.mk.inj heq
    have hshort := literalBody_length hx
    have hc := unescape_length c
    simp only [List.length_append, List.length_cons, List.length_nil] at hl hshort
    split at hc
    · rename_i hwild
      have ht := ih hx (by omega)
      simp [ht, hwild]
    · omega
  | case4 b c t hback ih =>
    by_cases hb : b = q
    · subst hb
      simp only [List.cons_append, literalBody, if_true] at h
      split at h
      · obtain ⟨⟨w, r⟩, hx, heq⟩ := Option.map_eq_some_iff.1 h
        obtain ⟨rfl, rfl⟩ := Prod.mk.inj heq
        have hshort := literalBody_length hx
        simp only [List.length_append, List.length_cons, List.length_nil] at hl hshort
        omega
      · cases h
    · simp only [List.cons_append, literalBody, hb, hback, if_false] at h
      obtain ⟨⟨w, r⟩, hx, heq⟩ := Option.map_eq_some_iff.1 h
      obtain ⟨rfl, rfl⟩ := Prod.mk.inj heq
      have ht := ih hx (by simpa using hl)
      simp [hb, ht]

end Literal

/-- `t` begins with one literal of value `s`, which nothing that comes after `t` can change. -/
def IsLiteral (t s : Text) : Prop :=
  ∀ r : Text, r.head? ≠ some quote → literal (t ++ r) = some (s, r)

/-- **A text between quotes is a literal of that text if and only if it is plain.** -/
theorem literal_iff (s : Text) : IsLiteral (quote :: s ++ [quote]) s ↔ plain quote s = true := by
  have hread : ∀ r : Text, literal (quote :: s ++ [quote] ++ r) = literalBody quote (s ++ quote :: r) := by
    intro r
    simp [literal]
  constructor
  · intro h
    have h := h [] (by simp)
    rw [hread] at h
    exact plain_of_literalBody (by decide) h rfl
  · intro h r hr
    rw [hread]
    exact literalBody_of_plain (by decide) h hr

/-- A literal is longer than its value. -/
theorem literal_length {t v r : Text} (h : literal t = some (v, r)) : v.length + r.length < t.length := by
  cases t with
  | nil => cases h
  | cons b t =>
    simp only [literal] at h
    split at h
    · have := literalBody_length h
      simp only [List.length_cons]
      omega
    · cases h

/-! ## Parameter markers -/

/-- Where a byte stands. In code, the bytes before it may begin a comment. -/
inductive Context where
  | code
  | dash
  | dashes
  | slash
  | star
  | quoted (q : UInt8)
  | escaped (q : UInt8)
  | line
  | opening
  | comment
  | closing
  deriving DecidableEq

/-- The lexer between two bytes. -/
structure LexState where
  context : Context := .code
  /-- within an executable comment -/
  executable : Bool := false
  deriving DecidableEq

namespace LexState

def inCode (s : LexState) : Bool :=
  match s.context with
  | .code | .dash | .dashes | .slash | .star => true
  | _ => false

/-- A byte of code that continues nothing. -/
def codeByte (s : LexState) (b : UInt8) : LexState :=
  if b = quote ∨ b = doubleQuote ∨ b = backtick then { s with context := .quoted b }
  else if b = 35 then { s with context := .line }
  else if b = 45 then { s with context := .dash }
  else if b = 47 then { s with context := .slash }
  else if b = 42 then { s with context := .star }
  else { s with context := .code }

/-- The byte `b` of a text. A comment that begins with an exclamation mark is executable if the
server's version `runs` it. -/
def next (runs : Bool) (s : LexState) (b : UInt8) : LexState :=
  match s.context with
  | .code => s.codeByte b
  | .dash => if b = 45 then { s with context := .dashes } else s.codeByte b
  -- two dashes need a blank after them
  | .dashes =>
    if b = newline then { s with context := .code }
    else if b ≤ 32 then { s with context := .line }
    else if b = 45 then s
    else s.codeByte b
  | .slash => if b = 42 then { s with context := .opening } else s.codeByte b
  | .star => if b = 47 ∧ s.executable then {} else s.codeByte b
  | .quoted q =>
    if b = q then { s with context := .code }
    else if b = backslash ∧ q ≠ backtick then { s with context := .escaped q }
    else s
  | .escaped q => { s with context := .quoted q }
  | .line => if b = newline then { s with context := .code } else s
  | .opening =>
    if b = 33 ∧ runs then { context := .code, executable := true }
    else if b = 42 then { s with context := .closing }
    else { s with context := .comment }
  | .comment => if b = 42 then { s with context := .closing } else s
  | .closing =>
    if b = 47 then { s with context := .code } else if b = 42 then s else { s with context := .comment }

end LexState

/-- For each byte, whether it is a parameter marker; `runs` tells of the text after `/*!` whether the
server runs the comment. -/
def markers (runs : Text → Bool) : LexState → Text → List Bool
  | _, [] => []
  | s, b :: t => (b == question && s.inCode) :: markers runs (s.next (runs t) b) t

theorem markers_length {runs : Text → Bool} {s : LexState} {t : Text} : (markers runs s t).length = t.length := by
  induction t generalizing s with
  | nil => rfl
  | cons b t ih => simp [markers, ih]

/-- Only question marks are markers. -/
theorem eq_question_of_marker {runs : Text → Bool} {s : LexState} {t : Text} {i : ℕ}
    (h : (markers runs s t)[i]? = some true) : t[i]? = some question := by
  induction t generalizing s i with
  | nil => simp [markers] at h
  | cons b t ih =>
    cases i with
    | zero =>
      have hb : b = question ∧ s.inCode = true := by simpa [markers] using h
      simp [hb.1]
    | succ i => exact ih h

end SqlText
