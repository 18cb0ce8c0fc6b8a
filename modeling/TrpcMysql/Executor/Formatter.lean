import TrpcMysql.Executor.Data
import TrpcMysql.Text.Format

/-!
# `Formatter`

The text that `QueryAll` sends in `NativeString` mode (`mysql_executor.h`): `ConvertPlaceHolder`
turns the question marks of the query into `{}`, and the arguments go in as `SpecialConvert` shows
them.

* `literal_exact_iff`: an argument of a text type becomes a literal of its text if and only if it is
  quoted and needs no escape.
* `format_query_iff`: `FormatQuery` replaces the parameter markers, and nothing else, if and only if the
  query has no brace and `ConvertPlaceHolder` finds just the markers.
-/

namespace TrpcMysql

open SqlText

/-- An argument of `FormatQuery`, by its C++ type. -/
inductive FormatArg where
  | string (s : Text)
  | cstring (s : Option Text)
  | charArray (bytes : Text)
  | stringView (s : Text)
  | mysqlTime (t : MysqlTime)
  | integer (v : ℤ)
  /-- of another type, by the text that `{}` prints -/
  | other (shown : Text)
  deriving DecidableEq

/-- `%0nd` of an unsigned number. -/
def printInt (n v : ℕ) : String :=
  let w := v % 2 ^ 32
  if w < 2 ^ 31 then "".pushn '0' (n - (toString w).length) ++ toString w
  else let s := toString (2 ^ 32 - w); "-" ++ "".pushn '0' (n - 1 - s.length) ++ s

/-- `ToString`. -/
def MysqlTime.toString (t : MysqlTime) : String :=
  printInt 4 t.year ++ "-" ++ printInt 2 t.month ++ "-" ++ printInt 2 t.day ++ " " ++ printInt 2 t.hour ++ ":" ++
    printInt 2 t.minute ++ ":" ++ printInt 2 t.second

/-- The bytes of an ASCII text. -/
def ascii (s : String) : Text := s.toList.map fun c => UInt8.ofNat c.toNat

namespace Formatter

def quoted (s : Text) : Text := quote :: s ++ [quote]

/-- What a `const char*` to the bytes shows. -/
def cString (bytes : Text) : Text := bytes.takeWhile (· != 0)

/-- `SpecialConvert`, as `{}` prints it. A `std::string_view` takes the template for all types. -/
def specialConvert : FormatArg → Text
  | .string s => quoted s
  | .cstring (some s) => quoted s
  | .cstring none => ascii "NULL"
  | .charArray bytes => quoted (cString bytes)
  | .stringView s => s
  | .mysqlTime t => quoted (ascii t.toString)
  | .integer v => ascii (toString v)
  | .other shown => shown

/-- The question marks that `ConvertPlaceHolder` replaces, after the byte `prev?`. -/
def placeholders (prev? : Option UInt8) : Text → List Bool
  | [] => []
  | b :: t => (b == question && prev? != some backslash) :: placeholders (some b) t

/-- The loop of `ConvertPlaceHolder`, after the byte `prev?`. -/
def convertFrom (prev? : Option UInt8) : Text → Text
  | [] => []
  | b :: t =>
    (if b = question ∧ prev? ≠ some backslash then [openBrace, closeBrace] else [b]) ++ convertFrom (some b) t

def convertPlaceHolder (sql : Text) : Text := convertFrom none sql

/-- `FormatQuery`. -/
def formatQuery (directive : Text → List Text → Option Text) (query : Text) (args : List FormatArg) : Option Text :=
  format directive (convertPlaceHolder query) (args.map specialConvert)

/-- What `util::FormatString` decides: what a format string means from a directive on, and how `{}` prints a value
that is neither a text nor a number. -/
structure Fmt where
  directive : Text → List Text → Option Text := fun _ _ => none
  shown : InputArg → Text := fun _ => []

instance : Inhabited Fmt := ⟨{}⟩

/-- An argument, as `SpecialConvert` takes it. `bool` and `char` are not printed as numbers. -/
def formatArg (fmt : Fmt) : InputArg → FormatArg
  | .string data => .string data
  | .stringView data => .stringView data
  | .cstring data => .cstring data
  | .time t => .mysqlTime t
  | .integer n => if n.type = .bool ∨ n.type = .char then .other (fmt.shown (.integer n)) else .integer n.value
  | arg => .other (fmt.shown arg)

/-- `FormatQuery` of a statement; the proxy's own texts have nothing to format. -/
def formatSql (fmt : Fmt) (args : List InputArg) : Sql → Option Sql
  | .user text => (formatQuery fmt.directive text (args.map (formatArg fmt))).map .user
  | sql => some sql

end Formatter

/-- What is sent for a statement into results of the mode: the statement, or what `FormatQuery` makes of it. -/
def Sql.Sent (mode : MysqlResultsMode) (sql : Sql) (args : List InputArg) (sent : Sql) : Prop :=
  match mode with
  | .nativeString => ∃ fmt, Formatter.formatSql fmt args sql = some sent
  | _ => sent = sql

namespace Sql.Sent

variable {mode : MysqlResultsMode} {sql sent : Sql} {args : List InputArg} {text : Bytes}

theorem same (hm : mode ≠ .nativeString) : Sql.Sent mode sql args sql := by
  cases mode <;> first | rfl | exact absurd rfl hm

/-- A user's text stays one. -/
theorem user (h : Sql.Sent mode (.user text) args sent) : ∃ text', sent = .user text' := by
  cases mode with
  | nativeString =>
    obtain ⟨fmt, h⟩ := h
    obtain ⟨text', -, rfl⟩ := Option.map_eq_some_iff.1 h
    exact ⟨text', rfl⟩
  | _ => exact ⟨text, h⟩

end Sql.Sent

namespace Formatter

/-! ## Text arguments -/

/-- The text that an argument of a text type stands for. -/
def text : FormatArg → Option Text
  | .string s => some s
  | .cstring s => s
  | .charArray bytes => some (cString bytes)
  | .stringView s => some s
  | _ => none

def isView : FormatArg → Bool
  | .stringView _ => true
  | _ => false

/-- **An argument of a text type becomes a literal of its text if and only if it is no
`std::string_view` and its text is plain.** -/
theorem literal_exact_iff {a : FormatArg} {s : Text} (ha : text a = some s) :
    IsLiteral (specialConvert a) s ↔ isView a = false ∧ plain quote s = true := by
  have hquoted : IsLiteral (quoted s) s ↔ plain quote s = true := literal_iff s
  cases a with
  | string =>
    cases ha
    simpa [isView, specialConvert] using hquoted
  | cstring s? =>
    cases ha
    simpa [isView, specialConvert] using hquoted
  | charArray bytes =>
    cases ha
    simpa [isView, specialConvert] using hquoted
  | stringView v =>
    cases ha
    -- a literal is longer than its value
    have hno : ¬ IsLiteral s s := by
      intro h
      have hlt := literal_length (h [] (by simp))
      simp only [List.append_nil, List.length_nil] at hlt
      omega
    simp [isView, specialConvert, hno]
  | mysqlTime => cases ha
  | integer => cases ha
  | other => cases ha

/-- `alice`, as a `std::string`. -/
theorem literal_exact_alice : IsLiteral (specialConvert (.string [97, 108, 105, 99, 101])) [97, 108, 105, 99, 101] :=
  (literal_exact_iff rfl).2 (by decide)

/-- The literal of `O'Hara` ends after its first letter. -/
theorem literal_cut : ¬ ∀ (a : FormatArg) (s : Text), text a = some s → IsLiteral (specialConvert a) s := by
  intro h
  have h := h (.string [79, 39, 72, 97, 114, 97]) _ rfl [] (by simp)
  exact absurd h (by decide)

/-! ## Placeholders -/

section Placeholders

variable {prev? : Option UInt8} {t : Text} {as : List Text}

theorem placeholders_length : (placeholders prev? t).length = t.length := by
  induction t generalizing prev? with
  | nil => rfl
  | cons b t ih => simp [placeholders, ih]

theorem eq_question_of_placeholder {i : ℕ} (h : (placeholders prev? t)[i]? = some true) : t[i]? = some question := by
  induction t generalizing prev? i with
  | nil => simp [placeholders] at h
  | cons b t ih =>
    cases i with
    | zero =>
      have hb : b = question ∧ prev? ≠ some backslash := by simpa [placeholders] using h
      simp [hb.1]
    | succ i => exact ih h

/-- A placeholder becomes two braces. -/
theorem convertFrom_counts (prev? : Option UInt8) (t : Text) :
    (convertFrom prev? t).countP isBrace = t.countP isBrace + 2 * (placeholders prev? t).count true ∧
      (convertFrom prev? t).length = t.length + (placeholders prev? t).count true := by
  induction t generalizing prev? with
  | nil => exact ⟨rfl, rfl⟩
  | cons b t ih =>
    obtain ⟨h₁, h₂⟩ := ih (some b)
    have htwo : ([openBrace, closeBrace] : Text).countP isBrace = 2 := by decide
    by_cases hb : b = question ∧ prev? ≠ some backslash
    · have hmark : (b == question && prev? != some backslash) = true := by simpa using hb
      have hbrace : isBrace b = false := by rw [hb.1]; decide
      simp only [convertFrom, placeholders, if_pos hb, hmark, List.countP_append, List.length_append,
        List.count_cons_self, List.countP_cons, hbrace, List.length_cons, List.length_nil, h₁, h₂, htwo]
      constructor
      · simp
        omega
      · omega
    · have hmark : (b == question && prev? != some backslash) = false := by
        simpa [not_and_or, or_iff_not_imp_left] using hb
      simp only [convertFrom, placeholders, if_neg hb, hmark, List.countP_append, List.length_append,
        List.countP_cons, List.length_cons, List.length_nil, h₁, h₂]
      constructor
      · simp
        omega
      · simp
        omega

/-- A query without braces is formatted by substitution. -/
theorem format_convertFrom {directive : Text → List Text → Option Text} (ht : ∀ b ∈ t, isBrace b = false) :
    format directive (convertFrom prev? t) as =
      if (placeholders prev? t).count true ≤ as.length then some (substitute (placeholders prev? t) t as) else none := by
  induction t generalizing prev? as with
  | nil => simp [convertFrom, placeholders, format, substitute]
  | cons b t ih =>
    have hb : isBrace b = false := ht b (by simp)
    have htail : ∀ b ∈ t, isBrace b = false := fun c hc => ht c (by simp [hc])
    by_cases hq : b = question ∧ prev? ≠ some backslash
    · have hmark : (b == question && prev? != some backslash) = true := by simpa using hq
      simp only [convertFrom, placeholders, if_pos hq, hmark]
      cases as with
      | nil => simp [format_missing]
      | cons a as =>
        rw [List.cons_append, List.singleton_append, format_field, ih htail]
        simp only [List.count_cons_self, List.length_cons, Nat.add_le_add_iff_right, substitute]
        split <;> rfl
    · have hmark : (b == question && prev? != some backslash) = false := by
        simpa [not_and_or, or_iff_not_imp_left] using hq
      simp only [convertFrom, placeholders, if_neg hq, hmark]
      rw [List.singleton_append, format_cons hb, ih htail]
      simp only [ne_eq, Bool.false_eq_true, not_false_eq_true, List.count_cons_of_ne, substitute]
      split <;> rfl

end Placeholders

/-- **`FormatQuery` puts the arguments in the place of the parameter markers and changes nothing else,
if and only if the query has no brace and the question marks without a backslash before them are just
the markers.** -/
theorem format_query_iff (runs : Text → Bool) (query : Text) :
    (∀ (directive : Text → List Text → Option Text) (args : List FormatArg),
        args.length = (markers runs {} query).count true →
        formatQuery directive query args =
          some (substitute (markers runs {} query) query (args.map specialConvert))) ↔
      (∀ b ∈ query, isBrace b = false) ∧ placeholders none query = markers runs {} query := by
  constructor
  · intro h
    set ms := markers runs {} query with hms
    have hml : ms.length = query.length := markers_length
    have hmq : ∀ i : ℕ, ms[i]? = some true → query[i]? = some question := fun i => eq_question_of_marker
    -- all arguments are shown as one byte
    have h := h (fun _ _ => none) (List.replicate (ms.count true) (.stringView [120])) (by simp)
    have hargs : (List.replicate (ms.count true) (FormatArg.stringView [120])).map specialConvert =
        List.replicate (ms.count true) [120] := by simp [specialConvert]
    rw [formatQuery, hargs, substitute_replicate hml (Nat.le_refl _)] at h
    obtain ⟨hbrace, hlen⟩ := convertFrom_counts none query
    have hout : (List.zipWith (fun m b => if m then (120 : UInt8) else b) ms query).length = query.length := by
      simp [hml]
    have hkept : (List.zipWith (fun m b => if m then (120 : UInt8) else b) ms query).countP isBrace =
        query.countP isBrace := countP_zipWith_marks (by decide) hml hmq
    obtain ⟨fields, doubled, h₁, h₂, h₃⟩ := format_counts (by decide) h
    have hzero : query.countP isBrace = 0 := by
      unfold convertPlaceHolder at h₁ h₃
      omega
    have hno : ∀ b ∈ query, isBrace b = false := by
      simpa [List.countP_eq_zero] using hzero
    refine ⟨hno, ?_⟩
    rw [convertPlaceHolder, format_convertFrom hno] at h
    split at h
    · rename_i hle
      rw [List.length_replicate] at hle
      rw [substitute_replicate placeholders_length hle] at h
      exact zipWith_marks_inj (by decide) placeholders_length hml (fun i => eq_question_of_placeholder) hmq
        (Option.some.inj h)
    · cases h
  · rintro ⟨hno, heq⟩ directive args hlen
    rw [formatQuery, convertPlaceHolder, format_convertFrom hno, heq, if_pos]
    simp [hlen]

/-- The quoted question mark of `'?'` is taken for a placeholder, and there is no argument for it. -/
theorem format_quoted_question : ¬ ∀ (runs : Text → Bool) (directive : Text → List Text → Option Text) (query : Text)
    (args : List FormatArg), args.length = (markers runs {} query).count true →
      formatQuery directive query args =
        some (substitute (markers runs {} query) query (args.map specialConvert)) := by
  intro h
  have h := h (fun _ => true) (fun _ _ => none) [quote, question, quote] [] (by decide)
  exact absurd h (by decide)

end Formatter

end TrpcMysql
