import TrpcMysql.Executor.Time

/-!
# The ranges of a `MysqlTime`

The setters of `mysql_type.cc` reject a month, hour, minute or second outside its range, and the object
keeps what it had. `FromString` stores what it reads.

`Written` says which number a text has at a place of the format "YYYY-MM-DD HH:MM:SS", by the text alone;
`field_stored_iff` is what `FromString` makes of it.

* `time_in_ranges_iff`: a run of setters and `FromString` keeps the ranges exactly if each text that is read
  has only numbers in range at the places of the month, the hour, the minute and the second.
-/

namespace TrpcMysql

open SqlText Formatter

/-! ## Setters -/

namespace MysqlTime

def setYear (t : MysqlTime) (year : ℕ) : MysqlTime := { t with year := year }

def setMonth (t : MysqlTime) (month : ℕ) : MysqlTime :=
  if month > 0 && month ≤ 12 then { t with month := month } else t

def setDay (t : MysqlTime) (day : ℕ) : MysqlTime := { t with day := day }

def setHour (t : MysqlTime) (hour : ℕ) : MysqlTime := if hour ≤ 24 then { t with hour := hour } else t

def setMinute (t : MysqlTime) (minute : ℕ) : MysqlTime := if minute ≤ 60 then { t with minute := minute } else t

def setSecond (t : MysqlTime) (second : ℕ) : MysqlTime := if second ≤ 60 then { t with second := second } else t

def setSecondPart (t : MysqlTime) (secondPart : ℕ) : MysqlTime := { t with secondPart := secondPart }

def setTimeType (t : MysqlTime) (timeType : ℕ) : MysqlTime := { t with timeType := timeType }

/-- The ranges that the setters check. -/
structure InRanges (t : MysqlTime) : Prop where
  month : 1 ≤ t.month ∧ t.month ≤ 12
  hour : t.hour ≤ 24
  minute : t.minute ≤ 60
  second : t.second ≤ 60

/-- The fields that have a range are the same. -/
structure SameRanged (t t' : MysqlTime) : Prop where
  month : t'.month = t.month
  hour : t'.hour = t.hour
  minute : t'.minute = t.minute
  second : t'.second = t.second

end MysqlTime

/-! ## Places of a text -/

/-- What `FromString` reads next. -/
inductive TimeItem where
  | number | delimiter
  deriving DecidableEq, Repr

/-- The text `s` has the items at its front, and `u` after them. A number that is too large ends the reading. -/
inductive Leads : List TimeItem → Text → Text → Prop
  | done {s : Text} : Leads [] s s
  | number {items : List TimeItem} {s sign ds t u : Text} (hn : Numeral s sign ds t) (hv : value ds < 2 ^ 32)
    (h : Leads items t u) : Leads (.number :: items) s u
  | delimiter {items : List TimeItem} {blanks t u : Text} {b : UInt8} (hblanks : ∀ b ∈ blanks, isSpace b = true)
    (hb : isSpace b = false) (h : Leads items t u) : Leads (.delimiter :: items) (blanks ++ b :: t) u

/-- The number that the text has after the items: 0 if something else stands there, and none if nothing does. -/
inductive Written (items : List TimeItem) (s : Text) : ℕ → Prop
  | numeral {u sign ds t : Text} (h : Leads items s u) (hn : Numeral u sign ds t) : Written items s (unsignedOf sign ds)
  | other {u : Text} (h : Leads items s u) (hu : ∃ b ∈ u, isSpace b = false)
    (hno : ∀ sign ds t, ¬ Numeral u sign ds t) : Written items s 0

/-- What stands before the month, the hour, the minute and the second. -/
def beforeMonth : List TimeItem := [.number, .delimiter]
def beforeHour : List TimeItem := beforeMonth ++ [.number, .delimiter, .number]
def beforeMinute : List TimeItem := beforeHour ++ [.number, .delimiter]
def beforeSecond : List TimeItem := beforeMinute ++ [.number, .delimiter]

/-- A text whose month, hour, minute and second are in range, as far as it has them. -/
structure TextInRanges (s : Text) : Prop where
  month : ∀ v, Written beforeMonth s v → 1 ≤ v ∧ v ≤ 12
  hour : ∀ v, Written beforeHour s v → v ≤ 24
  minute : ∀ v, Written beforeMinute s v → v ≤ 60
  second : ∀ v, Written beforeSecond s v → v ≤ 60

/-! ## Calls -/

inductive TimeCall where
  | setYear (year : ℕ)
  | setMonth (month : ℕ)
  | setDay (day : ℕ)
  | setHour (hour : ℕ)
  | setMinute (minute : ℕ)
  | setSecond (second : ℕ)
  | setSecondPart (secondPart : ℕ)
  | setTimeType (timeType : ℕ)
  | fromString (timeStr : Text)

namespace TimeCall

def apply (t : MysqlTime) : TimeCall → MysqlTime
  | setYear year => t.setYear year
  | setMonth month => t.setMonth month
  | setDay day => t.setDay day
  | setHour hour => t.setHour hour
  | setMinute minute => t.setMinute minute
  | setSecond second => t.setSecond second
  | setSecondPart secondPart => t.setSecondPart secondPart
  | setTimeType timeType => t.setTimeType timeType
  | fromString timeStr => t.fromString timeStr

/-- The call asks for a value outside its range. -/
def Leaves : TimeCall → Prop
  | setMonth month => ¬ (1 ≤ month ∧ month ≤ 12)
  | setHour hour => ¬ hour ≤ 24
  | setMinute minute => ¬ minute ≤ 60
  | setSecond second => ¬ second ≤ 60
  | fromString timeStr => ¬ TextInRanges timeStr
  | _ => False

end TimeCall

/-- Along the calls the time is in its ranges, and a call that asks for more changes nothing that has one. -/
def RangesKept : MysqlTime → List TimeCall → Prop
  | t, [] => t.InRanges
  | t, c :: cs => t.InRanges ∧ (c.Leaves → t.SameRanged (c.apply t)) ∧ RangesKept (c.apply t) cs

/-! ## Reading a field -/

/-- The stream after the items. -/
def readItems : List TimeItem → Istream → Istream
  | [], st => st
  | .number :: items, st => readItems items st.unsignedInt.1
  | .delimiter :: items, st => readItems items st.char.1

section Reading

variable {items : List TimeItem} {st : Istream} {s u : Text} {v : ℕ}

theorem readItems_failed (h : st.fail = true) : ∀ items, (readItems items st).fail = true := by
  intro items
  induction items generalizing st with
  | nil => exact h
  | cons item items ih =>
    cases item with
    | number => exact ih (Istream.failed_unsignedInt h).1
    | delimiter => exact ih (Istream.failed_char h)

/-- Where a text has the items, the stream is behind them. -/
theorem Leads.good (h : Leads items s u) : ∀ {st}, st.Good s → (readItems items st).Good u := by
  induction h with
  | done => exact fun hst => hst
  | number hn hv _ ih =>
    intro st hst
    apply ih
    rw [hn.unsignedInt hst]
    exact ⟨rfl, by simpa using hv, by simp⟩
  | delimiter hblanks hb _ ih =>
    intro st hst
    exact ih (hst.some_char hblanks hb rfl)

/-- A stream that has not failed has taken the items from the text. -/
theorem leads_of_read (hst : st.Good s) (h : (readItems items st).fail = false) : ∃ u, Leads items s u := by
  induction items generalizing st s with
  | nil => exact ⟨s, .done⟩
  | cons item items ih =>
    have hnot {st' : Istream} (hfail : st'.fail = true) (hread : (readItems items st').fail = false) : False := by
      rw [readItems_failed hfail] at hread
      cases hread
    by_cases hblank : ∀ b ∈ s, isSpace b = true
    · cases item with
      | number => exact (hnot (hst.blank_unsignedInt hblank).1 h).elim
      | delimiter => exact (hnot (hst.blank_char hblank) h).elim
    have hsome : ∃ b ∈ s, isSpace b = false := by simpa using hblank
    cases item with
    | number =>
      by_cases hn : ∃ sign ds t, Numeral s sign ds t
      · obtain ⟨sign, ds, t, hn⟩ := hn
        have hread : (readItems items st.unsignedInt.1).fail = false := h
        rw [hn.unsignedInt hst] at hread
        have hv : value ds < 2 ^ 32 := by
          by_contra hv
          exact hnot (by simpa using hv) hread
        obtain ⟨u, hu⟩ := ih ⟨rfl, by simpa using hv, by simp⟩ hread
        exact ⟨u, .number hn hv hu⟩
      · have hno : ∀ sign ds t, ¬ Numeral s sign ds t := fun sign ds t hn' => hn ⟨sign, ds, t, hn'⟩
        exact (hnot (hst.other_unsignedInt hsome hno).1 h).elim
    | delimiter =>
      -- the first byte that is no blank
      have hdrop : s.dropWhile isSpace ≠ [] := by simpa [List.dropWhile_eq_nil_iff] using hsome
      obtain ⟨b, t, hbt⟩ := List.exists_cons_of_ne_nil hdrop
      have hb : isSpace b = false := by
        have := List.head?_dropWhile_not isSpace s
        simpa [hbt] using this
      have hblanks : ∀ b ∈ s.takeWhile isSpace, isSpace b = true := fun b hb => List.mem_takeWhile_imp hb
      have hs : s = s.takeWhile isSpace ++ b :: t := by rw [← hbt, List.takeWhile_append_dropWhile]
      obtain ⟨u, hu⟩ := ih (hst.some_char hblanks hb hs) h
      rw [hs]
      exact ⟨u, .delimiter hblanks hb hu⟩

/-- **What `>>` stores after the items is the number that the text has there.** -/
theorem field_stored_iff (hst : st.Good s) : (readItems items st).unsignedInt.2 = some v ↔ Written items s v := by
  constructor
  · intro hv
    have hfail : (readItems items st).fail = false := by
      by_contra hfail
      rw [(Istream.failed_unsignedInt (by simpa using hfail)).2] at hv
      cases hv
    obtain ⟨u, hu⟩ := leads_of_read hst hfail
    have hgood := hu.good hst
    by_cases hn : ∃ sign ds t, Numeral u sign ds t
    · obtain ⟨sign, ds, t, hn⟩ := hn
      rw [hn.unsignedInt hgood] at hv
      cases hv
      exact .numeral hu hn
    · have hno : ∀ sign ds t, ¬ Numeral u sign ds t := fun sign ds t hn' => hn ⟨sign, ds, t, hn'⟩
      have hsome : ∃ b ∈ u, isSpace b = false := by
        by_contra hblank
        rw [(hgood.blank_unsignedInt (by simpa using hblank)).2] at hv
        cases hv
      rw [(hgood.other_unsignedInt hsome hno).2] at hv
      cases hv
      exact .other hu hsome hno
  · rintro (⟨hu, hn⟩ | ⟨hu, hsome, hno⟩)
    · rw [hn.unsignedInt (hu.good hst)]
    · exact ((hu.good hst).other_unsignedInt hsome hno).2

/-- A field gets the number of its place, or keeps its value where the text has none. -/
theorem getD_in_range (items : List TimeItem) {P : ℕ → Prop} {old : ℕ} (hold : P old) :
    P ((readItems items { rest := s }).unsignedInt.2.getD old) ↔ ∀ v, Written items s v → P v := by
  have hst : Istream.Good { rest := s } s := ⟨rfl, rfl, fun h => by cases h⟩
  cases hread : (readItems items { rest := s }).unsignedInt.2 with
  | none =>
    simp only [Option.getD_none, hold, true_iff]
    intro v hv
    rw [(field_stored_iff hst).2 hv] at hread
    cases hread
  | some w =>
    have hw := (field_stored_iff hst).1 hread
    simp only [Option.getD_some]
    constructor
    · intro hP v hv
      rw [(field_stored_iff hst).2 hv] at hread
      cases hread
      exact hP
    · exact fun h => h w hw

end Reading

/-! ## Runs -/

namespace MysqlTime

variable {t : MysqlTime} {s : Text} {c : TimeCall} {cs : List TimeCall}

theorem fromString_inRanges_iff (ht : t.InRanges) : (t.fromString s).InRanges ↔ TextInRanges s := by
  have hmonth := getD_in_range beforeMonth (s := s) (P := fun v => 1 ≤ v ∧ v ≤ 12) ht.month
  have hhour := getD_in_range beforeHour (s := s) (P := fun v => v ≤ 24) ht.hour
  have hminute := getD_in_range beforeMinute (s := s) (P := fun v => v ≤ 60) ht.minute
  have hsecond := getD_in_range beforeSecond (s := s) (P := fun v => v ≤ 60) ht.second
  constructor
  · intro h
    exact ⟨hmonth.1 h.month, hhour.1 h.hour, hminute.1 h.minute, hsecond.1 h.second⟩
  · intro h
    exact ⟨hmonth.2 h.month, hhour.2 h.hour, hminute.2 h.minute, hsecond.2 h.second⟩

/-- A setter keeps the ranges, and rejects what is out of them. -/
theorem setter_keeps (hc : ∀ s, c ≠ .fromString s) (ht : t.InRanges) :
    (c.apply t).InRanges ∧ (c.Leaves → t.SameRanged (c.apply t)) := by
  obtain ⟨hmonth, hhour, hminute, hsecond⟩ := ht
  cases c with
  | fromString s => exact absurd rfl (hc s)
  | setMonth month =>
    simp only [TimeCall.apply, setMonth]
    split
    · rename_i hin
      have hin' : 1 ≤ month ∧ month ≤ 12 := by simpa [Nat.succ_le_iff] using hin
      exact ⟨⟨hin', hhour, hminute, hsecond⟩, fun hl => absurd hin' hl⟩
    · exact ⟨⟨hmonth, hhour, hminute, hsecond⟩, fun _ => ⟨rfl, rfl, rfl, rfl⟩⟩
  | setHour hour =>
    simp only [TimeCall.apply, setHour]
    split
    · rename_i hin
      exact ⟨⟨hmonth, hin, hminute, hsecond⟩, fun hl => absurd hin hl⟩
    · exact ⟨⟨hmonth, hhour, hminute, hsecond⟩, fun _ => ⟨rfl, rfl, rfl, rfl⟩⟩
  | setMinute minute =>
    simp only [TimeCall.apply, setMinute]
    split
    · rename_i hin
      exact ⟨⟨hmonth, hhour, hin, hsecond⟩, fun hl => absurd hin hl⟩
    · exact ⟨⟨hmonth, hhour, hminute, hsecond⟩, fun _ => ⟨rfl, rfl, rfl, rfl⟩⟩
  | setSecond second =>
    simp only [TimeCall.apply, setSecond]
    split
    · rename_i hin
      exact ⟨⟨hmonth, hhour, hminute, hin⟩, fun hl => absurd hin hl⟩
    · exact ⟨⟨hmonth, hhour, hminute, hsecond⟩, fun _ => ⟨rfl, rfl, rfl, rfl⟩⟩
  | setYear year => exact ⟨⟨hmonth, hhour, hminute, hsecond⟩, fun hl => hl.elim⟩
  | setDay day => exact ⟨⟨hmonth, hhour, hminute, hsecond⟩, fun hl => hl.elim⟩
  | setSecondPart secondPart => exact ⟨⟨hmonth, hhour, hminute, hsecond⟩, fun hl => hl.elim⟩
  | setTimeType timeType => exact ⟨⟨hmonth, hhour, hminute, hsecond⟩, fun hl => hl.elim⟩

/-- One call keeps the ranges exactly if a text that it reads is in range. -/
theorem call_keeps_iff (ht : t.InRanges) : (c.apply t).InRanges ↔ ∀ s, c = .fromString s → TextInRanges s := by
  by_cases hc : ∃ s, c = .fromString s
  · obtain ⟨s, rfl⟩ := hc
    simpa [TimeCall.apply] using fromString_inRanges_iff ht
  · have hc' : ∀ s, c ≠ .fromString s := fun s hs => hc ⟨s, hs⟩
    exact iff_of_true (setter_keeps hc' ht).1 fun s hs => absurd hs (hc' s)

theorem leaves_keeps (ht : t.InRanges) (hkept : (c.apply t).InRanges) : c.Leaves → t.SameRanged (c.apply t) := by
  by_cases hc : ∃ s, c = .fromString s
  · obtain ⟨s, rfl⟩ := hc
    exact fun hl => absurd ((fromString_inRanges_iff ht).1 hkept) hl
  · exact (setter_keeps (fun s hs => hc ⟨s, hs⟩) ht).2

theorem rangesKept_iff : ∀ {t : MysqlTime}, t.InRanges →
    (RangesKept t cs ↔ ∀ s, TimeCall.fromString s ∈ cs → TextInRanges s) := by
  induction cs with
  | nil => exact fun ht => iff_of_true ht (by simp)
  | cons c cs ih =>
    intro t ht
    have hcall : (c.apply t).InRanges ↔ ∀ s, TimeCall.fromString s = c → TextInRanges s := by
      rw [call_keeps_iff ht]
      exact forall_congr' fun s => by rw [eq_comm]
    simp only [RangesKept, List.mem_cons]
    constructor
    · rintro ⟨-, -, hrest⟩
      have hc : (c.apply t).InRanges := by
        cases cs with
        | nil => exact hrest
        | cons c' cs => exact hrest.1
      rintro s (hs | hs)
      · exact hcall.1 hc s hs
      · exact (ih hc).1 hrest s hs
    · intro h
      have hc : (c.apply t).InRanges := hcall.2 fun s hs => h s (.inl hs)
      exact ⟨ht, leaves_keeps ht hc, (ih hc).2 fun s hs => h s (.inr hs)⟩

end MysqlTime

/-- **From the default time on, setters and `FromString` keep the ranges exactly if every text that is read has
its month, hour, minute and second in range.** -/
theorem time_in_ranges_iff (cs : List TimeCall) :
    RangesKept {} cs ↔ ∀ s, TimeCall.fromString s ∈ cs → TextInRanges s := by
  have hdefault : ({} : MysqlTime).InRanges := ⟨by decide, by decide, by decide, by decide⟩
  exact MysqlTime.rangesKept_iff hdefault

/-- A text in the documented format, with the thirteenth month. -/
theorem month_thirteen : ¬ ∀ cs : List TimeCall, RangesKept {} cs := by
  intro h
  have hmonth := (h [.fromString (ascii "2024-13-01 00:00:00")]).2.2.month
  revert hmonth
  decide

end TrpcMysql
