import Mathlib.Data.List.Forall2
import TrpcMysql.Executor.Formatter
import TrpcMysql.Text.Istream

/-!
# `MysqlTime` as a text

`ToString` prints the six fields of a time with their least widths, and `FromString` reads them back
(`mysql_type.cc`).

* `time_roundtrip`: what `ToString` prints is read as the fields that it printed, and a text in the
  documented format is printed as it was read.
-/

namespace TrpcMysql

open SqlText Formatter

/-- `FromString`. A field that is not reached keeps its value. -/
def MysqlTime.fromString (t : MysqlTime) (timeStr : Text) : MysqlTime :=
  let iss : Istream := { rest := timeStr }
  let (iss, year) := iss.unsignedInt
  let (iss, _) := iss.char
  let (iss, month) := iss.unsignedInt
  let (iss, _) := iss.char
  let (iss, day) := iss.unsignedInt
  let (iss, hour) := iss.unsignedInt
  let (iss, _) := iss.char
  let (iss, minute) := iss.unsignedInt
  let (iss, _) := iss.char
  let (_, second) := iss.unsignedInt
  { t with
    year := year.getD t.year
    month := month.getD t.month
    day := day.getD t.day
    hour := hour.getD t.hour
    minute := minute.getD t.minute
    second := second.getD t.second }

namespace Formatter

/-! ## Printed numbers -/

theorem ascii_append (s t : String) : ascii (s ++ t) = ascii s ++ ascii t := by
  simp [ascii]

theorem ascii_zeros (n : ℕ) : ascii ("".pushn '0' n) = List.replicate n 48 := by
  have h : ("".pushn '0' n).toList = List.replicate n '0' := by
    rw [String.pushn_eq_repeat_push]
    induction n with
    | zero => rfl
    | succ n ih => rw [Nat.repeat, String.toList_push, ih, List.replicate_succ']
  rw [ascii, h, List.map_replicate]
  rfl

/-- The byte of a digit. -/
theorem byte_of_isDigit {c : Char} (hc : c.isDigit = true) :
    (UInt8.ofNat c.toNat).toNat = c.toNat ∧ isDigit (UInt8.ofNat c.toNat) = true := by
  have h := Char.isDigit_iff_toNat.1 hc
  have h₀ : '0'.toNat = 48 := rfl
  have h₉ : '9'.toNat = 57 := rfl
  have hbyte : (UInt8.ofNat c.toNat).toNat = c.toNat := by
    rw [UInt8.toNat_ofNat']
    omega
  refine ⟨hbyte, isDigit_iff.2 ?_⟩
  omega

/-- The text of a number is digits of its value. -/
theorem ascii_repr (v : ℕ) :
    (∀ b ∈ ascii (toString v), isDigit b = true) ∧ value (ascii (toString v)) = v ∧ ascii (toString v) ≠ [] := by
  have hdigits : ∀ c ∈ Nat.toDigits 10 v, c.isDigit = true := fun c hc =>
    Nat.isDigit_of_mem_toDigits (by decide) (by decide) hc
  have heq : ascii (toString v) = (Nat.toDigits 10 v).map fun c => UInt8.ofNat c.toNat := by
    simp [ascii]
  rw [heq]
  refine ⟨?_, ?_, by simp⟩
  · intro b hb
    obtain ⟨c, hc, rfl⟩ := List.mem_map.1 hb
    exact (byte_of_isDigit (hdigits c hc)).2
  · calc value ((Nat.toDigits 10 v).map fun c => UInt8.ofNat c.toNat)
        = Nat.ofDigitChars 10 (Nat.toDigits 10 v) 0 := by
          rw [value, List.foldl_map, Nat.ofDigitChars_eq_foldl]
          apply List.foldl_ext
          intro n c hc
          rw [(byte_of_isDigit (hdigits c hc)).1]
          rfl
      _ = v := Nat.ofDigitChars_ten_toDigits

theorem length_ascii_repr {n v : ℕ} (hn : 0 < n) (hv : v < 10 ^ n) : (ascii (toString v)).length ≤ n := by
  have hlen := (Nat.length_toDigits_le_iff (by decide) hn).2 hv
  simpa [ascii] using hlen

theorem value_zeros (n : ℕ) (ds : Text) : value (List.replicate n 48 ++ ds) = value ds := by
  have h : ∀ n : ℕ, (List.replicate n (48 : UInt8)).foldl (fun v b => 10 * v + (b.toNat - 48)) 0 = 0 := by
    intro n
    induction n with
    | zero => rfl
    | succ n ih => simpa [List.replicate_succ] using ih
  rw [value, List.foldl_append, h]
  rfl

theorem ascii_printInt {v : ℕ} (hv : v < 2 ^ 31) (n : ℕ) :
    ascii (printInt n v) = List.replicate (n - (toString v).length) 48 ++ ascii (toString v) := by
  have hw : v % 2 ^ 32 = v := Nat.mod_eq_of_lt (by omega)
  rw [printInt, hw, if_pos hv, ascii_append, ascii_zeros]

/-- A printed number is digits of its value. -/
theorem printInt_digits {v : ℕ} (hv : v < 2 ^ 31) (n : ℕ) :
    (∀ b ∈ ascii (printInt n v), isDigit b = true) ∧ value (ascii (printInt n v)) = v ∧
      ascii (printInt n v) ≠ [] := by
  obtain ⟨hd, hval, hne⟩ := ascii_repr v
  rw [ascii_printInt hv, value_zeros]
  refine ⟨?_, hval, List.append_ne_nil_of_right_ne_nil _ hne⟩
  intro b hb
  obtain hb | hb := List.mem_append.1 hb
  · rw [List.eq_of_mem_replicate hb]
    rfl
  · exact hd b hb

/-- Digits are printed as they are. -/
theorem printInt_value {ds : Text} {n : ℕ} (hd : ∀ b ∈ ds, isDigit b = true) (hlen : ds.length = n) (hpos : 0 < n)
    (hn : n ≤ 9) : ascii (printInt n (value ds)) = ds := by
  have hlt : value ds < 10 ^ n := hlen ▸ value_lt hd
  have hv : value ds < 2 ^ 31 := by
    have := Nat.pow_le_pow_right (show 0 < 10 by decide) hn
    omega
  obtain ⟨hd', hval, -⟩ := printInt_digits hv n
  have hle := length_ascii_repr hpos hlt
  have hsame : (toString (value ds)).length = (ascii (toString (value ds))).length := by
    rw [ascii, List.length_map, String.length_toList]
  apply digits_inj hd' hd
  · rw [ascii_printInt hv, List.length_append, List.length_replicate, hlen]
    omega
  · exact hval

end Formatter

/-! ## Round trip -/

/-- Six numbers in the documented format. -/
def timeText (year month day hour minute second : Text) : Text :=
  year ++ 45 :: (month ++ 45 :: (day ++ 32 :: (hour ++ 58 :: (minute ++ 58 :: second))))

/-- Digits that `>>` takes whole. -/
structure IsNumber (ds : Text) : Prop where
  digits : ∀ b ∈ ds, isDigit b = true
  nonempty : ds ≠ []
  small : value ds < 2 ^ 32

namespace IsNumber

variable {ds t : Text} {b : UInt8}

theorem read (h : IsNumber ds) (hb : isDigit b = false) :
    Istream.unsignedInt { rest := ds ++ b :: t } = ({ rest := b :: t }, some (value ds)) :=
  Istream.unsignedInt_digits h.digits h.nonempty h.small (by simpa using hb)

theorem read_last (h : IsNumber ds) :
    Istream.unsignedInt { rest := ds } = ({ rest := [], eof := true }, some (value ds)) := by
  have hread := Istream.unsignedInt_digits h.digits h.nonempty h.small (t := []) (by simp)
  simpa using hread

theorem printInt {n v : ℕ} (hv : v < 2 ^ 31) : IsNumber (ascii (printInt n v)) := by
  obtain ⟨hd, hval, hne⟩ := printInt_digits hv n
  exact ⟨hd, hne, by omega⟩

end IsNumber

theorem fromString_timeText (u : MysqlTime) {year month day hour minute second : Text} (hyear : IsNumber year)
    (hmonth : IsNumber month) (hday : IsNumber day) (hhour : IsNumber hour) (hminute : IsNumber minute)
    (hsecond : IsNumber second) : u.fromString (timeText year month day hour minute second) =
      { u with year := value year, month := value month, day := value day, hour := value hour,
               minute := value minute, second := value second } := by
  have hdash {t : Text} : Istream.char { rest := 45 :: t } = ({ rest := t }, some 45) := Istream.char_cons rfl
  have hcolon {t : Text} : Istream.char { rest := 58 :: t } = ({ rest := t }, some 58) := Istream.char_cons rfl
  -- the blank before the hour is skipped
  have hblank {t : Text} : Istream.unsignedInt { rest := 32 :: (hour ++ 58 :: t) } =
      ({ rest := 58 :: t }, some (value hour)) := by
    rw [Istream.unsignedInt_space rfl ⟨58, by simp, rfl⟩, hhour.read rfl]
  simp only [MysqlTime.fromString, timeText, hyear.read (show isDigit 45 = false from rfl), hdash,
    hmonth.read (show isDigit 45 = false from rfl), hday.read (show isDigit 32 = false from rfl), hblank, hcolon,
    hminute.read (show isDigit 58 = false from rfl), hsecond.read_last, Option.getD_some]

theorem ascii_toString (t : MysqlTime) : ascii t.toString =
    timeText (ascii (printInt 4 t.year)) (ascii (printInt 2 t.month)) (ascii (printInt 2 t.day))
      (ascii (printInt 2 t.hour)) (ascii (printInt 2 t.minute)) (ascii (printInt 2 t.second)) := by
  have hdash : ascii "-" = [45] := rfl
  have hblank : ascii " " = [32] := rfl
  have hcolon : ascii ":" = [58] := rfl
  simp only [MysqlTime.toString, ascii_append, timeText, hdash, hblank, hcolon, List.append_assoc, List.cons_append,
    List.nil_append]

/-- A byte is as the documented format has it, with `d` for a digit. -/
def Fits (b p : UInt8) : Prop := if p = 100 then isDigit b = true else b = p

def InFormat (s : Text) : Prop := List.Forall₂ Fits s (ascii "dddd-dd-dd dd:dd:dd")

theorem digits_of_fits {n : ℕ} {s : Text} (h : List.Forall₂ Fits s (List.replicate n 100)) :
    s.length = n ∧ ∀ b ∈ s, isDigit b = true := by
  induction n generalizing s with
  | zero =>
    cases h
    simp
  | succ n ih =>
    cases h with
    | cons hb h =>
      obtain ⟨hlen, hd⟩ := ih h
      simp only [List.length_cons, hlen, List.mem_cons, forall_eq_or_imp, true_and]
      exact ⟨by simpa [Fits] using hb, hd⟩

/-- A field and its delimiter. -/
theorem field_of_fits {n : ℕ} {p : UInt8} {ps s : Text} (hp : p ≠ 100)
    (h : List.Forall₂ Fits s (List.replicate n 100 ++ p :: ps)) :
    ∃ ds t : Text, s = ds ++ p :: t ∧ ds.length = n ∧ (∀ b ∈ ds, isDigit b = true) ∧ List.Forall₂ Fits t ps := by
  have htake := List.forall₂_take_append _ _ _ h
  have hdrop := List.forall₂_drop_append _ _ _ h
  rw [List.length_replicate] at htake hdrop
  obtain ⟨hlen, hd⟩ := digits_of_fits htake
  obtain ⟨b, t, hb, ht, heq⟩ := List.forall₂_cons_right_iff.1 hdrop
  have hbp : b = p := by simpa [Fits, hp] using hb
  refine ⟨s.take n, t, ?_, hlen, hd, ht⟩
  rw [← hbp, ← heq, List.take_append_drop]

/-- Digits of a field are a number that is printed as it was read. -/
theorem field_printed {ds : Text} {n : ℕ} (hlen : ds.length = n) (hd : ∀ b ∈ ds, isDigit b = true) (hpos : 0 < n)
    (hn : n ≤ 9) : IsNumber ds ∧ ascii (printInt n (value ds)) = ds := by
  have hlt := value_lt hd
  have hpow := Nat.pow_le_pow_right (show 0 < 10 by decide) hn
  rw [hlen] at hlt
  refine ⟨⟨hd, ?_, by omega⟩, printInt_value hd hlen hpos hn⟩
  rintro rfl
  simp only [List.length_nil] at hlen
  omega

/-- **What `ToString` prints is read back as the fields that it printed, and a text in the documented format is
printed as it was read.** -/
theorem time_roundtrip :
    (∀ t u : MysqlTime, (∀ v ∈ [t.year, t.month, t.day, t.hour, t.minute, t.second], v < 2 ^ 31) →
      u.fromString (ascii t.toString) =
        { u with year := t.year, month := t.month, day := t.day, hour := t.hour, minute := t.minute,
                 second := t.second }) ∧
    ∀ (u : MysqlTime) (s : Text), InFormat s → ascii (u.fromString s).toString = s := by
  constructor
  · intro t u ht
    simp only [List.forall_mem_cons, List.not_mem_nil, false_implies, implies_true, and_true] at ht
    obtain ⟨hy, hmo, hd, hh, hmi, hs⟩ := ht
    rw [ascii_toString, fromString_timeText u (.printInt hy) (.printInt hmo) (.printInt hd) (.printInt hh)
      (.printInt hmi) (.printInt hs)]
    simp only [(printInt_digits hy 4).2.1, (printInt_digits hmo 2).2.1, (printInt_digits hd 2).2.1,
      (printInt_digits hh 2).2.1, (printInt_digits hmi 2).2.1, (printInt_digits hs 2).2.1]
  · intro u s h
    obtain ⟨year, _, rfl, hy, hyd, h⟩ := field_of_fits (n := 4) (p := 45) (by decide) h
    obtain ⟨month, _, rfl, hmo, hmod, h⟩ := field_of_fits (n := 2) (p := 45) (by decide) h
    obtain ⟨day, _, rfl, hd, hdd, h⟩ := field_of_fits (n := 2) (p := 32) (by decide) h
    obtain ⟨hour, _, rfl, hh, hhd, h⟩ := field_of_fits (n := 2) (p := 58) (by decide) h
    obtain ⟨minute, second, rfl, hmi, hmid, h⟩ := field_of_fits (n := 2) (p := 58) (by decide) h
    obtain ⟨hs, hsd⟩ := digits_of_fits (n := 2) h
    have hyear := field_printed hy hyd (by decide) (by decide)
    have hmonth := field_printed hmo hmod (by decide) (by decide)
    have hday := field_printed hd hdd (by decide) (by decide)
    have hhour := field_printed hh hhd (by decide) (by decide)
    have hminute := field_printed hmi hmid (by decide) (by decide)
    have hsecond := field_printed hs hsd (by decide) (by decide)
    have hread := fromString_timeText u hyear.1 hmonth.1 hday.1 hhour.1 hminute.1 hsecond.1
    rw [timeText] at hread
    rw [hread, ascii_toString]
    simp only [hyear.2, hmonth.2, hday.2, hhour.2, hminute.2, hsecond.2, timeText]

/-- The default time, read into a time of another year, and a text of the format. -/
theorem time_roundtrip_default :
    ({ year := 1999, second := 7 } : MysqlTime).fromString (ascii ({} : MysqlTime).toString) = {} ∧
      ascii (({} : MysqlTime).fromString (ascii "2024-09-10 21:05:00")).toString = ascii "2024-09-10 21:05:00" :=
  ⟨time_roundtrip.1 {} _ (by decide),
    time_roundtrip.2 {} _ (by
      show List.Forall₂ _ _ _
      simp only [ascii, String.reduceToList, List.map_cons, List.map_nil, List.forall₂_cons]
      simp [Fits, isDigit])⟩

/-- A date without a time of day leaves the time of day. -/
example : ({ hour := 3 } : MysqlTime).fromString (ascii "2024-09-10") =
    { year := 2024, month := 9, day := 10, hour := 3 } := by decide

end TrpcMysql
