import Mathlib.Algebra.GroupWithZero.Nat

/-!
# Datetimes and identifiers as text

Datetimes of the proleptic Gregorian calendar as `datetime` has them, the instant each names, and their
rendering by `strftime`; UUIDs and their canonical text. Two datetimes in one minute, hour, day or month are
less than the length of that window apart, and every rendered field can be read back.
-/

namespace Digits

/-- The last `width` digits of a number. -/
def digits (base : Nat) : Nat → Nat → List Char
  | 0, _ => []
  | width + 1, n => digits base width (n / base) ++ [Nat.digitChar (n % base)]

@[simp] theorem length_digits (base width n : Nat) : (digits base width n).length = width := by
  induction width generalizing n with
  | zero => rfl
  | succ width ih => rw [digits, List.length_append, ih, List.length_singleton]

theorem digitChar_injective {m n : Nat} (hm : m < 16) (hn : n < 16)
    (heq : Nat.digitChar m = Nat.digitChar n) : m = n := by
  have hall : ∀ m < 16, ∀ n < 16, Nat.digitChar m = Nat.digitChar n → m = n := by decide
  exact hall m hm n hn heq

theorem digits_injective {base width m n : Nat} (hpos : 0 < base) (hbase : base ≤ 16)
    (hm : m < base ^ width) (hn : n < base ^ width)
    (heq : digits base width m = digits base width n) : m = n := by
  induction width generalizing m n with
  | zero =>
      rw [pow_zero] at hm hn
      omega
  | succ width ih =>
      rw [digits, digits] at heq
      obtain ⟨hhigh, hlow⟩ := List.append_inj heq (by simp)
      rw [pow_succ] at hm hn
      have hquotient : m / base = n / base :=
        ih (Nat.div_lt_of_lt_mul (by rwa [mul_comm] at hm)) (Nat.div_lt_of_lt_mul (by rwa [mul_comm] at hn))
          hhigh
      have hdigit : m % base = n % base := by
        refine digitChar_injective ?_ ?_ (List.singleton_inj.1 hlow)
        · exact Nat.lt_of_lt_of_le (Nat.mod_lt m hpos) hbase
        · exact Nat.lt_of_lt_of_le (Nat.mod_lt n hpos) hbase
      rw [← Nat.div_add_mod m base, ← Nat.div_add_mod n base, hquotient, hdigit]

theorem digits_ne_dash {base width n : Nat} (hpos : 0 < base) (hbase : base ≤ 16) :
    ∀ c ∈ digits base width n, c ≠ '-' := by
  have hall : ∀ m < 16, Nat.digitChar m ≠ '-' := by decide
  induction width generalizing n with
  | zero => simp [digits]
  | succ width ih =>
      intro c hc
      rw [digits, List.mem_append, List.mem_singleton] at hc
      rcases hc with hhigh | rfl
      · exact ih c hhigh
      · exact hall _ (Nat.lt_of_lt_of_le (Nat.mod_lt n hpos) hbase)

theorem isAlphanum_digits {base width n : Nat} (hpos : 0 < base) (hbase : base ≤ 16) :
    ∀ c ∈ digits base width n, c.isAlphanum = true := by
  have hall : ∀ m < 16, (Nat.digitChar m).isAlphanum = true := by decide
  induction width generalizing n with
  | zero => simp [digits]
  | succ width ih =>
      intro c hc
      rw [digits, List.mem_append, List.mem_singleton] at hc
      rcases hc with hhigh | rfl
      · exact ih c hhigh
      · exact hall _ (Nat.lt_of_lt_of_le (Nat.mod_lt n hpos) hbase)

end Digits

/-! ### Identifiers -/

/-- A text with a dash after each group of the given lengths. -/
def dashed : List Nat → List Char → List Char
  | [], text => text
  | width :: rest, text => text.take width ++ '-' :: dashed rest (text.drop width)

theorem filter_dashed (widths : List Nat) {text : List Char} (htext : ∀ c ∈ text, c ≠ '-') :
    (dashed widths text).filter (· != '-') = text := by
  induction widths generalizing text with
  | nil => exact List.filter_eq_self.2 fun c hc => bne_iff_ne.2 (htext c hc)
  | cons width rest ih =>
      have hgroup : (text.take width).filter (· != '-') = text.take width :=
        List.filter_eq_self.2 fun c hc => bne_iff_ne.2 (htext c (List.mem_of_mem_take hc))
      have hrest := ih fun c hc => htext c (List.mem_of_mem_drop (i := width) hc)
      rw [dashed, List.filter_append, hgroup, List.filter_cons_of_neg (by simp), hrest,
        List.take_append_drop]

theorem length_dashed (widths : List Nat) (text : List Char) (hfits : widths.sum ≤ text.length) :
    (dashed widths text).length = text.length + widths.length := by
  induction widths generalizing text with
  | nil => rfl
  | cons width rest ih =>
      rw [List.sum_cons] at hfits
      have hrest := ih (text.drop width) (by rw [List.length_drop]; omega)
      rw [dashed, List.length_append, List.length_cons, hrest, List.length_take, List.length_drop,
        List.length_cons]
      omega

theorem mem_dashed {widths : List Nat} {text : List Char} :
    ∀ c ∈ dashed widths text, c ∈ text ∨ c = '-' := by
  induction widths generalizing text with
  | nil => exact fun c hc => .inl hc
  | cons width rest ih =>
      intro c hc
      rw [dashed, List.mem_append, List.mem_cons] at hc
      obtain hgroup | rfl | hrest := hc
      · exact .inl (List.mem_of_mem_take hgroup)
      · exact .inr rfl
      · exact (ih c hrest).imp_left List.mem_of_mem_drop

structure Uuid where
  value : Nat
  value_lt : value < 2 ^ 128 := by decide
deriving DecidableEq, Repr

namespace Uuid

/-- `str` of a UUID: its hexadecimal digits in groups of 8, 4, 4, 4 and 12. -/
def str (id : Uuid) : List Char := dashed [8, 4, 4, 4] (Digits.digits 16 32 id.value)

@[simp] theorem length_str (id : Uuid) : id.str.length = 36 := by
  rw [str, length_dashed _ _ (by simp), Digits.length_digits]
  rfl

theorem str_injective {id id' : Uuid} (heq : id.str = id'.str) : id = id' := by
  have hlt (id : Uuid) : id.value < 16 ^ 32 := Nat.lt_of_lt_of_le id.value_lt (by decide)
  have hhex (id : Uuid) : id.str.filter (· != '-') = Digits.digits 16 32 id.value :=
    filter_dashed _ (Digits.digits_ne_dash (by decide) (by decide))
  have hvalue : id.value = id'.value := by
    refine Digits.digits_injective (by decide) (by decide) (hlt id) (hlt id') ?_
    rw [← hhex, heq, hhex]
  cases id
  cases id'
  congr

theorem mem_str {id : Uuid} : ∀ c ∈ id.str, c.isAlphanum = true ∨ c = '-' := by
  intro c hc
  exact (mem_dashed c hc).imp_left (Digits.isAlphanum_digits (by decide) (by decide) c)

end Uuid

/-! ### The calendar -/

namespace Datetime

def isLeap (year : Nat) : Bool := year % 4 == 0 && (year % 100 != 0 || year % 400 == 0)

def daysInMonth (year month : Nat) : Nat :=
  if month = 2 then (if isLeap year then 29 else 28)
  else if month = 4 ∨ month = 6 ∨ month = 9 ∨ month = 11 then 30
  else 31

theorem daysInMonth_le (year month : Nat) : daysInMonth year month ≤ 31 := by
  rw [daysInMonth]
  split
  · split <;> decide
  · split <;> decide

def daysBeforeYear (year : Nat) : Nat :=
  (year - 1) * 365 + (year - 1) / 4 - (year - 1) / 100 + (year - 1) / 400

def daysBeforeMonth (year month : Nat) : Nat :=
  ((List.range (month - 1)).map fun i => daysInMonth year (i + 1)).sum

/-- The ordinal of a day; the first of January of year 1 is day 1. -/
def toOrdinal (year month day : Nat) : Nat := daysBeforeYear year + daysBeforeMonth year month + day

end Datetime

structure Datetime where
  year : Nat
  month : Nat
  day : Nat
  hour : Nat := 0
  minute : Nat := 0
  second : Nat := 0
  microsecond : Nat := 0
  year_range : 1 ≤ year ∧ year ≤ 9999 := by decide
  month_range : 1 ≤ month ∧ month ≤ 12 := by decide
  day_range : 1 ≤ day ∧ day ≤ Datetime.daysInMonth year month := by decide
  hour_lt : hour < 24 := by decide
  minute_lt : minute < 60 := by decide
  second_lt : second < 60 := by decide
  microsecond_lt : microsecond < 1000000 := by decide
deriving DecidableEq, Repr

namespace Datetime

/-- Microseconds since the first of January 1970. -/
def instant (year month day hour minute second microsecond : Nat) : Int :=
  (((toOrdinal year month day - 719163 : Int) * 24 + hour) * 60 + minute) * 60 * 1000000 +
    (second * 1000000 + microsecond : Int)

def timestamp (t : Datetime) : Int :=
  instant t.year t.month t.day t.hour t.minute t.second t.microsecond

/-! ### Windows -/

structure SameMonth (t u : Datetime) : Prop where
  year : t.year = u.year
  month : t.month = u.month

structure SameDay (t u : Datetime) : Prop extends SameMonth t u where
  day : t.day = u.day

structure SameHour (t u : Datetime) : Prop extends SameDay t u where
  hour : t.hour = u.hour

structure SameMinute (t u : Datetime) : Prop extends SameHour t u where
  minute : t.minute = u.minute

variable {t u : Datetime}

theorem day_le (t : Datetime) : t.day ≤ 31 := Nat.le_trans t.day_range.2 (daysInMonth_le _ _)

theorem SameMinute.near (hsame : SameMinute t u) : t.timestamp < u.timestamp + 60 * 1000000 := by
  have hsecond := t.second_lt
  have hmicrosecond := t.microsecond_lt
  simp only [timestamp, instant, hsame.year, hsame.month, hsame.day, hsame.hour, hsame.minute]
  omega

theorem SameHour.near (hsame : SameHour t u) : t.timestamp < u.timestamp + 3600 * 1000000 := by
  have hminute := t.minute_lt
  have hsecond := t.second_lt
  have hmicrosecond := t.microsecond_lt
  simp only [timestamp, instant, hsame.year, hsame.month, hsame.day, hsame.hour]
  omega

theorem SameDay.near (hsame : SameDay t u) : t.timestamp < u.timestamp + 86400 * 1000000 := by
  have hhour := t.hour_lt
  have hminute := t.minute_lt
  have hsecond := t.second_lt
  have hmicrosecond := t.microsecond_lt
  simp only [timestamp, instant, hsame.year, hsame.month, hsame.day]
  omega

theorem SameMonth.near (hsame : SameMonth t u) :
    t.timestamp < u.timestamp + 31 * 86400 * 1000000 := by
  have hday := t.day_le
  have hfirst := u.day_range.1
  have hhour := t.hour_lt
  have hminute := t.minute_lt
  have hsecond := t.second_lt
  have hmicrosecond := t.microsecond_lt
  simp only [timestamp, instant, toOrdinal, hsame.year, hsame.month]
  omega

/-! ### Rendering -/

/-- The number of digits and the field of a directive: those of years, months, days, hours and minutes. -/
def directive : Char → Option (Nat × (Datetime → Nat))
  | 'Y' => some (4, year)
  | 'm' => some (2, month)
  | 'd' => some (2, day)
  | 'H' => some (2, hour)
  | 'M' => some (2, minute)
  | _ => none

def strftime (t : Datetime) : List Char → List Char
  | '%' :: c :: rest =>
      match directive c with
      | some (width, field) => Digits.digits 10 width (field t) ++ strftime t rest
      | none => '%' :: c :: strftime t rest
  | c :: rest => c :: strftime t rest
  | [] => []

theorem directive_lt {c : Char} {width : Nat} {field : Datetime → Nat}
    (hdirective : directive c = some (width, field)) (t : Datetime) : field t < 10 ^ width := by
  have hyear := t.year_range.2
  have hmonth := t.month_range.2
  have hday := t.day_le
  have hhour := t.hour_lt
  have hminute := t.minute_lt
  unfold directive at hdirective
  split at hdirective
  all_goals cases hdirective <;> omega

/-- A rendered field tells the field, and leaves the rest as it is. -/
theorem strftime_directive {c : Char} {width : Nat} {field : Datetime → Nat} {format : List Char}
    (hdirective : directive c = some (width, field))
    (heq : t.strftime ('%' :: c :: format) = u.strftime ('%' :: c :: format)) :
    field t = field u ∧ t.strftime format = u.strftime format := by
  simp only [strftime, hdirective] at heq
  obtain ⟨hdigits, hrest⟩ := List.append_inj heq (by simp)
  exact ⟨Digits.digits_injective (by decide) (by decide) (directive_lt hdirective t)
    (directive_lt hdirective u) hdigits, hrest⟩

end Datetime
