import Mathlib.Data.String.Basic
import Trackline.Proofs.Number.Digits
import Trackline.Proofs.Time.Days
import Trackline.Time.Instant

/-! Time spans read again from their text. A span is as good as its two texts: each is read as one
date of the calendar and one time of day, and these are the second that was written. -/
namespace Trackline

/-- A date and a time of day in universal time. -/
structure Reading where
  date : Date
  hour : Nat
  minute : Nat
  second : Nat

namespace Reading

structure Valid (r : Reading) : Prop where
  date : r.date.Valid
  hour : r.hour < 24
  minute : r.minute < 60
  second : r.second < 60

/-- Seconds since 1970 began. -/
def unix (r : Reading) : Int := r.date.elapsed * 86400 + r.hour * 3600 + r.minute * 60 + r.second

/-- The year needs no sign. -/
def Plain (r : Reading) : Prop := 0 ≤ r.date.year ∧ r.date.year ≤ 9999

def sign (year : Int) : List Char := if year < 0 then ['-'] else if 9999 < year then ['+'] else []

def Field (s : List Char) (width n : Nat) : Prop := s.length = width ∧ readDigits s = some n

/-- The fields of a reading and what stands between them. All have two digits but the year, which
has four, or four and more behind a sign. -/
def Spelled (r : Reading) (s : List Char) : Prop :=
  ∃ year month day hour minute second : List Char,
    s = sign r.date.year ++ year ++ '-' :: month ++ '-' :: day ++ 'T' :: hour ++ ':' :: minute ++
      ':' :: second ++ ['Z'] ∧
    readDigits year = some r.date.year.natAbs ∧ 4 ≤ year.length ∧ (r.Plain → year.length = 4) ∧
    Field month 2 r.date.month ∧ Field day 2 r.date.day ∧
    Field hour 2 r.hour ∧ Field minute 2 r.minute ∧ Field second 2 r.second

/-- The year in front of a text: all digits behind a sign, or else four digits. -/
def year? : List Char → Option (Int × List Char)
  | '-' :: s => (readDigits (s.takeWhile Char.isDigit)).map fun n => (-(n : Int), s.dropWhile Char.isDigit)
  | '+' :: s => (readDigits (s.takeWhile Char.isDigit)).map fun n => ((n : Int), s.dropWhile Char.isDigit)
  | s => (digits? 4 s).map fun r => ((r.1 : Int), r.2)

def read? (s : List Char) : Option Reading := do
  let (year, s) ← year? s
  let (month, s) ← digits? 2 (← past? '-' s)
  let (day, s) ← digits? 2 (← past? '-' s)
  let (hour, s) ← digits? 2 (← past? 'T' s)
  let (minute, s) ← digits? 2 (← past? ':' s)
  let (second, s) ← digits? 2 (← past? ':' s)
  if s = ['Z'] then some ⟨⟨year, month, day⟩, hour, minute, second⟩ else none

/-- A text that has the form of a reading, is read as it, and means the given second. -/
structure Tells (r : Reading) (text : String) (seconds : Int) : Prop where
  valid : r.Valid
  spelled : r.Spelled text.toList
  read : read? text.toList = some r
  unix : r.unix = seconds

private theorem year?_signed {digits : List Char} {n : Nat} (read : readDigits digits = some n) (rest : List Char) :
    year? ('-' :: (digits ++ '-' :: rest)) = some (-(n : Int), '-' :: rest) ∧
      year? ('+' :: (digits ++ '-' :: rest)) = some ((n : Int), '-' :: rest) := by
  have all := (readDigits_some read).2
  have dash : Char.isDigit '-' = false := by decide
  simp [year?, List.takeWhile_append_of_pos all, List.dropWhile_append_of_pos all, dash, read]

private theorem year?_plain {digits : List Char} {n : Nat} (length : digits.length = 4)
    (read : readDigits digits = some n) (rest : List Char) :
    year? (digits ++ rest) = some ((n : Int), rest) := by
  obtain ⟨c, more, rfl⟩ := List.exists_cons_of_length_eq_add_one length
  have digit := (readDigits_some read).2 c List.mem_cons_self
  have found := digits?_append length read rest
  rw [List.cons_append] at found ⊢
  unfold year?
  split
  case h_1 same => exact absurd digit (by rw [(List.cons.inj same).1]; decide)
  case h_2 same => exact absurd digit (by rw [(List.cons.inj same).1]; decide)
  case h_3 =>
    rw [found]
    rfl

/-- A field of two digits behind its separator is read, and the reader goes on with what follows. -/
theorem field_read {β : Type} {c : Char} {field rest : List Char} {n : Nat} {next : Nat × List Char → Option β}
    {b : β} (found : Field field 2 n) (read : next (n, rest) = some b) :
    ((past? c (c :: (field ++ rest))).bind fun s => (digits? 2 s).bind next) = some b := by
  rw [past?_cons, Option.bind_some, digits?_append found.1 found.2, Option.bind_some, read]

private theorem read?_spelled {r : Reading} {s : List Char} (spelled : r.Spelled s) : read? s = some r := by
  obtain ⟨year, month, day, hour, minute, second, rfl, number, _, short, months, days, hours, minutes,
    seconds⟩ := spelled
  have years : ∀ rest, year? (sign r.date.year ++ (year ++ '-' :: rest)) = some (r.date.year, '-' :: rest) := by
    intro rest
    obtain ⟨minus, plus⟩ := year?_signed number rest
    unfold sign
    split
    · rw [List.cons_append, List.nil_append, minus]
      congr 2
      omega
    · split
      · rw [List.cons_append, List.nil_append, plus]
        congr 2
        omega
      · rw [List.nil_append, year?_plain (short ⟨by omega, by omega⟩) number]
        congr 2
        omega
  simp only [List.append_assoc, List.cons_append]
  -- Field by field: a `simp` here would go through the rest of the reader twice at each of them.
  refine Option.bind_eq_some_iff.mpr ⟨_, years _, ?_⟩
  refine field_read months ?_
  refine field_read days ?_
  refine field_read hours ?_
  refine field_read minutes ?_
  refine field_read seconds ?_
  exact if_pos rfl

/-- The fields that an instant is written with. -/
def ofInstant (t : Instant) : Reading :=
  let second := (t.seconds % 86400).toNat
  ⟨Date.ofDays (t.seconds / 86400), second / 3600, second / 60 % 60, second % 60⟩

private theorem yearText_eq (year : Int) : Instant.yearText year = sign year ++ Decimal.padded 4 year.natAbs := by
  unfold Instant.yearText sign
  split_ifs <;> rfl

theorem field_padded {n : Nat} (bound : n < 100) : Field (Decimal.padded 2 n) 2 n :=
  ⟨Decimal.padded_length (by decide) bound, Decimal.readDigits_padded 2 n⟩

section Written

variable (t : Instant)

private theorem ofInstant_valid : (ofInstant t).Valid := by
  refine ⟨Date.ofDays_valid _, ?_, ?_, ?_⟩ <;> simp only [ofInstant] <;> omega

private theorem ofInstant_unix : (ofInstant t).unix = t.seconds := by
  simp only [unix, ofInstant, Date.elapsed_ofDays]
  omega

private theorem toList_text : t.text.toList = t.chars := String.toList_ofList

private theorem ofInstant_spelled : (ofInstant t).Spelled t.chars := by
  obtain ⟨date, hour, minute, second⟩ := ofInstant_valid t
  have month := date.month.2
  have day := date.day.2.trans (Date.monthLength_le _ _)
  refine ⟨Decimal.padded 4 (ofInstant t).date.year.natAbs, _, _, _, _, _, ?_,
    Decimal.readDigits_padded 4 _, ?_, ?_, field_padded ?_, field_padded ?_, field_padded ?_, field_padded ?_,
    field_padded ?_⟩
  · rw [← yearText_eq]
    rfl
  · exact Decimal.le_length_padded 4 _
  · rintro ⟨low, high⟩
    exact Decimal.padded_length (by decide) (by omega)
  all_goals omega

theorem ofInstant_tells {seconds : Int} (same : t.seconds = seconds) :
    (ofInstant t).Tells t.text seconds := by
  have spelled := ofInstant_spelled t
  rw [← toList_text] at spelled
  exact ⟨ofInstant_valid t, spelled, read?_spelled spelled, (ofInstant_unix t).trans same⟩

end Written

section Order

variable {s t : Instant}

private theorem chars_plain (plain : (ofInstant t).Plain) :
    let r := ofInstant t
    t.chars = Decimal.padded 4 r.date.year.natAbs ++ '-' :: (Decimal.padded 2 r.date.month ++
      '-' :: (Decimal.padded 2 r.date.day ++ 'T' :: (Decimal.padded 2 r.hour ++
        ':' :: (Decimal.padded 2 r.minute ++ ':' :: (Decimal.padded 2 r.second ++ ['Z']))))) := by
  have unsigned : sign (ofInstant t).date.year = [] := by
    rw [sign, if_neg (not_lt.mpr plain.1), if_neg (not_lt.mpr plain.2)]
  have year := yearText_eq (ofInstant t).date.year
  rw [unsigned, List.nil_append] at year
  simp only [← year, ← List.cons_append, ← List.append_assoc]
  rfl

/-- Where years need no sign, the texts are in the order of the seconds. -/
theorem text_lt_iff (left : (ofInstant s).Plain) (right : (ofInstant t).Plain) :
    s.text < t.text ↔ s.seconds < t.seconds := by
  obtain ⟨date, hour, minute, second⟩ := ofInstant_valid s
  obtain ⟨date', hour', minute', second'⟩ := ofInstant_valid t
  have month := date.month.2
  have month' := date'.month.2
  have day := date.day.2.trans (Date.monthLength_le _ _)
  have day' := date'.day.2.trans (Date.monthLength_le _ _)
  have days := Date.elapsed_lt_iff date date'
  have days' := Date.elapsed_lt_iff date' date
  have clock := ofInstant_unix s
  have clock' := ofInstant_unix t
  rw [String.lt_iff_toList_lt, toList_text, toList_text, chars_plain left, chars_plain right]
  unfold Plain at left right
  simp (disch := omega) only [Decimal.padded_append_lt_iff, List.cons_lt_cons_self, List.lt_irrefl, and_false,
    or_false]
  unfold Date.Before at days days'
  unfold unix at clock clock'
  omega

end Order

end Reading

/-- Instants with the same text are in the same second, and the text drops all but the second. -/
theorem Instant.text_eq_iff (s t : Instant) : s.text = t.text ↔ s.seconds = t.seconds := by
  constructor
  · intro same
    have left := (Reading.ofInstant_tells s rfl).read
    have right := (Reading.ofInstant_tells t rfl).read
    rw [same, right, Option.some.injEq] at left
    rw [← Reading.ofInstant_unix s, ← left, Reading.ofInstant_unix]
  · intro same
    rw [text, text, chars, chars, same]

private theorem TimeSpan.ofUnix?_none (start stop : Int) : ofUnix? start stop = none ↔
    Instant.of? start 0 = none ∨ Instant.of? stop 0 = none := by
  rw [ofUnix?]
  cases Instant.of? start 0 <;> cases Instant.of? stop 0 <;> simp

private theorem TimeSpan.ofUnix?_some {start stop : Int} {span : TimeSpan} (found : ofUnix? start stop = some span) :
    span.start.seconds = start ∧ span.stop.seconds = stop := by
  rw [ofUnix?] at found
  cases first : Instant.of? start 0 <;> cases last : Instant.of? stop 0 <;> simp [first, last] at found
  subst found
  exact ⟨(Instant.of?_some first).1, (Instant.of?_some last).1⟩

/-- Spans between seconds, and their text. There is none if one of the seconds is out of range.
Otherwise both texts have the form of a date and a time of day that exist, and read back they are the
seconds that were given; so other seconds have other texts, and while the years need no sign, later
seconds have later texts in alphabetical order. -/
theorem span_text (start stop : Int) :
    (TimeSpan.ofUnix? start stop = none ↔
      ¬(-8334601228800 ≤ start ∧ start ≤ 8210266876799) ∨
        ¬(-8334601228800 ≤ stop ∧ stop ≤ 8210266876799)) ∧
    ∀ span, TimeSpan.ofUnix? start stop = some span → ∃ r q : Reading,
      r.Tells span.start.text start ∧ q.Tells span.stop.text stop ∧
      (span.start.text = span.stop.text ↔ start = stop) ∧
      (r.Plain → q.Plain → (span.start.text < span.stop.text ↔ start < stop)) := by
  constructor
  · rw [TimeSpan.ofUnix?_none, Instant.of?_none, Instant.of?_none]
  · intro span found
    obtain ⟨first, last⟩ := TimeSpan.ofUnix?_some found
    refine ⟨.ofInstant span.start, .ofInstant span.stop, Reading.ofInstant_tells _ first,
      Reading.ofInstant_tells _ last, ?_, ?_⟩
    · rw [Instant.text_eq_iff, first, last]
    · intro left right
      rw [Reading.text_lt_iff left right, first, last]

/-- The last second before 1970 and the beginning of a leap day. -/
theorem span_text_of_leap_day : ∃ (span : TimeSpan) (r q : Reading), TimeSpan.ofUnix? (-1) 951782400 = some span ∧
    span.start.text = "1969-12-31T23:59:59Z" ∧ span.stop.text = "2000-02-29T00:00:00Z" ∧
    r.Tells "1969-12-31T23:59:59Z" (-1) ∧ q.Tells "2000-02-29T00:00:00Z" 951782400 := by
  cases found : TimeSpan.ofUnix? (-1) 951782400 with
  | none =>
    exact absurd ((span_text (-1) 951782400).1.mp found) (by decide)
  | some span =>
    obtain ⟨r, q, first, last, _⟩ := (span_text (-1) 951782400).2 span found
    cases found
    exact ⟨_, r, q, rfl, rfl, rfl, first, last⟩

end Trackline
