import Trackline.Drawing
import Trackline.Kml
import Trackline.Proofs.Time.Reading
import Trackline.TrackFile

/-! Timestamps read from their plain form. Every field comes back as it was written, so the instant is the
date and the time of day less the offset, whatever the offset carries over. -/
namespace Trackline

namespace Timestamp

/-- A fraction of a second, as it stands behind the seconds: nothing, or a point and up to nine digits. -/
theorem fraction_chars {nanos : Nat} (bound : nanos < 10 ^ 9) :
    (nanos = 0 ∧ (Decimal.reduced nanos 9).chars.drop 1 = []) ∨
      ∃ digits kept, 0 < kept ∧ kept ≤ 9 ∧ digits < 10 ^ kept ∧ nanos = digits * 10 ^ (9 - kept) ∧
        (Decimal.reduced nanos 9).chars.drop 1 = '.' :: Decimal.padded kept digits := by
  obtain ⟨digits, kept, most, form, value⟩ := Decimal.reduced_parts nanos 9
  have small : digits < 10 ^ kept := by
    have split : 10 ^ 9 = 10 ^ kept * 10 ^ (9 - kept) := by rw [← Nat.pow_add, Nat.add_sub_cancel' most]
    rw [value, split] at bound
    exact Nat.lt_of_mul_lt_mul_right bound
  rw [form, Decimal.chars_eq]
  rcases Nat.eq_zero_or_pos kept with rfl | positive
  · left
    have zero : digits = 0 := by simpa using small
    subst zero
    exact ⟨by simpa using value, rfl⟩
  · right
    refine ⟨digits, kept, positive, most, small, value, ?_⟩
    have places : (- -(kept : Int)).toNat = kept := by omega
    rw [if_neg (by dsimp only; omega)]
    dsimp only
    rw [places, Decimal.pointed_eq, if_neg positive.ne', Nat.div_eq_of_lt small, Nat.mod_eq_of_lt small]
    rfl

/-- A day of the calendar in a year of four digits, a time of that day, less than a second, and less than a day
of offset. -/
structure Plain (t : Timestamp) : Prop where
  date : t.date.Valid
  year : 0 ≤ t.date.year ∧ t.date.year ≤ 9999
  second : t.second < 86400
  nanos : t.nanos < 10 ^ 9
  offset : t.offset.natAbs < 1440

/-- Seconds since 1970 began, by the days that are over. -/
def elapsed (t : Timestamp) : Int := t.date.elapsed * 86400 + t.second - t.offset * 60

private theorem offset_head (offset : Int) :
    ∃ c rest, offsetChars offset = c :: rest ∧ c.isDigit = false ∧ c ≠ '.' := by
  rw [offsetChars]
  split
  · exact ⟨'Z', [], rfl, by decide, by decide⟩
  · rw [List.cons_append]
    refine ⟨_, _, rfl, ?_⟩
    split <;> decide

private theorem fraction?_chars {nanos : Nat} (bound : nanos < 10 ^ 9) (offset : Int) :
    fraction? ((Decimal.reduced nanos 9).chars.drop 1 ++ offsetChars offset) = some (nanos, offsetChars offset) := by
  obtain ⟨c, rest, head, letter, point⟩ := offset_head offset
  rcases fraction_chars bound with ⟨rfl, bare⟩ | ⟨digits, kept, positive, most, small, value, written⟩
  · rw [bare, List.nil_append, head]
    unfold fraction?
    split
    · exact absurd (List.cons.inj ‹_›).1 point
    · rfl
  · have length := Decimal.padded_length positive small
    have front : (Decimal.padded kept digits).take 9 = Decimal.padded kept digits :=
      List.take_of_length_le (by omega)
    rw [written, head, List.cons_append, fraction?, List.takeWhile_append_of_pos Decimal.padded_digits,
      List.dropWhile_append_of_pos Decimal.padded_digits, List.takeWhile_cons_of_neg (by simp [letter]),
      List.dropWhile_cons_of_neg (by simp [letter]), List.append_nil, front, length, Decimal.readDigits_padded,
      value]
    rfl

private theorem offset?_fields {sign : Char} {hours minutes : Nat} (hour : hours ≤ 23) (minute : minutes ≤ 59)
    (behind : sign ≠ 'Z') :
    offset? (sign :: (Decimal.padded 2 hours ++ ':' :: Decimal.padded 2 minutes)) =
      if sign = '+' then some ((hours * 60 + minutes : Nat) : Int)
      else if sign = '-' then some (-((hours * 60 + minutes : Nat) : Int)) else none := by
  have first := digits?_padded 2 hours (by decide) (by omega)
  have second := digits?_padded 2 minutes (by decide) (by omega) []
  have inside : ¬(23 < hours ∨ 59 < minutes) := by omega
  rw [List.append_nil] at second
  unfold offset?
  split
  · exact absurd (List.cons.inj ‹_›).1 behind
  · obtain ⟨rfl, rfl⟩ := List.cons.inj ‹_›
    simp only [first, second, past?_cons, Option.bind_eq_bind, Option.bind_some, ne_eq, not_true_eq_false, false_or,
      if_neg inside]
    rfl
  · contradiction

private theorem offset?_chars {offset : Int} (bound : offset.natAbs < 1440) :
    offset? (offsetChars offset) = some offset := by
  have whole := Nat.div_add_mod' offset.natAbs 60
  rw [offsetChars]
  split
  case isTrue zero =>
    rw [zero]
    rfl
  case isFalse _ =>
    rcases Int.lt_or_le offset 0 with behind | ahead
    · have other : '-' ≠ '+' := by decide
      rw [if_pos behind, List.cons_append, offset?_fields (by omega) (by omega) (by decide), whole, if_neg other,
        if_pos rfl]
      congr 1
      omega
    · rw [if_neg (Int.not_lt.mpr ahead), List.cons_append, offset?_fields (by omega) (by omega) (by decide), whole,
        if_pos rfl]
      congr 1
      omega

open Reading in
/-- A timestamp reads back from its plain form. -/
theorem ofPlain?_plain {t : Timestamp} (plain : t.Plain) :
    ∃ s, t.plain? = some s ∧ ofPlain? s = some t := by
  obtain ⟨⟨⟨firstMonth, lastMonth⟩, firstDay, lastDay⟩, ⟨low, high⟩, second, nanos, near⟩ := plain
  have short := Date.monthLength_le t.date.year t.date.month
  have year := digits?_padded 4 t.date.year.natAbs (by decide) (by omega)
  have month := field_padded (n := t.date.month) (by omega)
  have day := field_padded (n := t.date.day) (by omega)
  have hours := field_padded (n := t.second / 3600) (by omega)
  have minutes := field_padded (n := t.second / 60 % 60) (by omega)
  have seconds := field_padded (n := t.second % 60) (by omega)
  have sign : (t.date.year.natAbs : Int) = t.date.year := by omega
  have clock : t.second / 3600 * 3600 + t.second / 60 % 60 * 60 + t.second % 60 = t.second := by omega
  refine ⟨_, if_pos ⟨low, high, near⟩, ?_⟩
  simp only [List.append_assoc, List.cons_append]
  refine Option.bind_eq_some_iff.mpr ⟨_, year _, ?_⟩
  refine field_read month ?_
  refine field_read day ?_
  refine field_read hours ?_
  refine field_read minutes ?_
  refine field_read seconds ?_
  refine Option.bind_eq_some_iff.mpr ⟨_, fraction?_chars nanos _, ?_⟩
  refine Option.bind_eq_some_iff.mpr ⟨_, offset?_chars near, ?_⟩
  rw [sign, clock, if_pos ⟨firstMonth, lastMonth, firstDay, lastDay, by omega, by omega, by omega⟩]
  rfl

private theorem unix_eq_elapsed {t : Timestamp} (valid : t.date.Valid) : t.unix = t.elapsed := by
  rw [unix, elapsed, Date.toDays_eq_elapsed valid]

/-- Years of four digits lie within the range of instants, with room for any offset. -/
theorem elapsed_bounds {t : Timestamp} (plain : t.Plain) :
    -8334601228800 ≤ t.elapsed ∧ t.elapsed ≤ 8210266876799 := by
  have short := Date.monthLength_le t.date.year t.date.month
  rw [← unix_eq_elapsed plain.date]
  obtain ⟨⟨⟨firstMonth, lastMonth⟩, firstDay, lastDay⟩, ⟨low, high⟩, second, _, near⟩ := plain
  simp only [unix, Date.toDays, Date.monthStart]
  split_ifs <;> omega

private theorem instant?_plain {t : Timestamp} (plain : t.Plain) :
    ∃ i, t.instant? = some i ∧ i.seconds = t.elapsed ∧ i.nanos = t.nanos := by
  obtain ⟨s, written, read⟩ := ofPlain?_plain plain
  have inside := elapsed_bounds plain
  rw [← unix_eq_elapsed plain.date] at inside ⊢
  refine ⟨⟨t.unix, t.nanos, inside.1, inside.2⟩, ?_, rfl, rfl⟩
  simp [instant?, written, read, Instant.of?, inside]

/-- Timestamps of the same moment, at any offsets. -/
structure Same (t u : Timestamp) : Prop where
  elapsed : t.elapsed = u.elapsed
  nanos : t.nanos = u.nanos

private theorem instant?_eq_iff {t u : Timestamp} (plain : t.Plain) (plain' : u.Plain) :
    t.instant? = u.instant? ↔ t.Same u := by
  obtain ⟨i, found, seconds, nanos⟩ := instant?_plain plain
  obtain ⟨j, found', seconds', nanos'⟩ := instant?_plain plain'
  rw [found, found', Option.some.injEq]
  constructor
  · rintro rfl
    exact ⟨seconds.symm.trans seconds', nanos.symm.trans nanos'⟩
  · rintro ⟨elapsed, fraction⟩
    rw [← seconds, ← seconds'] at elapsed
    rw [← nanos, ← nanos'] at fraction
    cases i
    cases j
    rw [Instant.mk.injEq]
    exact ⟨elapsed, fraction⟩

private theorem instant?_some {t : Timestamp} (plain : t.Plain) {i : Instant} (found : t.instant? = some i) :
    i.seconds = t.elapsed ∧ i.nanos = t.nanos := by
  obtain ⟨j, here, parts⟩ := instant?_plain plain
  rw [found] at here
  cases here
  exact parts

private theorem text_eq_iff {t u : Timestamp} (plain : t.Plain) (plain' : u.Plain) {i j : Instant}
    (found : t.instant? = some i) (found' : u.instant? = some j) : i.text = j.text ↔ t.elapsed = u.elapsed := by
  rw [Instant.text_eq_iff, (instant?_some plain found).1, (instant?_some plain' found').1]

end Timestamp

/-- A fix with the time that was recorded of it. -/
def Fix.timed (f : Fix) (time : Option Timestamp) : Fix := { f with time := time.bind Timestamp.instant? }

private theorem told?_time (version : TrackFile.Version) (f : Fix) (attributes : List Markup.Attribute)
    (content : List Markup.Tree) :
    TrackFile.told? version f ("time", attributes, content) = (TrackFile.time? content).map fun t => f.timed (some t) := rfl

private theorem Fix.timed_same (f : Fix) {time time' : Option Timestamp}
    (same : Option.Rel (fun t u => t.Plain ∧ u.Plain ∧ t.Same u) time time') : f.timed time = f.timed time' := by
  cases same with
  | none => rfl
  | some same =>
    obtain ⟨plain, plain', same⟩ := same
    rw [timed, timed, Option.bind_some, Option.bind_some, (Timestamp.instant?_eq_iff plain plain').mpr same]

/-- Timestamps with a plain form keep their instant. It is the date and the time of day less the offset, to the
nanosecond, and its text is the date and the time of day that this is in universal time. So two of them
have the same instant just when they are of the same moment, and the same text just when they are in the
same second. A point of a track file has the instant of its time; and fixes that were recorded at the same
moments, each at an offset of its own, are drawn and written as one document. -/
theorem plain_instants :
    (∀ t : Timestamp, t.Plain → ∃ i, t.instant? = some i ∧ i.seconds = t.elapsed ∧ i.nanos = t.nanos ∧
      ∃ r : Reading, r.Tells i.text t.elapsed) ∧
    (∀ t u : Timestamp, t.Plain → u.Plain → (t.instant? = u.instant? ↔ t.Same u) ∧
      ∀ i j, t.instant? = some i → u.instant? = some j → (i.text = j.text ↔ t.elapsed = u.elapsed)) ∧
    (∀ version f attributes content, TrackFile.told? version f ("time", attributes, content) =
      (TrackFile.time? content).map fun t => f.timed (some t)) ∧
    ∀ (s : Settings) (records : List (Fix × Option Timestamp × Option Timestamp)),
      (∀ r ∈ records, Option.Rel (fun t u => t.Plain ∧ u.Plain ∧ t.Same u) r.2.1 r.2.2) →
      let here := records.map fun r => r.1.timed r.2.1
      let there := records.map fun r => r.1.timed r.2.2
      here = there ∧
        (Drawing.document s here).value.map Kml.text = (Drawing.document s there).value.map Kml.text := by
  refine ⟨fun t plain => ?_, fun t u plain plain' => ?_, told?_time, ?_⟩
  · obtain ⟨i, found, seconds, nanos⟩ := Timestamp.instant?_plain plain
    exact ⟨i, found, seconds, nanos, _, Reading.ofInstant_tells i seconds⟩
  · exact ⟨Timestamp.instant?_eq_iff plain plain', fun _ _ => Timestamp.text_eq_iff plain plain'⟩
  · intro s records same here there
    have equal : here = there := List.map_congr_left fun r member => r.1.timed_same (same r member)
    rw [equal]
    exact ⟨rfl, rfl⟩

/-- Half an hour into a year, told where it is still the day before and where it is already morning. -/
theorem plain_instants_of_new_year :
    let behind : Timestamp := ⟨⟨1999, 12, 31⟩, 84600, 500000000, -60⟩
    let ahead : Timestamp := ⟨⟨2000, 1, 1⟩, 21600, 500000000, 330⟩
    let fix : Fix := { latitude := 1, longitude := 2 }
    behind.Plain ∧ ahead.Plain ∧ behind.Same ahead ∧ fix.timed behind = fix.timed ahead ∧
      ∃ i r, behind.instant? = some i ∧ ahead.instant? = some i ∧ i.seconds = 946686600 ∧
        i.text = "2000-01-01T00:30:00Z" ∧ Reading.Tells r i.text behind.elapsed := by
  intro behind ahead fix
  have plain : behind.Plain := ⟨⟨by decide, by decide⟩, by decide, by decide, by decide, by decide⟩
  have plain' : ahead.Plain := ⟨⟨by decide, by decide⟩, by decide, by decide, by decide, by decide⟩
  have found : behind.instant? = some ⟨946686600, 500000000, by decide, by decide⟩ := by decide +kernel
  have found' : ahead.instant? = some ⟨946686600, 500000000, by decide, by decide⟩ := by decide +kernel
  obtain ⟨kept, same, _, drawn⟩ := plain_instants
  have together := (same behind ahead plain plain').1.mp (found.trans found'.symm)
  obtain ⟨equal, _⟩ := drawn {} [(fix, some behind, some ahead)] (by simpa using ⟨plain, plain', together⟩)
  obtain ⟨i, here, _, _, r, told⟩ := kept behind plain
  have instant := Option.some.inj (here.symm.trans found)
  have text : i.text = "2000-01-01T00:30:00Z" := by
    rw [instant]
    decide +kernel
  exact ⟨plain, plain', together, (List.cons.inj equal).1, i, r, here, by rw [found', instant], by rw [instant],
    text, told⟩

end Trackline
