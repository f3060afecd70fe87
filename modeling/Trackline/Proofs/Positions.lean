import Trackline.Proofs.Coordinates
import Trackline.Proofs.Number.Numeral

/-! Positions read again from their text. A number reads back from what is written of it, the words
included, so a text taken apart at its blanks and commas gives the positions it was made of. -/
namespace Trackline

namespace Point

/-- What is printed of a position. -/
def printed (p : Point) : List String := p.numbers.map Double.text

private theorem printed_injective {p q : Point} (same : p.printed = q.printed) : p = q := by
  have numbers : p.numbers = q.numbers := List.map_injective_iff.mpr (fun _ _ => Double.text_injective) same
  simp only [Point.numbers, List.cons.injEq, and_true] at numbers
  obtain ⟨longitude, latitude, elevation⟩ := numbers
  cases p
  cases q
  rw [mk.injEq]
  exact ⟨latitude, longitude, elevation⟩

private theorem triple_tight (p : Point) : p.triple ≠ "" ∧ ' ' ∉ p.triple.toList := by
  rw [Ne, ← String.toList_eq_nil_iff, p.toList_triple]
  exact ⟨p.chars_nonempty, p.blank_not_mem_chars⟩

private theorem readings_chars (p : Point) : (p.chars.splitOn ',').map Double.read? = p.numbers.map some := by
  rw [splitOn_chars, List.map_map]
  exact List.map_congr_left fun x _ => Double.read?_chars x

end Point

namespace Coordinates

/-- The numbers read between the commas of each piece between blanks. -/
def readings (s : List Char) : List (List (Option Float)) :=
  (s.splitOn ' ').map fun piece => (piece.splitOn ',').map Double.read?

private theorem readings_text {points : List Point} (nonempty : points ≠ []) :
    readings (text points).toList = points.map fun p => p.numbers.map some := by
  rw [readings, splitOn_text nonempty, List.map_map]
  exact List.map_congr_left fun p _ => p.readings_chars

private theorem text_eq_iff (l r : List Point) :
    text l = text r ↔ List.Forall₂ (fun p q => p.printed = q.printed) l r := by
  constructor
  · intro same
    rw [text_injective same, List.forall₂_same]
    exact fun _ _ => rfl
  · intro same
    have equal : l = r := by
      rw [← List.forall₂_eq_eq_eq]
      exact same.imp fun _ _ => Point.printed_injective
    rw [equal]

end Coordinates

open Coordinates in
/-- The text of positions. It is one triple for each position, with one blank between neighbours and none at
the ends, for no triple is empty or has a blank; so only no positions have an empty text, and the texts of
two lists are joined by a blank. Taken apart at blanks and commas it gives the longitude, the latitude and
the elevation of each position in turn; and lists with one text are of one length, with the same numbers
printed. -/
theorem text_taken_apart (points : List Point) :
    text points = " ".intercalate (points.map Point.triple) ∧
    (∀ p : Point, p.triple ≠ "" ∧ ' ' ∉ p.triple.toList) ∧
    (text points = "" ↔ points = []) ∧
    (∀ more, points ≠ [] → more ≠ [] → text (points ++ more) = text points ++ " " ++ text more) ∧
    (points ≠ [] → readings (text points).toList =
      points.map fun p => [some p.longitude, some p.latitude, some p.elevation]) ∧
    ∀ others, text points = text others ↔ List.Forall₂ (fun p q => p.printed = q.printed) points others :=
  ⟨text_eq_intercalate points, Point.triple_tight, text_eq_empty_iff points, fun _ => text_append, readings_text,
    text_eq_iff points⟩

open Coordinates in
/-- A point of words and a negative zero before one of digits. -/
theorem text_of_two_points :
    let odd : Point := ⟨Double.nan, Double.ofMagnitude true 0, Double.ofMagnitude true Double.infinity⟩
    let plain : Point := ⟨4.25, -3, 0⟩
    [odd] ≠ [] ∧ [plain] ≠ [] ∧ text [odd] = "-0,NaN,-inf" ∧ text ([odd] ++ [plain]) = "-0,NaN,-inf -3,4.25,0" ∧
      readings (text [odd, plain]).toList = [[some (Double.ofMagnitude true 0), some Double.nan,
        some (Double.ofMagnitude true Double.infinity)], [some (-3), some 4.25, some 0]] := by
  intro odd plain
  have first : text [odd] = "-0,NaN,-inf" := by decide +kernel
  have second : text [plain] = "-3,4.25,0" := by decide +kernel
  obtain ⟨_, _, _, joined, _⟩ := text_taken_apart [odd]
  obtain ⟨_, _, _, _, pieces, _⟩ := text_taken_apart [odd, plain]
  refine ⟨by simp, by simp, first, ?_, pieces (by simp)⟩
  rw [joined [plain] (by simp) (by simp), first, second]
  rfl

end Trackline
