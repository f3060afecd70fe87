import Mathlib.Data.List.Basic
import Trackline.Point
import Trackline.Proofs.Number.Text

/-! The text of positions determines them: no number holds the comma or the blank that
stand between the numbers and between the positions. -/
namespace Trackline

private theorem append_separator {α : Type} {separator : α} {a b r t : List α} (left : separator ∉ a)
    (right : separator ∉ b) (same : a ++ separator :: r = b ++ separator :: t) : a = b ∧ r = t := by
  induction a generalizing b with
  | nil =>
    cases b with
    | nil => simpa using same
    | cons x _ =>
      obtain ⟨first, _⟩ := List.cons.inj same
      simp [first] at right
  | cons x a ih =>
    cases b with
    | nil =>
      obtain ⟨first, _⟩ := List.cons.inj same
      simp [first] at left
    | cons y b =>
      obtain ⟨first, others⟩ := List.cons.inj same
      obtain ⟨rest, behind⟩ := ih (fun member => left (.tail _ member)) (fun member => right (.tail _ member)) others
      exact ⟨by rw [first, rest], behind⟩

namespace Point

def chars (p : Point) : List Char :=
  Double.chars p.longitude ++ ',' :: (Double.chars p.latitude ++ ',' :: Double.chars p.elevation)

theorem toList_triple (p : Point) : p.triple.toList = p.chars := by
  simp [triple, chars, Double.text]

private theorem comma_not_mem_chars (x : Float) : ',' ∉ Double.chars x :=
  fun member => (Double.chars_safe x _ member).1 rfl

private theorem chars_injective {p q : Point} (same : p.chars = q.chars) : p = q := by
  obtain ⟨longitude, others⟩ := append_separator (comma_not_mem_chars _) (comma_not_mem_chars _) same
  obtain ⟨latitude, elevation⟩ := append_separator (comma_not_mem_chars _) (comma_not_mem_chars _) others
  cases p
  cases q
  simp only [mk.injEq]
  exact ⟨Double.chars_injective latitude, Double.chars_injective longitude, Double.chars_injective elevation⟩

theorem blank_not_mem_chars (p : Point) : ' ' ∉ p.chars := by
  have blank : ∀ x, ' ' ∉ Double.chars x := fun x member => (Double.chars_safe x _ member).2 rfl
  simp [chars, blank]

theorem chars_nonempty (p : Point) : p.chars ≠ [] := by
  simp [chars]

/-- The numbers of a position as they stand in its text. -/
def numbers (p : Point) : List Float := [p.longitude, p.latitude, p.elevation]

theorem splitOn_chars (p : Point) : p.chars.splitOn ',' = p.numbers.map Double.chars := by
  have joined : p.chars = [','].intercalate (p.numbers.map Double.chars) := by
    simp [chars, numbers, List.intercalate]
  rw [joined, List.splitOn_intercalate ',' (by simp [numbers, comma_not_mem_chars]) (by simp [numbers])]

end Point

namespace Coordinates

def behind (points : List Point) : List Char := points.flatMap fun p => ' ' :: p.chars

private theorem toList_foldl (points : List Point) {written : String} (nonempty : written ≠ "") :
    (points.foldl (fun written p => push (if written.isEmpty then written else written ++ " ") p)
      written).toList = written.toList ++ behind points := by
  induction points generalizing written with
  | nil => simp [behind]
  | cons p rest ih =>
    have full : written.isEmpty = false := by simpa using nonempty
    have next : push (if written.isEmpty then written else written ++ " ") p = written ++ " " ++ p.triple := by
      simp [push, full]
    have more : written ++ " " ++ p.triple ≠ "" := by
      intro empty
      have chars := congrArg String.toList empty
      simp at chars
    rw [List.foldl_cons, next, ih more]
    simp [behind, Point.toList_triple]

/-- All positions with one blank between neighbours. -/
theorem toList_text (p : Point) (rest : List Point) :
    (text (p :: rest)).toList = p.chars ++ behind rest := by
  have first : push "" p = p.triple := by simp [push]
  have nonempty : p.triple ≠ "" := by
    intro empty
    have chars := congrArg String.toList empty
    rw [Point.toList_triple] at chars
    exact p.chars_nonempty chars
  rw [text, List.foldl_cons, ← Point.toList_triple, ← toList_foldl rest nonempty, ← first]
  rfl

private theorem chars_ne_more (p q s : Point) (r : List Point) : p.chars ≠ q.chars ++ behind (s :: r) := by
  intro same
  apply p.blank_not_mem_chars
  rw [same]
  simp [behind]

private theorem behind_injective {p q : Point} {l r : List Point}
    (same : p.chars ++ behind l = q.chars ++ behind r) : p = q ∧ l = r := by
  have nothing : behind [] = [] := rfl
  induction l generalizing p q r with
  | nil =>
    rw [nothing, List.append_nil] at same
    cases r with
    | nil =>
      rw [nothing, List.append_nil] at same
      exact ⟨Point.chars_injective same, rfl⟩
    | cons s r => exact absurd same (chars_ne_more p q s r)
  | cons s l ih =>
    cases r with
    | nil =>
      rw [nothing, List.append_nil] at same
      exact absurd same.symm (chars_ne_more q p s l)
    | cons t r =>
      obtain ⟨first, others⟩ := append_separator p.blank_not_mem_chars q.blank_not_mem_chars same
      obtain ⟨next, rest⟩ := ih others
      exact ⟨Point.chars_injective first, by rw [next, rest]⟩

private theorem text_nonempty (p : Point) (rest : List Point) : text (p :: rest) ≠ "" := by
  intro empty
  have chars := congrArg String.toList empty
  rw [toList_text] at chars
  exact p.chars_nonempty (List.append_eq_nil_iff.mp chars).1

theorem text_injective {l r : List Point} (same : text l = text r) : l = r := by
  cases l with
  | nil =>
    cases r with
    | nil => rfl
    | cons q r => exact absurd same.symm (text_nonempty q r)
  | cons p l =>
    cases r with
    | nil => exact absurd same (text_nonempty p l)
    | cons q r =>
      have chars := congrArg String.toList same
      rw [toList_text, toList_text] at chars
      obtain ⟨first, rest⟩ := behind_injective chars
      rw [first, rest]

/-- The triples of all positions, joined by one blank. -/
theorem text_eq_intercalate (points : List Point) : text points = " ".intercalate (points.map Point.triple) := by
  apply String.toList_inj.mp
  cases points with
  | nil => rfl
  | cons p rest =>
    rw [toList_text]
    induction rest generalizing p with
    | nil => simp [behind, Point.toList_triple]
    | cons q rest ih =>
      have next := ih q
      simp only [List.map_cons, String.intercalate_cons_cons, String.toList_append] at next ⊢
      rw [← next, Point.toList_triple]
      simp [behind]

theorem splitOn_text {points : List Point} (nonempty : points ≠ []) :
    (text points).toList.splitOn ' ' = points.map Point.chars := by
  have joined : (text points).toList = [' '].intercalate (points.map Point.chars) := by
    rw [text_eq_intercalate, String.toList_intercalate, List.map_map]
    congr 1
    exact List.map_congr_left fun p _ => p.toList_triple
  rw [joined, List.splitOn_intercalate ' ' (by simp [Point.blank_not_mem_chars]) (by simpa using nonempty)]

theorem text_eq_empty_iff (points : List Point) : text points = "" ↔ points = [] := by
  cases points with
  | nil => simp [text]
  | cons p rest => simpa using text_nonempty p rest

theorem text_append {l r : List Point} (left : l ≠ []) (right : r ≠ []) :
    text (l ++ r) = text l ++ " " ++ text r := by
  rw [text_eq_intercalate, text_eq_intercalate, text_eq_intercalate, List.map_append,
    String.intercalate_append_of_ne_nil (by simpa using left) (by simpa using right)]

/-- One blank joins the texts of groups of positions as well; an empty group leaves no trace. -/
theorem intercalate_texts (groups : List (List Point)) :
    " ".intercalate ((groups.map text).filter (· ≠ "")) = text groups.flatten := by
  induction groups with
  | nil => rfl
  | cons group rest ih =>
    rw [List.map_cons, List.flatten_cons]
    by_cases empty : group = []
    · have blank : text group = "" := (text_eq_empty_iff group).mpr empty
      rw [List.filter_cons_of_neg (by simpa using blank), ih, empty, List.nil_append]
    · have written : text group ≠ "" := mt (text_eq_empty_iff group).mp empty
      rw [List.filter_cons_of_pos (by simpa using written)]
      by_cases last : rest.flatten = []
      · have nothing : (rest.map text).filter (· ≠ "") = [] := by
          have all := List.flatten_eq_nil_iff.mp last
          simpa [List.filter_eq_nil_iff, text_eq_empty_iff] using all
        rw [nothing, last, String.intercalate_singleton, List.append_nil]
      · have more : (rest.map text).filter (· ≠ "") ≠ [] := by
          intro nothing
          rw [nothing, String.intercalate_nil] at ih
          exact last ((text_eq_empty_iff _).mp ih.symm)
        rw [String.intercalate_cons_of_ne_nil more, ih, text_append empty last]

end Coordinates
end Trackline
