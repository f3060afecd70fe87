import Trackline.Proofs.Drawing.Points
import Trackline.Proofs.Kml.Components
import Trackline.Proofs.Run.Outcome
import Trackline.Proofs.Table.Rows

/-! From the cells of a table to the components of a document. A cell may hold a word for infinity or NaN, or
digits beyond the range of doubles; the row is kept nevertheless, and the word goes into the document. -/
namespace Trackline

def Point.Finite (p : Point) : Prop := Double.isFinite p.latitude = true ∧ Double.isFinite p.longitude = true

namespace Table

variable {columns : Columns}

/-- A row whose coordinates are decimals in the range of doubles. -/
structure Measured (columns : Columns) (row : List (List Char)) : Prop where
  latitude : ∃ cell, row[columns.latitude]? = some cell ∧ Moderate cell
  longitude : ∃ cell, row[columns.longitude]? = some cell ∧ Moderate cell

private theorem finite_iff_moderate {row : List (List Char)} {column : Nat} {x : Float}
    (read : ∃ cell, row[column]? = some cell ∧ Double.read? cell = some x) :
    Double.isFinite x = true ↔ ∃ cell, row[column]? = some cell ∧ Moderate cell := by
  obtain ⟨cell, here, number⟩ := read
  simp [here, Double.read?_finite_iff number]

private theorem Placed.finite_iff {row : List (List Char)} {f : Fix}
    (placed : Placed columns row f.latitude f.longitude) :
    f.point.Finite ↔ Measured columns row := by
  have latitude := finite_iff_moderate placed.latitude
  have longitude := finite_iff_moderate placed.longitude
  exact ⟨fun finite => ⟨latitude.mp finite.1, longitude.mp finite.2⟩,
    fun measured => ⟨latitude.mpr measured.latitude, longitude.mpr measured.longitude⟩⟩

private theorem finite_iff_measured {records : List (Option (List (List Char)))} {found : List Fix}
    (done : (read columns records).value = .ok found) :
    (∀ f ∈ found, f.point.Finite) ↔
      ∀ row, some row ∈ records → (∃ x y, Placed columns row x y) → Measured columns row := by
  constructor
  · intro finite row member placed
    obtain ⟨f, inside, here⟩ := mem_of_placed done member placed
    exact here.finite_iff.mp (finite f inside)
  · intro measured f inside
    obtain ⟨row, member, placed, _⟩ := placed_of_mem done inside
    exact placed.finite_iff.mpr (measured row member ⟨_, _, placed⟩)

private theorem filled_of_draws {points : List Point} {p : Placemark} (draws : Draws points p) :
    (∀ leaf ∈ p.geometry.leaves, leaf.points ≠ []) ∧ ∀ point ∈ p.geometry.points, point ∈ points := by
  obtain ⟨segments, nonempty, drawn, inside⟩ := draws
  have leaves : p.geometry.leaves = [.line (.ofSegments segments)] := by
    rw [drawn]
    rfl
  rw [p.geometry.points_eq_leaves, leaves]
  constructor
  · rintro leaf member
    obtain ⟨s, rest, rfl⟩ := List.exists_cons_of_ne_nil nonempty
    rw [List.mem_singleton.mp member]
    exact List.cons_ne_nil _ _
  · intro point member
    rw [List.flatMap_singleton] at member
    obtain ⟨s, here, ends⟩ := List.mem_flatMap.mp member
    obtain ⟨start, stop⟩ := inside s here
    rcases List.mem_pair.mp ends with rfl | rfl
    · exact start
    · exact stop

private theorem finite_numbers {found : List Fix} (bare : ∀ f ∈ found, f.elevation = none) {p : Point}
    (member : ∃ f ∈ found, f.point = p) : (∀ x ∈ p.numbers, Double.isFinite x = true) ↔ p.Finite := by
  obtain ⟨f, inside, rfl⟩ := member
  have ground : f.point.elevation = 0 := by rw [Fix.point, bare f inside, Option.getD_none]
  have zero : Double.isFinite 0 = true := by decide +kernel
  simp [Point.numbers, Point.Finite, ground, zero, and_comm]

/-- What comes of the cells of a table that was read. All fixes are finite just when each row with two numbers
has decimals in range for them. The components of a document that is drawn from the fixes are digits or one
of three words, and they are all digits where the points that are drawn are finite, so where all fixes are. -/
theorem numerals_of_cells {bytes : List UInt8} {found : List Fix}
    (done : (fixes columns bytes).value = .ok found) :
    ((∀ f ∈ found, f.point.Finite) ↔
      ∀ row, some row ∈ records bytes → (∃ x y, Placed columns row x y) → Measured columns row) ∧
    ∀ (s : Settings) (doc : Document), (Drawing.document s found).value = .ok doc →
      let components := Kml.components (Kml.document doc)
      (∀ c ∈ components, Numeral c ∨ Word c) ∧
      ((∀ c ∈ components, Numeral c) ↔ ∀ p ∈ doc.points, p.Finite) ∧
      (∀ p ∈ doc.points, ∃ f ∈ found, f.point = p) ∧
      ((∀ f ∈ found, f.point.Finite) → ∀ c ∈ components, Numeral c) := by
  refine ⟨finite_iff_measured done, fun s doc made => ?_⟩
  have draws := Drawing.document_draws made
  obtain ⟨written, digits⟩ := Kml.components_numeral fun p member => (filled_of_draws (draws p member)).1
  have points : ∀ p ∈ doc.points, ∃ f ∈ found, f.point = p := by
    intro p member
    obtain ⟨placemark, inside, here⟩ := List.mem_flatMap.mp member
    exact List.mem_map.mp ((filled_of_draws (draws placemark inside)).2 p here)
  have bare : ∀ f ∈ found, f.elevation = none := fun f inside => by
    obtain ⟨_, _, _, flat⟩ := placed_of_mem done inside
    exact flat
  rw [forall₂_congr fun p member => finite_numbers bare (points p member)] at digits
  refine ⟨written, digits, points, fun all => digits.mpr fun p member => ?_⟩
  obtain ⟨f, inside, rfl⟩ := points p member
  exact all f inside

/-- A table of three rows: a word that is no number skips a row, and the rest is drawn in digits. -/
theorem numerals_of_three :
    let bytes := "a,b\n1.5,2\nx,3\n-4,1e2".toUTF8.toList
    ∃ found doc, (fixes ⟨0, 1, none⟩ bytes).value = .ok found ∧ found.length = 2 ∧
      (Drawing.document {} found).value = .ok doc ∧ ∀ c ∈ Kml.components (Kml.document doc), Numeral c := by
  intro bytes
  have shown : (fixes ⟨0, 1, none⟩ bytes).value.toOption.map (fun found =>
      (found.length, found.all fun f => Double.isFinite f.latitude && Double.isFinite f.longitude)) =
        some (2, true) := by
    decide +kernel
  cases done : (fixes ⟨0, 1, none⟩ bytes).value with
  | error cause =>
    rw [done] at shown
    contradiction
  | ok found =>
    rw [done] at shown
    obtain ⟨size, finite⟩ := Prod.mk.inj (Option.some.inj shown)
    have nonempty : found ≠ [] := List.ne_nil_of_length_pos (by omega)
    obtain ⟨doc, _, made, _⟩ := Drawing.document_some {} found (by decide) nonempty
    have drawn : (Drawing.document {} found).value = .ok doc := by rw [made]
    obtain ⟨_, _, _, digits⟩ := (numerals_of_cells done).2 {} doc drawn
    exact ⟨found, doc, rfl, size, drawn, digits (by simpa [Point.Finite, Fix.point] using finite)⟩

/-- A word for NaN is a number to the table, and it stands in the document. -/
theorem word_among_components :
    let bytes := "lat,lng\nnan,1\n".toUTF8.toList
    ∃ found doc, (fixes ⟨0, 1, none⟩ bytes).value = .ok found ∧ (∃ f ∈ found, ¬f.point.Finite) ∧
      (Drawing.document { mode := .polyline } found).value = .ok doc ∧
      ∃ c ∈ Kml.components (Kml.document doc), ¬Numeral c := by
  intro bytes
  have shown : (fixes ⟨0, 1, none⟩ bytes).value.toOption.map (fun found =>
      (found.all fun f => Double.isFinite f.latitude,
        (Drawing.document { mode := .polyline } found).value.toOption.map fun doc =>
          Kml.components (Kml.document doc))) =
        some (false, some (["1", "NaN", "0", "1", "NaN", "0"].map String.toList)) := by
    decide +kernel
  cases done : (fixes ⟨0, 1, none⟩ bytes).value with
  | error cause =>
    rw [done] at shown
    contradiction
  | ok found =>
    rw [done] at shown
    obtain ⟨endless, drawn⟩ := Prod.mk.inj (Option.some.inj shown)
    cases made : (Drawing.document { mode := .polyline } found).value with
    | error cause =>
      rw [made] at drawn
      contradiction
    | ok doc =>
      rw [made] at drawn
      have components : Kml.components (Kml.document doc) = ["1", "NaN", "0", "1", "NaN", "0"].map String.toList :=
        Option.some.inj drawn
      obtain ⟨f, inside, infinite⟩ := List.all_eq_false.mp endless
      refine ⟨found, doc, rfl, ⟨f, inside, fun finite => infinite finite.1⟩, made, "NaN".toList, ?_,
        fun digits => digits.not_word (.inl rfl)⟩
      rw [components]
      exact List.mem_map_of_mem (by simp)

end Table
end Trackline
