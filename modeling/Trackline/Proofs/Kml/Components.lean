import Trackline.Proofs.Extent
import Trackline.Proofs.Kml.Leaves
import Trackline.Proofs.Number.Numeral

/-! The components of a document: what stands between the blanks and the commas of its coordinates. Where no
line or ring is without points, they are the numbers of all points, three for each. -/
namespace Trackline.Kml
open Element

/-- All components of all coordinates in a tree. -/
def components (tree : Element) : List (List Char) :=
  (tree.tagged "coordinates").flatMap fun found =>
    ((found.text.getD "").toList.splitOn ' ').flatMap (·.splitOn ',')

private theorem components_text {points : List Point} (nonempty : points ≠ []) :
    ((Coordinates.text points).toList.splitOn ' ').flatMap (·.splitOn ',') =
      points.flatMap fun p => p.numbers.map Double.chars := by
  rw [Coordinates.splitOn_text nonempty, List.flatMap_map]
  exact List.flatMap_congr fun p _ => p.splitOn_chars

section Filled

variable {doc : Document} (filled : ∀ p ∈ doc.allPlacemarks, ∀ leaf ∈ p.geometry.leaves, leaf.points ≠ [])

include filled

private theorem components_document :
    components (document doc) =
      (doc.folders.flatMap (·.placemarks) ++ doc.placemarks).flatMap fun p =>
        p.geometry.points.flatMap fun point => point.numbers.map Double.chars := by
  have outside : "coordinates" ∉ surroundings := by decide
  have other : "coordinates" ∉ ["kml", "Document", "Folder", "Style"] := by decide
  rw [components, tagged_document_placemarks outside other, List.flatMap_assoc]
  apply List.flatMap_congr
  intro p member
  have inside : p ∈ doc.allPlacemarks := List.perm_append_comm.mem_iff.mp member
  rw [tagged_placemark_geometry outside, if_neg (by decide), List.nil_append, tagged_leaves, List.flatMap_map,
    p.geometry.points_eq_leaves, List.flatMap_assoc]
  exact List.flatMap_congr fun leaf here => components_text (filled p inside leaf here)

private theorem mem_components (c : List Char) :
    c ∈ components (document doc) ↔ ∃ p ∈ doc.points, ∃ x ∈ p.numbers, Double.chars x = c := by
  rw [components_document filled, ← List.flatMap_assoc, List.mem_flatMap]
  simp only [List.mem_map, Document.points, Document.allPlacemarks, List.flatMap_append, List.mem_append, or_comm]

/-- Every component is written in digits or is a word, and all have digits just when all numbers are finite. -/
theorem components_numeral :
    (∀ c ∈ components (document doc), Numeral c ∨ Word c) ∧
      ((∀ c ∈ components (document doc), Numeral c) ↔
        ∀ p ∈ doc.points, ∀ x ∈ p.numbers, Double.isFinite x = true) := by
  simp only [mem_components filled]
  constructor
  · rintro c ⟨_, _, x, _, rfl⟩
    exact (Double.numeral_chars x).1
  · constructor
    · intro all p member x inside
      exact (Double.numeral_chars x).2.mp (all _ ⟨p, member, x, inside, rfl⟩)
    · rintro finite c ⟨p, member, x, inside, rfl⟩
      exact (Double.numeral_chars x).2.mpr (finite p member x inside)

end Filled

end Trackline.Kml
