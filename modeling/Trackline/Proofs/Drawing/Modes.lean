import Trackline.Proofs.Drawing.Trip
import Trackline.Proofs.Polyline

/-! The three modes side by side. A document is refused for its stride or for a lack of fixes before
the mode matters; where no fix is left out, all modes draw the same segments. -/
namespace Trackline
open Shape

private theorem stands_range (track : List Point) :
    List.Forall₂ (Stands track) track (List.range' 0 track.length) := by
  rw [List.forall₂_iff_get]
  refine ⟨by simp, fun i _ _ => ?_⟩
  simp [Stands]

private theorem joins_consecutive (track : List Point) :
    List.Forall₂ (Joins track) (consecutive track) (consecutive (List.range' 0 track.length)) :=
  consecutive_forall₂ (stands_range track)

/-- The segments of all placemarks, those at the root first. -/
def Document.segments (doc : Document) : List Segment := doc.allPlacemarks.flatMap Placemark.segments

namespace Drawing

variable (s : Settings) (fixes : List Fix)

theorem placed_strideZero (zero : s.stride = 0) : placed s fixes = .error .strideZero := by
  have check : s.sampling.check = .error .strideZero := by simp [Sampling.check, Settings.sampling, zero]
  rw [placed, check]
  rfl

theorem placed_noFixes (positive : 0 < s.stride) : placed s [] = .error .noFixes := by
  rw [placed, sampling_check s positive]
  rfl

theorem placed_segments (mode : s.mode = .segments) (positive : 0 < s.stride) (nonempty : fixes ≠ []) :
    placed s fixes = .ok ⟨{ base s with placemarks := segments s.styleTag fixes }, []⟩ := by
  have full : fixes.isEmpty = false := by simpa using nonempty
  simp only [placed, sampling_check s positive, full, mode]
  rfl

theorem placed_polyline (mode : s.mode = .polyline) (positive : 0 < s.stride) (nonempty : fixes ≠ []) :
    ∃ line, polyline s.styleTag (fixes.map Fix.point) s.stride = .ok line ∧
      placed s fixes = .ok ⟨{ base s with placemarks := [line] }, []⟩ := by
  have full : fixes.isEmpty = false := by simpa using nonempty
  obtain ⟨line, drawn⟩ := polyline_ok s.styleTag positive (mt List.map_eq_nil_iff.mp nonempty)
  refine ⟨line, drawn, ?_⟩
  simp only [placed, sampling_check s positive, full, mode, drawn]
  rfl

private theorem segments_drawn (tag : String) :
    (segments tag fixes).flatMap Placemark.segments = consecutive (fixes.map Fix.point) := by
  have one : ∀ (segment : Segment) (name : Option String),
      (Shape.segment tag segment.1 segment.2 name).segments = [segment] := fun _ _ => rfl
  rw [segments, List.flatMap_map]
  simp only [one]
  rw [← List.map_eq_flatMap, List.zipIdx_map_fst]

private theorem polyline_drawn {tag : String} {line : Placemark} (many : 2 ≤ fixes.length)
    (drawn : polyline tag (fixes.map Fix.point) 1 = .ok line) :
    line.segments = consecutive (fixes.map Fix.point) := by
  obtain ⟨first, rest, rfl⟩ : ∃ first rest, fixes = first :: rest :=
    List.exists_cons_of_length_pos (by omega)
  obtain ⟨vertices, through, stands⟩ := polyline_through tag first.point (rest.map Fix.point) 1 Nat.one_pos
  rw [List.map_cons, through] at drawn
  cases drawn
  rw [List.length_cons] at many
  rw [List.length_map, if_neg (by omega), Nat.div_one] at stands
  have joined := joins_consecutive (first.point :: rest.map Fix.point)
  rw [List.length_cons, List.length_map] at joined
  have same := joins_unique (consecutive_forall₂ stands) joined
  simpa [Placemark.segments] using same

private theorem trip_drawn {stride : Nat} (positive : 0 < stride) (one : stride = 1) (tag : Option String)
    (length : Nat) (given : fixes ≠ []) :
    (pieces { stride, stride_pos := positive, style := tag } none (chunks length fixes)).value.flatMap
      Placemark.segments = consecutive (fixes.map Fix.point) := by
  subst one
  have nonempty := chunks_nonempty length fixes
  have drawn := pieces_segments (pieces_moving
    { stride := 1, stride_pos := Nat.one_pos, style := tag } none (chunks length fixes) nonempty []
    ((Decimator.Follows.new 1 Nat.one_pos).restyle _ _))
  obtain ⟨rest, _, last, linked, _⟩ := chain_bounds 1 Nat.one_pos 0 (chunks length fixes) nonempty
  -- At stride one a chunk is drawn through all its places, so the whole chain goes up by one.
  have up : ∀ pair ∈ consecutive (0 :: rest), pair.2 = pair.1 + 1 := by
    rw [show (0 :: rest) = (0 - 1) :: rest from rfl, linked]
    intro pair member
    obtain ⟨b, _, inside⟩ := List.mem_flatMap.mp member
    rw [stops_one] at inside
    exact consecutive_range inside
  have chain := range_of_consecutive up
  have size : rest.length + 1 = (fixes.map Fix.point).length := by
    rw [show (0 - 1) :: rest = 0 :: rest from rfl, chain, List.range'_concat, List.getLast?_concat,
      chunks_flatten, Option.some.injEq] at last
    have filled := List.length_pos_of_ne_nil given
    rw [List.length_map]
    omega
  have joined := joins_consecutive (fixes.map Fix.point)
  rw [← size, ← chain] at joined
  rw [List.nil_append, chunks_flatten, List.length_nil, ← linked] at drawn
  exact joins_unique drawn joined

theorem document_segments (mode : s.mode = .segments) (positive : 0 < s.stride) (nonempty : fixes ≠ []) :
    (document s fixes).value = .ok { base s with placemarks := segments s.styleTag fixes } := by
  rw [document, placed_segments s fixes mode positive nonempty]

private theorem document_drawn (many : 2 ≤ fixes.length) (positive : 0 < s.stride)
    (full : s.mode = .segments ∨ s.stride = 1) :
    ∃ doc, (document s fixes).value = .ok doc ∧ doc.segments = consecutive (fixes.map Fix.point) := by
  have nonempty : fixes ≠ [] := List.ne_nil_of_length_pos (by omega)
  have one : s.mode ≠ .segments → s.stride = 1 := full.resolve_left
  cases mode : s.mode with
  | segments =>
    refine ⟨_, document_segments s fixes mode positive nonempty, ?_⟩
    simp [Document.segments, Document.allPlacemarks, base, segments_drawn]
  | polyline =>
    obtain ⟨line, drawn, placed⟩ := placed_polyline s fixes mode positive nonempty
    rw [one (by simp [mode])] at drawn
    refine ⟨{ base s with placemarks := [line] }, by rw [document, placed], ?_⟩
    simp [Document.segments, Document.allPlacemarks, base, polyline_drawn fixes many drawn]
  | trip =>
    refine ⟨_, document_trip s fixes mode positive nonempty, ?_⟩
    have drawn := trip_drawn fixes positive (one (by simp [mode])) (some s.styleTag)
      (chunkLength s.flushEvery fixes) nonempty
    simp [Document.segments, Document.allPlacemarks, base, drawn]

/-- Where no fix is left out, all modes draw the same track, a segment from each fix to the next one:
segments at any stride, a polyline at stride one, and a trip at stride one however often it is
flushed. Single segments stand at the root, each under its number. -/
theorem full_resolution (s : Settings) (fixes : List Fix) (many : 2 ≤ fixes.length)
    (positive : 0 < s.stride) (full : s.mode = .segments ∨ s.stride = 1) :
    let place : Fix → Point := fun f =>
      { latitude := f.latitude, longitude := f.longitude, elevation := f.elevation.getD 0 }
    ∃ doc, (document s fixes).value = .ok doc ∧ doc.segments.length = fixes.length - 1 ∧
      (∀ i (inside : i + 1 < fixes.length),
        doc.segments[i]? = some (place fixes[i], place fixes[i + 1])) ∧
      (s.mode = .segments → doc.folders = [] ∧ doc.placemarks.length = fixes.length - 1 ∧
        ∀ i (inside : i + 1 < fixes.length), ∃ p, doc.placemarks[i]? = some p ∧
          p.name = some (toString i) ∧ p.segments = [(place fixes[i], place fixes[i + 1])]) := by
  intro place
  have nonempty : fixes ≠ [] := List.ne_nil_of_length_pos (by omega)
  have size : (consecutive (fixes.map Fix.point)).length = fixes.length - 1 := by simp
  have links : ∀ i (inside : i + 1 < fixes.length), (consecutive (fixes.map Fix.point))[i]? =
      some (place fixes[i], place fixes[i + 1]) := by
    intro i inside
    rw [getElem?_consecutive _ i (by simpa using inside), List.getElem_map, List.getElem_map]
    rfl
  obtain ⟨doc, made, drawn⟩ := document_drawn s fixes many positive full
  refine ⟨doc, made, by rw [drawn, size], fun i inside => by rw [drawn, links i inside], fun mode => ?_⟩
  rw [document_segments s fixes mode positive nonempty] at made
  cases made
  refine ⟨rfl, by rw [segments, List.length_map, List.length_zipIdx, size], fun i inside => ?_⟩
  refine ⟨Shape.segment s.styleTag (place fixes[i]) (place fixes[i + 1]) (some (toString i)), ?_, rfl, rfl⟩
  rw [segments, List.getElem?_map, List.getElem?_zipIdx, links i inside, Option.map_some, Option.map_some,
    Nat.zero_add]

/-- Five fixes at full resolution: a trip that is flushed after every second fix draws what single
segments draw, and the segment between two chunks is there once. -/
theorem resolution_of_five :
    let fixes : List Fix := (List.range 5).map fun n => { latitude := 0, longitude := Float.ofNat n }
    let trip : Settings := { stride := 1, flushEvery := 2 }
    let single : Settings := { mode := .segments }
    ∃ doc other, (document trip fixes).value = .ok doc ∧ (document single fixes).value = .ok other ∧
      doc.segments = other.segments ∧ doc.segments.length = 4 ∧
      doc.segments[1]? = some (⟨0, Float.ofNat 1, 0⟩, ⟨0, Float.ofNat 2, 0⟩) := by
  intro fixes trip single
  have size : fixes.length = 5 := by decide
  have many : 2 ≤ fixes.length := by decide
  obtain ⟨doc, made, count, track, _⟩ := full_resolution trip fixes many (by decide) (.inr rfl)
  obtain ⟨other, drawn, total, same, _⟩ := full_resolution single fixes many (by decide) (.inl rfl)
  refine ⟨doc, other, made, drawn, ?_, by rw [count, size], track 1 (by decide)⟩
  apply List.ext_getElem?
  intro i
  by_cases inside : i + 1 < fixes.length
  · rw [track i inside, same i inside]
  · rw [List.getElem?_eq_none (by omega), List.getElem?_eq_none (by omega)]

end Drawing
end Trackline
