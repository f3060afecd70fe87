import Trackline.Proofs.Drawing.Modes

/-! The points of a drawn document. Whatever the mode, a placemark is one line with at least one segment,
and the segments go from fix to fix. -/
namespace Trackline
open Shape

/-- A placemark of one line that goes through some of the points. -/
def Draws (points : List Point) (p : Placemark) : Prop :=
  ∃ segments : List Segment, segments ≠ [] ∧ p.geometry = .track (.ofSegments segments) ∧
    ∀ s ∈ segments, s.1 ∈ points ∧ s.2 ∈ points

private theorem Draws.append {points : List Point} {p : Placemark} (draws : Draws points p) (more : List Point) :
    Draws (points ++ more) p := by
  obtain ⟨segments, nonempty, drawn, inside⟩ := draws
  refine ⟨segments, nonempty, drawn, fun s member => ?_⟩
  obtain ⟨start, stop⟩ := inside s member
  exact ⟨List.mem_append_left _ start, List.mem_append_left _ stop⟩

namespace Decimator.Follows

variable {d : Decimator} {pushed : List Point} {mark : Nat}

private theorem take_draws (follows : Follows d pushed mark) {p : Placemark} (taken : d.take.1.value = some p) :
    Draws pushed p := by
  rcases Nat.eq_zero_or_pos d.sinceFlush with still | waits
  · rw [follows.take_none still] at taken
    contradiction
  · obtain ⟨segments, _, joined, given, _⟩ := follows.take_some waits
    have place := follows.latest
    rw [given] at taken
    cases taken
    refine ⟨segments, ?_, rfl, joins_mem joined⟩
    obtain ⟨second, rest, through, _⟩ := stops_ends d.stride mark (pushed.length - 1) d.stride_pos (by omega)
    rw [through] at joined
    rintro rfl
    contradiction

end Decimator.Follows

namespace Drawing

private theorem pieces_draw (d : Decimator) (before : Option Instant) (chunks : List (List Fix)) {pushed : List Point}
    {mark : Nat} (follows : d.Follows pushed mark) :
    ∀ p ∈ (pieces d before chunks).value, Draws (pushed ++ chunks.flatten.map Fix.point) p := by
  induction chunks generalizing d before pushed mark with
  | nil => simp [pieces]
  | cons chunk rest ih =>
    have here := (follows.extend (chunk.map Fix.point)).restyle (d.extend (chunk.map Fix.point)).style
      (lasting before chunk)
    have whole : pushed ++ (chunk :: rest).flatten.map Fix.point =
        pushed ++ chunk.map Fix.point ++ rest.flatten.map Fix.point := by simp
    rw [pieces, whole]
    intro p member
    rcases List.mem_append.mp member with now | later
    · exact (here.take_draws (Option.mem_toList.mp now)).append _
    · exact ih _ _ here.take p later

private theorem polyline_draws {tag : String} {points : List Point} {stride : Nat} {p : Placemark}
    (positive : 0 < stride) (nonempty : points ≠ []) (drawn : polyline tag points stride = .ok p) :
    Draws points p := by
  obtain ⟨first, rest, rfl⟩ := List.exists_cons_of_ne_nil nonempty
  obtain ⟨vertices, through, stands⟩ := polyline_through tag first rest stride positive
  rw [drawn] at through
  cases through
  refine ⟨consecutive vertices, ?_, rfl, fun s member => ?_⟩
  · have many : 2 ≤ vertices.length := by
      rw [stands.length_eq]
      split_ifs with short
      · exact Nat.le_refl 2
      · have one : 0 < rest.length / stride := Nat.div_pos (by omega) positive
        rw [List.length_range']
        omega
    apply List.ne_nil_of_length_pos
    rw [length_consecutive]
    omega
  · have inside : ∀ v ∈ vertices, v ∈ first :: rest := fun v here => by
      obtain ⟨place, _, there⟩ := forall₂_partner stands here
      exact List.mem_of_getElem? there
    obtain ⟨start, stop⟩ := mem_consecutive member
    exact ⟨inside _ start, inside _ stop⟩

private theorem segments_draw (tag : String) (fixes : List Fix) :
    ∀ p ∈ segments tag fixes, Draws (fixes.map Fix.point) p := by
  intro p member
  obtain ⟨⟨s, n⟩, numbered, rfl⟩ := List.mem_map.mp member
  refine ⟨[s], List.cons_ne_nil _ _, rfl, ?_⟩
  simpa using mem_consecutive (List.fst_mem_of_mem_zipIdx numbered)

/-- Every placemark of a drawn document draws points of its fixes, in every mode. -/
theorem document_draws {s : Settings} {fixes : List Fix} {doc : Document}
    (made : (document s fixes).value = .ok doc) : ∀ p ∈ doc.allPlacemarks, Draws (fixes.map Fix.point) p := by
  have positive : 0 < s.stride := by
    by_contra zero
    rw [document, placed_strideZero s fixes (by omega)] at made
    contradiction
  have nonempty : fixes ≠ [] := by
    rintro rfl
    rw [document, placed_noFixes s positive] at made
    contradiction
  cases mode : s.mode with
  | segments =>
    rw [document_segments s fixes mode positive nonempty] at made
    cases made
    simpa [Document.allPlacemarks, base] using segments_draw s.styleTag fixes
  | polyline =>
    obtain ⟨line, drawn, placed⟩ := placed_polyline s fixes mode positive nonempty
    rw [document, placed] at made
    cases made
    simpa [Document.allPlacemarks, base] using polyline_draws positive (by simpa using nonempty) drawn
  | trip =>
    rw [document_trip s fixes mode positive nonempty] at made
    cases made
    have new := (Decimator.Follows.new s.stride positive).restyle (some s.styleTag) none
    have drawn := pieces_draw _ none (chunks (chunkLength s.flushEvery fixes) fixes) new
    rw [chunks_flatten, List.nil_append] at drawn
    simpa [Document.allPlacemarks, base] using drawn

end Drawing
end Trackline
