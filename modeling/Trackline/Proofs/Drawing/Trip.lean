import Trackline.Proofs.Decimator.Flush
import Trackline.Proofs.Drawing.Chunks

/-! The geometry of a trip. Its placemarks go through the fixes chunk by chunk, each
from the last fix of the chunk before to the last fix of its own, and together they
are one chain from the first fix to the last. -/
namespace Trackline
open Shape

namespace Drawing
open Decimator

/-- A placemark with a style that draws one line on the ground, through the stops of a
track between two places. -/
def Piece (style : Option String) (stride : Nat) (track : List Point) (p : Placemark)
    (places : Nat × Nat) : Prop :=
  p.name = none ∧ p.style = style ∧ ∃ line : Line, p.geometry = .multi [.line line] ∧
    line.tessellate = true ∧ line.clamped = true ∧
    List.Forall₂ (Joins track) line.segments (consecutive (stops stride places.1 places.2))

variable {style : Option String} {stride : Nat} {track : List Point} {p : Placemark} {places : Nat × Nat}

private theorem Piece.append (piece : Piece style stride track p places) (more : List Point) :
    Piece style stride (track ++ more) p places := by
  obtain ⟨name, styled, line, drawn, tessellated, clamped, joined⟩ := piece
  exact ⟨name, styled, line, drawn, tessellated, clamped, joins_append joined more⟩

private theorem Piece.segments (piece : Piece style stride track p places) :
    List.Forall₂ (Joins track) p.segments (consecutive (stops stride places.1 places.2)) := by
  obtain ⟨_, _, line, drawn, _, _, joined⟩ := piece
  rw [Placemark.segments, drawn]
  exact joined

theorem pieces_segments {placemarks : List Placemark} {bounds : List (Nat × Nat)}
    (pieces : List.Forall₂ (Piece style stride track) placemarks bounds) :
    List.Forall₂ (Joins track) (placemarks.flatMap Placemark.segments)
      (bounds.flatMap fun b => consecutive (stops stride b.1 b.2)) :=
  List.rel_flatMap pieces fun _ _ piece => piece.segments

/-- Each chunk that moves on gives one piece, which lasts as long as the chunk. -/
theorem pieces_lasting (d : Decimator) (before : Option Instant) (chunks : List (List Fix))
    (nonempty : ∀ chunk ∈ chunks, chunk ≠ []) (track : List Point)
    (follows : d.Follows track (track.length - 1)) :
    List.Forall₂
      (fun p b => Piece d.style d.stride (track ++ chunks.flatten.map Fix.point) p b.1 ∧ p.span = b.2)
      (pieces d before chunks).value
      (((bounds track.length chunks).zip (spans before chunks)).filter fun b => b.1.1 < b.1.2) := by
  induction chunks generalizing d before track with
  | nil => exact .nil
  | cons chunk chunks ih =>
    let points := chunk.map Fix.point
    let fed : Decimator := { d.extend points with span := lasting before chunk }
    have size : 0 < chunk.length := List.length_pos_of_ne_nil (nonempty chunk (by simp))
    have here : fed.Follows (track ++ points) (track.length - 1) :=
      (follows.extend points).restyle _ _
    have place := here.latest
    have length : (track ++ points).length = track.length + chunk.length := by simp [points]
    have whole : track ++ (chunk :: chunks).flatten.map Fix.point =
        track ++ points ++ chunks.flatten.map Fix.point := by simp [points]
    have kept : fed.stride = d.stride ∧ fed.style = d.style := by simp [fed]
    -- Whether or not the flush gave a piece, the next chunk goes on from the latest point.
    have there : fed.take.2.Follows (track ++ points) ((track ++ points).length - 1) := by
      have next := here.take
      by_cases waits : 0 < fed.sinceFlush
      · obtain ⟨_, _, _, taken, _⟩ := here.take_some waits
        simpa [taken] using next
      · have same : track.length - 1 = (track ++ points).length - 1 := by omega
        simpa [same] using next
    have rest := ih fed.take.2 (lastTime chunk) (fun later member => nonempty later (by simp [member]))
      (track ++ points) there
    rw [take_style, take_stride, kept.1, kept.2, length] at rest
    rw [pieces, whole, bounds, spans, List.zip_cons_cons]
    change List.Forall₂ _ (fed.take.1.value.toList ++ (pieces fed.take.2 (lastTime chunk) chunks).value) _
    generalize (pieces fed.take.2 (lastTime chunk) chunks).value = later at rest ⊢
    by_cases waits : 0 < fed.sinceFlush
    · obtain ⟨segments, _, joined, taken, _⟩ := here.take_some waits
      have moves : track.length - 1 < track.length + chunk.length - 1 := by omega
      rw [taken, List.filter_cons_of_pos (by simpa using moves)]
      refine .cons ⟨Piece.append ?_ _, rfl⟩ rest
      rw [kept.1, length] at joined
      exact ⟨rfl, kept.2, ⟨ends segments, true, true⟩, rfl, rfl, rfl, by rwa [Line.segments, pairs_ends]⟩
    · have still : ¬track.length - 1 < track.length + chunk.length - 1 := by omega
      rw [here.take_none (by omega), List.filter_cons_of_neg (by simpa using still)]
      exact rest

theorem pieces_moving (d : Decimator) (before : Option Instant) (chunks : List (List Fix))
    (nonempty : ∀ chunk ∈ chunks, chunk ≠ []) (track : List Point)
    (follows : d.Follows track (track.length - 1)) :
    List.Forall₂ (Piece d.style d.stride (track ++ chunks.flatten.map Fix.point))
      (pieces d before chunks).value (moving (bounds track.length chunks)) := by
  have same : (bounds track.length chunks).length = (spans before chunks).length := by
    rw [length_bounds, length_spans]
  rw [moving, ← List.map_fst_zip (Nat.le_of_eq same), List.filter_map, List.forall₂_map_right_iff]
  exact (pieces_lasting d before chunks nonempty track follows).imp fun _ _ piece => piece.1

theorem sampling_check (s : Settings) (positive : 0 < s.stride) : s.sampling.check = .ok () := by
  have earth : (Double.isFinite Earth.equatorialRadius && Double.lt 0 Earth.equatorialRadius) = true := by
    decide +kernel
  simp [Settings.sampling, Sampling.check, Nat.ne_of_gt positive, earth]

theorem placed_trip (s : Settings) (fixes : List Fix) (trip : s.mode = .trip)
    (positive : 0 < s.stride) (nonempty : fixes ≠ []) :
    placed s fixes = .ok ((pieces
      { stride := s.stride, stride_pos := positive, style := some s.styleTag } none
      (chunks (chunkLength s.flushEvery fixes) fixes)).map fun placemarks =>
        { base s with folders := [{ name := s.styleTag, placemarks }] }) := by
  have full : fixes.isEmpty = false := by simpa using nonempty
  simp only [placed, sampling_check s positive, full, trip, ofSampling_positive s.sampling positive]
  rfl

theorem document_trip (s : Settings) (fixes : List Fix) (trip : s.mode = .trip)
    (positive : 0 < s.stride) (nonempty : fixes ≠ []) :
    (document s fixes).value = .ok
      { base s with
        folders := [{
          name := s.styleTag
          placemarks := (pieces { stride := s.stride, stride_pos := positive, style := some s.styleTag } none
            (chunks (chunkLength s.flushEvery fixes) fixes)).value }] } := by
  rw [document, placed_trip s fixes trip positive nonempty]
  rfl

private theorem chunk_moves (length size k : Nat) (positive : 0 < length)
    (inside : k ∈ List.range ((size + length - 1) / length)) :
    k * length - 1 < min ((k + 1) * length) size - 1 ↔ k ≠ 0 ∨ 2 ≤ min length size := by
  have below := (Nat.le_div_iff_mul_le positive).mp (List.mem_range.mp inside)
  rw [Nat.add_one_mul] at below
  rcases Nat.eq_zero_or_pos k with rfl | later
  · simp only [Nat.zero_mul, Nat.zero_add, Nat.one_mul, ne_eq, not_true_eq_false, false_or]
    omega
  · have start : 0 < k * length := Nat.mul_pos later positive
    rw [Nat.add_one_mul]
    omega

/-- Of the chunks, told by their places or by more, only a first one of a single fix does not move on. -/
theorem filter_moving {α : Type} (length size : Nat) (positive : 0 < length) (item : Nat → α)
    (places : α → Nat × Nat)
    (told : ∀ k, places (item k) = (k * length - 1, min ((k + 1) * length) size - 1)) :
    ((List.range ((size + length - 1) / length)).map item).filter
        (fun a => (places a).1 < (places a).2) =
      ((List.range ((size + length - 1) / length)).filter
        fun k => k ≠ 0 ∨ 2 ≤ min length size).map item := by
  rw [List.filter_map]
  congr 1
  apply List.filter_congr
  intro k inside
  rw [Function.comp_apply, told]
  exact decide_eq_decide.mpr (chunk_moves length size k positive inside)

private theorem moving_chunks (length : Nat) (positive : 0 < length) (fixes : List Fix) :
    moving (bounds 0 (chunks length fixes)) =
      ((List.range ((fixes.length + length - 1) / length)).filter
        fun k => k ≠ 0 ∨ 2 ≤ min length fixes.length).map
        fun k => (k * length - 1, min ((k + 1) * length) fixes.length - 1) := by
  rw [bounds_chunks length positive, moving]
  simp only [Nat.zero_add]
  exact filter_moving length fixes.length positive _ id fun _ => rfl

/-- A trip goes into one folder named for its style, nothing to the root. The chunk of
fixes `k` ends at the fix `stop k`; its placemark is drawn from the fix `start k`, the last
one of the chunk before, and only a first chunk of one fix has none. All segments together
are one chain from the first fix to the last that only goes forward and through the end of
every chunk. -/
theorem trip_geometry (s : Settings) (fixes : List Fix) (trip : s.mode = .trip)
    (positive : 0 < s.stride) (nonempty : fixes ≠ []) :
    let n := fixes.length
    let length := if s.flushEvery = 0 then n else s.flushEvery
    let count := (n + length - 1) / length
    let start := fun k => if k = 0 then 0 else k * length - 1
    let stop := fun k => min ((k + 1) * length) n - 1
    let track := fixes.map Fix.point
    ∃ doc folder, (document s fixes).value = .ok doc ∧ doc.placemarks = [] ∧
      doc.folders = [folder] ∧ folder.name = s.styleTag ∧
      chunks (chunkLength s.flushEvery fixes) fixes =
        (List.range count).map (fun k => (fixes.drop (k * length)).take (stop k + 1 - k * length)) ∧
      List.Forall₂ (Piece (some s.styleTag) s.stride track) folder.placemarks
        (((List.range count).filter fun k => k ≠ 0 ∨ 2 ≤ min length n).map fun k => (start k, stop k)) ∧
      ∃ places, places.Pairwise (· < ·) ∧ places.head? = some 0 ∧ places.getLast? = some (n - 1) ∧
        List.Forall₂ (Joins track) (folder.placemarks.flatMap Placemark.segments) (consecutive places) ∧
        ∀ k < count, stop k ∈ places := by
  intro n length count start stop track
  have same : chunkLength s.flushEvery fixes = length := chunkLength_eq nonempty s.flushEvery
  have long : 0 < length := same ▸ chunkLength_pos s.flushEvery fixes
  let folder : Folder := {
    name := s.styleTag
    placemarks := (pieces { stride := s.stride, stride_pos := positive, style := some s.styleTag } none
      (chunks length fixes)).value }
  have pieces : List.Forall₂ (Piece (some s.styleTag) s.stride track) folder.placemarks
      (moving (bounds 0 (chunks length fixes))) := by
    have drawn := pieces_moving
      { stride := s.stride, stride_pos := positive, style := some s.styleTag } none
      (chunks length fixes) (chunks_nonempty length fixes) [] ((Follows.new s.stride positive).restyle _ _)
    rwa [chunks_flatten] at drawn
  obtain ⟨rest, sorted, last, linked, reached⟩ :=
    chain_bounds s.stride positive 0 (chunks length fixes) (chunks_nonempty length fixes)
  refine ⟨_, folder, by rw [document_trip s fixes trip positive nonempty, same], rfl, rfl, rfl, ?_, ?_,
    0 :: rest, sorted, rfl, ?_, ?_, ?_⟩
  · rw [same, chunks_eq length long]
    apply List.map_congr_left
    intro k _
    rw [List.take_eq_take_iff, List.length_drop]
    simp only [stop]
    rw [Nat.add_one_mul]
    omega
  · rw [moving_chunks length long] at pieces
    simpa only [start, chunk_start] using pieces
  · simpa [chunks_flatten] using last
  · have drawn := pieces_segments pieces
    rwa [← linked] at drawn
  · intro k inside
    apply reached (k * length - 1, stop k)
    rw [bounds_chunks length long]
    exact List.mem_map.mpr ⟨k, List.mem_range.mpr inside, by simp [stop, n]⟩

/-- Five fixes in chunks of three at stride two: the second piece goes on from the third fix. -/
theorem trip_of_five :
    let s : Settings := { stride := 2, flushEvery := 3 }
    let fixes : List Fix := (List.range 5).map fun n => { latitude := 0, longitude := Float.ofNat n }
    s.mode = .trip ∧ 0 < s.stride ∧ fixes ≠ [] ∧
      ∃ doc folder, (document s fixes).value = .ok doc ∧ doc.folders = [folder] ∧
        List.Forall₂ (Piece (some "edges") 2 (fixes.map Fix.point)) folder.placemarks [(0, 2), (2, 4)] := by
  intro s fixes
  have nonempty : fixes ≠ [] := List.ne_nil_of_length_pos (by decide)
  obtain ⟨doc, folder, drawn, _, folders, _, _, pieces, _⟩ := trip_geometry s fixes rfl (by decide) nonempty
  have size : fixes.length = 5 := by decide
  refine ⟨rfl, by decide, nonempty, doc, folder, drawn, folders, ?_⟩
  simpa [size, s, List.range_succ] using pieces

end Drawing
end Trackline
