import Mathlib.Data.List.Induction
import Trackline.Proofs.Decimator.Flush

/-! A track thinned as a whole and thinned while it grows. Both keep every `stride`-th
point; what is drawn differs at the end alone, where only the growing track is joined to
a last point that was not kept. -/
namespace Trackline

/-- A point at one place of a track. -/
def Stands (track : List Point) (p : Point) (place : Nat) : Prop := track[place]? = some p

private theorem Stands.append {track : List Point} {p : Point} {place : Nat} (stands : Stands track p place)
    (more : List Point) : Stands (track ++ more) p place := by
  rw [Stands, List.getElem?_append_left (List.getElem?_eq_some_iff.mp stands).1]
  exact stands

namespace Shape

private theorem strided_concat (stride : Nat) (points : List Point) (p : Point) :
    strided stride (points ++ [p]) =
      strided stride points ++ if (points.length + 1) % stride = 0 then [p] else [] := by
  rw [strided, List.zipIdx_append, List.filter_append, List.map_append]
  split_ifs with hit <;> simp [strided, hit]

private theorem length_strided (stride : Nat) (points : List Point) :
    (strided stride points).length = points.length / stride := by
  induction points using List.reverseRecOn with
  | nil => simp [strided]
  | append_singleton rest p ih =>
    rw [strided_concat, List.length_append, ih, List.length_append, List.length_singleton, Nat.succ_div]
    simp only [Nat.dvd_iff_mod_eq_zero]
    split_ifs <;> rfl

private theorem strided_places (stride : Nat) (first : Point) (rest : List Point) :
    List.Forall₂ (Stands (first :: rest)) (first :: strided stride rest)
      (List.range' 0 (rest.length / stride + 1) stride) := by
  induction rest using List.reverseRecOn with
  | nil => simp [strided, Stands]
  | append_singleton rest p ih =>
    have older := ih.imp fun _ _ stands => stands.append [p]
    rw [List.cons_append] at older
    rw [strided_concat, List.length_append, List.length_singleton]
    split_ifs with hit
    · have whole := Nat.dvd_of_mod_eq_zero hit
      have reached := Nat.mul_div_cancel' whole
      have newest : Stands (first :: (rest ++ [p])) p (0 + stride * (rest.length / stride + 1)) := by
        rw [Nat.succ_div_of_dvd whole] at reached
        rw [Nat.zero_add, reached]
        simp [Stands]
      rw [Nat.succ_div_of_dvd whole, List.range'_concat]
      exact List.rel_append older (.cons newest .nil)
    · rw [Nat.succ_div_of_not_dvd fun whole => hit (Nat.mod_eq_zero_of_dvd whole), List.append_nil]
      exact older

/-- A polyline goes through the points it keeps, or if it keeps none behind the first one,
from the first to the last. -/
theorem polyline_through (style : String) (first : Point) (rest : List Point) (stride : Nat)
    (positive : 0 < stride) :
    ∃ vertices, polyline style (first :: rest) stride = .ok
        { style := some style, geometry := .track (.ofSegments (consecutive vertices)) } ∧
      List.Forall₂ (Stands (first :: rest)) vertices
        (if rest.length < stride then [0, rest.length]
          else List.range' 0 (rest.length / stride + 1) stride) := by
  have size := length_strided stride rest
  rw [polyline, if_neg (Nat.ne_of_gt positive)]
  split_ifs with short
  · have empty : strided stride rest = [] := by
      rw [Nat.div_eq_of_lt short] at size
      exact List.eq_nil_of_length_eq_zero size
    have last : Stands (first :: rest) (rest.getLastD first) rest.length := by
      have latest := List.getLast?_eq_getElem? (l := first :: rest)
      rw [List.getLast?_cons, List.length_cons, Nat.add_sub_cancel] at latest
      rw [Stands, ← latest, List.getLastD_eq_getLast?]
    exact ⟨[first, rest.getLastD first], by simp [empty, consecutive], .cons rfl (.cons last .nil)⟩
  · have nonempty : strided stride rest ≠ [] := by
      apply List.ne_nil_of_length_pos
      rw [size]
      exact Nat.div_pos (by omega) positive
    exact ⟨first :: strided stride rest, by simp [nonempty], strided_places stride first rest⟩

theorem polyline_ok (style : String) {points : List Point} {stride : Nat} (positive : 0 < stride)
    (nonempty : points ≠ []) : ∃ line, polyline style points stride = .ok line := by
  obtain ⟨first, rest, rfl⟩ := List.exists_cons_of_ne_nil nonempty
  obtain ⟨_, drawn, _⟩ := polyline_through style first rest stride positive
  exact ⟨_, drawn⟩

end Shape

open Shape

private theorem stops_whole {stride last : Nat} (moved : 0 < last) (ends : last < stride ∨ last % stride = 0) :
    stops stride 0 last =
      if last < stride then [0, last] else List.range' 0 (last / stride + 1) stride := by
  rw [stops, Nat.sub_zero]
  split_ifs with hit short short
  · rw [Nat.mod_eq_of_lt short] at hit
    omega
  · exact List.append_nil _
  · rw [Nat.div_eq_of_lt short]
    rfl
  · omega

private theorem stops_trailing {stride last : Nat} (misses : ¬(last < stride ∨ last % stride = 0)) :
    consecutive (stops stride 0 last) =
      consecutive (List.range' 0 (last / stride + 1) stride) ++ [(last / stride * stride, last)] := by
  rw [not_or] at misses
  rw [stops, Nat.sub_zero, if_neg misses.2, List.range'_concat, consecutive_concat, Nat.zero_add,
    Nat.mul_comm]

private theorem polyline_single (style : String) (p : Point) (stride : Nat) (positive : 0 < stride) :
    polyline style [p] stride =
      .ok { style := some style, geometry := .track (.ofSegments [(p, p)]) } := by
  obtain ⟨vertices, drawn, through⟩ := polyline_through style p [] stride positive
  rw [List.length_nil, if_pos positive] at through
  obtain ⟨a, rest, start, more, rfl⟩ := List.forall₂_cons_right_iff.mp through
  obtain ⟨b, rest, stop, last, rfl⟩ := List.forall₂_cons_right_iff.mp more
  rw [List.forall₂_nil_right_iff.mp last, ← Option.some.inj start, ← Option.some.inj stop] at drawn
  exact drawn

section Growing

variable {stride : Nat} {first : Point} {rest vertices : List Point} {segments : List Segment}
  (through : List.Forall₂ (Stands (first :: rest)) vertices
    (if rest.length < stride then [0, rest.length]
      else List.range' 0 (rest.length / stride + 1) stride))
  (joined : List.Forall₂ (Joins (first :: rest)) segments (consecutive (stops stride 0 rest.length)))

include through

private theorem vertices_consecutive (positive : 0 < stride) : consecutive vertices ≠ [] := by
  apply List.ne_nil_of_length_pos
  rw [length_consecutive, through.length_eq]
  split_ifs with short
  · simp
  · have strides := Nat.div_pos (Nat.not_lt.mp short) positive
    rw [List.length_range']
    omega

include joined

private theorem growing_whole (moved : 0 < rest.length)
    (ends : rest.length < stride ∨ rest.length % stride = 0) : segments = consecutive vertices := by
  rw [stops_whole moved ends] at joined
  exact joins_unique joined (consecutive_forall₂ through)

private theorem growing_trailing (misses : ¬(rest.length < stride ∨ rest.length % stride = 0)) :
    ∃ trailing, Joins (first :: rest) trailing (rest.length / stride * stride, rest.length) ∧
      segments = consecutive vertices ++ [trailing] := by
  rw [stops_trailing misses] at joined
  rw [if_neg (not_or.mp misses).1] at through
  have before : rest.length / stride * stride < (first :: rest).length :=
    Nat.lt_succ_of_le (Nat.div_mul_le_self _ _)
  have trailing : Joins (first :: rest)
      ((first :: rest)[rest.length / stride * stride], (first :: rest)[rest.length])
      (rest.length / stride * stride, rest.length) :=
    ⟨List.getElem?_eq_getElem before, List.getElem?_eq_getElem (Nat.lt_succ_self _)⟩
  exact ⟨_, trailing,
    joins_unique joined (List.rel_append (consecutive_forall₂ through) (.cons trailing .nil))⟩

end Growing

/-- Thinning the same points as a whole and while they come. From two points on both draw
one line. That of the whole goes through every `stride`-th point from the first on, or
straight from the first to the last if there are not so many; that of the growing track is
the same if it ends there with the last point, and else has one segment more, to the last
point. Of a single point the whole makes a segment of length zero and the growing track
nothing. -/
theorem whole_and_growing (style : String) (points : List Point) (stride : Nat) :
    (stride = 0 → polyline style points stride = .error .strideZero ∧
      Decimator.new stride = .error .strideZero) ∧
    (0 < stride → ∃ d, Decimator.new stride = .ok d ∧
      let given := (d.extend points).take.1.value
      (points = [] → polyline style points stride = .error .polylineWithoutPoints ∧ given = none) ∧
      (∀ p, points = [p] → given = none ∧ ∃ whole : Line,
        polyline style points stride = .ok { style := some style, geometry := .track whole } ∧
        whole.segments = [(p, p)]) ∧
      (2 ≤ points.length → ∃ whole growing : Line,
        polyline style points stride = .ok { style := some style, geometry := .track whole } ∧
        given = some { geometry := .track growing } ∧
        let m := points.length - 1
        (∃ vertices, whole.segments = consecutive vertices ∧ whole.segments ≠ [] ∧
          List.Forall₂ (Stands points) vertices
            (if m < stride then [0, m] else List.range' 0 (m / stride + 1) stride)) ∧
        (m < stride ∨ m % stride = 0 → growing.segments = whole.segments) ∧
        (¬(m < stride ∨ m % stride = 0) → ∃ trailing, Joins points trailing (m / stride * stride, m) ∧
          growing.segments = whole.segments ++ [trailing]))) := by
  refine ⟨fun zero => ?_, fun positive => ⟨_, Decimator.new_positive stride positive, ?_⟩⟩
  · simp [polyline, Decimator.new, zero]
  intro given
  refine ⟨?_, ?_, ?_⟩
  · rintro rfl
    exact ⟨by simp [polyline, Nat.ne_of_gt positive], Decimator.fresh_none positive none none (by simp)⟩
  · rintro p rfl
    exact ⟨Decimator.fresh_none positive none none (by simp), _,
      polyline_single style p stride positive, segments_ofSegments _⟩
  · intro many
    obtain ⟨first, rest, rfl⟩ : ∃ first rest, points = first :: rest :=
      List.exists_cons_of_length_pos (by omega)
    obtain ⟨vertices, drawn, through⟩ := polyline_through style first rest stride positive
    obtain ⟨segments, joined, taken⟩ := Decimator.fresh_some positive none none many
    rw [List.length_cons] at many
    refine ⟨_, ⟨ends segments, true, true⟩, drawn, taken, ?_⟩
    rw [segments_ofSegments, Line.segments, pairs_ends]
    exact ⟨⟨vertices, rfl, vertices_consecutive through positive, through⟩,
      growing_whole through joined (by omega), growing_trailing through joined⟩

/-- Eight points at stride three: the polyline ends at the seventh, and the growing track
goes on to the eighth. -/
theorem whole_and_growing_of_eight :
    let track := (List.range 8).map fun n => Point.ground 0 (Float.ofNat n)
    0 < 3 ∧ 2 ≤ track.length ∧ ∃ d, Decimator.new 3 = .ok d ∧ ∃ whole growing : Line,
      polyline "edges" track 3 = .ok { style := some "edges", geometry := .track whole } ∧
      (d.extend track).take.1.value = some { geometry := .track growing } ∧
      (∃ vertices, whole.segments = consecutive vertices ∧
        List.Forall₂ (Stands track) vertices [0, 3, 6]) ∧
      ∃ trailing, Joins track trailing (6, 7) ∧ growing.segments = whole.segments ++ [trailing] := by
  intro track
  have many : 2 ≤ track.length := by decide
  obtain ⟨d, made, _, _, law⟩ := (whole_and_growing "edges" track 3).2 (by decide)
  obtain ⟨whole, growing, drawn, given, ⟨vertices, through, _, places⟩, _, differs⟩ := law many
  have size : track.length = 8 := by decide
  rw [size] at places differs
  exact ⟨by decide, many, d, made, whole, growing, drawn, given, ⟨vertices, through, places⟩,
    differs (by decide)⟩

end Trackline
