import Trackline.Proofs.Drawing.Trip

/-! The time spans of a trip. A piece is drawn from the last fix of the chunk before, and
its span begins at the time of that fix. Where that fix has none, the span begins at the
first fix of the piece's own chunk, behind the place where the line starts. -/
namespace Trackline

/-- The span between two times, none unless both are known. -/
def TimeSpan.between (start stop : Option Instant) : Option TimeSpan :=
  start.bind fun start => stop.map fun stop => ⟨start, stop⟩

namespace Drawing
open Shape Decimator

def timeAt (fixes : List Fix) (place : Nat) : Option Instant := fixes[place]?.bind (·.time)

private theorem lasting_eq (before : Option Instant) (chunk : List Fix) :
    lasting before chunk =
      TimeSpan.between (before.or (chunk.head?.bind (·.time))) (lastTime chunk) := by
  rw [lasting, TimeSpan.between]
  cases before.or (chunk.head?.bind (·.time)) <;> cases lastTime chunk <;> rfl

private theorem between_or_eq_iff (start own stop : Option Instant) :
    TimeSpan.between (start.or own) stop = TimeSpan.between start stop ↔
      ¬(start = none ∧ own ≠ none ∧ stop ≠ none) := by
  cases start <;> cases own <;> cases stop <;> simp [TimeSpan.between]

private theorem spans_map (chunk : Nat → List Fix) (before : Option Instant) (count : Nat) :
    spans before ((List.range count).map chunk) = (List.range count).map fun k =>
      lasting (if k = 0 then before else lastTime (chunk (k - 1))) (chunk k) := by
  induction count generalizing chunk before with
  | zero => rfl
  | succ count ih =>
    rw [List.range_succ_eq_map, List.map_cons, List.map_cons, List.map_map, List.map_map, spans, ih]
    congr 1
    apply List.map_congr_left
    intro k _
    cases k <;> rfl

private theorem timeAt_first (fixes : List Fix) (place length : Nat) (positive : 0 < length) :
    (((fixes.drop place).take length).head?.bind (·.time)) = timeAt fixes place := by
  rw [List.head?_take, if_neg (Nat.ne_of_gt positive), List.head?_drop, timeAt]

private theorem timeAt_last (fixes : List Fix) (place length : Nat) (positive : 0 < length)
    (inside : place < fixes.length) :
    lastTime ((fixes.drop place).take length) = timeAt fixes (min (place + length) fixes.length - 1) := by
  rw [lastTime, timeAt, List.getLast?_eq_getElem?, List.length_take, List.length_drop,
    List.getElem?_take_of_lt (by omega), List.getElem?_drop]
  congr 2
  omega

private theorem spans_chunks (length : Nat) (positive : 0 < length) (fixes : List Fix) :
    spans none (chunks length fixes) =
      (List.range ((fixes.length + length - 1) / length)).map fun k =>
        TimeSpan.between ((timeAt fixes (k * length - 1)).or (timeAt fixes (k * length)))
          (timeAt fixes (min ((k + 1) * length) fixes.length - 1)) := by
  rw [chunks_eq length positive, spans_map]
  apply List.map_congr_left
  intro k member
  have below := (Nat.le_div_iff_mul_le positive).mp (List.mem_range.mp member)
  rw [Nat.add_one_mul] at below
  have inside : k * length < fixes.length := by omega
  rw [lasting_eq, timeAt_first _ _ _ positive, timeAt_last _ _ _ positive inside, Nat.add_one_mul]
  congr 1
  -- Nothing is before the first chunk; there the place of the last fix before is zero as well.
  rcases Nat.eq_zero_or_pos k with rfl | later
  · cases timeAt fixes 0 <;> simp
  · obtain ⟨k, rfl⟩ : ∃ less, k = less + 1 := ⟨k - 1, by omega⟩
    rw [Nat.add_one_mul] at inside below ⊢
    rw [if_neg (Nat.succ_ne_zero k), Nat.add_sub_cancel, timeAt_last _ _ _ positive (by omega),
      Nat.min_eq_left (by omega)]

private theorem moving_spans (length : Nat) (positive : 0 < length) (fixes : List Fix) :
    ((bounds 0 (chunks length fixes)).zip (spans none (chunks length fixes))).filter
        (fun b => b.1.1 < b.1.2) =
      ((List.range ((fixes.length + length - 1) / length)).filter
        fun k => k ≠ 0 ∨ 2 ≤ min length fixes.length).map
        fun k => ((k * length - 1, min ((k + 1) * length) fixes.length - 1),
          TimeSpan.between ((timeAt fixes (k * length - 1)).or (timeAt fixes (k * length)))
            (timeAt fixes (min ((k + 1) * length) fixes.length - 1))) := by
  rw [bounds_chunks length positive, spans_chunks length positive, List.zip_map']
  simp only [Nat.zero_add]
  exact filter_moving length fixes.length positive _ Prod.fst fun _ => rfl

private theorem next_chunk {count k next : Nat} {first : Prop} [Decidable first]
    (member : (k, next) ∈ consecutive ((List.range count).filter fun k => k ≠ 0 ∨ first)) :
    next = k + 1 ∧ next < count := by
  constructor
  · by_cases all : first
    · simp only [all, or_true, decide_true, List.filter_true, List.range_eq_range'] at member
      exact consecutive_range member
    · cases count with
      | zero => simp [consecutive] at member
      | succ count =>
        have later : (List.range' 1 count).filter (fun k => k ≠ 0 ∨ first) = List.range' 1 count := by
          rw [List.filter_eq_self]
          intro k inside
          have := List.mem_range'_1.mp inside
          simp only [decide_eq_true_eq]
          omega
        rw [List.range_eq_range', List.range'_succ, List.filter_cons_of_neg (by simpa using all),
          later] at member
        exact consecutive_range member
  · have inside := List.mem_of_mem_tail (List.of_mem_zip member).2
    exact List.mem_range.mp (List.mem_filter.mp inside).1

private theorem timed (fixes : List Fix) (all : ∀ f ∈ fixes, f.time ≠ none) (place : Nat)
    (inside : place < fixes.length) : ∃ t, timeAt fixes place = some t := by
  rw [timeAt, List.getElem?_eq_getElem inside, Option.bind_some]
  exact Option.ne_none_iff_exists'.mp (all _ (List.getElem_mem inside))

private theorem spans_share (fixes : List Fix) (all : ∀ f ∈ fixes, f.time ≠ none) (length : Nat)
    (positive : 0 < length) {k : Nat} (next : k + 1 < (fixes.length + length - 1) / length) :
    ∃ a b c,
      TimeSpan.between ((timeAt fixes (k * length - 1)).or (timeAt fixes (k * length)))
        (timeAt fixes (min ((k + 1) * length) fixes.length - 1)) = some ⟨a, b⟩ ∧
      TimeSpan.between ((timeAt fixes ((k + 1) * length - 1)).or (timeAt fixes ((k + 1) * length)))
        (timeAt fixes (min ((k + 1 + 1) * length) fixes.length - 1)) = some ⟨b, c⟩ := by
  have more := (Nat.le_div_iff_mul_le positive).mp next
  rw [Nat.add_one_mul (k + 1)] at more
  have within : (k + 1) * length < fixes.length := by omega
  have earlier : k * length - 1 < fixes.length := by
    rw [Nat.add_one_mul] at within
    omega
  obtain ⟨a, first⟩ := timed fixes all (k * length - 1) earlier
  obtain ⟨b, middle⟩ := timed fixes all ((k + 1) * length - 1) (by omega)
  obtain ⟨c, last⟩ := timed fixes all (min ((k + 1 + 1) * length) fixes.length - 1) (by omega)
  rw [Nat.min_eq_left (Nat.le_of_lt within), first, middle, last]
  exact ⟨a, b, c, rfl, rfl⟩

/-- The pieces of a trip by the number `k` of their chunk: where each is drawn, and how long
it lasts. -/
theorem document_lasting (s : Settings) (fixes : List Fix) (trip : s.mode = .trip)
    (positive : 0 < s.stride) (nonempty : fixes ≠ []) (length : Nat) (long : 0 < length)
    (same : chunkLength s.flushEvery fixes = length) :
    ∃ placemarks, (document s fixes).value = .ok
        { base s with folders := [{ name := s.styleTag, placemarks }] } ∧
      List.Forall₂
        (fun p k => Piece (some s.styleTag) s.stride (fixes.map Fix.point) p
            (k * length - 1, min ((k + 1) * length) fixes.length - 1) ∧
          p.span = TimeSpan.between ((timeAt fixes (k * length - 1)).or (timeAt fixes (k * length)))
            (timeAt fixes (min ((k + 1) * length) fixes.length - 1)))
        placemarks
        ((List.range ((fixes.length + length - 1) / length)).filter
          fun k => k ≠ 0 ∨ 2 ≤ min length fixes.length) := by
  have drawn := pieces_lasting
    { stride := s.stride, stride_pos := positive, style := some s.styleTag } none
    (chunks length fixes) (chunks_nonempty length fixes) [] ((Follows.new s.stride positive).restyle _ _)
  rw [chunks_flatten, List.length_nil, moving_spans length long, List.forall₂_map_right_iff,
    List.nil_append] at drawn
  exact ⟨_, by rw [document_trip s fixes trip positive nonempty, same], drawn⟩

/-- The span of a piece goes from the time of the fix that its line starts at to the time
of the fix that its line ends at, with one exception: if the first of these has no time
while the first and the last fix of its own chunk have one, the span begins at the former
of these two, where the line does not start. If all fixes have a time, each span begins
where the one before ends. -/
theorem trip_spans (s : Settings) (fixes : List Fix) (trip : s.mode = .trip) (positive : 0 < s.stride) :
    let n := fixes.length
    let length := if s.flushEvery = 0 then n else s.flushEvery
    let count := (n + length - 1) / length
    let start := fun k => if k = 0 then 0 else k * length - 1
    let stop := fun k => min ((k + 1) * length) n - 1
    let time := timeAt fixes
    (fixes = [] → (document s fixes).value = .error .noFixes) ∧
    (fixes ≠ [] → ∃ doc folder, (document s fixes).value = .ok doc ∧ doc.placemarks = [] ∧
      doc.folders = [folder] ∧
      List.Forall₂
        (fun p k => Piece (some s.styleTag) s.stride (fixes.map Fix.point) p (start k, stop k) ∧
          p.span = TimeSpan.between ((time (start k)).or (time (k * length))) (time (stop k)) ∧
          (p.span = TimeSpan.between (time (start k)) (time (stop k)) ↔
            ¬(time (start k) = none ∧ time (k * length) ≠ none ∧ time (stop k) ≠ none)))
        folder.placemarks ((List.range count).filter fun k => k ≠ 0 ∨ 2 ≤ min length n) ∧
      ((∀ f ∈ fixes, f.time ≠ none) → ∀ pair ∈ consecutive folder.placemarks,
        ∃ a b c, pair.1.span = some ⟨a, b⟩ ∧ pair.2.span = some ⟨b, c⟩)) := by
  intro n length count start stop time
  constructor
  · intro empty
    simp [document, placed, sampling_check s positive, empty]
    rfl
  intro nonempty
  have same : chunkLength s.flushEvery fixes = length := chunkLength_eq nonempty s.flushEvery
  have long : 0 < length := same ▸ chunkLength_pos s.flushEvery fixes
  obtain ⟨placemarks, made, drawn⟩ := document_lasting s fixes trip positive nonempty length long same
  refine ⟨_, _, made, rfl, rfl, ?_, ?_⟩
  · simp only [start, chunk_start]
    refine drawn.imp fun p k piece => ⟨piece.1, piece.2, ?_⟩
    rw [piece.2]
    exact between_or_eq_iff _ _ _
  · intro all pair member
    obtain ⟨⟨k, next⟩, inside, ⟨_, here⟩, _, there⟩ := forall₂_partner (consecutive_forall₂ drawn) member
    obtain ⟨rfl, below⟩ := next_chunk inside
    obtain ⟨a, b, c, first, second⟩ := spans_share fixes all length long below
    exact ⟨a, b, c, here.trans first, there.trans second⟩

/-- Six fixes with times in chunks of three: the second span begins at the third fix, where
the first one ends. -/
theorem trip_spans_of_six :
    let s : Settings := { stride := 2, flushEvery := 3 }
    let fixes : List Fix := (List.range 6).map fun n =>
      { latitude := 0, longitude := Float.ofNat n, time := Instant.of? (100 + n) 0 }
    s.mode = .trip ∧ 0 < s.stride ∧ fixes ≠ [] ∧ ∃ doc folder first second,
      (document s fixes).value = .ok doc ∧ doc.folders = [folder] ∧ folder.placemarks = [first, second] ∧
      first.span = TimeSpan.ofUnix? 100 102 ∧ second.span = TimeSpan.ofUnix? 102 105 := by
  intro s fixes
  have nonempty : fixes ≠ [] := List.ne_nil_of_length_pos (by decide)
  obtain ⟨doc, folder, made, _, folders, pieces, _⟩ := (trip_spans s fixes rfl (by decide)).2 nonempty
  have size : fixes.length = 6 := by decide
  have numbers : (List.range 2).filter (fun k => k ≠ 0 ∨ 2 ≤ min 3 6) = [0, 1] := by decide
  simp only [size, s, Nat.reduceEqDiff, if_false, Nat.reduceAdd, Nat.reduceSub, Nat.reduceDiv,
    numbers] at pieces
  obtain ⟨first, rest, ⟨_, one, _⟩, more, two⟩ := List.forall₂_cons_right_iff.mp pieces
  obtain ⟨second, rest, ⟨_, other, _⟩, last, rfl⟩ := List.forall₂_cons_right_iff.mp more
  rw [List.forall₂_nil_right_iff.mp last] at two
  exact ⟨rfl, by decide, nonempty, doc, folder, first, second, made, folders, two, one, other⟩

/-- Four fixes in chunks of two, all with times but the second: the second line starts at
the second fix, which has no time, yet its span begins at the time of the third. -/
theorem span_begins_inside :
    let s : Settings := { stride := 2, flushEvery := 2 }
    let fixes : List Fix := (List.range 4).map fun n =>
      { latitude := 0, longitude := Float.ofNat n,
        time := if n = 1 then none else Instant.of? (100 + n) 0 }
    ∃ doc folder first second, (document s fixes).value = .ok doc ∧ doc.folders = [folder] ∧
      folder.placemarks = [first, second] ∧
      Piece (some s.styleTag) s.stride (fixes.map Fix.point) second (1, 3) ∧
      timeAt fixes 1 = none ∧ second.span = TimeSpan.ofUnix? 102 103 ∧
      second.span ≠ TimeSpan.between (timeAt fixes 1) (timeAt fixes 3) := by
  intro s fixes
  have nonempty : fixes ≠ [] := List.ne_nil_of_length_pos (by decide)
  obtain ⟨placemarks, made, drawn⟩ := document_lasting s fixes rfl (by decide) nonempty 2 (by decide) rfl
  have size : fixes.length = 4 := by decide
  have numbers : (List.range 2).filter (fun k => k ≠ 0 ∨ 2 ≤ min 2 4) = [0, 1] := by decide
  simp only [size, Nat.reduceAdd, Nat.reduceSub, Nat.reduceDiv, numbers] at drawn
  obtain ⟨first, rest, _, more, one⟩ := List.forall₂_cons_right_iff.mp drawn
  obtain ⟨second, rest, ⟨piece, span⟩, last, rfl⟩ := List.forall₂_cons_right_iff.mp more
  rw [List.forall₂_nil_right_iff.mp last] at one
  have inner : second.span = TimeSpan.ofUnix? 102 103 := span
  refine ⟨_, _, first, second, made, rfl, one, piece, rfl, inner, ?_⟩
  rw [inner]
  decide

end Drawing
end Trackline
