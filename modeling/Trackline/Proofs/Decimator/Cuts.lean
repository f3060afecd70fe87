import Trackline.Proofs.Decimator.Moves
import Trackline.Proofs.Decimator.State

/-! Flushes where a point was kept. A flush starts the count anew and moves the anchor, but at
a kept point the count was whole and the anchor was there already; so what is drawn is the
same as without that flush. -/
namespace Trackline.Decimator
open Shape

/-- Flushes come only behind a whole number of strides, not counting the first point. -/
def AtHits (stride : Nat) (calls : List Call) : Prop :=
  ∀ i, (inside : i < calls.length) → calls[i].flushes = true →
    stride ∣ ((calls.take i).flatMap Call.points).length - 1

instance (stride : Nat) (calls : List Call) : Decidable (AtHits stride calls) :=
  inferInstanceAs (Decidable (∀ i, (inside : i < calls.length) → _))

/-- A flush draws the way from the end of the last flush to the latest point. -/
theorem Follows.take_joins {d : Decimator} {pushed : List Point} {mark : Nat}
    (follows : Follows d pushed mark) :
    List.Forall₂ (Joins pushed) (d.take.1.value.toList.flatMap Placemark.segments)
      (consecutive (stops d.stride mark (pushed.length - 1))) := by
  by_cases waits : 0 < d.sinceFlush
  · obtain ⟨segments, _, joined, taken, _⟩ := follows.take_some waits
    rw [taken]
    simpa [Placemark.segments, Line.segments, pairs_ends] using joined
  · have latest := follows.latest
    have here : mark = pushed.length - 1 := by omega
    rw [follows.take_none (by omega), ← here]
    simp [stops, consecutive]

namespace Account

/-- All segments that the flushes of a run draw, in order. -/
def drawn (a : Account) (calls : List Call) : List Segment :=
  (a.answers Call.flushes calls).reduceOption.flatMap Placemark.segments

private theorem run_pushed (a : Account) (calls : List Call) :
    (a.run calls).pushed = a.pushed ++ calls.flatMap Call.points := by
  induction calls generalizing a with
  | nil => simp [run]
  | cons c rest ih =>
    have step : (a.after c).pushed = a.pushed ++ c.points := rfl
    change ((a.after c).run rest).pushed = _
    rw [ih, step, List.flatMap_cons, List.append_assoc]

private theorem latest_run (a : Account) (calls : List Call) : a.latest ≤ (a.run calls).latest := by
  rw [latest, latest, run_pushed, List.length_append]
  omega

private theorem drawn_cons (a : Account) (c : Call) (rest : List Call) :
    a.drawn (c :: rest) =
      (if c.flushes then (c.on a.decimator).2.toList.flatMap Placemark.segments else []) ++
        (a.after c).drawn rest := by
  rw [drawn, answers]
  split_ifs
  · cases (c.on a.decimator).2 <;> simp [drawn, List.reduceOption]
  · rfl

private theorem after_quiet (a : Account) {c : Call} (quiet : c.flushes = false) : (a.after c).mark = a.mark := by
  simp [after, Call.on_quiet quiet]

variable {a : Account} (follows : Follows a.decimator a.pushed a.mark)

include follows

private theorem flush_joins {c : Call} (flush : c.flushes = true) :
    List.Forall₂ (Joins a.pushed) ((c.on a.decimator).2.toList.flatMap Placemark.segments)
      (consecutive (stops a.decimator.stride a.mark a.latest)) := by
  rw [Call.on_flush flush]
  exact follows.take_joins

private theorem after_flush {c : Call} (flush : c.flushes = true) : (a.after c).mark = a.latest := by
  have latest : a.mark + a.decimator.sinceFlush = a.latest := follows.latest
  have still : c.points = [] := by
    cases c with
    | take | make => rfl
    | _ => cases flush
  simp only [after, Call.on_flush flush, still, List.append_nil]
  split_ifs with given
  · rfl
  · rw [follows.take_isSome] at given
    omega

private theorem drawn_joins {stride : Nat} (same : a.decimator.stride = stride) (whole : stride ∣ a.mark)
    (calls : List Call) (hits : ∀ i, (inside : i < calls.length) → calls[i].flushes = true →
      stride ∣ (a.pushed ++ (calls.take i).flatMap Call.points).length - 1) :
    List.Forall₂ (Joins (a.run calls).pushed) (a.drawn (calls ++ [.take]))
      (consecutive (stops stride a.mark (a.run calls).latest)) := by
  induction calls generalizing a with
  | nil =>
    have flush : Call.take.flushes = true := rfl
    rw [List.nil_append, drawn_cons, if_pos flush, ← same]
    exact (List.append_nil _).symm ▸ flush_joins follows flush
  | cons c rest ih =>
    have rest_hits : ∀ i, (inside : i < rest.length) → rest[i].flushes = true →
        stride ∣ ((a.after c).pushed ++ (rest.take i).flatMap Call.points).length - 1 := by
      intro i inside flush
      have hit := hits (i + 1) (Nat.succ_lt_succ inside) flush
      rwa [List.take_succ_cons, List.flatMap_cons, ← List.append_assoc] at hit
    have stride_kept : (a.after c).decimator.stride = stride := (c.on_stride _).trans same
    have later := fun whole => ih (a.after_follows c follows) stride_kept whole rest_hits
    rw [List.cons_append, drawn_cons]
    cases flush : c.flushes with
    | true =>
      have joined := flush_joins follows flush
      have reached : stride ∣ a.latest := by simpa [Account.latest] using hits 0 (Nat.succ_pos _) flush
      have inside : a.mark ≤ a.latest := Nat.le.intro follows.latest
      have behind : a.latest ≤ (a.run (c :: rest)).latest := a.latest_run (c :: rest)
      rw [after_flush follows flush] at later
      -- The stride divides both ends of the cut, so the stops behind it go on those before.
      rw [if_pos rfl, ← stops_append stride (Nat.dvd_sub reached whole) (same ▸ a.decimator.stride_pos)
        inside behind, run_pushed]
      rw [same] at joined
      refine List.rel_append (joins_append joined _) ?_
      rw [← run_pushed]
      exact later reached
    | false =>
      rw [a.after_quiet flush] at later
      exact later whole

end Account

private theorem Account.drawn_moves (a : Account) {calls others : List Call}
    (same : calls.flatMap Call.moves = others.flatMap Call.moves) : a.drawn calls = a.drawn others := by
  have told : ∀ calls, a.drawn calls =
      ((a.answers Call.flushes calls).map (·.map (·.geometry))).reduceOption.flatMap
        fun geometry => Placemark.segments { geometry } := by
    intro calls
    rw [drawn, List.reduceOption_map, List.flatMap_map]
    rfl
  rw [told, told, answers_geometry, answers_geometry, same]

private theorem fresh_joins {stride : Nat} (positive : 0 < stride) (points : List Point) :
    let whole := (extend { stride, stride_pos := positive } points).take.1.value
    (whole.isSome ↔ 2 ≤ points.length) ∧
      List.Forall₂ (Joins points) (whole.toList.flatMap Placemark.segments)
        (consecutive (stops stride 0 (points.length - 1))) := by
  intro whole
  have follows := fresh_follows positive none none points
  have latest := follows.latest
  constructor
  · rw [follows.take_isSome]
    omega
  · have joined := follows.take_joins
    rwa [extend_stride] at joined

/-- Any run of a new decimator that flushes at kept points only, as often as it likes at each, and
once more at its end, draws the segments that one flush draws after all points. If every point is
kept, the flushes may come anywhere. And however the points between two flushes come, one by
one or many together, the run draws the same. -/
theorem cuts_unseen (stride : Nat) (positive : 0 < stride) :
    ∃ d, Decimator.new stride = .ok d ∧
      let start : Account := { decimator := d }
      (∀ calls : List Call, AtHits stride calls →
        let points := calls.flatMap Call.points
        let whole := (d.extend points).take.1.value
        (whole.isSome ↔ 2 ≤ points.length) ∧
        start.drawn (calls ++ [.take]) = whole.toList.flatMap Placemark.segments) ∧
      (stride = 1 → ∀ calls others : List Call,
        calls.flatMap Call.points = others.flatMap Call.points →
        start.drawn (calls ++ [.take]) = start.drawn (others ++ [.take])) ∧
      ∀ calls others : List Call, calls.flatMap Call.moves = others.flatMap Call.moves →
        start.drawn calls = start.drawn others := by
  refine ⟨_, new_positive stride positive, ?_⟩
  intro start
  have once : ∀ calls : List Call, AtHits stride calls → start.drawn (calls ++ [.take]) =
      (extend { stride, stride_pos := positive } (calls.flatMap Call.points)).take.1.value.toList.flatMap
        Placemark.segments := by
    intro calls hits
    have pushed : (start.run calls).pushed = calls.flatMap Call.points := start.run_pushed calls
    have joined := Account.drawn_joins (a := start) (Follows.new stride positive) rfl (Nat.dvd_zero stride) calls hits
    rw [Account.latest, pushed] at joined
    exact joins_unique joined (fresh_joins positive _).2
  refine ⟨fun calls hits => ⟨(fresh_joins positive _).1, once calls hits⟩, ?_, fun calls others same =>
    start.drawn_moves same⟩
  rintro rfl calls others same
  have everywhere : ∀ calls, AtHits 1 calls := fun calls i inside flush => Nat.one_dvd _
  rw [once calls (everywhere calls), once others (everywhere others), same]

/-- Seven points at stride two, flushed before the first one, twice at the third and at the fifth. -/
theorem cuts_of_seven :
    let track := (List.range 7).map fun n => Point.ground 0 (Float.ofNat n)
    let calls : List Call :=
      [.take, .extend (track.take 3), .take, .take, .extend ((track.take 5).drop 3), .make, .extend (track.drop 5)]
    0 < 2 ∧ ∃ d, Decimator.new 2 = .ok d ∧ AtHits 2 calls ∧ ∃ whole : Placemark,
      (d.extend track).take.1.value = some whole ∧
      Account.drawn { decimator := d } (calls ++ [.take]) = whole.segments := by
  intro track calls
  obtain ⟨d, made, law, _⟩ := cuts_unseen 2 (by decide)
  have hits : AtHits 2 calls := by decide
  obtain ⟨given, drawn⟩ := law calls hits
  have points : calls.flatMap Call.points = track := by decide
  rw [points] at given drawn
  obtain ⟨whole, taken⟩ := Option.isSome_iff_exists.mp (given.mpr (by decide))
  refine ⟨by decide, d, made, hits, whole, taken, ?_⟩
  rw [drawn, taken]
  exact List.append_nil _

end Trackline.Decimator
