import Trackline.Proofs.Decimator.Flush

/-! What the fields of a decimator are after any run. All of them are told by the points that
were pushed, by the place where the last flush ended and by the stride. -/
namespace Trackline.Decimator
open Shape

/-- The segments that wait for the next flush. -/
def waiting (d : Decimator) : List Segment := Line.pairs d.pending.toList

namespace Follows

variable {d : Decimator} {pushed : List Point} {mark : Nat}

private theorem waiting_joins (follows : Follows d pushed mark) :
    d.pending.toList = ends d.waiting ∧ List.Forall₂ (Joins pushed) d.waiting
      (consecutive (List.range' mark (d.sinceFlush / d.stride + 1) d.stride)) := by
  obtain ⟨segments, held, joined⟩ := follows.pending
  have same : d.waiting = segments := by rw [waiting, held, pairs_ends]
  rw [same]
  exact ⟨held, joined⟩

private theorem length_waiting (follows : Follows d pushed mark) :
    d.waiting.length = d.sinceFlush / d.stride ∧ d.pendingSegments = d.sinceFlush / d.stride := by
  obtain ⟨held, joined⟩ := follows.waiting_joins
  have count : d.waiting.length = d.sinceFlush / d.stride := by
    rw [joined.length_eq, length_consecutive, List.length_range', Nat.add_sub_cancel]
  refine ⟨count, ?_⟩
  rw [pendingSegments, ← Array.length_toList, held, length_ends, count, Nat.mul_div_cancel_left _ (by decide)]

private theorem waiting_ends (follows : Follows d pushed mark) (nonempty : d.waiting ≠ []) :
    d.pending.toList.head? = pushed[mark]? ∧ d.pending.toList.getLast? = d.anchor := by
  obtain ⟨held, joined⟩ := follows.waiting_joins
  have many : 0 < d.sinceFlush / d.stride := by
    rw [← follows.length_waiting.1]
    exact List.length_pos_of_ne_nil nonempty
  have reached : mark < mark + d.stride * (d.sinceFlush / d.stride) :=
    Nat.lt_add_of_pos_right (Nat.mul_pos d.stride_pos many)
  obtain ⟨second, rest, through, final⟩ := stops_ends d.stride mark _ d.stride_pos reached
  have kept : List.range' mark (d.sinceFlush / d.stride + 1) d.stride = mark :: second :: rest := by
    rw [← through, stops, Nat.add_sub_cancel_left, Nat.mul_div_cancel_left _ d.stride_pos,
      if_pos (Nat.mul_mod_right _ _), List.append_nil]
  obtain ⟨head, last⟩ := joins_ends (kept ▸ joined)
  rw [held, follows.anchor]
  exact ⟨head, by rw [last, final]⟩

private theorem anchor_place (d : Decimator) (mark : Nat) :
    mark + d.stride * (d.sinceFlush / d.stride) = mark + d.sinceFlush ↔ d.stride ∣ d.sinceFlush := by
  rw [Nat.add_left_cancel_iff, Nat.mul_comm, ← Nat.dvd_iff_div_mul_eq]

private theorem anchor_current (follows : Follows d pushed mark) (distinct : pushed.Nodup) :
    d.anchor = d.current ↔ d.stride ∣ d.sinceFlush := by
  have latest := follows.latest
  have bound := follows.anchor_bound
  rw [follows.anchor, follows.current, ← anchor_place d mark]
  by_cases filled : 0 < pushed.length
  · exact List.getElem?_inj (by omega) distinct
  · have empty : pushed = [] := List.eq_nil_of_length_eq_zero (by omega)
    have still : d.sinceFlush = 0 := by omega
    simp [empty, still]

/-- A flush draws the segments that waited, and one more unless it comes at a kept point. -/
theorem take_waiting (follows : Follows d pushed mark) (waits : 0 < d.sinceFlush) :
    ∃ anchor current, d.anchor = some anchor ∧ d.current = some current ∧
      d.take.1.value = some
        { style := d.style, span := d.span,
          geometry := .track (.ofSegments
            (d.waiting ++ if d.stride ∣ d.sinceFlush then [] else [(anchor, current)])) } := by
  have latest := follows.latest
  have bound := follows.anchor_bound
  obtain ⟨held, _⟩ := follows.waiting_joins
  obtain ⟨anchor, here⟩ : ∃ anchor, d.anchor = some anchor :=
    ⟨_, follows.anchor.trans (List.getElem?_eq_getElem (by omega))⟩
  obtain ⟨current, last⟩ : ∃ current, d.current = some current :=
    ⟨_, follows.current.trans (List.getElem?_eq_getElem (by omega))⟩
  refine ⟨anchor, current, here, last, ?_⟩
  have drawn : (d.flushed anchor current).toList =
      ends (d.waiting ++ if d.stride ∣ d.sinceFlush then [] else [(anchor, current)]) := by
    have hit := follows.kept waits
    rw [← Nat.dvd_iff_mod_eq_zero] at hit
    rw [Decimator.flushed]
    split_ifs <;> simp_all [ends]
  simp [Decimator.take, follows.hasPending_iff.mpr waits, here, last, drawn, Line.ofSegments, ends]

theorem take_isSome (follows : Follows d pushed mark) : d.take.1.value.isSome ↔ 0 < d.sinceFlush := by
  by_cases waits : 0 < d.sinceFlush
  · obtain ⟨_, _, _, _, taken⟩ := follows.take_waiting waits
    simp [taken, waits]
  · rw [follows.take_none (by omega)]
    simpa using waits

private theorem take_take (follows : Follows d pushed mark) : d.take.2.take = (⟨none, []⟩, d.take.2) := by
  have after := follows.take.latest
  refine follows.take.take_none ?_
  by_cases waits : 0 < d.sinceFlush
  · obtain ⟨_, _, _, taken, _⟩ := follows.take_some waits
    rw [taken]
  · rw [follows.take_none (by omega)]
    exact Nat.eq_zero_of_not_pos waits

end Follows

/-- After any run of a new decimator. All points are counted. The segments that wait are one
chain from the end of the last flush to the anchor, one for each `stride` of the `since` points
that came after it; the anchor is the last point that was kept, which is the latest one exactly
if the stride divides `since`. A flush gives a placemark if and only if `since` is positive, as
is told beforehand; it draws the segments that wait, and one more to the latest point exactly if
that one was not kept. A second flush gives nothing. -/
theorem state_after_run (stride : Nat) (positive : 0 < stride) :
    ∃ d, Decimator.new stride = .ok d ∧ ∀ calls : List Call,
      let a := Account.run { decimator := d } calls
      let d := a.decimator
      let since := (a.pushed.drop (a.mark + 1)).length
      d.total = a.pushed.length ∧
      d.pending.toList = ends d.waiting ∧
      d.waiting.IsChain (fun s t => s.2 = t.1) ∧
      (d.waiting ≠ [] →
        d.pending.toList.head? = a.pushed[a.mark]? ∧ d.pending.toList.getLast? = d.anchor) ∧
      (d.waiting.length = since / stride ∧ d.pendingSegments = since / stride) ∧
      d.anchor = a.pushed[a.mark + stride * (since / stride)]? ∧
      d.current = a.pushed[a.latest]? ∧
      (a.mark + stride * (since / stride) = a.latest ↔ stride ∣ since) ∧
      (a.pushed.Nodup → (d.anchor = d.current ↔ stride ∣ since)) ∧
      (d.hasPending = true ↔ 0 < since) ∧
      (d.take.1.value.isSome ↔ 0 < since) ∧
      (∀ placemark, d.take.1.value = some placemark →
        ∃ anchor current, d.anchor = some anchor ∧ d.current = some current ∧
          placemark.geometry = .track (.ofSegments
            (d.waiting ++ if stride ∣ since then [] else [(anchor, current)]))) ∧
      d.take.2.take = (⟨none, []⟩, d.take.2) := by
  refine ⟨_, new_positive stride positive, fun calls => ?_⟩
  intro a d since
  have follows : Follows d a.pushed a.mark := Account.run_follows _ calls (Follows.new stride positive)
  have same : d.stride = stride := Account.run_stride _ calls
  have latest : a.mark + d.sinceFlush = a.latest := follows.latest
  have count : since = d.sinceFlush := by
    simp only [since, List.length_drop]
    rw [Account.latest] at latest
    omega
  rw [count, ← same]
  refine ⟨follows.total, follows.waiting_joins.1, joins_chain follows.waiting_joins.2,
    follows.waiting_ends, follows.length_waiting, follows.anchor, latest ▸ follows.current,
    latest ▸ Follows.anchor_place d a.mark, follows.anchor_current, follows.hasPending_iff,
    follows.take_isSome, fun placemark given => ?_, follows.take_take⟩
  have waits : 0 < d.sinceFlush := follows.take_isSome.mp (by simp [given])
  obtain ⟨anchor, current, here, last, taken⟩ := follows.take_waiting waits
  refine ⟨anchor, current, here, last, ?_⟩
  rw [given] at taken
  rw [Option.some.inj taken]

/-- Six points at stride two, flushed once behind the third: two segments have gone out, one
waits, and the next flush adds one to the sixth point. -/
theorem state_of_six :
    let track := (List.range 6).map fun n => Point.ground 0 (Float.ofNat n)
    let calls : List Call := [.extend (track.take 3), .make, .setStyle "night", .extend (track.drop 3)]
    0 < 2 ∧ ∃ d, Decimator.new 2 = .ok d ∧
      let a := Account.run { decimator := d } calls
      a.pushed = track ∧ a.mark = 2 ∧
      a.decimator.total = 6 ∧ a.decimator.pendingSegments = 1 ∧
      a.decimator.anchor = track[4]? ∧ a.decimator.current = track[5]? ∧
      a.decimator.hasPending = true ∧ a.decimator.take.2.take = (⟨none, []⟩, a.decimator.take.2) := by
  intro track calls
  obtain ⟨d, made, law⟩ := state_after_run 2 (by decide)
  refine ⟨by decide, d, made, ?_⟩
  cases made
  intro a
  have pushed : a.pushed = track := by
    simp [a, calls, Account.run, Account.after, Call.points]
  have mark : a.mark = 2 := by decide
  have latest : a.latest = 5 := by rw [Account.latest, pushed]; decide
  have since : (a.pushed.drop (a.mark + 1)).length = 3 := by rw [pushed, mark]; decide
  obtain ⟨total, _, _, _, ⟨_, waiting⟩, anchor, current, _, _, pending, _, _, again⟩ := law calls
  rw [pushed] at total
  rw [since] at waiting anchor pending
  rw [pushed, mark] at anchor
  rw [pushed, latest] at current
  exact ⟨pushed, mark, total, waiting, anchor, current, pending.mpr (by decide), again⟩

end Trackline.Decimator
