import Trackline.Proofs.Decimator.Run

/-! What a flush gives after any run: nothing if no point came since the last flush,
and otherwise one line through the stops between the two flushes. -/
namespace Trackline.Decimator
open Shape

namespace Follows

variable {d : Decimator} {pushed : List Point} {mark : Nat}

theorem hasPending_iff (follows : Follows d pushed mark) : d.hasPending = true ↔ 0 < d.sinceFlush := by
  obtain ⟨segments, waiting, joined⟩ := follows.pending
  constructor
  · intro waits
    by_contra still
    have since : d.sinceFlush = 0 := by omega
    have empty : segments = [] := by simpa [since, consecutive] using joined
    have nothing : d.pending = #[] := by simpa [empty, ends] using waiting
    simp [hasPending, since, nothing] at waits
  · intro waits
    simp [hasPending, waits]

private theorem flushed (follows : Follows d pushed mark) (waits : 0 < d.sinceFlush) (anchor current : Point)
    (here : d.anchor = some anchor) (last : d.current = some current) :
    ∃ segments, (d.flushed anchor current).toList = ends segments ∧
      List.Forall₂ (Joins pushed) segments
        (consecutive (stops d.stride mark (mark + d.sinceFlush))) := by
  obtain ⟨segments, waiting, joined⟩ := follows.pending
  by_cases hit : d.sinceFlush % d.stride = 0
  · have kept := (follows.kept waits).mpr hit
    refine ⟨segments, by simp [Decimator.flushed, kept, waiting], ?_⟩
    simpa [stops, hit] using joined
  · have kept : d.kept = false := by simpa [hit] using follows.kept waits
    have trailing : Joins pushed (anchor, current)
        (mark + d.stride * (d.sinceFlush / d.stride), mark + d.sinceFlush) :=
      ⟨by rw [← follows.anchor, here], by rw [← follows.current, last]⟩
    refine ⟨segments ++ [(anchor, current)], by simp [Decimator.flushed, kept, waiting, ends], ?_⟩
    have through : stops d.stride mark (mark + d.sinceFlush) =
        List.range' mark (d.sinceFlush / d.stride) d.stride ++
          [mark + d.stride * (d.sinceFlush / d.stride)] ++ [mark + d.sinceFlush] := by
      simp [stops, hit, List.range'_concat]
    rw [through, consecutive_concat, ← List.range'_concat]
    exact List.rel_append joined (.cons trailing .nil)

theorem take_none (follows : Follows d pushed mark) (quiet : d.sinceFlush = 0) :
    d.take = (⟨none, []⟩, d) := by
  have idle : d.hasPending = false := by
    rw [← Bool.not_eq_true, follows.hasPending_iff]
    omega
  simp [Decimator.take, idle]

theorem take_some (follows : Follows d pushed mark) (waits : 0 < d.sinceFlush) :
    ∃ segments current,
      List.Forall₂ (Joins pushed) segments (consecutive (stops d.stride mark (pushed.length - 1))) ∧
      d.take =
        (⟨some
            { style := d.style, span := d.span, geometry := .track ⟨ends segments, true, true⟩ },
          [.flushed d.sinceFlush segments.length]⟩,
          { d with pending := #[], sinceFlush := 0, anchor := some current }) ∧
      pushed[pushed.length - 1]? = some current := by
  have place := follows.latest
  have inside : pushed.length - 1 < pushed.length := by omega
  have start : mark + d.stride * (d.sinceFlush / d.stride) < pushed.length := by
    have bound := follows.anchor_bound
    omega
  have last : d.current = some pushed[pushed.length - 1] := by
    rw [follows.current, place, List.getElem?_eq_getElem inside]
  have here := follows.anchor
  rw [List.getElem?_eq_getElem start] at here
  obtain ⟨segments, drawn, joined⟩ := follows.flushed waits _ _ here last
  have size : (d.flushed pushed[mark + d.stride * (d.sinceFlush / d.stride)]
      pushed[pushed.length - 1]).size / 2 = segments.length := by
    rw [← Array.length_toList, drawn, length_ends]
    omega
  refine ⟨segments, pushed[pushed.length - 1], by rwa [place] at joined, ?_,
    List.getElem?_eq_getElem inside⟩
  simp [Decimator.take, follows.hasPending_iff.mpr waits, here, last, drawn, size]

theorem take (follows : Follows d pushed mark) :
    Follows d.take.2 pushed (if d.take.1.value.isSome then pushed.length - 1 else mark) := by
  by_cases waits : 0 < d.sinceFlush
  · obtain ⟨segments, current, _, taken, latest⟩ := follows.take_some waits
    have place := follows.latest
    rw [taken]
    exact
      { total := follows.total
        latest := by simp
        current := by simp [follows.current, place]
        anchor := by simp [latest]
        pending := ⟨[], rfl, by simp [consecutive]⟩
        kept := by simp }
  · rw [follows.take_none (by omega)]
    simpa using follows

end Follows

namespace Account

theorem after_follows (a : Account) (c : Call) (follows : Follows a.decimator a.pushed a.mark) :
    Follows (a.after c).decimator (a.after c).pushed (a.after c).mark := by
  have taken : Follows (a.after .take).decimator (a.after .take).pushed (a.after .take).mark := by
    simpa [after, Call.on, Call.points] using follows.take
  cases c with
  | push p => exact follows.push p
  | pushGround latitude longitude => exact follows.push _
  | extend points => exact follows.extend points
  | take => exact taken
  | make => exact a.after_make ▸ taken
  | setStyle tag => simpa [after, Call.on, Call.points] using follows.restyle (some tag) a.decimator.span
  | setSpan span => simpa [after, Call.on, Call.points] using follows.restyle a.decimator.style (some span)
  | clearSpan => simpa [after, Call.on, Call.points] using follows.restyle a.decimator.style none

theorem run_follows (a : Account) (calls : List Call) (follows : Follows a.decimator a.pushed a.mark) :
    Follows (a.run calls).decimator (a.run calls).pushed (a.run calls).mark := by
  induction calls generalizing a with
  | nil => exact follows
  | cons c rest ih => exact ih (a.after c) (a.after_follows c follows)

end Account

private theorem push_cases (d : Decimator) (p : Point) : ∃ anchor pending since kept, d.push p =
    { d with total := d.total + 1, current := some p, anchor, pending, sinceFlush := since, kept } := by
  simp only [push]
  split
  · exact ⟨_, _, _, _, rfl⟩
  · split <;> exact ⟨_, _, _, _, rfl⟩

private theorem take_cases (d : Decimator) :
    d.take.2 = d ∨ ∃ p, d.take.2 = { d with pending := #[], sinceFlush := 0, anchor := some p } := by
  simp only [take]
  split
  · split
    · exact .inr ⟨_, rfl⟩
    · exact .inl rfl
  · exact .inl rfl

private theorem extend_keeps {α : Type} (field : Decimator → α) (step : ∀ d p, field (push d p) = field d)
    (d : Decimator) (points : List Point) : field (d.extend points) = field d := by
  induction points generalizing d with
  | nil => rfl
  | cons p rest ih => exact (ih (d.push p)).trans (step d p)

section Kept

variable (d : Decimator) (p : Point) (points : List Point)

@[simp] theorem push_stride : (d.push p).stride = d.stride := by
  obtain ⟨_, _, _, _, pushed⟩ := d.push_cases p
  rw [pushed]

@[simp] theorem push_style : (d.push p).style = d.style := by
  obtain ⟨_, _, _, _, pushed⟩ := d.push_cases p
  rw [pushed]

@[simp] theorem push_span : (d.push p).span = d.span := by
  obtain ⟨_, _, _, _, pushed⟩ := d.push_cases p
  rw [pushed]

@[simp] theorem extend_stride : (d.extend points).stride = d.stride :=
  extend_keeps (·.stride) push_stride d points

@[simp] theorem extend_style : (d.extend points).style = d.style :=
  extend_keeps (·.style) push_style d points

@[simp] theorem extend_span : (d.extend points).span = d.span := extend_keeps (·.span) push_span d points

@[simp] theorem take_stride : d.take.2.stride = d.stride := by
  obtain taken | ⟨_, taken⟩ := d.take_cases <;> rw [taken]

@[simp] theorem take_style : d.take.2.style = d.style := by
  obtain taken | ⟨_, taken⟩ := d.take_cases <;> rw [taken]

@[simp] theorem take_span : d.take.2.span = d.span := by
  obtain taken | ⟨_, taken⟩ := d.take_cases <;> rw [taken]

end Kept

theorem Call.on_stride (c : Call) (d : Decimator) : (c.on d).1.stride = d.stride := by
  cases c with
  | make =>
    rw [on_make]
    exact take_stride d
  | _ => simp [on]

theorem Account.run_stride (a : Account) (calls : List Call) :
    (a.run calls).decimator.stride = a.decimator.stride := by
  induction calls generalizing a with
  | nil => rfl
  | cons c rest ih => exact (ih (a.after c)).trans (c.on_stride a.decimator)

theorem new_positive (stride : Nat) (positive : 0 < stride) :
    Decimator.new stride = .ok { stride, stride_pos := positive } := by
  simp [new, positive]

theorem ofSampling_positive (sampling : Sampling) (positive : 0 < sampling.stride) :
    ofSampling sampling = .ok { stride := sampling.stride, stride_pos := positive } :=
  new_positive sampling.stride positive

section Fresh

variable {stride : Nat} (positive : 0 < stride) (style : Option String) (span : Option TimeSpan)
  {points : List Point}

theorem fresh_follows (points : List Point) :
    Follows (extend { stride, stride_pos := positive, style, span } points) points 0 :=
  ((Follows.new stride positive).restyle style span).extend points

theorem fresh_none (short : points.length < 2) :
    (extend { stride, stride_pos := positive, style, span } points).take.1.value = none := by
  have follows := fresh_follows positive style span points
  have latest := follows.latest
  rw [follows.take_none (by omega)]

theorem fresh_some (long : 2 ≤ points.length) :
    ∃ segments,
      List.Forall₂ (Joins points) segments (consecutive (stops stride 0 (points.length - 1))) ∧
      (extend { stride, stride_pos := positive, style, span } points).take.1.value =
        some { style, span, geometry := .track ⟨ends segments, true, true⟩ } := by
  have follows := fresh_follows positive style span points
  have latest := follows.latest
  obtain ⟨segments, _, joined, taken, _⟩ := follows.take_some (by omega)
  rw [extend_stride] at joined
  rw [extend_style, extend_span] at taken
  exact ⟨segments, joined, by rw [taken]⟩

end Fresh

/-- After any run of a new decimator a flush gives nothing and changes nothing if no
point came since the last flush that gave something. Otherwise it gives one line, whose
segments join every `stride`-th point from the end of that flush on, and the latest one. -/
theorem flush_after_run (stride : Nat) (positive : 0 < stride) :
    ∃ d, Decimator.new stride = .ok d ∧ ∀ calls : List Call,
      let a := Account.run { decimator := d } calls
      (a.pushed = [] ∨ a.latest = a.mark → a.decimator.take = (⟨none, []⟩, a.decimator)) ∧
      (¬(a.pushed = [] ∨ a.latest = a.mark) → a.mark < a.latest ∧ ∃ line : Line,
        a.decimator.take.1 =
          ⟨some
            { name := none, style := a.decimator.style, span := a.decimator.span,
              geometry := .multi [.line line] },
            [.flushed (a.latest - a.mark) line.segments.length]⟩ ∧
        line.tessellate = true ∧ line.clamped = true ∧
        List.Forall₂ (Joins a.pushed) line.segments (consecutive (stops stride a.mark a.latest)) ∧
        line.segments.length = (a.latest - a.mark + stride - 1) / stride ∧
        line.points.length = 2 * line.segments.length ∧
        line.points.head? = a.pushed[a.mark]? ∧
        line.points.getLast? = a.pushed[a.latest]?) := by
  refine ⟨_, new_positive stride positive, fun calls => ?_⟩
  intro a
  have follows : Follows a.decimator a.pushed a.mark :=
    Account.run_follows _ calls (Follows.new stride positive)
  have same : a.decimator.stride = stride := Account.run_stride _ calls
  have place : a.mark + a.decimator.sinceFlush = a.latest := follows.latest
  have empty : a.pushed = [] → a.latest = 0 := by
    intro nil
    simp [Account.latest, nil]
  constructor
  · rintro (nil | still)
    · have nothing := empty nil
      exact follows.take_none (by omega)
    · exact follows.take_none (by omega)
  · intro moved
    rw [not_or] at moved
    have waits : 0 < a.decimator.sinceFlush := by
      have distinct := moved.2
      omega
    have apart : a.mark < a.latest := by omega
    obtain ⟨segments, current, joined, taken, _⟩ := follows.take_some waits
    change List.Forall₂ _ _ (consecutive (stops _ _ a.latest)) at joined
    rw [same] at joined
    obtain ⟨second, rest, through, final⟩ := stops_ends stride a.mark a.latest positive apart
    obtain ⟨head, last⟩ := joins_ends (through ▸ joined)
    have since : a.decimator.sinceFlush = a.latest - a.mark := by omega
    have count : segments.length = (a.latest - a.mark + stride - 1) / stride := by
      rw [joined.length_eq, length_consecutive, length_stops _ _ _ positive, Nat.add_sub_cancel]
    refine ⟨apart, ⟨ends segments, true, true⟩, ?_, rfl, rfl, ?_, ?_, ?_, head, ?_⟩
    · rw [taken, since, Line.segments, pairs_ends]
      rfl
    · rwa [Line.segments, pairs_ends]
    · rwa [Line.segments, pairs_ends]
    · rw [Line.segments, pairs_ends, length_ends]
    · rw [last, final]

/-- Seven points at stride two, flushed once behind the fourth: the second flush goes on
from there, over the sixth point to the seventh. -/
theorem flush_after_two :
    let track := (List.range 7).map fun n => Point.ground 0 (Float.ofNat n)
    0 < 2 ∧ ∃ d, Decimator.new 2 = .ok d ∧
      let a := Account.run { decimator := d } [.extend (track.take 4), .take, .extend (track.drop 4)]
      a.pushed = track ∧ a.mark = 3 ∧ ∃ line : Line,
        a.decimator.take.1.value = some { geometry := .multi [.line line] } ∧
        List.Forall₂ (Joins track) line.segments [(3, 5), (5, 6)] := by
  intro track
  obtain ⟨d, made, law⟩ := flush_after_run 2 (by decide)
  refine ⟨by decide, d, made, ?_⟩
  cases made
  intro a
  have pushed : a.pushed = track := by
    simp [a, Account.run, Account.after, Call.points]
  have mark : a.mark = 3 := by decide
  have latest : a.latest = 6 := by rw [Account.latest, pushed]; decide
  have plain : a.decimator.style = none ∧ a.decimator.span = none := by decide
  obtain ⟨_, line, taken, _, _, joined, _⟩ :=
    (law [.extend (track.take 4), .take, .extend (track.drop 4)]).2 (by
      rintro (empty | still)
      · exact absurd (congrArg List.length empty) (by decide)
      · exact absurd still (by decide))
  refine ⟨pushed, mark, line, by rw [taken, plain.1, plain.2], ?_⟩
  rwa [pushed, mark, latest] at joined

end Trackline.Decimator
