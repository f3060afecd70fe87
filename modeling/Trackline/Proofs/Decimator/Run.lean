import Trackline.Decimator
import Trackline.Proofs.Segments

/-! Runs of a decimator. Beside the decimator stands an account of all points that
were ever pushed and of the place where the last flush ended; what each call preserves
ties the fields of the decimator to this account. -/
namespace Trackline.Decimator
open Shape

theorem make_eq {C : Type} (append : C → Placemark → C) (d : Decimator) (target : C) :
    d.make append target = (⟨d.take.1.value.isSome, d.take.1.log⟩,
      d.take.1.value.toList.foldl append target, d.take.2) := by
  rw [make]
  split <;> simp_all

/-- What can be asked of a decimator. -/
inductive Call where
  | push (p : Point)
  | pushGround (latitude longitude : Float)
  | extend (points : List Point)
  | take
  | make
  | setStyle (tag : String)
  | setSpan (span : TimeSpan)
  | clearSpan

namespace Call

def points : Call → List Point
  | .push p => [p]
  | .pushGround latitude longitude => [.ground latitude longitude]
  | .extend points => points
  | _ => []

def on (d : Decimator) : Call → Decimator × Option Placemark
  | .push p => (d.push p, none)
  | .pushGround latitude longitude => (d.push (.ground latitude longitude), none)
  | .extend points => (d.extend points, none)
  | .take =>
    let (taken, d) := d.take
    (d, taken.value)
  | .make =>
    let (_, list, d) := d.make (fun list placemark => list ++ [placemark]) []
    (d, list.head?)
  | .setStyle tag => ({ d with style := some tag }, none)
  | .setSpan span => ({ d with span := some span }, none)
  | .clearSpan => ({ d with span := none }, none)

theorem on_make (d : Decimator) : Call.make.on d = Call.take.on d := by
  simp only [on, make_eq]
  cases d.take.1.value <;> rfl

end Call

/-- A decimator, all points pushed so far, and the place among these of the latest
point when a flush last gave a placemark, zero before that. -/
structure Account where
  decimator : Decimator
  pushed : List Point := []
  mark : Nat := 0

namespace Account

def after (a : Account) (c : Call) : Account :=
  let (next, given) := c.on a.decimator
  let pushed := a.pushed ++ c.points
  { decimator := next, pushed, mark := if given.isSome then pushed.length - 1 else a.mark }

def run (a : Account) (calls : List Call) : Account := calls.foldl after a

def latest (a : Account) : Nat := a.pushed.length - 1

theorem after_make (a : Account) : a.after .make = a.after .take := by
  simp only [after, Call.on_make]
  rfl

end Account

/-- What the fields of a decimator are after points have been pushed and a flush has
last ended at the place `mark` among them. -/
structure Follows (d : Decimator) (pushed : List Point) (mark : Nat) : Prop where
  total : d.total = pushed.length
  latest : mark + d.sinceFlush = pushed.length - 1
  current : d.current = pushed[mark + d.sinceFlush]?
  anchor : d.anchor = pushed[mark + d.stride * (d.sinceFlush / d.stride)]?
  pending : ∃ segments, d.pending.toList = ends segments ∧ List.Forall₂ (Joins pushed) segments
    (consecutive (List.range' mark (d.sinceFlush / d.stride + 1) d.stride))
  kept : 0 < d.sinceFlush → (d.kept = true ↔ d.sinceFlush % d.stride = 0)

namespace Follows

variable {d : Decimator} {pushed : List Point} {mark : Nat}

theorem new (stride : Nat) (positive : 0 < stride) :
    Follows { stride, stride_pos := positive } [] 0 where
  total := rfl
  latest := rfl
  current := rfl
  anchor := rfl
  pending := ⟨[], rfl, by simp [consecutive]⟩
  kept := by simp

theorem anchor_bound (follows : Follows d pushed mark) :
    mark + d.stride * (d.sinceFlush / d.stride) ≤ pushed.length - 1 := by
  have multiple := Nat.mul_div_le d.sinceFlush d.stride
  have latest := follows.latest
  omega

private theorem anchor_none (follows : Follows d pushed mark) : d.anchor = none ↔ pushed = [] := by
  rw [follows.anchor, List.getElem?_eq_none_iff]
  have bound := follows.anchor_bound
  constructor
  · intro outside
    exact List.eq_nil_of_length_eq_zero (by omega)
  · intro empty
    simp [empty]

private theorem push_first (follows : Follows d [] mark) (p : Point) :
    Follows (d.push p) [p] mark := by
  have start : mark = 0 ∧ d.sinceFlush = 0 := by simpa using follows.latest
  obtain ⟨segments, waiting, joined⟩ := follows.pending
  have unset := follows.anchor_none.mpr rfl
  obtain ⟨rfl, since⟩ := start
  have empty : segments = [] := by simpa [since, consecutive] using joined
  simp only [push, unset]
  exact
    { total := by simp [follows.total]
      latest := by simp [since]
      current := by simp [since]
      anchor := by simp [since]
      pending := ⟨[], by simp [waiting, empty], by simp [since, consecutive]⟩
      kept := by simp [since] }

private theorem push_next (follows : Follows d pushed mark) (nonempty : pushed ≠ []) (p : Point) :
    Follows (d.push p) (pushed ++ [p]) mark := by
  obtain ⟨total, latest, current, anchor, ⟨segments, waiting, joined⟩, kept⟩ := follows
  have bound := anchor_bound ⟨total, latest, current, anchor, ⟨segments, waiting, joined⟩, kept⟩
  have size : 0 < pushed.length := List.length_pos_of_ne_nil nonempty
  have place : mark + (d.sinceFlush + 1) = pushed.length := by omega
  have inside : mark + d.stride * (d.sinceFlush / d.stride) < pushed.length := by omega
  rw [List.getElem?_eq_getElem inside] at anchor
  have older : (pushed ++ [p])[mark + d.stride * (d.sinceFlush / d.stride)]? = d.anchor := by
    rw [anchor, List.getElem?_append_left inside, List.getElem?_eq_getElem inside]
  simp only [push, anchor]
  split
  next hit =>
    have quotient : (d.sinceFlush + 1) / d.stride = d.sinceFlush / d.stride + 1 :=
      Nat.succ_div_of_dvd (Nat.dvd_of_mod_eq_zero hit)
    have reached : d.stride * (d.sinceFlush / d.stride + 1) = d.sinceFlush + 1 := by
      rw [← quotient]
      exact Nat.mul_div_cancel' (Nat.dvd_of_mod_eq_zero hit)
    refine
      { total := by simp [total]
        latest := by simp [place]
        current := by simp [place]
        anchor := by simp [quotient, reached, place]
        pending := ⟨segments ++ [(pushed[mark + d.stride * (d.sinceFlush / d.stride)], p)], ?_, ?_⟩
        kept := by simp [hit] }
    · simp [waiting, ends]
    · rw [quotient, range_concat, consecutive_concat]
      have newest : Joins (pushed ++ [p])
          (pushed[mark + d.stride * (d.sinceFlush / d.stride)], p)
          (mark + d.stride * (d.sinceFlush / d.stride),
            mark + d.stride * (d.sinceFlush / d.stride + 1)) :=
        ⟨by rw [older, anchor], by simp [reached, place]⟩
      rw [← List.range'_concat]
      exact List.rel_append (joins_append joined [p]) (.cons newest .nil)
  next miss =>
    have quotient : (d.sinceFlush + 1) / d.stride = d.sinceFlush / d.stride :=
      Nat.succ_div_of_not_dvd fun dvd => miss (Nat.mod_eq_zero_of_dvd dvd)
    exact
      { total := by simp [total]
        latest := by simp [place]
        current := by simp [place]
        anchor := by rw [quotient, older, anchor]
        pending := ⟨segments, waiting, by rw [quotient]; exact joins_append joined [p]⟩
        kept := by simp [miss] }

theorem push (follows : Follows d pushed mark) (p : Point) :
    Follows (d.push p) (pushed ++ [p]) mark := by
  by_cases first : pushed = []
  · subst first
    exact follows.push_first p
  · exact follows.push_next first p

theorem extend (follows : Follows d pushed mark) (points : List Point) :
    Follows (d.extend points) (pushed ++ points) mark := by
  induction points generalizing d pushed with
  | nil => simpa [Decimator.extend] using follows
  | cons p rest ih => simpa [Decimator.extend] using ih (follows.push p)

theorem restyle (follows : Follows d pushed mark) (style : Option String) (span : Option TimeSpan) :
    Follows { d with style, span } pushed mark :=
  ⟨follows.total, follows.latest, follows.current, follows.anchor, follows.pending, follows.kept⟩

end Follows
end Trackline.Decimator
