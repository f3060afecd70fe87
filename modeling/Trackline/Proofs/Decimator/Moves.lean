import Mathlib.Data.List.ReduceOption
import Trackline.Proofs.Decimator.Flush

/-! A run told by its moves: the points that it takes in and its flushes, in order. The moves
alone decide what is drawn and when. Style and span are settings apart: they go into a
placemark as they are at its flush, and nothing comes back from them. -/
namespace Trackline.Decimator

inductive Move where
  | point (p : Point)
  | flush

def Move.on (d : Decimator) : Move → Decimator
  | .point p => d.push p
  | .flush => d.take.2

namespace Call

def moves : Call → List Move
  | .push p => [.point p]
  | .pushGround latitude longitude => [.point (.ground latitude longitude)]
  | .extend points => points.map .point
  | .take | .make => [.flush]
  | .setStyle _ | .setSpan _ | .clearSpan => []

def flushes : Call → Bool
  | .take | .make => true
  | _ => false

def makes : Call → Bool
  | .make => true
  | _ => false

def style? : Call → Option (Option String)
  | .setStyle tag => some (some tag)
  | _ => none

/-- The span that a call sets, none for a call that clears it. -/
def span? : Call → Option (Option TimeSpan)
  | .setSpan span => some (some span)
  | .clearSpan => some none
  | _ => none

/-- What a call makes of a container. -/
def into {C : Type} (append : C → Placemark → C) (d : Decimator) (target : C) : Call → C
  | .make => (d.make append target).2.1
  | _ => target

theorem on_flush {c : Call} (flush : c.flushes = true) (d : Decimator) :
    c.on d = (d.take.2, d.take.1.value) := by
  cases c with
  | take => rfl
  | make => exact on_make d
  | _ => cases flush

theorem on_quiet {c : Call} (quiet : c.flushes = false) (d : Decimator) : (c.on d).2 = none := by
  cases c with
  | take | make => cases quiet
  | _ => rfl

end Call

/-- What the last call that decided a setting made of it; none if no call did. -/
def inForce {α : Type} (setting : Call → Option (Option α)) (calls : List Call) : Option α :=
  (calls.filterMap setting).getLast?.getD none

namespace Account

/-- The answers to the calls that are asked for, each a placemark or none. -/
def answers (asked : Call → Bool) (a : Account) : List Call → List (Option Placemark)
  | [] => []
  | c :: rest =>
    if asked c then (c.on a.decimator).2 :: (a.after c).answers asked rest
    else (a.after c).answers asked rest

/-- What a run makes of a container that it flushes into. -/
def fill {C : Type} (append : C → Placemark → C) (a : Account) (target : C) : List Call → C
  | [] => target
  | c :: rest => (a.after c).fill append (c.into append a.decimator target) rest

private theorem run_append (a : Account) (calls more : List Call) :
    a.run (calls ++ more) = (a.run calls).run more := List.foldl_append

private theorem answers_append (asked : Call → Bool) (a : Account) (calls more : List Call) :
    a.answers asked (calls ++ more) = a.answers asked calls ++ (a.run calls).answers asked more := by
  induction calls generalizing a with
  | nil => rfl
  | cons c rest ih =>
    simp only [List.cons_append, answers, ih]
    split <;> rfl

private theorem fill_answers {C : Type} (append : C → Placemark → C) (a : Account) (target : C)
    (calls : List Call) :
    a.fill append target calls = (a.answers Call.makes calls).reduceOption.foldl append target := by
  induction calls generalizing a target with
  | nil => rfl
  | cons c rest ih =>
    rw [fill, ih]
    cases c with
    | make =>
      simp only [answers, Call.makes, if_true, Call.into, make_eq, Call.on]
      cases a.decimator.take.1.value <;> rfl
    | _ => rfl

end Account

/-- A decimator without its settings. -/
def bare (d : Decimator) : Decimator := { d with style := none, span := none }

private theorem push_bare (d : Decimator) (p : Point) : (d.push p).bare = d.bare.push p := by
  obtain ⟨stride, positive, style, span, current, anchor, pending, since, kept, total⟩ := d
  cases anchor with
  | none => rfl
  | some anchor =>
    by_cases hit : (since + 1) % stride = 0 <;> simp [push, bare, hit]

private theorem extend_bare (d : Decimator) (points : List Point) :
    (d.extend points).bare = (points.map .point).foldl Move.on d.bare := by
  induction points generalizing d with
  | nil => rfl
  | cons p rest ih =>
    rw [List.map_cons, List.foldl_cons, Move.on, ← push_bare]
    exact ih (d.push p)

private theorem take_bare (d : Decimator) : d.take.2.bare = d.bare.take.2 ∧
    d.take.1.value.map (·.geometry) = d.bare.take.1.value.map (·.geometry) := by
  have due : d.bare.hasPending = d.hasPending := rfl
  have here : d.bare.anchor = d.anchor := rfl
  have last : d.bare.current = d.current := rfl
  have drawn : d.bare.flushed = d.flushed := rfl
  simp only [take, due, here, last, drawn]
  split_ifs
  · cases d.anchor <;> cases d.current <;> exact ⟨rfl, rfl⟩
  · exact ⟨rfl, rfl⟩

private theorem on_bare (c : Call) (d : Decimator) : (c.on d).1.bare = c.moves.foldl Move.on d.bare := by
  cases c with
  | push p => exact push_bare d p
  | pushGround latitude longitude => exact push_bare d _
  | extend points => exact extend_bare d points
  | take => exact (take_bare d).1
  | make =>
    rw [Call.on_make]
    exact (take_bare d).1
  | _ => rfl

def geometries (d : Decimator) : List Move → List (Option Geometry)
  | [] => []
  | .point p :: rest => geometries (d.push p) rest
  | .flush :: rest => d.take.1.value.map (·.geometry) :: geometries d.take.2 rest

private theorem geometries_points (d : Decimator) (points : List Point) (rest : List Move) :
    geometries d (points.map .point ++ rest) =
      geometries ((points.map .point).foldl Move.on d) rest := by
  induction points generalizing d with
  | nil => rfl
  | cons p later ih => exact ih (d.push p)

private theorem geometries_call (c : Call) (d : Decimator) (rest : List Move) :
    geometries d.bare (c.moves ++ rest) =
      (if c.flushes then [(c.on d).2.map (·.geometry)] else []) ++ geometries (c.on d).1.bare rest := by
  rw [on_bare]
  cases c with
  | extend points => exact geometries_points _ points rest
  | take | make =>
    rw [Call.on_flush rfl, (take_bare d).2]
    rfl
  | _ => rfl

namespace Account

private theorem run_bare (a : Account) (calls : List Call) :
    (a.run calls).decimator.bare = (calls.flatMap Call.moves).foldl Move.on a.decimator.bare := by
  induction calls generalizing a with
  | nil => rfl
  | cons c rest ih =>
    rw [List.flatMap_cons, List.foldl_append, ← on_bare]
    exact ih (a.after c)

theorem answers_geometry (a : Account) (calls : List Call) :
    (a.answers Call.flushes calls).map (·.map (·.geometry)) =
      geometries a.decimator.bare (calls.flatMap Call.moves) := by
  induction calls generalizing a with
  | nil => rfl
  | cons c rest ih =>
    rw [List.flatMap_cons, geometries_call, answers]
    have later := ih (a.after c)
    split
    · exact congrArg (_ :: ·) later
    · exact later

private theorem run_setting {α : Type} (setting : Call → Option (Option α)) (field : Decimator → Option α)
    (step : ∀ (c : Call) (d : Decimator), field (c.on d).1 = (setting c).getD (field d))
    (a : Account) (calls : List Call) :
    field (a.run calls).decimator = (calls.filterMap setting).getLast?.getD (field a.decimator) := by
  induction calls generalizing a with
  | nil => rfl
  | cons c rest ih =>
    have first : field (a.after c).decimator = (setting c).getD (field a.decimator) := step c a.decimator
    change field ((a.after c).run rest).decimator = _
    rw [ih, first]
    cases decided : setting c with
    | none => simp [decided]
    | some value => simp [decided, List.getLast?_cons]

end Account

private theorem on_style (c : Call) (d : Decimator) : (c.on d).1.style = c.style?.getD d.style := by
  cases c with
  | push p | pushGround latitude longitude => exact push_style d _
  | extend points => exact extend_style d points
  | take => exact take_style d
  | make =>
    rw [Call.on_make]
    exact take_style d
  | _ => rfl

private theorem on_span (c : Call) (d : Decimator) : (c.on d).1.span = c.span?.getD d.span := by
  cases c with
  | push p | pushGround latitude longitude => exact push_span d _
  | extend points => exact extend_span d points
  | take => exact take_span d
  | make =>
    rw [Call.on_make]
    exact take_span d
  | _ => rfl

private theorem take_settings {d : Decimator} {p : Placemark} (given : d.take.1.value = some p) :
    p.style = d.style ∧ p.span = d.span := by
  simp only [take] at given
  split at given
  · split at given
    · rw [← Option.some.inj given]
      exact ⟨rfl, rfl⟩
    · cases given
  · cases given

/-- Runs of a new decimator under any settings. Two runs with the same moves, and so any two
beginnings of them with the same moves, agree on the points that were taken in, on what waits, and
on whether anything does; flush by flush both get a placemark or both none, and the placemarks
have the same geometry. Each placemark has the style and the span in force at its flush, whatever
is set later: no later call changes an answer that was given, and a container only gets the later
placemarks on top of what it held. -/
theorem settings_apart (stride : Nat) (positive : 0 < stride) :
    ∃ d, Decimator.new stride = .ok d ∧
      let start : Account := { decimator := d }
      (∀ calls others : List Call, calls.flatMap Call.moves = others.flatMap Call.moves →
        let e := (start.run calls).decimator
        let f := (start.run others).decimator
        e.total = f.total ∧ e.pendingSegments = f.pendingSegments ∧ e.hasPending = f.hasPending ∧
        (start.answers Call.flushes calls).map (·.map (·.geometry)) =
          (start.answers Call.flushes others).map (·.map (·.geometry))) ∧
      (∀ (before : List Call) (c : Call), c.flushes = true → ∃ answer : Option Placemark,
        (∀ p ∈ answer, p.style = inForce Call.style? before ∧ p.span = inForce Call.span? before) ∧
        ∀ asked later, asked c = true → start.answers asked (before ++ c :: later) =
          start.answers asked before ++ answer :: (start.run (before ++ [c])).answers asked later) ∧
      ∀ {C : Type} (append : C → Placemark → C) (target : C) (before later : List Call),
        start.fill append target before =
          (start.answers Call.makes before).reduceOption.foldl append target ∧
        start.fill append target (before ++ later) =
          ((start.run before).answers Call.makes later).reduceOption.foldl append
            (start.fill append target before) := by
  refine ⟨_, new_positive stride positive, ?_⟩
  intro start
  refine ⟨fun calls others same => ?_, fun before c flush => ?_, fun append target before later => ?_⟩
  · intro e f
    have alike : e.bare = f.bare := by rw [Account.run_bare, Account.run_bare, same]
    refine ⟨congrArg (·.total) alike, congrArg (·.pendingSegments) alike, congrArg (·.hasPending) alike, ?_⟩
    rw [Account.answers_geometry, Account.answers_geometry, same]
  · let d := (start.run before).decimator
    have style : d.style = inForce Call.style? before :=
      Account.run_setting Call.style? (·.style) on_style start before
    have span : d.span = inForce Call.span? before :=
      Account.run_setting Call.span? (·.span) on_span start before
    refine ⟨d.take.1.value, fun p given => ?_, fun asked later wanted => ?_⟩
    · rw [← style, ← span]
      exact take_settings given
    · rw [Account.answers_append, Account.answers, if_pos wanted, Account.run_append, Call.on_flush flush]
      rfl
  · rw [Account.fill_answers, Account.fill_answers, Account.answers_append, List.reduceOption_append,
      List.foldl_append]
    exact ⟨rfl, rfl⟩

/-- A style set between two flushes is the style of the second one only, and a run without any
setting draws the same. -/
theorem settings_of_two :
    let track := (List.range 3).map fun n => Point.ground 0 (Float.ofNat n)
    let before : List Call := [.setStyle "day", .extend (track.take 2)]
    let later : List Call := [.setStyle "night", .extend (track.drop 2), .take]
    let others : List Call := [.extend (track.take 2), .clearSpan, .take, .extend (track.drop 2), .make]
    0 < 5 ∧ ∃ d, Decimator.new 5 = .ok d ∧
      let start : Account := { decimator := d }
      (before ++ .make :: later).flatMap Call.moves = others.flatMap Call.moves ∧
      (start.answers Call.flushes (before ++ .make :: later)).map (·.map (·.geometry)) =
        (start.answers Call.flushes others).map (·.map (·.geometry)) ∧
      Call.make.flushes = true ∧ ∃ answer : Option Placemark,
        (∀ p ∈ answer, p.style = some "day" ∧ p.span = none) ∧
        start.answers Call.flushes (before ++ .make :: later) =
          answer :: (start.run (before ++ [.make])).answers Call.flushes later := by
  intro track before later others
  obtain ⟨d, made, apart, kept, _⟩ := settings_apart 5 (by decide)
  have same : (before ++ .make :: later).flatMap Call.moves = others.flatMap Call.moves := rfl
  obtain ⟨answer, settings, given⟩ := kept before .make rfl
  exact ⟨by decide, d, made, same, (apart _ _ same).2.2.2, rfl, answer, settings, given _ later rfl⟩

end Trackline.Decimator
