import Trackline.Workspace.Step

/-! When commands are refused, and what a refusal leaves behind. Every command looks before
it acts: what can be wrong is found before anything is changed, and the first thing that is
wrong is the answer. So refused commands can be left out of a run. -/
namespace Trackline

variable {ε α β : Type}

/-- Something that is refused with the first of its faults, and done if it has none. -/
def Settles (result : Except ε α) : List ε → Prop
  | [] => ∃ a, result = .ok a
  | fault :: _ => result = .error fault

def fault (wrong : Prop) [Decidable wrong] (why : ε) : List ε := if wrong then [why] else []

namespace Settles

private theorem ok (a : α) : Settles (.ok a : Except ε α) [] := ⟨a, rfl⟩

private theorem barred (wrong : Prop) [Decidable wrong] (why : ε) {result : Except ε α} {faults : List ε}
    (settles : Settles result faults) :
    Settles (if wrong then .error why else result) (fault wrong why ++ faults) := by
  rw [fault]
  split
  · rfl
  · exact settles

private theorem of_if (wrong : Prop) [Decidable wrong] (why : ε) (a : α) :
    Settles (if wrong then .error why else .ok a) (fault wrong why) := by
  rw [← List.append_nil (fault wrong why)]
  exact (ok a).barred wrong why

theorem error_iff {result : Except ε α} {faults : List ε} (settles : Settles result faults)
    (e : ε) : result = .error e ↔ faults.head? = some e := by
  cases faults with
  | nil =>
    obtain ⟨a, rfl⟩ := settles
    simp
  | cons first rest =>
    have refused : result = .error first := settles
    simp [refused]

private theorem map {result : Except ε α} {faults : List ε} (settles : Settles result faults) (f : α → β) :
    Settles (result.map f) faults := by
  cases faults with
  | nil =>
    obtain ⟨a, rfl⟩ := settles
    exact ⟨f a, rfl⟩
  | cons first rest =>
    rw [show result = .error first from settles]
    rfl

private theorem mapError {δ : Type} {result : Except ε α} {faults : List ε} (settles : Settles result faults)
    (f : ε → δ) : Settles (result.mapError f) (faults.map f) := by
  cases faults with
  | nil =>
    obtain ⟨a, rfl⟩ := settles
    exact ⟨a, rfl⟩
  | cons first rest =>
    rw [show result = .error first from settles]
    rfl

private theorem bind {result : Except ε α} {f : α → Except ε β} {first later : List ε}
    (settles : Settles result first) (next : ∀ a, result = .ok a → Settles (f a) later) :
    Settles (result >>= f) (first ++ later) := by
  cases first with
  | nil =>
    obtain ⟨a, rfl⟩ := settles
    exact next a rfl
  | cons first rest =>
    rw [show result = .error first from settles]
    rfl

private theorem mapM {f : α → Except ε β} {faults : α → List ε} (items : List α)
    (settles : ∀ item ∈ items, Settles (f item) (faults item)) :
    Settles (items.mapM f) (items.flatMap faults) := by
  induction items with
  | nil => exact ok []
  | cons item rest ih =>
    rw [List.mapM_cons, List.flatMap_cons]
    refine (settles item List.mem_cons_self).bind fun _ _ => ?_
    have later := ih fun other member => settles other (List.mem_cons_of_mem _ member)
    exact later.map _

end Settles

namespace Work

variable {x : Work α} {g : α → Work β} {f : Workspace → Except Refusal α} {w : Workspace}
  {first later : List Refusal} {a : α} {refusal : Refusal}

private theorem bind_ok (done : (x w).1.value = .ok a) :
    (x >>= g) w = (⟨(g a (x w).2).1.value, (x w).1.log ++ (g a (x w).2).1.log⟩, (g a (x w).2).2) := by
  simp only [Bind.bind]
  generalize x w = result at done
  obtain ⟨⟨value, log⟩, next⟩ := result
  subst done
  rfl

theorem bind_done {log more : List Event} {next final : Workspace} {result : Except Refusal β}
    (first : x w = (⟨.ok a, log⟩, next)) (last : g a next = (⟨result, more⟩, final)) :
    (x >>= g) w = (⟨result, log ++ more⟩, final) := by
  rw [bind_ok (a := a) (by rw [first]), first, last]

theorem bind_silent {next : Workspace} (done : x w = (⟨.ok a, []⟩, next)) : (x >>= g) w = g a next := by
  rw [bind_ok (a := a) (by rw [done]), done]
  rfl

theorem look_ok (found : f w = .ok a) : (look f >>= g) w = g a w :=
  bind_silent (by rw [look, found])

theorem bind_error {log : List Event} {next : Workspace}
    (refused : x w = (⟨.error refusal, log⟩, next)) : (x >>= g) w = (⟨.error refusal, log⟩, next) := by
  simp only [Bind.bind, refused]

/-- Work that is refused with the first of its faults and then leaves no trace, and that is
done if it has none. -/
def Judged (x : Work α) (w : Workspace) : List Refusal → Prop
  | [] => ∃ a, (x w).1.value = .ok a
  | refusal :: _ => x w = (⟨.error refusal, []⟩, w)

private theorem Judged.settles (judged : Judged x w first) : Settles (x w).1.value first := by
  cases first with
  | nil => exact judged
  | cons refusal rest => rw [Settles, show x w = (⟨.error refusal, []⟩, w) from judged]

def Sure (x : Work α) : Prop := ∀ w, Judged x w []

private theorem sure_act (f : Workspace → Logged α × Workspace) : Sure (act f) := fun w => ⟨(f w).1.value, rfl⟩

private theorem sure_pure (a : α) : Sure (pure a) := sure_act _

private theorem judged_look (settles : Settles (f w) first) : Judged (look f) w first := by
  cases first with
  | nil => exact settles
  | cons refusal rest => rw [Judged, look, show f w = .error refusal from settles]

private theorem Judged.sure (judged : Judged x w first) (next : ∀ a, Sure (g a)) : Judged (x >>= g) w first := by
  cases first with
  | nil =>
    obtain ⟨a, done⟩ := judged
    obtain ⟨b, last⟩ := next a (x w).2
    exact ⟨b, by rw [bind_ok done, last]⟩
  | cons refusal rest => exact bind_error judged

private theorem Sure.bind (sure : Sure x) (next : ∀ a, Sure (g a)) : Sure (x >>= g) := fun w =>
  (sure w).sure next

private theorem sure_forM {items : List α} {g : α → Work PUnit} (each : ∀ item, Sure (g item)) :
    Sure (items.forM g) := by
  induction items with
  | nil => exact sure_pure _
  | cons item rest ih => exact (each item).bind fun _ => ih

/-- To look first and then go on: what is wrong at the look is told before what is wrong
later, and it does not come to the later work. -/
theorem judged_bind (settles : Settles (f w) first) (next : ∀ a, f w = .ok a → Judged (g a) w later) :
    Judged (look f >>= g) w (first ++ later) := by
  cases first with
  | nil =>
    obtain ⟨a, found⟩ := settles
    have rest := next a found
    rw [List.nil_append]
    cases later with
    | nil =>
      obtain ⟨b, done⟩ := rest
      exact ⟨b, by rw [look_ok found, done]⟩
    | cons refusal more => exact (look_ok found).trans rest
  | cons refusal rest => exact bind_error (judged_look settles)

end Work

open Work

/-- The instants that exist, in seconds. -/
def InRange (seconds : Int) : Prop := -8334601228800 ≤ seconds ∧ seconds ≤ 8210266876799

instance (seconds : Int) : Decidable (InRange seconds) := inferInstanceAs (Decidable (_ ∧ _))

def strideFaults (stride : Nat) : List Error := fault (stride = 0) .strideZero

def spanFaults (start stop : Int) : List Refusal :=
  fault (¬(InRange start ∧ InRange stop)) .spanOutOfRange

def Sampling.faults (s : Sampling) : List Error :=
  strideFaults s.stride ++
    (fault (s.circleSegments < 3) (.tooFewSegments s.circleSegments) ++
      fault (¬(Double.isFinite s.earthRadius ∧ Double.lt 0 s.earthRadius)) (.radius s.earthRadius))

def Sketch.faults : Sketch → List Refusal
  | .polygon _ points _ => (fault (points = []) Error.polygonWithoutPoints).map .failed
  | .circle _ _ _ _ segments _ => (fault (segments < 3) (Error.tooFewSegments segments)).map .failed
  | .sampledCircle sampling _ _ _ _ => sampling.faults.map .failed
  | .polyline _ points stride =>
    (strideFaults stride ++ fault (points = []) Error.polylineWithoutPoints).map .failed
  | .plain _ _ _ (some (start, stop)) => spanFaults start stop
  | _ => []

def TrackSketch.faults (t : TrackSketch) : List Refusal :=
  match t.span with
  | some (start, stop) => spanFaults start stop
  | none => []

namespace Workspace

def placeFaults (w : Workspace) : Place → List Refusal
  | .folder index => fault (w.document.folders.length ≤ index) .noFolder
  | _ => []

def tripFaults (w : Workspace) (id : String) : List Refusal :=
  fault (id ∉ w.trips.map (·.1)) .noTrip

/-- All that is wrong with a command, in the order in which it is looked at. -/
def faults (w : Workspace) : Command → List Refusal
  | .folderFlags index _ _ => w.placeFaults (.folder index)
  | .draw sketch place => sketch.faults ++ w.placeFaults place
  | .tracks tracks stride place =>
    tracks.flatMap TrackSketch.faults ++ (w.placeFaults place ++ (strideFaults stride).map .failed)
  | .newTrip _ stride _ => (strideFaults stride).map .failed
  | .sampledTrip _ sampling _ => (strideFaults sampling.stride).map .failed
  | .copyTrip id _ | .tripStyle id _ | .clearTripSpan id | .extendTrip id _ | .trip id
  | .takeTrip id => w.tripFaults id
  | .tripSpan id start stop => w.tripFaults id ++ spanFaults start stop
  | .flushTrip id place => w.tripFaults id ++ w.placeFaults place
  | _ => []

end Workspace

private theorem settles_new (stride : Nat) : Settles (Decimator.new stride) (strideFaults stride) := by
  rw [strideFaults, fault, Decimator.new]
  split <;> split
  · omega
  · exact .ok _
  · rfl
  · omega

private theorem settles_ofSampling (s : Sampling) : Settles (Decimator.ofSampling s) (strideFaults s.stride) :=
  settles_new s.stride

private theorem settles_placemarks (tracks : List Track) (stride : Nat) :
    Settles (Track.placemarks tracks stride) (strideFaults stride) := by
  rw [← List.append_nil (strideFaults stride)]
  exact (settles_new stride).bind fun _ _ => .ok _

theorem settles_sampling (s : Sampling) : Settles s.check s.faults := by
  refine .barred _ _ (.barred _ _ ?_)
  by_cases good : Double.isFinite s.earthRadius ∧ Double.lt 0 s.earthRadius
  · simpa [fault, good] using Settles.ok ()
  · rw [fault, if_pos good, if_neg (by simpa using good)]
    rfl

private theorem of?_range (seconds : Int) (nanos : Nat) :
    (Instant.of? seconds nanos).isSome ↔ InRange seconds := by
  rw [Instant.of?, InRange]
  split <;> simp [*]

private theorem settles_span (start stop : Int) : Settles (spanOf start stop) (spanFaults start stop) := by
  rw [spanOf, spanFaults, fault, TimeSpan.ofUnix?]
  by_cases inside : InRange start ∧ InRange stop
  · obtain ⟨first, one⟩ := Option.isSome_iff_exists.mp ((of?_range start 0).mpr inside.1)
    obtain ⟨last, two⟩ := Option.isSome_iff_exists.mp ((of?_range stop 0).mpr inside.2)
    rw [one, two, if_neg (not_not_intro inside)]
    exact .ok _
  · rw [if_pos inside]
    rcases Decidable.not_and_iff_or_not.mp inside with early | late
    · rw [← of?_range start 0, Option.not_isSome_iff_eq_none] at early
      rw [early]
      rfl
    · rw [← of?_range stop 0, Option.not_isSome_iff_eq_none] at late
      rw [late]
      cases Instant.of? start 0 <;> rfl

private theorem settles_sketch (s : Sketch) : Settles s.placemark s.faults := by
  cases s with
  | segment style a b name => exact .ok _
  | box style northEast southWest => exact .ok _
  | polygon style points name =>
    rw [Sketch.placemark, Shape.polygon]
    simp only [List.isEmpty_iff]
    exact (Settles.of_if _ _ _).mapError _
  | circle earth style center radius segments name => exact (Settles.of_if _ _ _).mapError _
  | sampledCircle sampling style center radius name =>
    rw [Sketch.faults, ← List.append_nil sampling.faults]
    refine ((settles_sampling sampling).bind fun _ sound => ?_).mapError _
    -- The count of segments was checked with the sampling, so the circle cannot refuse it.
    have enough : ¬sampling.circleSegments < 3 := by
      intro few
      simp only [Sampling.check, few] at sound
      split at sound <;> simp at sound
    rw [Shape.circle, if_neg enough]
    exact .ok _
  | polyline style points stride =>
    refine Settles.mapError (.barred _ _ ?_) _
    cases points with
    | nil => rfl
    | cons first rest => exact .ok _
  | plain geometry name style span =>
    cases span with
    | none => exact .ok _
    | some bounds => exact (settles_span bounds.1 bounds.2).map _

private theorem settles_track (t : TrackSketch) : Settles t.track t.faults := by
  obtain ⟨name, style, span, points⟩ := t
  cases span with
  | none => exact .ok _
  | some bounds => exact (settles_span bounds.1 bounds.2).map _

namespace Workspace

variable (w : Workspace)

private theorem settles_folder (index : Nat) :
    Settles (w.folder? index) (w.placeFaults (.folder index)) := by
  rw [folder?, placeFaults, fault]
  split
  next f found =>
    rw [if_neg (Nat.not_le.mpr (List.getElem?_eq_some_iff.mp found).1)]
    exact .ok f
  next missing =>
    rw [if_pos (List.getElem?_eq_none_iff.mp missing)]
    rfl

private theorem settles_place (place : Place) : Settles (w.check place) (w.placeFaults place) := by
  cases place with
  | folder index => exact (w.settles_folder index).map _
  | _ => exact .ok ()

private theorem settles_trip (id : String) : Settles (w.trip? id) (w.tripFaults id) := by
  rw [trip?, tripFaults, fault]
  split
  next d found =>
    have known : id ∈ w.trips.map (·.1) := by
      have := List.lookup_isSome_iff.mp (Option.isSome_of_eq_some found)
      simpa using this
    rw [if_neg (not_not_intro known)]
    exact .ok d
  next missing =>
    have unknown : id ∉ w.trips.map (·.1) := by
      rintro known
      obtain ⟨⟨other, d⟩, member, rfl⟩ := List.mem_map.mp known
      simpa using List.lookup_eq_none_iff.mp missing _ member
    rw [if_pos unknown]
    rfl

private theorem sure_put (placemark : Placemark) (place : Place) : Sure (put placemark place) := sure_act _

private theorem sure_keepTrip (id : String) (d : Decimator) : Sure (keepTrip id d) := sure_act _

private theorem judged_startTrip (id : String) (style : Option String) {made : Except Error Decimator}
    {faults : List Error} (settles : Settles made faults) :
    Judged (startTrip id made style) w (faults.map .failed) :=
  (judged_look (settles.mapError _)).sure fun _ => (sure_keepTrip id _).bind fun _ => sure_pure _

theorem judged_tracks (tracks : List Track) (stride : Nat) (place : Place) :
    Judged (appendTracks tracks stride place) w ((strideFaults stride).map .failed) := by
  refine (judged_look ((settles_placemarks tracks stride).mapError _)).sure fun placemarks => ?_
  exact (sure_act _).bind fun _ => (sure_forM fun p => sure_put p place).bind fun _ => sure_pure _

private theorem judged_perform (c : Command) : Judged (perform c) w (w.faults c) := by
  cases c with
  | folderFlags index visible opened =>
    exact (judged_look (w.settles_folder index)).sure fun _ => sure_act _
  | draw sketch place =>
    refine judged_bind (settles_sketch sketch) fun placemark _ => ?_
    exact (judged_look (w.settles_place place)).sure fun _ =>
      (sure_put placemark place).bind fun _ => sure_pure _
  | tracks tracks stride place =>
    refine judged_bind (.mapM tracks fun t _ => settles_track t) fun tracks _ => ?_
    refine judged_bind (w.settles_place place) fun _ _ => ?_
    exact (w.judged_tracks tracks stride place).sure fun _ => sure_pure _
  | newTrip id stride style => exact w.judged_startTrip id style (settles_new stride)
  | sampledTrip id sampling style => exact w.judged_startTrip id style (settles_ofSampling sampling)
  | tripSpan id start stop =>
    refine judged_bind (w.settles_trip id) fun _ _ => ?_
    exact (judged_look (settles_span start stop)).sure fun _ =>
      (sure_keepTrip id _).bind fun _ => sure_pure _
  | copyTrip id _ | tripStyle id _ | clearTripSpan id | extendTrip id _ =>
    exact (judged_look (w.settles_trip id)).sure fun _ =>
      (sure_keepTrip _ _).bind fun _ => sure_pure _
  | trip id => exact (judged_look (w.settles_trip id)).sure fun _ => sure_pure _
  | takeTrip id => exact (judged_look (w.settles_trip id)).sure fun _ => sure_act _
  | flushTrip id place =>
    refine judged_bind (w.settles_trip id) fun _ _ => ?_
    exact (judged_look (w.settles_place place)).sure fun _ => sure_act _
  | documentFlags | addFolder | define => exact sure_act _ w
  | resolve | extent | document | list | kml | path => exact judged_look (.ok _)

private theorem refused_iff (c : Command) (refusal : Refusal) :
    (w.step c).1.value = .error refusal ↔ (w.faults c).head? = some refusal :=
  (w.judged_perform c).settles.error_iff refusal

private theorem step_refused {c : Command} {refusal : Refusal}
    (refused : (w.step c).1.value = .error refusal) : w.step c = (⟨.error refusal, []⟩, w) := by
  have judged := w.judged_perform c
  obtain ⟨rest, all⟩ := List.head?_eq_some_iff.mp ((w.refused_iff c refusal).mp refused)
  rw [all] at judged
  exact judged

def accepted (w : Workspace) : List Command → List Command
  | [] => []
  | c :: rest =>
    let (result, next) := w.step c
    if result.value.isOk then c :: next.accepted rest else next.accepted rest

private theorem run_accepted (w : Workspace) (commands : List Command) :
    w.run (w.accepted commands) =
      ((w.run commands).1.filter (·.value.isOk), (w.run commands).2) := by
  induction commands generalizing w with
  | nil => rfl
  | cons c rest ih =>
    cases outcome : (w.step c).1.value with
    | ok answer =>
      have kept : (w.step c).1.value.isOk = true := by rw [outcome]; rfl
      simp [accepted, run, kept, ih]
    | error refusal =>
      -- The commands behind a refused one find the workspace that it found.
      have dropped : (w.step c).1.value.isOk = false := by rw [outcome]; rfl
      have same := congrArg Prod.snd (w.step_refused outcome)
      simp [accepted, run, dropped, same, ih]

/-- Refused commands leave no trace. A command is refused exactly if something is wrong
with it, for the first thing that is wrong; then workspace and reports are as if it had not
been asked. So a run without the commands that it refuses gives the same answers to all
others and ends in the same workspace. -/
theorem refusals_erasable (w : Workspace) :
    (∀ c refusal, (w.step c).1.value = .error refusal → w.step c = (⟨.error refusal, []⟩, w)) ∧
    (∀ c refusal, (w.step c).1.value = .error refusal ↔ (w.faults c).head? = some refusal) ∧
    (∀ commands, w.run (w.accepted commands) =
      ((w.run commands).1.filter (·.value.isOk), (w.run commands).2)) :=
  ⟨fun _ _ => w.step_refused, w.refused_iff, w.run_accepted⟩

/-- Two of four commands are refused: the trip of that name stays, and a polygon without
points is told before the folder that it was meant for is found missing. -/
theorem refusals_of_four :
    let w : Workspace := { document := { name := "trips" } }
    let polygon := Command.draw (.polygon "red" [] none) (.folder 0)
    let commands := [.newTrip "a" 2 none, .newTrip "a" 0 none, polygon, .trip "a"]
    w.faults polygon = [.failed .polygonWithoutPoints, .noFolder] ∧
      w.step polygon = (⟨.error (.failed .polygonWithoutPoints), []⟩, w) ∧
      w.run [.newTrip "a" 2 none, .trip "a"] =
        ((w.run commands).1.filter (·.value.isOk), (w.run commands).2) := by
  intro w polygon commands
  obtain ⟨kept, first, erased⟩ := refusals_erasable w
  exact ⟨rfl, kept polygon _ ((first polygon _).mpr rfl), erased commands⟩

end Workspace
end Trackline
