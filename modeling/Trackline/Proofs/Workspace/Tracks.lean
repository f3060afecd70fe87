import Mathlib.Data.List.ReduceOption
import Trackline.Proofs.Decimator.Flush
import Trackline.Proofs.Workspace.Pool
import Trackline.Proofs.Workspace.Refusal

/-! Tracks appended to a container. Thinned side by side or one after another, those of at
least two points end up in it as placemarks, in the order of the tracks. -/
namespace Trackline
open Shape

/-- The placemark of a track: what a decimator gives that saw this track and no other,
under the name of the track. -/
structure Thinned (stride : Nat) (p : Placemark) (track : Track) : Prop where
  alone : ∃ d, Decimator.new stride = .ok d ∧
    ({ d with style := track.style, span := track.span }.extend track.points).take.1.value =
      some { p with name := none }
  name : p.name = track.name
  style : p.style = track.style
  span : p.span = track.span
  drawn : ∃ line : Line, p.geometry = .track line ∧
    List.Forall₂ (Joins track.points) line.segments
      (consecutive (stops stride 0 (track.points.length - 1)))

private theorem modify_same {α : Type} {items : List α} {i : Nat} {f g : α → α}
    (same : ∀ item, items[i]? = some item → f item = g item) : items.modify i f = items.modify i g := by
  apply List.ext_getElem?
  intro j
  rw [List.getElem?_modify, List.getElem?_modify]
  refine Option.map_congr fun item here => ?_
  split
  next hit => exact same item (hit ▸ here)
  next => rfl

namespace Track

variable {stride : Nat}

private theorem placemark?_none (track : Track) (positive : 0 < stride) (short : track.points.length < 2) :
    (track.placemark? { stride, stride_pos := positive }).value = none := by
  have nothing := Decimator.fresh_none positive track.style track.span short
  exact congrArg (Option.map _) nothing

private theorem placemark?_some (track : Track) (positive : 0 < stride) (long : 2 ≤ track.points.length) :
    ∃ p, (track.placemark? { stride, stride_pos := positive }).value = some p ∧
      Thinned stride p track := by
  obtain ⟨segments, joined, taken⟩ := Decimator.fresh_some positive track.style track.span long
  refine ⟨_, congrArg (Option.map _) taken, ?_⟩
  exact
    { alone := ⟨_, Decimator.new_positive stride positive, taken⟩
      name := rfl
      style := rfl
      span := rfl
      drawn := ⟨_, rfl, by rwa [Line.segments, pairs_ends]⟩ }

def eachAlone (tracks : List Track) (positive : 0 < stride) : List Placemark :=
  tracks.filterMap fun track => (track.placemark? { stride, stride_pos := positive }).value

private theorem thinned_alone (tracks : List Track) (positive : 0 < stride) :
    List.Forall₂ (Thinned stride) (eachAlone tracks positive)
      (tracks.filter (2 ≤ ·.points.length)) := by
  rw [eachAlone]
  induction tracks with
  | nil => exact .nil
  | cons track rest ih =>
    by_cases long : 2 ≤ track.points.length
    · obtain ⟨p, made, thinned⟩ := track.placemark?_some positive long
      simpa [made, long] using ⟨thinned, ih⟩
    · simpa [track.placemark?_none positive (by omega), long] using ih

private theorem placemarks_positive (tracks : List Track) (positive : 0 < stride) :
    ∃ log, placemarks tracks stride = .ok ⟨eachAlone tracks positive, log⟩ := by
  rw [placemarks, Decimator.new_positive stride positive]
  exact ⟨_, congrArg Except.ok (congrArg (Logged.mk · _) List.filterMap_map)⟩

end Track

namespace Workspace
open Work

def contents (w : Workspace) : Place → Option (List Placemark)
  | .root => some w.document.placemarks
  | .list => some w.list
  | .nowhere => none
  | .folder index => w.document.folders[index]?.map (·.placemarks)

/-- The workspace with one container filled anew. -/
def fill (w : Workspace) (placemarks : List Placemark) : Place → Workspace
  | .root => { w with document := { w.document with placemarks } }
  | .list => { w with list := placemarks }
  | .nowhere => w
  | .folder index =>
    let folders := w.document.folders.modify index fun f => { f with placemarks }
    { w with document := { w.document with folders } }

variable {w : Workspace} {place : Place} {old : List Placemark}

private theorem contents_fill (held : w.contents place = some old) (placemarks : List Placemark) :
    (w.fill placemarks place).contents place = some placemarks := by
  cases place with
  | folder index =>
    obtain ⟨f, found, _⟩ := Option.map_eq_some_iff.mp held
    simp [contents, fill, found]
  | nowhere => simp [contents] at held
  | root => rfl
  | list => rfl

private theorem fill_contents (held : w.contents place = some old) : w.fill old place = w := by
  cases place with
  | folder index =>
    obtain ⟨f, found, rfl⟩ := Option.map_eq_some_iff.mp held
    have same : w.document.folders.modify index (fun g => { g with placemarks := f.placemarks }) =
        w.document.folders := by
      rw [modify_same (g := id), List.modify_id]
      intro g here
      rw [Option.some.inj (here.symm.trans found)]
      rfl
    rw [fill, same]
  | nowhere => rfl
  | root => rw [fill, ← Option.some.inj held]
  | list => rw [fill, ← Option.some.inj held]

private theorem append_eq (held : w.contents place = some old) (placemark : Placemark) :
    w.append placemark place = w.fill (old ++ [placemark]) place := by
  cases place with
  | folder index =>
    obtain ⟨f, found, rfl⟩ := Option.map_eq_some_iff.mp held
    rw [append, fill, modify_same]
    intro g here
    rw [Option.some.inj (here.symm.trans found)]
  | nowhere => rfl
  | root => rw [append, fill, ← Option.some.inj held]
  | list => rw [append, fill, ← Option.some.inj held]

private theorem fill_fill (w : Workspace) (first second : List Placemark) (place : Place) :
    (w.fill first place).fill second place = w.fill second place := by
  cases place with
  | folder index =>
    rw [fill, fill, fill]
    simp only [List.modify_modify_eq]
    rfl
  | _ => rfl

private theorem put_fill (held : w.contents place = some old) (placemark : Placemark) :
    put placemark place w = (⟨.ok (), []⟩, w.fill (old ++ [placemark]) place) := by
  rw [← append_eq held]
  rfl

private theorem puts_fill (held : w.contents place = some old) (placemarks : List Placemark) :
    (placemarks.forM fun placemark => put placemark place) w =
      (⟨.ok (), []⟩, w.fill (old ++ placemarks) place) := by
  induction placemarks generalizing w old with
  | nil =>
    rw [List.append_nil, fill_contents held]
    rfl
  | cons placemark rest ih =>
    -- The rest comes into the container as this placemark left it.
    have later := ih (contents_fill held (old ++ [placemark]))
    rw [fill_fill, List.append_assoc] at later
    exact (bind_silent (put_fill held placemark)).trans later

private theorem puts_then {α : Type} (held : w.contents place = some old) (placemarks : List Placemark)
    (answer : α) :
    (do
      placemarks.forM fun placemark => put placemark place
      return answer : Work α) w = (⟨.ok answer, []⟩, w.fill (old ++ placemarks) place) :=
  bind_silent (puts_fill held placemarks)

/-- The tracks appended by way of a pool. Nothing begins with a bad stride, and nothing is
appended before the last job is done; until then there is no count. Jobs report where they
run, not here. -/
def appendPooled (tracks : List Track) (stride : Nat) (place : Place) (turns : List Nat) :
    Work (Option Nat) := do
  let _ ← look fun _ => (Decimator.new stride).mapError .failed
  match Pool.results? (Pool.run stride (tracks.map .waiting) turns) with
  | none => return none
  | some results =>
    let placemarks ← look fun _ => (results.mapM id).mapError .failed
    placemarks.reduceOption.forM fun placemark => put placemark place
    return some placemarks.reduceOption.length

private theorem pooled_waits {tracks : List Track} {stride : Nat} {turns : List Nat} (positive : 0 < stride)
    (early : ¬Pool.Served tracks turns) (w : Workspace) (place : Place) :
    appendPooled tracks stride place turns w = (⟨.ok none, []⟩, w) := by
  rw [appendPooled, Pool.results_any_order positive, if_neg early]
  exact look_ok (by rw [Decimator.new_positive stride positive]; rfl)

private theorem pooled_done {tracks : List Track} {stride : Nat} {turns : List Nat} (positive : 0 < stride)
    (served : Pool.Served tracks turns) (held : w.contents place = some old) :
    let placemarks := Track.eachAlone tracks positive
    appendPooled tracks stride place turns w =
      (⟨.ok (some placemarks.length), []⟩, w.fill (old ++ placemarks) place) := by
  intro placemarks
  have results : (tracks.map fun track => (Job.waiting track).outcome stride).mapM id =
      .ok (tracks.map fun track => (track.placemark? { stride, stride_pos := positive }).value) := by
    simp only [List.mapM_map, Job.outcome, Decimator.new_positive stride positive, Function.comp_def]
    exact List.mapM_pure
  rw [appendPooled, Pool.results_any_order positive, if_pos served]
  refine (look_ok (by rw [Decimator.new_positive stride positive]; rfl)).trans ?_
  refine (look_ok (by rw [results]; rfl)).trans ?_
  rw [List.reduceOption, List.filterMap_map]
  exact puts_then held placemarks (some placemarks.length)

private theorem tracks_filled {stride : Nat} (tracks : List Track) (positive : 0 < stride)
    (held : w.contents place = some old) :
    let placemarks := Track.eachAlone tracks positive
    ∃ log, appendTracks tracks stride place w =
      (⟨.ok placemarks.length, log⟩, w.fill (old ++ placemarks) place) := by
  intro placemarks
  obtain ⟨log, made⟩ := Track.placemarks_positive tracks positive
  have appended := puts_then held placemarks placemarks.length
  exact ⟨log ++ [], (look_ok (by rw [made]; rfl)).trans (bind_done rfl appended)⟩

/-- Tracks appended to a container, one after another or by way of a pool whose turns come
in any order. A bad stride is refused before anything else, also if there are no tracks.
Otherwise the container keeps what it held, behind it come the placemarks of the tracks of at
least two points in the order of the tracks, each as of its track alone, and all else stays;
the pool gives the same, once every track had its turns, and changes nothing before. -/
theorem tracks_appended (w : Workspace) (place : Place) (old : List Placemark)
    (held : w.contents place = some old) (tracks : List Track) (stride : Nat) :
    (stride = 0 →
      appendTracks tracks stride place w = (⟨.error (.failed .strideZero), []⟩, w) ∧
      ∀ turns, appendPooled tracks stride place turns w = (⟨.error (.failed .strideZero), []⟩, w)) ∧
    (0 < stride → ∃ placemarks log,
      let after := w.fill (old ++ placemarks) place
      List.Forall₂ (Thinned stride) placemarks (tracks.filter (2 ≤ ·.points.length)) ∧
      appendTracks tracks stride place w = (⟨.ok placemarks.length, log⟩, after) ∧
      after.contents place = some (old ++ placemarks) ∧
      ∀ turns, appendPooled tracks stride place turns w =
        if Pool.Served tracks turns then (⟨.ok (some placemarks.length), []⟩, after)
        else (⟨.ok none, []⟩, w)) := by
  constructor
  · rintro rfl
    exact ⟨w.judged_tracks tracks 0 place, fun turns => bind_error rfl⟩
  · intro positive
    obtain ⟨log, appended⟩ := tracks_filled tracks positive held
    refine ⟨_, log, Track.thinned_alone tracks positive, appended, contents_fill held _, fun turns => ?_⟩
    split
    next served => exact pooled_done positive served held
    next early => exact pooled_waits positive early w place

/-- Four tracks into a folder that holds a placemark already: one without points, one of five
points, one of a single point and one of two. The pool takes them from the last to the first,
the long one with a break; two come behind what was there. -/
theorem tracks_of_four :
    let before : Placemark := { name := some "first", geometry := .multi [] }
    let folder : Folder := { name := "walks", placemarks := [before] }
    let w : Workspace := { document := { name := "trips", folders := [folder] } }
    let points (n : Nat) := (List.range n).map fun k => Point.ground 0 (Float.ofNat k)
    let long : Track := { name := some "long", style := some "red", points := points 5 }
    let pair : Track := { points := points 2 }
    let tracks := [{ points := [] }, long, { name := some "dot", points := points 1 }, pair]
    let turns := [1, 1, 3, 3, 3, 3, 2, 2, 2, 1, 1, 1, 1, 1, 0, 0]
    w.contents (.folder 0) = some [before] ∧ 0 < 2 ∧ ∃ a b, Thinned 2 a long ∧ Thinned 2 b pair ∧
      (appendTracks tracks 2 (.folder 0) w).2 = w.fill [before, a, b] (.folder 0) ∧
      appendPooled tracks 2 (.folder 0) turns w =
        (⟨.ok (some 2), []⟩, w.fill [before, a, b] (.folder 0)) := by
  intro before folder w points long pair tracks turns
  have held : w.contents (.folder 0) = some [before] := rfl
  obtain ⟨placemarks, log, thinned, appended, _, pooled⟩ :=
    (tracks_appended w (.folder 0) [before] held tracks 2).2 (by decide)
  have kept : tracks.filter (2 ≤ ·.points.length) = [long, pair] := by rfl
  have served : Pool.Served tracks turns := by decide
  rw [kept] at thinned
  obtain ⟨a, rest, first, others, rfl⟩ := List.forall₂_cons_right_iff.mp thinned
  obtain ⟨b, rest, second, last, rfl⟩ := List.forall₂_cons_right_iff.mp others
  rw [List.forall₂_nil_right_iff.mp last] at appended pooled
  exact ⟨held, by decide, a, b, first, second, by rw [appended]; rfl,
    (pooled turns).trans (if_pos served)⟩

end Workspace
end Trackline
