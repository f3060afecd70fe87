import Trackline.Workspace.Command

/-! A workspace: a document, a list of placemarks beside it, and decimators with
names. Commands work on it in place: nothing takes back what was done before a refusal. -/
namespace Trackline

structure Workspace where
  document : Document
  list : List Placemark := []
  trips : List (String × Decimator) := []

/-- Work on a workspace in place. It ends with a value or a refusal; in both cases the
reports on the way and the workspace stay as they were at the end. -/
def Work (α : Type) : Type := Workspace → Logged (Except Refusal α) × Workspace

namespace Work

variable {α β : Type}

/-- Looks at the workspace, and may refuse to go on. -/
def look (f : Workspace → Except Refusal α) : Work α := fun w => (⟨f w, []⟩, w)

/-- Changes the workspace and reports; it cannot refuse. -/
def act (f : Workspace → Logged α × Workspace) : Work α := fun w =>
  let (result, next) := f w
  (result.map .ok, next)

instance : Monad Work where
  pure a := act fun w => (⟨a, []⟩, w)
  bind x f := fun w =>
    match x w with
    | (⟨.ok a, log⟩, next) =>
      let (result, last) := f a next
      (⟨result.value, log ++ result.log⟩, last)
    | (⟨.error refusal, log⟩, next) => (⟨.error refusal, log⟩, next)

end Work

def Decimator.state (d : Decimator) : TripState := ⟨d.total, d.pendingSegments, d.hasPending⟩

/-- A span between two whole seconds. -/
def spanOf (start stop : Int) : Except Refusal TimeSpan :=
  match TimeSpan.ofUnix? start stop with
  | some span => .ok span
  | none => .error .spanOutOfRange

def Sketch.placemark : Sketch → Except Refusal Placemark
  | .segment style a b name => .ok (Shape.segment style a b name)
  | .box style northEast southWest => .ok (Shape.box style northEast southWest)
  | .polygon style points name => (Shape.polygon style points name).mapError .failed
  | .circle earth style center radius segments name =>
    (Shape.circle earth style center radius segments name).mapError .failed
  | .sampledCircle sampling style center radius name =>
    (Shape.sampledCircle sampling style center radius name).mapError .failed
  | .polyline style points stride => (Shape.polyline style points stride).mapError .failed
  | .plain geometry name style none => .ok { name, style, geometry }
  | .plain geometry name style (some (start, stop)) =>
    (spanOf start stop).map fun span => { name, style, span := some span, geometry }

def TrackSketch.track (t : TrackSketch) : Except Refusal Track :=
  match t.span with
  | none => .ok { name := t.name, style := t.style, points := t.points }
  | some (start, stop) => (spanOf start stop).map fun span =>
    { name := t.name, style := t.style, span := some span, points := t.points }

namespace Workspace
open Work

def folder? (w : Workspace) (index : Nat) : Except Refusal Folder :=
  match w.document.folders[index]? with
  | some f => .ok f
  | none => .error .noFolder

def check (w : Workspace) : Place → Except Refusal Unit
  | .folder index => (w.folder? index).map fun _ => ()
  | _ => .ok ()

def append (w : Workspace) (placemark : Placemark) : Place → Workspace
  | .root =>
    { w with document := { w.document with placemarks := w.document.placemarks ++ [placemark] } }
  | .list => { w with list := w.list ++ [placemark] }
  | .nowhere => w
  | .folder index =>
    let folders := w.document.folders.modify index fun f =>
      { f with placemarks := f.placemarks ++ [placemark] }
    { w with document := { w.document with folders } }

def trip? (w : Workspace) (id : String) : Except Refusal Decimator :=
  match w.trips.lookup id with
  | some d => .ok d
  | none => .error .noTrip

def setTrip (w : Workspace) (id : String) (d : Decimator) : Workspace :=
  { w with trips := (id, d) :: w.trips.filter (·.1 != id) }

def put (placemark : Placemark) (place : Place) : Work Unit :=
  act fun w => (⟨(), []⟩, w.append placemark place)

def keepTrip (id : String) (d : Decimator) : Work Unit :=
  act fun w => (⟨(), []⟩, w.setTrip id d)

/-- Keeps a new decimator under a name, in place of an older one. -/
def startTrip (id : String) (made : Except Error Decimator) (style : Option String) : Work Answer := do
  let d ← look fun _ => made.mapError .failed
  keepTrip id { d with style }
  return .stride d.stride

/-- Appends the placemarks of many tracks one by one, and counts them. -/
def appendTracks (tracks : List Track) (stride : Nat) (place : Place) : Work Nat := do
  let placemarks ← look fun _ => (Track.placemarks tracks stride).mapError .failed
  act fun w => (⟨(), placemarks.log⟩, w)
  placemarks.value.forM fun placemark => put placemark place
  return placemarks.value.length

def perform : Command → Work Answer
  | .documentFlags visible opened => act fun w =>
    let doc := w.document
    let doc := { doc with visible := visible.getD doc.visible, opened := opened.getD doc.opened }
    (⟨.flags doc.visible doc.opened, []⟩, { w with document := doc })
  | .addFolder name visible opened => act fun w =>
    let folders := w.document.folders
    (⟨.index folders.length, []⟩,
      { w with document := { w.document with folders := folders ++ [{ name, visible, opened }] } })
  | .folderFlags index visible opened => do
    let f ← look (·.folder? index)
    let f := { f with visible := visible.getD f.visible, opened := opened.getD f.opened }
    act fun w =>
      (⟨.flags f.visible f.opened, []⟩,
        { w with document := { w.document with folders := w.document.folders.set index f } })
  | .define tag kind => act fun w =>
    let book := w.document.styles.define tag kind
    (book.map fun book => .defined tag (Style.url tag) book.styles.length,
      { w with document := { w.document with styles := book.value } })
  | .resolve tag => look fun w =>
    let book := w.document.styles
    .ok (.resolved (book.resolve tag) (book.contains tag) book.styles.length book.styles.isEmpty)
  | .draw sketch place => do
    let placemark ← look fun _ => sketch.placemark
    look (·.check place)
    put placemark place
    return .placemark placemark
  | .tracks tracks stride place => do
    let tracks ← look fun _ => tracks.mapM (·.track)
    look (·.check place)
    let count ← appendTracks tracks stride place
    return .appended count
  | .extent => look fun w => .ok (.extent w.document.extent)
  | .document => look fun w => .ok (.document w.document)
  | .list => look fun w => .ok (.list w.list)
  | .kml => look fun w => .ok (.kml (Kml.text w.document))
  | .path tags => look fun w => .ok (.node ((Kml.document w.document).path? tags))
  | .newTrip id stride style => startTrip id (Decimator.new stride) style
  | .sampledTrip id sampling style => startTrip id (Decimator.ofSampling sampling) style
  | .copyTrip id copy => do
    let d ← look (·.trip? id)
    keepTrip copy d
    return .trip d.state
  | .tripStyle id style => do
    let d ← look (·.trip? id)
    keepTrip id { d with style := some style }
    return .done
  | .tripSpan id start stop => do
    let d ← look (·.trip? id)
    let span ← look fun _ => spanOf start stop
    keepTrip id { d with span := some span }
    return .done
  | .clearTripSpan id => do
    let d ← look (·.trip? id)
    keepTrip id { d with span := none }
    return .done
  | .extendTrip id points => do
    let d ← look (·.trip? id)
    let d := d.extend points
    keepTrip id d
    return .trip d.state
  | .trip id => do
    let d ← look (·.trip? id)
    return .trip d.state
  | .takeTrip id => do
    let d ← look (·.trip? id)
    act fun w =>
      let (taken, d) := d.take
      (taken.map fun taken => .taken d.state taken, w.setTrip id d)
  | .flushTrip id place => do
    let d ← look (·.trip? id)
    look (·.check place)
    act fun w =>
      let (made, w, d) := d.make (fun w placemark => append w placemark place) w
      (made.map fun made => .flushed d.state made, w.setTrip id d)

/-- One step: the answer or the refusal with what was reported, and the workspace to go on with. -/
def step (w : Workspace) (c : Command) : Logged (Except Refusal Answer) × Workspace := perform c w

/-- The answers to commands one after another, and the workspace at the end. -/
def run (w : Workspace) : List Command → List (Logged (Except Refusal Answer)) × Workspace
  | [] => ([], w)
  | c :: rest =>
    let (answer, next) := w.step c
    let (answers, last) := next.run rest
    (answer :: answers, last)

end Workspace
end Trackline
