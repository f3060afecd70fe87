import Trackline.Document
import Trackline.Settings.Basic
import Trackline.Shape

/-! The document that a run makes of its fixes. -/
namespace Trackline.Drawing

/-- One segment for each pair of neighbours, named by its number from zero on. -/
def segments (tag : String) (fixes : List Fix) : List Placemark :=
  (Shape.consecutive (fixes.map Fix.point)).zipIdx.map fun (s, n) =>
    Shape.segment tag s.1 s.2 (some (toString n))

/-- Pieces of a length, the last one shorter if need be. -/
def chunks {α : Type} (length : Nat) : List α → List (List α)
  | [] => []
  | a :: rest => (a :: rest.take (length - 1)) :: chunks length (rest.drop (length - 1))
termination_by xs => xs.length
decreasing_by rw [List.length_drop, List.length_cons]; omega

def lastTime (chunk : List Fix) : Option Instant := chunk.getLast?.bind (·.time)

/-- How long a piece lasts: from the last fix of the chunk before it, or if that has no
time from its own first one, to its own last one; unless both times are known it has
no span. -/
def lasting (before : Option Instant) (chunk : List Fix) : Option TimeSpan :=
  match before.or (chunk.head?.bind (·.time)), lastTime chunk with
  | some start, some stop => some ⟨start, stop⟩
  | _, _ => none

def pieces (d : Decimator) (before : Option Instant) : List (List Fix) → Logged (List Placemark)
  | [] => ⟨[], []⟩
  | chunk :: rest =>
    let d := { d.extend (chunk.map Fix.point) with span := lasting before chunk }
    let (taken, d) := d.take
    let after := pieces d (lastTime chunk) rest
    ⟨taken.value.toList ++ after.value, taken.log ++ after.log⟩

/-- Zero stands for one chunk of everything. -/
def chunkLength (flushEvery : Nat) (fixes : List Fix) : Nat :=
  if flushEvery = 0 then max 1 fixes.length else flushEvery

/-- A document without its placemarks: its name and its one style. -/
def base (s : Settings) : Document :=
  { name := s.name, styles := ⟨[⟨s.styleTag, .line s.color s.width⟩]⟩ }

def placed (s : Settings) (fixes : List Fix) : Except Error (Logged Document) := do
  s.sampling.check
  if fixes.isEmpty then throw .noFixes
  match s.mode with
  | .segments => return ⟨{ base s with placemarks := segments s.styleTag fixes }, []⟩
  | .polyline =>
    let line ← Shape.polyline s.styleTag (fixes.map Fix.point) s.stride
    return ⟨{ base s with placemarks := [line] }, []⟩
  | .trip =>
    let d ← Decimator.ofSampling s.sampling
    let trip := pieces { d with style := some s.styleTag } none
      (chunks (chunkLength s.flushEvery fixes) fixes)
    return trip.map fun placemarks =>
      { base s with folders := [{ name := s.styleTag, placemarks }] }

/-- The document of fixes, refused when the sampling is out of range or there are no fixes. -/
def document (s : Settings) (fixes : List Fix) : Logged (Except Error Document) :=
  match placed s fixes with
  | .error e => ⟨.error e, []⟩
  | .ok doc =>
    ⟨.ok doc.value, doc.log ++ [.built doc.value.allPlacemarks.length fixes.length s.mode.word]⟩

end Trackline.Drawing
