import Trackline.Decimator
import Trackline.Extent
import Trackline.Style

/-! Documents: styles, folders of placemarks, and placemarks at the root. -/
namespace Trackline

structure Folder where
  name : String
  visible : Bool := false
  opened : Bool := false
  placemarks : List Placemark := []

structure Document where
  name : String
  visible : Bool := false
  opened : Bool := false
  styles : StyleBook := {}
  folders : List Folder := []
  placemarks : List Placemark := []

namespace Document

/-- Those at the root come first, then folder by folder. -/
def allPlacemarks (doc : Document) : List Placemark :=
  doc.placemarks ++ doc.folders.flatMap (·.placemarks)

/-- The extents of all placemarks that have a point, joined. -/
def extent (doc : Document) : Option Extent :=
  Extent.joinAll (doc.allPlacemarks.filterMap (·.geometry.extent))

end Document

structure Track where
  name : Option String := none
  style : Option String := none
  span : Option TimeSpan := none
  points : List Point

namespace Track

/-- What a decimator of its own makes of the track; none below two points. -/
def placemark? (track : Track) (d : Decimator) : Logged (Option Placemark) :=
  let d := { d with style := track.style, span := track.span }
  (d.extend track.points).take.1.map (·.map fun p => { p with name := track.name })

/-- The placemarks of many tracks, and the reports of their flushes, in the order of the tracks. -/
def placemarks (tracks : List Track) (stride : Nat) : Except Error (Logged (List Placemark)) := do
  let d ← Decimator.new stride
  let made := tracks.map (·.placemark? d)
  return ⟨made.filterMap (·.value), made.flatMap (·.log)⟩

end Track
end Trackline
