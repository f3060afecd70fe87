import Trackline.Number.Text
import Trackline.Earth
import Trackline.Table.Row

/-! What one run is asked to do, and the options that say so. -/
namespace Trackline

inductive Mode where
  /-- One named segment for each pair of neighbours. -/
  | segments
  /-- One thinned line through all fixes. -/
  | polyline
  /-- A thinned track in a folder, in pieces. -/
  | trip
  deriving DecidableEq, Repr

def Mode.word : Mode → String
  | .segments => "Segments"
  | .polyline => "Polyline"
  | .trip => "Trip"

structure Settings where
  input : Option String := none
  output : String := "overlay.kml"
  name : String := "track"
  mode : Mode := .trip
  stride : Nat := 50
  /-- Fixes for one placemark of a trip, zero for all of them. -/
  flushEvery : Nat := 0
  styleTag : String := "edges"
  color : String := "ffff0000"
  width : Float := 7
  columns : Table.Columns := ⟨2, 3, none⟩
  deriving DecidableEq

def Settings.sampling (s : Settings) : Sampling := { stride := s.stride }

inductive Setting where
  | input
  | output
  | name
  | mode
  | stride
  | flushEvery
  | styleTag
  | color
  | width
  | latitudeColumn
  | longitudeColumn
  | timeColumn
  deriving DecidableEq, Repr

namespace Setting

def ofLong? : String → Option Setting
  | "input" => some .input
  | "output" => some .output
  | "name" => some .name
  | "mode" => some .mode
  | "stride" => some .stride
  | "flush-every" => some .flushEvery
  | "style-tag" => some .styleTag
  | "color" => some .color
  | "width" => some .width
  | "lat-column" => some .latitudeColumn
  | "lng-column" => some .longitudeColumn
  | "time-column" => some .timeColumn
  | _ => none

def ofShort? : Char → Option Setting
  | 'i' => some .input
  | 'o' => some .output
  | 'n' => some .name
  | 'm' => some .mode
  | 's' => some .stride
  | _ => none

end Setting

def path? (value : String) : Option String := if value.isEmpty then none else some value

/-- Settings with one value changed, unless the value cannot be read. -/
def Settings.set? (s : Settings) (setting : Setting) (value : String) : Option Settings :=
  let count := readCount value.toList
  match setting with
  | .input => (path? value).map fun p => { s with input := some p }
  | .output => (path? value).map fun p => { s with output := p }
  | .name => some { s with name := value }
  | .mode =>
    match value with
    | "segments" => some { s with mode := .segments }
    | "polyline" => some { s with mode := .polyline }
    | "trip" => some { s with mode := .trip }
    | _ => none
  | .stride => count.map fun n => { s with stride := n }
  | .flushEvery => count.map fun n => { s with flushEvery := n }
  | .styleTag => some { s with styleTag := value }
  | .color => some { s with color := value }
  | .width => (Double.read? value.toList).map fun x => { s with width := x }
  | .latitudeColumn => count.map fun n => { s with columns := { s.columns with latitude := n } }
  | .longitudeColumn => count.map fun n => { s with columns := { s.columns with longitude := n } }
  | .timeColumn => count.map fun n => { s with columns := { s.columns with time := some n } }

end Trackline
