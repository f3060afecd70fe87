import Trackline.Event
import Trackline.Point
import Trackline.Markup.Read
import Trackline.Time.Iso

/-! Track files in the exchange format for receivers, versions 1.0 and 1.1. The fixes
are the points of the track segments in the order of the file; all else is checked for
form and left. Only known elements are let in, save inside extensions, and names count
without their namespace. -/
namespace Trackline.TrackFile
open Markup

inductive Version where
  | v10
  | v11
  deriving DecidableEq, Repr

/-- The elements of a content, each as its name, attributes and content. -/
def elements (content : List Tree) : List (String × List Attribute × List Tree) :=
  content.filterMap fun
    | .text _ => none
    | .element name attributes content => some (name.own, attributes, content)

def words? (content : List Tree) : Option (List Char) :=
  if (elements content).isEmpty then
    some (content.foldl (fun last t => match t with | .text s => s | _ => last) [])
  else none

def filled? (content : List Tree) : Option (List Char) :=
  (words? content).filter (!·.isEmpty)

def number? (content : List Tree) : Option Float := (filled? content).bind Double.read?

def count? (bound : Nat) (content : List Tree) : Option Nat :=
  ((filled? content).bind readCount).filter (· < bound)

def time? (content : List Tree) : Option Timestamp := (filled? content).bind Timestamp.read?

def attribute? (attributes : List Attribute) (own : String) : Option (List Char) :=
  (attributes.find? (·.1.own == own)).map (·.2)

def coordinate? (attributes : List Attribute) (own : String) : Option Float :=
  (attribute? attributes own).bind Double.read?

def each (check : String → List Attribute → List Tree → Bool) (content : List Tree) : Bool :=
  (elements content).all fun (name, attributes, content) => check name attributes content

def isLink (attributes : List Attribute) (content : List Tree) : Bool :=
  (attribute? attributes "href").isSome && each (fun name _ content =>
    match name with
    | "text" | "type" => (words? content).isSome
    | _ => false) content

def isPerson (content : List Tree) : Bool :=
  each (fun name attributes content =>
    match name with
    | "name" => (filled? content).isSome
    | "email" =>
      (attribute? attributes "id").isSome && (attribute? attributes "domain").isSome &&
        content.isEmpty
    | "link" => isLink attributes content
    | _ => false) content

def isCopyright (content : List Tree) : Bool :=
  each (fun name _ content =>
    match name with
    | "year" => (((filled? content).bind readInt).filter fun y => -2147483648 ≤ y ∧ y < 2147483648).isSome
    | "license" => (filled? content).isSome
    | _ => false) content

def isBounds (attributes : List Attribute) (content : List Tree) : Bool :=
  match coordinate? attributes "minlat", coordinate? attributes "maxlat",
      coordinate? attributes "minlon", coordinate? attributes "maxlon" with
  | some south, some north, some west, some east =>
    !Double.lt north south && !Double.lt east west && (elements content).isEmpty
  | _, _, _, _ => false

def isMetadata (content : List Tree) : Bool :=
  each (fun name attributes content =>
    match name with
    | "name" => (filled? content).isSome
    | "desc" | "keywords" => (words? content).isSome
    | "author" => isPerson content
    | "time" => (time? content).isSome
    | "link" => isLink attributes content
    | "bounds" => isBounds attributes content
    | "copyright" => isCopyright content
    | "extensions" => true
    | _ => false) content

/-- A fix with what one element below its point says of it. -/
def told? (version : Version) (fix : Fix) :
    String × List Attribute × List Tree → Option Fix
  | (name, attributes, content) =>
    let keep (known : Bool) : Option Fix := if known then some fix else none
    match name with
    | "ele" => do
      let s ← words? content
      if s.isEmpty then return { fix with elevation := none }
      else return { fix with elevation := some (← Double.read? s) }
    | "speed" =>
      if version = .v10 then (number? content).map fun v => { fix with speed := some v } else none
    | "time" => (time? content).map fun t => { fix with time := t.instant? }
    | "name" | "cmt" | "desc" | "src" => keep (words? content).isSome
    | "sym" | "type" | "fix" => keep (filled? content).isSome
    | "link" => keep (isLink attributes content)
    | "geoidheight" | "hdop" | "vdop" | "pdop" | "ageofdgpsdata" => keep (number? content).isSome
    | "sat" => keep (count? (Nat.pow 2 64) content).isSome
    | "dgpsid" => keep (count? (Nat.pow 2 16) content).isSome
    | "extensions" => some fix
    | _ => none

/-- The fix of a point: a latitude from -90 to 90, a longitude from -180 and below 180. -/
def fix? (version : Version) (attributes : List Attribute) (content : List Tree) : Option Fix := do
  let latitude ← coordinate? attributes "lat"
  let longitude ← coordinate? attributes "lon"
  if Double.isNaN latitude || Double.isNaN longitude then none
  if Double.lt latitude (-90) || Double.lt 90 latitude then none
  if Double.lt longitude (-180) || !Double.lt longitude 180 then none
  (elements content).foldlM (told? version) { latitude, longitude }

def segment? (version : Version) (content : List Tree) : Option (List Fix) :=
  ((elements content).mapM fun (name, attributes, content) =>
    if name = "trkpt" then (fix? version attributes content).map ([·]) else none).map List.flatten

/-- Whether an element may describe a track or a route. -/
def describes (name : String) (attributes : List Attribute) (content : List Tree) : Bool :=
  match name with
  | "type" => (filled? content).isSome
  | "cmt" | "desc" | "src" => (words? content).isSome
  | "link" => isLink attributes content
  | "number" => (count? (Nat.pow 2 32) content).isSome
  | "extensions" => true
  | _ => false

def track? (version : Version) (content : List Tree) : Option (List Fix) :=
  ((elements content).mapM fun (name, attributes, content) =>
    if name = "trkseg" then segment? version content
    else if name = "name" then (words? content).map fun _ => []
    else if describes name attributes content then some []
    else none).map List.flatten

def isRoute (version : Version) (content : List Tree) : Bool :=
  each (fun name attributes content =>
    match name with
    | "rtept" => (fix? version attributes content).isSome
    | "name" => (filled? content).isSome
    | _ => describes name attributes content) content

/-- Whether an element that is no track may stand below the root. -/
def isBeside (version : Version) (name : String) (attributes : List Attribute)
    (content : List Tree) : Bool :=
  match version, name with
  | _, "rte" => isRoute version content
  | _, "wpt" => (fix? version attributes content).isSome
  | _, "extensions" => true
  | .v11, "metadata" => isMetadata content
  | .v10, "time" => (time? content).isSome
  | .v10, "bounds" => isBounds attributes content
  | .v10, "desc" | .v10, "keywords" => (words? content).isSome
  | .v10, "author" | .v10, "email" | .v10, "url" | .v10, "urlname" | .v10, "name" =>
    (filled? content).isSome
  | _, _ => false

def version? (attributes : List Attribute) : Option Version :=
  match (attribute? attributes "version").map String.ofList with
  | some "1.0" => some .v10
  | some "1.1" => some .v11
  | _ => none

def tracks? : Tree → Option (List (List Fix))
  | .text _ => none
  | .element name attributes content => do
    if name.own ≠ "gpx" then none
    let version ← version? attributes
    let found ← (elements content).mapM fun (name, attributes, content) =>
      if name = "trk" then (track? version content).map some
      else if isBeside version name attributes content then some none
      else none
    return found.filterMap id

def fixes (bytes : List UInt8) : Logged (Except Error (List Fix)) :=
  match (read? bytes).bind tracks? with
  | some tracks => ⟨.ok tracks.flatten, [.readTracks tracks.flatten.length tracks.length]⟩
  | none => ⟨.error .trackFile, []⟩

end Trackline.TrackFile
