import Trackline.Geometry

/-! The least box around points: one range of longitudes, one of latitudes. -/
namespace Trackline

structure Range where
  low : Float
  high : Float
  deriving DecidableEq

namespace Range

def between (a b : Float) : Range := if Double.lt a b then ⟨a, b⟩ else ⟨b, a⟩

def stretch (r : Range) (x : Float) : Range :=
  if Double.lt r.high x then ⟨r.low, x⟩
  else if Double.lt x r.low then ⟨x, r.high⟩
  else r

def around (first : Float) (rest : List Float) : Range :=
  let r := rest.foldl stretch ⟨first, first⟩
  between r.low r.high

def join (r s : Range) : Range :=
  between (Double.least r.low s.low) (Double.greatest r.high s.high)

end Range

structure Extent where
  longitude : Range
  latitude : Range
  deriving DecidableEq

namespace Extent

def ofPoints : List Point → Option Extent
  | [] => none
  | p :: rest =>
    some ⟨.around p.longitude (rest.map (·.longitude)), .around p.latitude (rest.map (·.latitude))⟩

def join (e f : Extent) : Extent :=
  ⟨e.longitude.join f.longitude, e.latitude.join f.latitude⟩

def joinAll : List Extent → Option Extent
  | [] => none
  | e :: rest => some (rest.foldl join e)

end Extent

def Geometry.extent (g : Geometry) : Option Extent := Extent.ofPoints g.points

end Trackline
