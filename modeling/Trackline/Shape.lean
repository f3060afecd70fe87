import Trackline.Earth
import Trackline.Geometry

/-! Placemarks of single shapes. Each is finished when it is made; a shape that
cannot be made is refused, and nothing is touched. -/
namespace Trackline.Shape

def segment (style : String) (a b : Point) (name : Option String) : Placemark :=
  { name := some (name.getD "segment"), style := some style, geometry := .track ⟨[a, b], true, true⟩ }

/-- The box between two corners on the ground: north east, south east, south west,
north west, and closed. Corners are taken as they come, swapped or the same. -/
def box (style : String) (northEast southWest : Point) : Placemark :=
  let north := northEast.latitude
  let east := northEast.longitude
  let south := southWest.latitude
  let west := southWest.longitude
  let ring := Polygon.closed [.ground north east, .ground south east, .ground south west, .ground north west]
  { style := some style, geometry := .polygon ring }

def polygon (style : String) (points : List Point) (name : Option String) : Except Error Placemark :=
  if points.isEmpty then .error .polygonWithoutPoints
  else .ok
    { name := some (name.getD "polygon"), style := some style, geometry := .polygon (.closed points) }

/-- The corners of a circle, due north first and then clockwise. -/
def corners (earth : Earth) (center : Point) (radius : Float) (segments : Nat) : List Point :=
  let step := 360 / Float.ofNat segments
  (List.range segments).map fun i => earth center (Float.ofNat i * step) radius

def circle (earth : Earth) (style : String) (center : Point) (radius : Float) (segments : Nat)
    (name : Option String) : Except Error Placemark :=
  if segments < 3 then .error (.tooFewSegments segments)
  else .ok
    { name := some (name.getD "circle"), style := some style,
      geometry := .polygon (.wraparound (corners earth center radius segments)) }

def sampledCircle (sampling : Sampling) (style : String) (center : Point) (radius : Float)
    (name : Option String) : Except Error Placemark := do
  sampling.check
  circle (Earth.sphere sampling.earthRadius) style center radius sampling.circleSegments name

/-- Every `stride`-th of the points. -/
def strided (stride : Nat) (points : List Point) : List Point :=
  (points.zipIdx.filter fun p => (p.2 + 1) % stride == 0).map (·.1)

def consecutive {α : Type} (points : List α) : List (α × α) := points.zip points.tail

/-- A line through the first point and every `stride`-th one after it. Where none
comes that late, one segment joins the first point to the last. -/
def polyline (style : String) (points : List Point) (stride : Nat) : Except Error Placemark :=
  if stride = 0 then .error .strideZero
  else match points with
    | [] => .error .polylineWithoutPoints
    | first :: rest =>
      let kept := strided stride rest
      let segments :=
        if kept.isEmpty then [(first, rest.getLastD first)] else consecutive (first :: kept)
      .ok { style := some style, geometry := .track (.ofSegments segments) }

end Trackline.Shape
