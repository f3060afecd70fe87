import Trackline.Event
import Trackline.Point

/-! Where a course leads, and how finely tracks and circles are drawn. A model of the
earth answers with the point reached from an origin along a bearing for a distance;
shapes depend on nothing else of it. -/
namespace Trackline

/-- Origin, bearing in degrees clockwise from north, and distance in meters, to the point reached. -/
abbrev Earth := Point → Float → Float → Point

namespace Earth

/-- The equatorial radius of the reference ellipsoid, in meters. -/
def equatorialRadius : Float := 6378137

def radians (degrees : Float) : Float := degrees * (3.14159265358979323846 / 180)

def degrees (radians : Float) : Float := radians * (180 / 3.14159265358979323846)

/-- Longitude brought into the range from -180 up to 180. -/
def wrapped (degrees : Float) : Float := Double.modulo (degrees + 540) 360 - 180

/-- Along a great circle of a sphere. The elevation is the origin's. -/
def sphere (radius : Float) : Earth := fun origin bearing distance =>
  let angle := distance / radius
  let course := radians bearing
  let south := radians origin.latitude
  let sine := south.sin * angle.cos + south.cos * angle.sin * course.cos
  let north := sine.asin
  let y := course.sin * angle.sin * south.cos
  let x := angle.cos - south.sin * north.sin
  let east := radians origin.longitude + Float.atan2 y x
  ⟨degrees north, wrapped (degrees east), origin.elevation⟩

end Earth

structure Sampling where
  stride : Nat := 50
  circleSegments : Nat := 50
  earthRadius : Float := Earth.equatorialRadius
  deriving DecidableEq

/-- The first field that is out of range is reported. -/
def Sampling.check (s : Sampling) : Except Error Unit :=
  if s.stride = 0 then .error .strideZero
  else if s.circleSegments < 3 then .error (.tooFewSegments s.circleSegments)
  else if Double.isFinite s.earthRadius && Double.lt 0 s.earthRadius then .ok ()
  else .error (.radius s.earthRadius)

end Trackline
