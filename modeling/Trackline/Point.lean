import Trackline.Number.Text
import Trackline.Time.Instant

/-! Positions, and their text: longitude comes first, then latitude, then elevation.
Fixes are positions as a receiver recorded them. -/
namespace Trackline

/-- A position in decimal degrees, with an elevation in meters. -/
structure Point where
  latitude : Float
  longitude : Float
  elevation : Float
  deriving DecidableEq

namespace Point

def ground (latitude longitude : Float) : Point := ⟨latitude, longitude, 0⟩

def same (p q : Point) : Bool :=
  Double.same p.latitude q.latitude && Double.same p.longitude q.longitude &&
    Double.same p.elevation q.elevation

def triple (p : Point) : String :=
  Double.text p.longitude ++ "," ++ Double.text p.latitude ++ "," ++ Double.text p.elevation

end Point

namespace Coordinates

def push (written : String) (p : Point) : String := written ++ p.triple

def text (points : List Point) : String :=
  points.foldl (fun written p => push (if written.isEmpty then written else written ++ " ") p) ""

end Coordinates

structure Fix where
  latitude : Float
  longitude : Float
  elevation : Option Float := none
  speed : Option Float := none
  heading : Option Float := none
  time : Option Instant := none
  deriving DecidableEq

/-- The position of a fix, at elevation zero where none was recorded. -/
def Fix.point (f : Fix) : Point := ⟨f.latitude, f.longitude, f.elevation.getD 0⟩

end Trackline
