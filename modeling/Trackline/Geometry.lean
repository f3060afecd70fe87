import Trackline.Point

/-! What a placemark draws: lines, rings, and collections of these to any depth.
A placemark is a geometry, and what is known of it. -/
namespace Trackline

abbrev Segment := Point × Point

/-- A run of points. A line made of segments holds both ends of each, so that the
chain from `a` over `b` to `c` is held as `a`, `b`, `b`, `c`. -/
structure Line where
  points : List Point
  tessellate : Bool := true
  clamped : Bool := true
  deriving DecidableEq

namespace Line

def ofSegments (segments : List Segment) : Line :=
  ⟨segments.flatMap fun s => [s.1, s.2], true, true⟩

def pairs : List Point → List Segment
  | a :: b :: rest => (a, b) :: pairs rest
  | _ => []

/-- The points two by two; an odd last point belongs to no segment. -/
def segments (line : Line) : List Segment := pairs line.points

end Line

structure Polygon where
  ring : List Point
  tessellate : Bool := true
  clamped : Bool := true
  deriving DecidableEq

namespace Polygon

/-- Closed by repeating the first point at the end. -/
def closed (points : List Point) : Polygon := ⟨points ++ points.head?.toList, true, true⟩

/-- Closed by the last point leading back to the first. -/
def wraparound (points : List Point) : Polygon := ⟨points, true, true⟩

/-- Whether the ring ends with the value it began with. -/
def isClosed (polygon : Polygon) : Bool :=
  match polygon.ring.head?, polygon.ring.getLast? with
  | some first, some last => decide (1 < polygon.ring.length) && first.same last
  | _, _ => false

end Polygon

inductive Geometry where
  | line (line : Line)
  | polygon (polygon : Polygon)
  | multi (parts : List Geometry)

namespace Geometry

/-- One line inside a collection, the form of every track. -/
def track (line : Line) : Geometry := .multi [.line line]

mutual
def points : Geometry → List Point
  | .line l => l.points
  | .polygon p => p.ring
  | .multi parts => pointsAll parts

def pointsAll : List Geometry → List Point
  | [] => []
  | part :: rest => part.points ++ pointsAll rest
end

mutual
/-- The leftmost line at any depth. -/
def firstLine : Geometry → Option Line
  | .line l => some l
  | .polygon _ => none
  | .multi parts => firstLineAny parts

def firstLineAny : List Geometry → Option Line
  | [] => none
  | part :: rest => part.firstLine.or (firstLineAny rest)
end

end Geometry

structure Placemark where
  name : Option String := none
  style : Option String := none
  span : Option TimeSpan := none
  geometry : Geometry

end Trackline
