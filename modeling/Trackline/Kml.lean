import Trackline.Document
import Trackline.Markup.Written

/-! Documents as KML. What a document does not have is not written: a missing
name, style or span has no element, and a flag of a surface that is off has none. -/
namespace Trackline.Kml

def flag (value : Bool) : String := if value then "1" else "0"

def head (name : String) (visible opened : Bool) : List Element :=
  [.leaf "name" name, .leaf "visibility" (flag visible), .leaf "open" (flag opened)]

def kind : StyleKind → Element
  | .line color width => .node "LineStyle" [.leaf "color" color, .leaf "width" (Double.text width)]
  | .icon href => .node "IconStyle" [.node "Icon" [.leaf "href" href]]
  | .polygon color filled => .node "PolyStyle" [.leaf "color" color, .leaf "fill" (flag filled)]

def style (s : Style) : Element :=
  { tag := "Style", attributes := [("id", s.tag)], children := [kind s.kind] }

def surface (tessellate clamped : Bool) : List Element :=
  (if tessellate then [.leaf "tessellate" "1"] else []) ++
    (if clamped then [.leaf "gx:altitudeMode" "clampToGround"] else [])

def coordinates (points : List Point) : Element := .leaf "coordinates" (Coordinates.text points)

def line (l : Line) : Element :=
  .node "LineString" (surface l.tessellate l.clamped ++ [coordinates l.points])

def polygon (p : Polygon) : Element :=
  .node "Polygon" (surface p.tessellate p.clamped ++
    [.node "outerBoundaryIs" [.node "LinearRing" [coordinates p.ring]]])

mutual
def geometry : Geometry → Element
  | .line l => line l
  | .polygon p => polygon p
  | .multi parts => .node "MultiGeometry" (geometries parts)

def geometries : List Geometry → List Element
  | [] => []
  | part :: rest => geometry part :: geometries rest
end

def span (s : TimeSpan) : Element :=
  .node "TimeSpan" [.leaf "begin" s.start.text, .leaf "end" s.stop.text]

def placemark (p : Placemark) : Element :=
  .node "Placemark" (p.name.toList.map (Element.leaf "name") ++ p.span.toList.map span ++
    p.style.toList.map (fun tag => .leaf "styleUrl" (Style.url tag)) ++ [geometry p.geometry])

def folder (f : Folder) : Element :=
  .node "Folder" (head f.name f.visible f.opened ++ f.placemarks.map placemark)

/-- The whole document below the root element: styles, folders, placemarks of the root. -/
def document (doc : Document) : Element :=
  { tag := "kml"
    attributes :=
      [("xmlns", "http://www.opengis.net/kml/2.2"), ("xmlns:gx", "http://www.google.com/kml/ext/2.2")]
    children := [.node "Document" (head doc.name doc.visible doc.opened ++
      doc.styles.styles.map style ++ doc.folders.map folder ++ doc.placemarks.map placemark)] }

def text (doc : Document) : String := Markup.text (document doc)

end Trackline.Kml
