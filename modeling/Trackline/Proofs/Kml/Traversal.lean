import Trackline.Proofs.Kml.Lowering

/-! Elements in document order. The placemarks of a tree are those of the folders, folder by
folder, and then those of the root: nothing else in a tree has their tag. -/
namespace Trackline

mutual
/-- All elements with a tag, in the order in which they begin. -/
def Element.tagged (tag : String) : Element → List Element
  | ⟨own, attributes, text, children⟩ =>
    (if own = tag then [⟨own, attributes, text, children⟩] else []) ++ taggedAll tag children

def taggedAll (tag : String) : List Element → List Element
  | [] => []
  | e :: rest => e.tagged tag ++ taggedAll tag rest
end

private theorem taggedAll_eq_flatMap (tag : String) (elements : List Element) :
    taggedAll tag elements = elements.flatMap (Element.tagged tag) := by
  induction elements with
  | nil => rfl
  | cons e rest ih => rw [taggedAll, ih, List.flatMap_cons]

namespace Element

private theorem tagged_leaf {tag own : String} (other : own ≠ tag) (text : String) :
    (leaf own text).tagged tag = [] := by
  simp [leaf, tagged, taggedAll, other]

private theorem tagged_node {tag own : String} (other : own ≠ tag) (children : List Element) :
    (node own children).tagged tag = children.flatMap (Element.tagged tag) := by
  simp [node, tagged, taggedAll_eq_flatMap, other]

end Element

namespace Kml

open Element

/-- The tags of what stands in heads, in styles and beside the geometries of placemarks. -/
def surroundings : List String :=
  ["name", "visibility", "open", "LineStyle", "color", "width", "IconStyle", "Icon", "href", "PolyStyle",
    "fill", "TimeSpan", "begin", "end", "styleUrl"]

/-- The surroundings, and the tags of what stands in geometries. -/
def details : List String :=
  surroundings ++ ["MultiGeometry", "LineString", "Polygon", "tessellate", "gx:altitudeMode", "outerBoundaryIs",
    "LinearRing", "coordinates"]

private theorem apart (own : String) {tag : String} {known : List String} (feature : tag ∉ known)
    (detail : own ∈ known := by decide) : own ≠ tag := by
  rintro rfl
  exact feature detail

section Surroundings

variable {tag : String} (outside : tag ∉ surroundings)

include outside

private theorem tagged_head (name : String) (visible opened : Bool) :
    (head name visible opened).flatMap (Element.tagged tag) = [] := by
  simp [head, tagged_leaf (apart "name" outside), tagged_leaf (apart "visibility" outside),
    tagged_leaf (apart "open" outside)]

private theorem tagged_kind (k : StyleKind) : (kind k).tagged tag = [] := by
  have color := tagged_leaf (apart "color" outside)
  cases k with
  | line shade width =>
    simp [kind, tagged_node (apart "LineStyle" outside), color, tagged_leaf (apart "width" outside)]
  | icon href =>
    simp [kind, tagged_node (apart "IconStyle" outside), tagged_node (apart "Icon" outside),
      tagged_leaf (apart "href" outside)]
  | polygon shade filled =>
    simp [kind, tagged_node (apart "PolyStyle" outside), color, tagged_leaf (apart "fill" outside)]

private theorem tagged_style (s : Style) :
    (style s).tagged tag = if "Style" = tag then [style s] else [] := by
  simp [style, tagged, taggedAll_eq_flatMap, tagged_kind outside]

private theorem tagged_span (s : TimeSpan) : (span s).tagged tag = [] := by
  simp [span, tagged_node (apart "TimeSpan" outside), tagged_leaf (apart "begin" outside),
    tagged_leaf (apart "end" outside)]

theorem tagged_placemark_geometry (p : Placemark) : (placemark p).tagged tag =
    (if "Placemark" = tag then [placemark p] else []) ++ (geometry p.geometry).tagged tag := by
  have beside : (p.name.toList.map (Element.leaf "name") ++ p.span.toList.map span ++
      p.style.toList.map (fun tag => Element.leaf "styleUrl" (Style.url tag))).flatMap (Element.tagged tag) = [] := by
    simp [tagged_span outside, tagged_leaf (apart "name" outside), tagged_leaf (apart "styleUrl" outside)]
  rw [placemark, Element.node, tagged, taggedAll_eq_flatMap, List.flatMap_append, beside, List.nil_append,
    List.flatMap_singleton]

/-- What is neither a surrounding nor a container stands in placemarks. -/
theorem tagged_document_placemarks (other : tag ∉ ["kml", "Document", "Folder", "Style"]) (doc : Document) :
    (document doc).tagged tag =
      (doc.folders.flatMap (·.placemarks) ++ doc.placemarks).flatMap fun p => (placemark p).tagged tag := by
  have styles : (doc.styles.styles.map style).flatMap (Element.tagged tag) = [] := by
    simp [tagged_style outside, apart "Style" other]
  have folders : (doc.folders.map folder).flatMap (Element.tagged tag) =
      (doc.folders.flatMap (·.placemarks)).flatMap fun p => (placemark p).tagged tag := by
    simp [folder, tagged_node (apart "Folder" other), tagged_head outside, List.flatMap_map, List.flatMap_assoc]
  rw [document, tagged, if_neg (apart "kml" other), taggedAll, taggedAll, tagged_node (apart "Document" other)]
  simp [tagged_head outside, styles, folders, List.flatMap_map]

end Surroundings

section Features

variable {tag : String} (feature : tag ∉ details)

include feature

private theorem tagged_surface (tessellate clamped : Bool) :
    (surface tessellate clamped).flatMap (Element.tagged tag) = [] := by
  have ribbon := tagged_leaf (apart "tessellate" feature)
  have ground := tagged_leaf (apart "gx:altitudeMode" feature)
  cases tessellate <;> cases clamped <;> simp [surface, ribbon, ground]

private theorem tagged_coordinates (points : List Point) : (coordinates points).tagged tag = [] :=
  tagged_leaf (apart "coordinates" feature) _

private theorem tagged_line (l : Line) : (line l).tagged tag = [] := by
  simp [line, tagged_node (apart "LineString" feature), tagged_surface feature, tagged_coordinates feature]

private theorem tagged_polygon (p : Polygon) : (polygon p).tagged tag = [] := by
  simp [polygon, tagged_node (apart "Polygon" feature), tagged_node (apart "outerBoundaryIs" feature),
    tagged_node (apart "LinearRing" feature), tagged_surface feature, tagged_coordinates feature]

omit feature in
mutual
private theorem tagged_geometry (feature : tag ∉ details) : ∀ g : Geometry, (geometry g).tagged tag = []
  | .line l => tagged_line feature l
  | .polygon p => tagged_polygon feature p
  | .multi parts => by
    rw [geometry, tagged_node (apart "MultiGeometry" feature), tagged_geometries feature parts]

private theorem tagged_geometries (feature : tag ∉ details) : ∀ parts : List Geometry,
    (geometries parts).flatMap (Element.tagged tag) = []
  | [] => rfl
  | part :: rest => by
    rw [geometries, List.flatMap_cons, tagged_geometry feature part, tagged_geometries feature rest,
      List.append_nil]
end

private theorem tagged_placemark (p : Placemark) :
    (placemark p).tagged tag = if "Placemark" = tag then [placemark p] else [] := by
  have outside : tag ∉ surroundings := fun member => feature (List.mem_append_left _ member)
  rw [tagged_placemark_geometry outside, tagged_geometry feature, List.append_nil]

end Features

theorem tagged_document (doc : Document) : (document doc).tagged "Placemark" =
    (doc.folders.flatMap (·.placemarks) ++ doc.placemarks).map placemark := by
  have feature : "Placemark" ∉ details := by decide
  rw [tagged_document_placemarks (by decide) (by decide), List.map_eq_flatMap]
  simp [tagged_placemark feature]

/-- Two documents have the same tree just when they are the same but for the fractions of their
seconds, where numbers are the same as they are printed. The placemarks of the tree are those of
the folders and then those of the root, so each placemark of the document once. -/
theorem tree_faithful (d e : Document) :
    (document d = document e ↔ d.whole = e.whole) ∧
      (document d).tagged "Placemark" = (d.folders.flatMap (·.placemarks) ++ d.placemarks).map placemark ∧
      ((document d).tagged "Placemark").Perm (d.allPlacemarks.map placemark) := by
  refine ⟨document_eq_iff d e, tagged_document d, ?_⟩
  rw [tagged_document, Document.allPlacemarks]
  exact List.Perm.map placemark List.perm_append_comm

end Kml
end Trackline
