import Trackline.Kml
import Trackline.Proofs.Markup.RoundTrip

/-! The text of a document gives its tree back. The strings of a document only stand in
texts and in values of attributes, so they have no say in which elements there are. -/
namespace Trackline

open Markup.Reread

mutual
/-- The outline of an element: all texts and all values of attributes emptied. -/
def Element.outline : Element → Element
  | ⟨tag, attributes, text, children⟩ =>
    ⟨tag, attributes.map fun a => (a.1, ""), text.map fun _ => "", outlines children⟩

def outlines : List Element → List Element
  | [] => []
  | e :: rest => e.outline :: outlines rest
end

@[simp] theorem outlines_eq_map (elements : List Element) : outlines elements = elements.map Element.outline := by
  induction elements with
  | nil => rfl
  | cons e rest ih => rw [outlines, ih, List.map_cons]

@[simp] theorem outline_leaf (tag text : String) : (Element.leaf tag text).outline = .leaf tag "" := by
  simp [Element.leaf, Element.outline]

@[simp] theorem outline_node (tag : String) (children : List Element) :
    (Element.node tag children).outline = .node tag (children.map Element.outline) := by
  simp [Element.node, Element.outline]

def Style.emptied (s : Style) : Style :=
  match s.kind with
  | .line _ width => ⟨"", .line "" width⟩
  | .icon _ => ⟨"", .icon ""⟩
  | .polygon _ filled => ⟨"", .polygon "" filled⟩

def Placemark.emptied (p : Placemark) : Placemark :=
  { p with name := p.name.map fun _ => "", style := p.style.map fun _ => "" }

def Folder.emptied (f : Folder) : Folder :=
  { f with name := "", placemarks := f.placemarks.map Placemark.emptied }

/-- The document with all its strings emptied. -/
def Document.emptied (doc : Document) : Document :=
  { doc with
    name := ""
    styles := ⟨doc.styles.styles.map Style.emptied⟩
    folders := doc.folders.map Folder.emptied
    placemarks := doc.placemarks.map Placemark.emptied }

namespace Kml

private theorem outline_head (name : String) (visible opened : Bool) :
    (head name visible opened).map Element.outline = (head "" visible opened).map Element.outline := by
  simp [head]

private theorem outline_style (s : Style) : (style s).outline = (style s.emptied).outline := by
  rcases s with ⟨tag, _ | _ | _⟩ <;> simp [style, kind, Style.emptied, Element.outline]

private theorem outline_placemark (p : Placemark) : (placemark p).outline = (placemark p.emptied).outline := by
  rcases p with ⟨_ | name, _ | style, span, geometry⟩ <;> simp [placemark, Placemark.emptied]

private theorem outlines_same {α : Type} (write : α → Element) (change : α → α)
    (same : ∀ a, (write a).outline = (write (change a)).outline) (items : List α) :
    ((items.map change).map write).map Element.outline = (items.map write).map Element.outline := by
  simp [← same]

private theorem outline_folder (f : Folder) : (folder f).outline = (folder f.emptied).outline := by
  rw [folder, folder, outline_node, outline_node, List.map_append, List.map_append, outline_head f.name,
    Folder.emptied, outlines_same placemark Placemark.emptied outline_placemark]

private theorem outline_document (doc : Document) :
    (document doc).outline = (document doc.emptied).outline := by
  have styles := outlines_same style Style.emptied outline_style doc.styles.styles
  have folders := outlines_same folder Folder.emptied outline_folder doc.folders
  have placemarks := outlines_same placemark Placemark.emptied outline_placemark doc.placemarks
  simp only [document, Document.emptied, Element.outline, outlines_eq_map, List.map_cons, List.map_nil,
    outline_node, List.map_append, outline_head doc.name, styles, folders, placemarks]

private theorem proper (tag : String) (nonempty : tag ≠ "" := by decide) (name : Name tag := by decide) :
    Proper tag [] :=
  ⟨nonempty, name, by simp⟩

private theorem plain_leaf {tag : String} (proper : Proper tag []) (text : String) : Plain (.leaf tag text) :=
  .leaf tag [] (some text) proper

private theorem plain_node {tag : String} (proper : Proper tag []) {children : List Element}
    (plain : ∀ e ∈ children, Plain e) : Plain (.node tag children) :=
  .node tag [] children proper plain

private theorem plain_head (name : String) (visible opened : Bool) : ∀ e ∈ head name visible opened, Plain e := by
  simp [head, plain_leaf, proper "name", proper "visibility", proper "open"]

private theorem plain_kind (k : StyleKind) : Plain (kind k) := by
  cases k with
  | line color width =>
    apply plain_node (proper "LineStyle")
    simp [plain_leaf, proper "color", proper "width"]
  | icon href =>
    apply plain_node (proper "IconStyle")
    simp [plain_node, plain_leaf, proper "Icon", proper "href"]
  | polygon color filled =>
    apply plain_node (proper "PolyStyle")
    simp [plain_leaf, proper "color", proper "fill"]

private theorem plain_style (s : Style) : Plain (style s) :=
  .node "Style" [("id", s.tag)] [kind s.kind] ⟨by decide, by decide, by simpa using by decide⟩
    (by simp [plain_kind])

private theorem plain_surface (tessellate clamped : Bool) : ∀ e ∈ surface tessellate clamped, Plain e := by
  have ribbon := plain_leaf (proper "tessellate") "1"
  have ground := plain_leaf (proper "gx:altitudeMode") "clampToGround"
  cases tessellate <;> cases clamped <;> simp [surface, ribbon, ground]

private theorem plain_coordinates (points : List Point) : Plain (coordinates points) :=
  plain_leaf (proper "coordinates") _

private theorem plain_line (l : Line) : Plain (line l) := by
  apply plain_node (proper "LineString")
  rw [List.forall_mem_append]
  exact ⟨plain_surface _ _, by simp [plain_coordinates]⟩

private theorem plain_polygon (p : Polygon) : Plain (polygon p) := by
  have ring : Plain (.node "LinearRing" [coordinates p.ring]) :=
    plain_node (proper "LinearRing") (by simp [plain_coordinates])
  have outer : Plain (.node "outerBoundaryIs" [.node "LinearRing" [coordinates p.ring]]) :=
    plain_node (proper "outerBoundaryIs") (by simp [ring])
  apply plain_node (proper "Polygon")
  rw [List.forall_mem_append]
  exact ⟨plain_surface _ _, by simp [outer]⟩

mutual
private theorem plain_geometry : ∀ g : Geometry, Plain (geometry g)
  | .line l => plain_line l
  | .polygon p => plain_polygon p
  | .multi parts => plain_node (proper "MultiGeometry") (plain_geometries parts)

private theorem plain_geometries : ∀ parts : List Geometry, ∀ e ∈ geometries parts, Plain e
  | [] => by simp [geometries]
  | part :: rest => by
    rw [geometries]
    exact List.forall_mem_cons.mpr ⟨plain_geometry part, plain_geometries rest⟩
end

private theorem plain_span (s : TimeSpan) : Plain (span s) :=
  plain_node (proper "TimeSpan") (by simp [plain_leaf, proper "begin", proper "end"])

private theorem plain_placemark (p : Placemark) : Plain (placemark p) := by
  apply plain_node (proper "Placemark")
  simp only [List.forall_mem_append, List.forall_mem_map]
  refine ⟨⟨⟨?_, ?_⟩, ?_⟩, by simp [plain_geometry]⟩
  · exact fun name _ => plain_leaf (proper "name") name
  · exact fun s _ => plain_span s
  · exact fun tag _ => plain_leaf (proper "styleUrl") (Style.url tag)

private theorem plain_folder (f : Folder) : Plain (folder f) := by
  apply plain_node (proper "Folder")
  simp only [List.forall_mem_append, List.forall_mem_map]
  exact ⟨plain_head _ _ _, fun p _ => plain_placemark p⟩

theorem plain_document (doc : Document) : Plain (document doc) := by
  have root : Proper "kml" [("xmlns", "http://www.opengis.net/kml/2.2"),
      ("xmlns:gx", "http://www.google.com/kml/ext/2.2")] := ⟨by decide, by decide, by decide⟩
  have whole : Plain (.node "Document" (head doc.name doc.visible doc.opened ++
      doc.styles.styles.map style ++ doc.folders.map folder ++ doc.placemarks.map placemark)) := by
    apply plain_node (proper "Document")
    simp only [List.forall_mem_append, List.forall_mem_map]
    refine ⟨⟨⟨plain_head _ _ _, ?_⟩, ?_⟩, ?_⟩
    · exact fun s _ => plain_style s
    · exact fun f _ => plain_folder f
    · exact fun p _ => plain_placemark p
  exact .node "kml" _ _ root (List.forall_mem_singleton.mpr whole)

/-- The text of a document is the declaration and a body that reads back as its tree. The strings of
the document have no say in which elements and attributes are read, and only the same tree has the
same text. -/
theorem text_reads_back (doc : Document) :
    ∃ body, (text doc).toList = Markup.declaration ++ body ∧
      read? body = some (document doc) ∧
      (read? body).map Element.outline = some (document doc.emptied).outline ∧
      ∀ other, text other = text doc ↔ document other = document doc := by
  have written : ∀ doc, (text doc).toList = Markup.declaration ++
      (Markup.newline 0 ++ Markup.element 0 (document doc) ++ ['\n']) := by
    simp [text, Markup.text]
  have back := read?_root (plain_document doc)
  refine ⟨_, written doc, back, ?_, ?_⟩
  · rw [back, Option.map_some, outline_document]
  · intro other
    constructor
    · intro same
      -- Both texts begin with the declaration, so the bodies agree, and one body has one tree.
      have bodies : Markup.newline 0 ++ Markup.element 0 (document other) ++ ['\n'] =
          Markup.newline 0 ++ Markup.element 0 (document doc) ++ ['\n'] := by
        apply List.append_cancel_left
        rw [← written other, ← written doc, same]
      have trees := (read?_root (plain_document other)).symm.trans ((congrArg read? bodies).trans back)
      exact Option.some.inj trees
    · intro same
      rw [text, text, same]

end Kml
end Trackline
