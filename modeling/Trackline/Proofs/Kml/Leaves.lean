import Trackline.Proofs.Kml.Traversal

/-! The leaves of a geometry: its lines and rings from left to right, at whatever depth. Its points, its
first line and the coordinates in its tree are all read off the leaves. -/
namespace Trackline

inductive Leaf where
  | line (line : Line)
  | polygon (polygon : Polygon)

namespace Leaf

def points : Leaf → List Point
  | line l => l.points
  | polygon p => p.ring

def line? : Leaf → Option Line
  | line l => some l
  | polygon _ => none

/-- The elements that the coordinates of a leaf stand in. -/
def tags : Leaf → List String
  | line _ => ["LineString"]
  | polygon _ => ["Polygon", "outerBoundaryIs", "LinearRing"]

end Leaf

mutual
def Geometry.leaves : Geometry → List Leaf
  | .line l => [.line l]
  | .polygon p => [.polygon p]
  | .multi parts => leavesAll parts

def leavesAll : List Geometry → List Leaf
  | [] => []
  | part :: rest => part.leaves ++ leavesAll rest
end

mutual
/-- All elements with a tag, in the order in which they begin, each with the tags of the elements
that it stands in, the outermost first. -/
def Element.located (tag : String) : Element → List (List String × Element)
  | ⟨own, attributes, text, children⟩ =>
    (if own = tag then [([], ⟨own, attributes, text, children⟩)] else []) ++
      (locatedAll tag children).map fun found => (own :: found.1, found.2)

def locatedAll (tag : String) : List Element → List (List String × Element)
  | [] => []
  | e :: rest => e.located tag ++ locatedAll tag rest
end

namespace Element

mutual
private theorem located_tagged (tag : String) : ∀ e : Element, (e.located tag).map Prod.snd = e.tagged tag
  | ⟨own, attributes, text, children⟩ => by
    have below := locatedAll_tagged tag children
    rw [located, tagged, List.map_append, List.map_map, ← below]
    congr 1
    split <;> rfl

private theorem locatedAll_tagged (tag : String) : ∀ elements : List Element,
    (locatedAll tag elements).map Prod.snd = taggedAll tag elements
  | [] => rfl
  | e :: rest => by
    rw [locatedAll, taggedAll, List.map_append, located_tagged tag e, locatedAll_tagged tag rest]
end

private theorem locatedAll_eq_flatMap (tag : String) (elements : List Element) :
    locatedAll tag elements = elements.flatMap (located tag) := by
  induction elements with
  | nil => rfl
  | cons e rest ih => rw [locatedAll, ih, List.flatMap_cons]

private theorem located_leaf (tag own text : String) :
    (leaf own text).located tag = if own = tag then [([], leaf own text)] else [] := by
  simp [leaf, located, locatedAll]

private theorem located_node {tag own : String} (other : own ≠ tag) (children : List Element) :
    (node own children).located tag =
      (children.flatMap (located tag)).map fun found => (own :: found.1, found.2) := by
  simp [node, located, locatedAll_eq_flatMap, other]

end Element

namespace Geometry

mutual
theorem points_eq_leaves : ∀ g : Geometry, g.points = g.leaves.flatMap Leaf.points
  | .line _ => (List.append_nil _).symm
  | .polygon _ => (List.append_nil _).symm
  | .multi parts => pointsAll_eq_leaves parts

theorem pointsAll_eq_leaves : ∀ parts : List Geometry,
    pointsAll parts = (leavesAll parts).flatMap Leaf.points
  | [] => rfl
  | part :: rest => by
    rw [pointsAll, leavesAll, List.flatMap_append, points_eq_leaves part, pointsAll_eq_leaves rest]
end

mutual
private theorem firstLine_eq_leaves : ∀ g : Geometry, g.firstLine = g.leaves.findSome? Leaf.line?
  | .line _ => rfl
  | .polygon _ => rfl
  | .multi parts => firstLineAny_eq_leaves parts

private theorem firstLineAny_eq_leaves : ∀ parts : List Geometry,
    firstLineAny parts = (leavesAll parts).findSome? Leaf.line?
  | [] => rfl
  | part :: rest => by
    rw [firstLineAny, leavesAll, List.findSome?_append, firstLine_eq_leaves part, firstLineAny_eq_leaves rest]
end

private theorem rings_of_no_line {leaves : List Leaf} (lineless : ∀ leaf ∈ leaves, leaf.line? = none) :
    ∃ rings : List Polygon, leaves = rings.map Leaf.polygon := by
  induction leaves with
  | nil => exact ⟨[], rfl⟩
  | cons leaf rest ih =>
    obtain ⟨first, others⟩ := List.forall_mem_cons.mp lineless
    obtain ⟨rings, rfl⟩ := ih others
    cases leaf with
    | line l => contradiction
    | polygon p => exact ⟨p :: rings, rfl⟩

private theorem firstLine_eq_some_iff (g : Geometry) (l : Line) : g.firstLine = some l ↔
    ∃ (rings : List Polygon) (rest : List Leaf), g.leaves = rings.map Leaf.polygon ++ .line l :: rest := by
  rw [firstLine_eq_leaves, List.findSome?_eq_some_iff]
  constructor
  · rintro ⟨before, leaf, rest, split, here, lineless⟩
    obtain ⟨rings, rfl⟩ := rings_of_no_line lineless
    cases leaf with
    | line l =>
      cases here
      exact ⟨rings, rest, split⟩
    | polygon p => contradiction
  · rintro ⟨rings, rest, split⟩
    exact ⟨_, _, rest, split, rfl, by simp [Leaf.line?]⟩

end Geometry

namespace Kml

open Element

/-- The coordinates of a leaf, inside the elements of its kind and any number of collections. -/
def Places (found : List String × Element) (leaf : Leaf) : Prop :=
  (∃ depth, found.1 = List.replicate depth "MultiGeometry" ++ leaf.tags) ∧ found.2 = coordinates leaf.points

private theorem located_surface (tessellate clamped : Bool) :
    (surface tessellate clamped).flatMap (located "coordinates") = [] := by
  cases tessellate <;> cases clamped <;> simp [surface, located_leaf]

private theorem located_line (l : Line) :
    (line l).located "coordinates" = [(["LineString"], coordinates l.points)] := by
  rw [line, located_node (by decide), List.flatMap_append, located_surface]
  simp [coordinates, located_leaf]

private theorem located_polygon (p : Polygon) :
    (polygon p).located "coordinates" =
      [(["Polygon", "outerBoundaryIs", "LinearRing"], coordinates p.ring)] := by
  rw [polygon, located_node (by decide), List.flatMap_append, located_surface]
  simp [coordinates, located_leaf, located_node]

mutual
private theorem located_geometry : ∀ g : Geometry,
    List.Forall₂ Places ((geometry g).located "coordinates") g.leaves
  | .line l => by
    rw [geometry, located_line]
    exact .cons ⟨⟨0, rfl⟩, rfl⟩ .nil
  | .polygon p => by
    rw [geometry, located_polygon]
    exact .cons ⟨⟨0, rfl⟩, rfl⟩ .nil
  | .multi parts => by
    rw [geometry, located_node (by decide), Geometry.leaves, List.forall₂_map_left_iff]
    refine (located_geometries parts).imp ?_
    rintro found leaf ⟨⟨depth, path⟩, same⟩
    exact ⟨⟨depth + 1, by rw [path]; rfl⟩, same⟩

private theorem located_geometries : ∀ parts : List Geometry,
    List.Forall₂ Places ((geometries parts).flatMap (located "coordinates")) (leavesAll parts)
  | [] => .nil
  | part :: rest => by
    rw [geometries, List.flatMap_cons, leavesAll]
    exact List.rel_append (located_geometry part) (located_geometries rest)
end

private theorem coordinates_of_places {found : List (List String × Element)} {leaves : List Leaf}
    (places : List.Forall₂ Places found leaves) :
    found.map Prod.snd = leaves.map fun leaf => coordinates leaf.points := by
  induction places with
  | nil => rfl
  | cons first _ ih => rw [List.map_cons, List.map_cons, ih, first.2]

theorem tagged_leaves (g : Geometry) :
    (geometry g).tagged "coordinates" = g.leaves.map fun leaf => coordinates leaf.points := by
  rw [← located_tagged, coordinates_of_places (located_geometry g)]

private theorem texts_of_places {found : List (List String × Element)} {leaves : List Leaf}
    (places : List.Forall₂ Places found leaves) :
    found.filterMap (·.2.text) = (leaves.map Leaf.points).map Coordinates.text := by
  have texts : found.filterMap (·.2.text) = (found.map Prod.snd).filterMap (·.text) := by
    rw [List.filterMap_map]
    rfl
  rw [texts, coordinates_of_places places, List.filterMap_map, List.map_map, ← List.filterMap_eq_map]
  rfl

/-- A geometry is seen alike on all ways through it. Its points are those of its leaves; its first line
is the first leaf that is a line, with nothing but rings before it; and the coordinates in its tree
are one for each leaf, inside the elements of its kind and with the text of its points. So the
texts that are not empty, joined by blanks, are the text of all points. -/
theorem leaves_agree (g : Geometry) :
    let found := (geometry g).located "coordinates"
    g.points = g.leaves.flatMap Leaf.points ∧
    (g.firstLine = none ↔ ∀ leaf ∈ g.leaves, leaf.line? = none) ∧
    (∀ l, g.firstLine = some l ↔ ∃ (rings : List Polygon) (rest : List Leaf),
      g.leaves = rings.map Leaf.polygon ++ .line l :: rest ∧
      g.points = rings.flatMap (·.ring) ++ l.points ++ rest.flatMap Leaf.points) ∧
    found.map Prod.snd = (geometry g).tagged "coordinates" ∧
    List.Forall₂ Places found g.leaves ∧
    " ".intercalate ((found.filterMap (·.2.text)).filter (· ≠ "")) = Coordinates.text g.points := by
  intro found
  have points := g.points_eq_leaves
  have places : List.Forall₂ Places found g.leaves := located_geometry g
  refine ⟨points, ?_, fun l => ?_, located_tagged _ _, places, ?_⟩
  · rw [Geometry.firstLine_eq_leaves, List.findSome?_eq_none_iff]
  · rw [Geometry.firstLine_eq_some_iff]
    constructor
    · rintro ⟨rings, rest, split⟩
      refine ⟨rings, rest, split, ?_⟩
      rw [points, split, List.flatMap_append, List.flatMap_map, List.flatMap_cons, ← List.append_assoc]
      rfl
    · rintro ⟨rings, rest, split, _⟩
      exact ⟨rings, rest, split⟩
  · rw [texts_of_places places, Coordinates.intercalate_texts, points, List.flatMap_def]

end Kml
end Trackline
