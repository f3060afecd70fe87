import Trackline.Document
import Trackline.Proofs.Number.Order

/-! The extent of a document. However its points are spread over placemarks and folders, the
joined boxes of the placemarks are the box of all points. Points without a longitude or latitude
are passed over, except where a placemark begins with one, since a scan never gets away from it. -/
namespace Trackline

namespace Range

/-- A range as the scan of values leaves it: it begins with a number, and its ends differ
only if they are in order. -/
def Ordered (r : Range) : Prop :=
  Double.isNaN r.low = false ∧ (r.low = r.high ∨ Double.lt r.low r.high = true)

def hull (r s : Range) : Range := ⟨Double.least r.low s.low, Double.greatest r.high s.high⟩

/-- From the least to the greatest number among some values. -/
structure Spans (r : Range) (values : List Float) : Prop where
  low : r.low ∈ values ∧ Double.isNaN r.low = false
  high : r.high ∈ values ∧ Double.isNaN r.high = false
  between : ∀ x ∈ values, Double.isNaN x = false →
    Double.lt x r.low = false ∧ Double.lt r.high x = false

/-- Equal up to the sign of zero. -/
def Alike (r s : Range) : Prop := Double.Alike r.low s.low ∧ Double.Alike r.high s.high

namespace Ordered

private theorem single {x : Float} (number : Double.isNaN x = false) : Ordered ⟨x, x⟩ := ⟨number, .inl rfl⟩

variable {r : Range} (ordered : r.Ordered)

include ordered

private theorem high_number : Double.isNaN r.high = false := by
  obtain ⟨number, same | apart⟩ := ordered
  · exact same ▸ number
  · exact (Double.lt_numbers apart).2

private theorem below_high {x : Float} (below : Double.lt x r.low = true) : Double.lt x r.high = true := by
  obtain ⟨_, same | apart⟩ := ordered
  · exact same ▸ below
  · exact Double.lt_trans below apart

private theorem above_low {x : Float} (above : Double.lt r.high x = true) : Double.lt r.low x = true := by
  obtain ⟨_, same | apart⟩ := ordered
  · exact same ▸ above
  · exact Double.lt_trans apart above

private theorem between_eq : between r.low r.high = r := by
  obtain ⟨low, high⟩ := r
  obtain ⟨_, same | apart⟩ := ordered
  · simp only at same
    rw [between, same, ite_self]
  · rw [between, if_pos apart]

/-- What lies above is not below, so the scan may leave out the second comparison. -/
theorem stretch_eq (x : Float) : r.stretch x = r.hull ⟨x, x⟩ := by
  have number := ordered.1
  have top := ordered.high_number
  have apart : Double.lt r.high x = true → Double.lt x r.low = false := fun above =>
    Double.lt_asymm (ordered.above_low above)
  obtain ⟨low, high⟩ := r
  simp only [stretch, hull, Double.least, Double.greatest, number, top]
  split_ifs <;> simp_all

private theorem hull (s : Range) : (r.hull s).Ordered := by
  have number := ordered.1
  have top := ordered.high_number
  simp only [Ordered, Range.hull, Double.least, Double.greatest, number, top, Bool.false_eq_true, if_false]
  split_ifs with below above above
  · exact ⟨(Double.lt_numbers below).1, .inr (Double.lt_trans (ordered.below_high below) above)⟩
  · exact ⟨(Double.lt_numbers below).1, .inr (ordered.below_high below)⟩
  · exact ⟨number, .inr (ordered.above_low above)⟩
  · exact ordered

private theorem join_eq (s : Range) : r.join s = r.hull s := (ordered.hull s).between_eq

private theorem foldl_stretch (values : List Float) :
    (values.foldl stretch r).Ordered ∧ values.foldl stretch r =
      ⟨values.foldl Double.least r.low, values.foldl Double.greatest r.high⟩ := by
  induction values generalizing r with
  | nil => exact ⟨ordered, rfl⟩
  | cons x rest ih =>
    rw [List.foldl_cons, ordered.stretch_eq x]
    exact ih (ordered.hull _)

end Ordered

section Around

variable {first : Float} (number : Double.isNaN first = false) (rest : List Float)

include number

private theorem around_ordered : (around first rest).Ordered ∧ around first rest =
    ⟨rest.foldl Double.least first, rest.foldl Double.greatest first⟩ := by
  obtain ⟨ordered, scanned⟩ := (Ordered.single number).foldl_stretch rest
  rw [around, ordered.between_eq]
  exact ⟨ordered, scanned⟩

private theorem around_spans : (around first rest).Spans (first :: rest) := by
  obtain ⟨member, low, below⟩ := Double.foldl_least number rest
  obtain ⟨member', high, above⟩ := Double.foldl_greatest number rest
  rw [(around_ordered number rest).2]
  exact ⟨⟨member, low⟩, ⟨member', high⟩, fun x inside _ => ⟨below x inside, above x inside⟩⟩

private theorem around_join {second : Float} (other : Double.isNaN second = false) (more : List Float) :
    (around first rest).join (around second more) = around first (rest ++ second :: more) := by
  obtain ⟨ordered, scanned⟩ := around_ordered number rest
  rw [ordered.join_eq, scanned, (around_ordered other more).2, (around_ordered number _).2, hull]
  simp only [List.foldl_append, List.foldl_cons, List.foldl_assoc]

end Around

private theorem Spans.alike {r s : Range} {values others : List Float} (left : r.Spans values)
    (right : s.Spans others) (same : values.Perm others) : r.Alike s :=
  ⟨Double.alike_of_not_lt left.low.2 right.low.2
      (right.between _ (same.mem_iff.mp left.low.1) left.low.2).1
      (left.between _ (same.mem_iff.mpr right.low.1) right.low.2).1,
    Double.alike_of_not_lt left.high.2 right.high.2
      (left.between _ (same.mem_iff.mpr right.high.1) right.high.2).2
      (right.between _ (same.mem_iff.mp left.high.1) left.high.2).2⟩

end Range

namespace Extent

def Alike (e f : Extent) : Prop := e.longitude.Alike f.longitude ∧ e.latitude.Alike f.latitude

/-- Points that begin with a longitude and a latitude, if there are any. -/
def Begins (points : List Point) : Prop :=
  ∀ p ∈ points.head?, Double.isNaN p.longitude = false ∧ Double.isNaN p.latitude = false

instance (points : List Point) : Decidable (Begins points) :=
  inferInstanceAs (Decidable (∀ p ∈ points.head?, _))

private theorem ofPoints_none (points : List Point) : ofPoints points = none ↔ points = [] := by
  cases points <;> simp [ofPoints]

private theorem ofPoints_some {points : List Point} {box : Extent} (here : ofPoints points = some box) :
    ∃ p rest, points = p :: rest ∧ box =
      ⟨.around p.longitude (rest.map (·.longitude)), .around p.latitude (rest.map (·.latitude))⟩ := by
  cases points with
  | nil => cases here
  | cons p rest => exact ⟨p, rest, rfl, (Option.some.inj here).symm⟩

private theorem ofPoints_append {points more : List Point} {box other : Extent} (begins : Begins points)
    (begins' : Begins more) (here : ofPoints points = some box) (there : ofPoints more = some other) :
    ofPoints (points ++ more) = some (box.join other) := by
  obtain ⟨p, rest, rfl, rfl⟩ := ofPoints_some here
  obtain ⟨q, rest', rfl, rfl⟩ := ofPoints_some there
  obtain ⟨longitude, latitude⟩ := begins p rfl
  obtain ⟨longitude', latitude'⟩ := begins' q rfl
  rw [join, Range.around_join longitude _ longitude', Range.around_join latitude _ latitude']
  simp [ofPoints]

private theorem begins_append {points : List Point} (begins : Begins points) (nonempty : points ≠ [])
    (more : List Point) : Begins (points ++ more) := by
  rwa [Begins, List.head?_append_of_ne_nil _ nonempty]

private theorem begins_flatten (groups : List (List Point)) (all : ∀ g ∈ groups, Begins g) :
    Begins groups.flatten := by
  induction groups with
  | nil => simp [Begins]
  | cons g rest ih =>
    rw [List.flatten_cons]
    by_cases empty : g = []
    · rw [empty, List.nil_append]
      exact ih fun g member => all g (List.mem_cons_of_mem _ member)
    · exact begins_append (all g List.mem_cons_self) empty _

/-- Joining boxes one by one is scanning their points as one list. -/
theorem foldl_join {points : List Point} {box : Extent} (begins : Begins points)
    (here : ofPoints points = some box) (groups : List (List Point)) (all : ∀ g ∈ groups, Begins g) :
    ofPoints (points ++ groups.flatten) = some ((groups.filterMap ofPoints).foldl join box) := by
  induction groups generalizing points box with
  | nil => simpa using here
  | cons g rest ih =>
    have later : ∀ g ∈ rest, Begins g := fun g member => all g (List.mem_cons_of_mem _ member)
    cases there : ofPoints g with
    | none =>
      have empty := (ofPoints_none g).mp there
      rw [List.filterMap_cons_none there, List.flatten_cons, empty, List.nil_append]
      exact ih begins here later
    | some other =>
      have nonempty : points ≠ [] := by
        obtain ⟨p, rest, rfl, _⟩ := ofPoints_some here
        exact List.cons_ne_nil p rest
      have next := ofPoints_append begins (all g List.mem_cons_self) here there
      rw [List.filterMap_cons_some there, List.flatten_cons, ← List.append_assoc, List.foldl_cons]
      exact ih (begins_append begins nonempty g) next later

private theorem joinAll_ofPoints (groups : List (List Point)) (all : ∀ g ∈ groups, Begins g) :
    joinAll (groups.filterMap ofPoints) = ofPoints groups.flatten := by
  induction groups with
  | nil => rfl
  | cons g rest ih =>
    have later : ∀ g ∈ rest, Begins g := fun g member => all g (List.mem_cons_of_mem _ member)
    cases here : ofPoints g with
    | none =>
      have empty := (ofPoints_none g).mp here
      rw [List.filterMap_cons_none here, List.flatten_cons, empty, List.nil_append]
      exact ih later
    | some box =>
      rw [List.filterMap_cons_some here, List.flatten_cons,
        foldl_join (all g List.mem_cons_self) here rest later, joinAll]

private theorem ofPoints_spans {points : List Point} {box : Extent} (begins : Begins points)
    (here : ofPoints points = some box) :
    box.longitude.Spans (points.map (·.longitude)) ∧ box.latitude.Spans (points.map (·.latitude)) := by
  obtain ⟨p, rest, rfl, rfl⟩ := ofPoints_some here
  obtain ⟨longitude, latitude⟩ := begins p rfl
  exact ⟨Range.around_spans longitude _, Range.around_spans latitude _⟩

private theorem ofPoints_perm {points others : List Point} (begins : Begins points) (begins' : Begins others)
    (same : points.Perm others) : Option.Rel Alike (ofPoints points) (ofPoints others) := by
  cases here : ofPoints points with
  | none =>
    have empty := (ofPoints_none points).mp here
    rw [empty] at same
    rw [(ofPoints_none others).mpr same.nil_eq.symm]
    exact .none
  | some box =>
    cases there : ofPoints others with
    | none =>
      have empty := (ofPoints_none others).mp there
      obtain ⟨p, rest, rfl, _⟩ := ofPoints_some here
      rw [empty] at same
      exact absurd same.eq_nil (List.cons_ne_nil p rest)
    | some other =>
      obtain ⟨longitude, latitude⟩ := ofPoints_spans begins here
      obtain ⟨longitude', latitude'⟩ := ofPoints_spans begins' there
      exact .some ⟨longitude.alike longitude' (same.map _), latitude.alike latitude' (same.map _)⟩

end Extent

namespace Document

def points (doc : Document) : List Point := doc.allPlacemarks.flatMap (·.geometry.points)

def Begins (doc : Document) : Prop := ∀ p ∈ doc.allPlacemarks, Extent.Begins p.geometry.points

instance (doc : Document) : Decidable doc.Begins :=
  inferInstanceAs (Decidable (∀ p ∈ doc.allPlacemarks, _))

def groups (doc : Document) : List (List Point) := doc.allPlacemarks.map (·.geometry.points)

private theorem extent_groups (doc : Document) :
    doc.extent = Extent.joinAll (doc.groups.filterMap Extent.ofPoints) := by
  rw [extent, groups, List.filterMap_map]
  rfl

private theorem flatten_groups (doc : Document) : doc.groups.flatten = doc.points := List.flatMap_def.symm

section Begins

variable (doc : Document) (begins : doc.Begins)

include begins

private theorem groups_begin : ∀ g ∈ doc.groups, Extent.Begins g := by
  simpa [groups, Begins] using begins

private theorem extent_eq : doc.extent = Extent.ofPoints doc.points := by
  rw [extent_groups, Extent.joinAll_ofPoints _ (doc.groups_begin begins), flatten_groups]

private theorem points_begin : Extent.Begins doc.points := by
  rw [← flatten_groups]
  exact Extent.begins_flatten _ (doc.groups_begin begins)

end Begins

private theorem points_empty (doc : Document) : doc.points = [] ↔
    (∀ p ∈ doc.placemarks, p.geometry.points = []) ∧
      ∀ folder ∈ doc.folders, ∀ p ∈ folder.placemarks, p.geometry.points = [] := by
  simp only [points, allPlacemarks, List.flatMap_eq_nil_iff, List.mem_append, List.mem_flatMap]
  grind

/-- The extent of a document whose placemarks begin with numbers. There is none if no placemark
has a point, at the root or in a folder. Otherwise it reaches on both axes from the least to the
greatest number of all points. One geometry with the same points has the same extent, and so,
but for the sign of zero, has every other document with these points, in whatever order and
in whatever placemarks and folders. -/
theorem extent_of_all (doc : Document) (begins : doc.Begins) :
    (doc.extent = none ↔ (∀ p ∈ doc.placemarks, p.geometry.points = []) ∧
      ∀ folder ∈ doc.folders, ∀ p ∈ folder.placemarks, p.geometry.points = []) ∧
    (∀ box, doc.extent = some box →
      box.longitude.Spans (doc.points.map (·.longitude)) ∧
      box.latitude.Spans (doc.points.map (·.latitude))) ∧
    (∀ g : Geometry, g.points = doc.points → g.extent = doc.extent) ∧
    ∀ other : Document, other.Begins → other.points.Perm doc.points →
      Option.Rel Extent.Alike other.extent doc.extent := by
  have flat := doc.extent_eq begins
  refine ⟨?_, fun box here => ?_, fun g same => ?_, fun other begins' same => ?_⟩
  · rw [flat, Extent.ofPoints_none, points_empty]
  · exact Extent.ofPoints_spans (doc.points_begin begins) (flat ▸ here)
  · rw [flat, Geometry.extent, same]
  · rw [flat, other.extent_eq begins']
    exact Extent.ofPoints_perm (other.points_begin begins') (doc.points_begin begins) same

/-- A point without a latitude and an empty line do no harm, and the folder counts. -/
theorem extent_of_three :
    let doc : Document :=
      { name := "map"
        placemarks := [
          { geometry := .track ⟨[.ground 1 2, .ground Double.nan 5], true, true⟩ },
          { geometry := .track ⟨[], true, true⟩ }]
        folders := [{
          name := "far"
          placemarks := [{ geometry := .polygon (.closed [.ground 0 (-3)]) }] }] }
    doc.Begins ∧ doc.extent = some ⟨⟨-3, 5⟩, ⟨0, 1⟩⟩ ∧
      Range.Spans ⟨-3, 5⟩ [2, 5, -3, -3] ∧ Range.Spans ⟨0, 1⟩ [1, Double.nan, 0, 0] := by
  intro doc
  have begins : doc.Begins := by decide +kernel
  have box : doc.extent = some ⟨⟨-3, 5⟩, ⟨0, 1⟩⟩ := by decide +kernel
  exact ⟨begins, box, (doc.extent_of_all begins).2.1 _ box⟩

end Document
end Trackline
