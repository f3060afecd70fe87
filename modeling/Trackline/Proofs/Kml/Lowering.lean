import Trackline.Kml
import Trackline.Proofs.Coordinates
import Trackline.Proofs.Time.Reading

/-! The tree of a document says all of it, but for the fractions of its seconds. Children of
different kinds have different tags, so a list of children falls apart in one way only. -/
namespace Trackline

def Instant.whole (t : Instant) : Instant := { t with nanos := 0 }

def TimeSpan.whole (s : TimeSpan) : TimeSpan := ⟨s.start.whole, s.stop.whole⟩

def Placemark.whole (p : Placemark) : Placemark := { p with span := p.span.map TimeSpan.whole }

def Folder.whole (f : Folder) : Folder := { f with placemarks := f.placemarks.map Placemark.whole }

/-- The document with all its times cut to whole seconds, and nothing else changed. -/
def Document.whole (doc : Document) : Document :=
  { doc with
    folders := doc.folders.map Folder.whole
    placemarks := doc.placemarks.map Placemark.whole }

private theorem Instant.whole_eq_iff (s t : Instant) : s.whole = t.whole ↔ s.seconds = t.seconds := by
  simp [Instant.whole]

@[simp] theorem Element.leaf_eq_iff (tag text other same : String) :
    Element.leaf tag text = Element.leaf other same ↔ tag = other ∧ text = same := by
  simp [Element.leaf]

@[simp] theorem Element.node_eq_iff (tag other : String) (children others : List Element) :
    Element.node tag children = Element.node other others ↔ tag = other ∧ children = others := by
  simp [Element.node]

namespace Kml

private theorem map_eq_iff {α β γ : Type} (write : α → β) (cut : α → γ)
    (each : ∀ a b, write a = write b ↔ cut a = cut b) (l r : List α) :
    l.map write = r.map write ↔ l.map cut = r.map cut := by
  induction l generalizing r with
  | nil =>
    cases r <;> simp
  | cons a l ih =>
    cases r with
    | nil => simp
    | cons b r => simp [each, ih]

private theorem option_eq_iff {α β γ : Type} (write : α → β) (cut : α → γ)
    (each : ∀ a b, write a = write b ↔ cut a = cut b) (l r : Option α) :
    l.toList.map write = r.toList.map write ↔ l.map cut = r.map cut := by
  cases l <;> cases r <;> simp [each]

/-- Two kinds of elements behind each other are told apart by a tag that only the second has. -/
theorem append_kinds (tag : String) {l r first second : List Element}
    (left : ∀ e ∈ l, e.tag ≠ tag) (right : ∀ e ∈ r, e.tag ≠ tag)
    (before : ∀ e ∈ first, e.tag = tag) (after : ∀ e ∈ second, e.tag = tag)
    (same : l ++ first = r ++ second) : l = r ∧ first = second := by
  have kept : ∀ {front back : List Element}, (∀ e ∈ front, e.tag ≠ tag) → (∀ e ∈ back, e.tag = tag) →
      (front ++ back).filter (·.tag != tag) = front ∧ (front ++ back).filter (·.tag == tag) = back := by
    intro front back other kind
    constructor
    · have empty : back.filter (·.tag != tag) = [] := by simpa using kind
      rw [List.filter_append, empty, List.append_nil]
      simpa using other
    · have empty : front.filter (·.tag == tag) = [] := by simpa using other
      rw [List.filter_append, empty, List.nil_append]
      simpa using kind
  obtain ⟨front, back⟩ := kept left before
  obtain ⟨fore, rear⟩ := kept right after
  rw [same] at front back
  exact ⟨front.symm.trans fore, back.symm.trans rear⟩

private theorem flag_injective {a b : Bool} (same : flag a = flag b) : a = b := by
  revert a b
  decide

private theorem head_injective {name other : String} {visible shown opened folded : Bool}
    (same : head name visible opened = head other shown folded) :
    name = other ∧ visible = shown ∧ opened = folded := by
  simp only [head, List.cons.injEq, Element.leaf_eq_iff, true_and, and_true] at same
  exact ⟨same.1, flag_injective same.2.1, flag_injective same.2.2⟩

private theorem kind_injective {k l : StyleKind} (same : kind k = kind l) : k = l := by
  cases k <;> cases l <;> simp [kind] at same
  · simp [same, Double.text_injective same.2]
  · simp [same]
  · simp [same, flag_injective same.2]

private theorem style_injective {s t : Style} (same : style s = style t) : s = t := by
  cases s
  cases t
  simp only [style, Element.mk.injEq, List.cons.injEq, Prod.mk.injEq, true_and, and_true] at same
  rw [same.1, kind_injective same.2]

private theorem coordinates_injective {l r : List Point} (same : coordinates l = coordinates r) : l = r :=
  Coordinates.text_injective (by simpa [coordinates] using same)

private theorem surface_injective {tessellate clamped ribbed fixed : Bool} {e d : Element}
    (same : surface tessellate clamped ++ [e] = surface ribbed fixed ++ [d]) :
    tessellate = ribbed ∧ clamped = fixed ∧ e = d := by
  obtain ⟨flags, last⟩ := List.append_inj' same rfl
  refine ⟨?_, ?_, (List.cons.inj last).1⟩
  all_goals cases tessellate <;> cases clamped <;> cases ribbed <;> cases fixed <;> simp [surface] at flags ⊢

private theorem line_injective {l m : Line} (same : line l = line m) : l = m := by
  obtain ⟨tessellate, clamped, points⟩ := surface_injective ((Element.node_eq_iff _ _ _ _).mp same).2
  cases l
  cases m
  simp only [Line.mk.injEq]
  exact ⟨coordinates_injective points, tessellate, clamped⟩

private theorem polygon_injective {p q : Polygon} (same : polygon p = polygon q) : p = q := by
  obtain ⟨tessellate, clamped, outer⟩ := surface_injective ((Element.node_eq_iff _ _ _ _).mp same).2
  have ring : coordinates p.ring = coordinates q.ring := by simpa using outer
  cases p
  cases q
  simp only [Polygon.mk.injEq]
  exact ⟨coordinates_injective ring, tessellate, clamped⟩

mutual
private theorem geometry_injective : ∀ {g h : Geometry}, geometry g = geometry h → g = h
  | .line _, .line _, same => by rw [line_injective same]
  | .polygon _, .polygon _, same => by rw [polygon_injective same]
  | .multi _, .multi _, same => by
    rw [geometries_injective ((Element.node_eq_iff _ _ _ _).mp same).2]
  | .line _, .polygon _, same => by simp [geometry, line, polygon] at same
  | .line _, .multi _, same => by simp [geometry, line] at same
  | .polygon _, .line _, same => by simp [geometry, line, polygon] at same
  | .polygon _, .multi _, same => by simp [geometry, polygon] at same
  | .multi _, .line _, same => by simp [geometry, line] at same
  | .multi _, .polygon _, same => by simp [geometry, polygon] at same

private theorem geometries_injective : ∀ {l r : List Geometry}, geometries l = geometries r → l = r
  | [], [], _ => rfl
  | [], _ :: _, same => by simp [geometries] at same
  | _ :: _, [], same => by simp [geometries] at same
  | _ :: _, _ :: _, same => by
    obtain ⟨first, rest⟩ := List.cons.inj same
    rw [geometry_injective first, geometries_injective rest]
end

private theorem span_eq_iff (s t : TimeSpan) : span s = span t ↔ s.whole = t.whole := by
  simp [span, TimeSpan.whole, Instant.text_eq_iff, Instant.whole_eq_iff]

private theorem url_eq_iff (tag other : String) : Style.url tag = Style.url other ↔ tag = other := by
  simp [Style.url]

@[simp] theorem tag_leaf (tag text : String) : (Element.leaf tag text).tag = tag := rfl

@[simp] theorem tag_node (tag : String) (children : List Element) : (Element.node tag children).tag = tag := rfl

@[simp] theorem tag_style (s : Style) : (style s).tag = "Style" := rfl

@[simp] theorem tag_span (s : TimeSpan) : (span s).tag = "TimeSpan" := rfl

@[simp] theorem tag_placemark (p : Placemark) : (placemark p).tag = "Placemark" := rfl

@[simp] theorem tag_folder (f : Folder) : (folder f).tag = "Folder" := rfl

private theorem placemark_eq_iff (p q : Placemark) : placemark p = placemark q ↔ p.whole = q.whole := by
  have names := option_eq_iff (Element.leaf "name") id (by simp) p.name q.name
  have spans := option_eq_iff span TimeSpan.whole span_eq_iff p.span q.span
  have styles := option_eq_iff (fun tag => Element.leaf "styleUrl" (Style.url tag)) id
    (by simp [url_eq_iff]) p.style q.style
  simp only [Option.map_id, id] at names styles
  constructor
  · intro same
    obtain ⟨front, last⟩ := List.append_inj' ((Element.node_eq_iff _ _ _ _).mp same).2 rfl
    have unlike : ∀ (name : Option String) (s : Option TimeSpan),
        ∀ e ∈ name.toList.map (Element.leaf "name") ++ s.toList.map span, e.tag ≠ "styleUrl" := by
      simp [or_imp, forall_and]
    obtain ⟨others, style⟩ := append_kinds "styleUrl" (unlike _ _) (unlike _ _) (by simp) (by simp) front
    obtain ⟨name, span⟩ := append_kinds "TimeSpan" (by simp) (by simp) (by simp) (by simp) others
    simp only [Placemark.whole, Placemark.mk.injEq]
    exact ⟨names.mp name, styles.mp style, spans.mp span, geometry_injective (List.cons.inj last).1⟩
  · intro same
    simp only [Placemark.whole, Placemark.mk.injEq] at same
    obtain ⟨name, style, span, geometry⟩ := same
    rw [placemark, placemark, names.mpr name, spans.mpr span, styles.mpr style, geometry]

private theorem folder_eq_iff (f g : Folder) : folder f = folder g ↔ f.whole = g.whole := by
  have placemarks := map_eq_iff placemark Placemark.whole placemark_eq_iff f.placemarks g.placemarks
  constructor
  · intro same
    obtain ⟨front, rest⟩ := List.append_inj ((Element.node_eq_iff _ _ _ _).mp same).2 rfl
    obtain ⟨name, visible, opened⟩ := head_injective front
    simp only [Folder.whole, Folder.mk.injEq]
    exact ⟨name, visible, opened, placemarks.mp rest⟩
  · intro same
    simp only [Folder.whole, Folder.mk.injEq] at same
    obtain ⟨name, visible, opened, rest⟩ := same
    rw [folder, folder, name, visible, opened, placemarks.mpr rest]

/-- Documents with the same tree are the same but for the fractions of their seconds. -/
theorem document_eq_iff (d e : Document) : document d = document e ↔ d.whole = e.whole := by
  have folders := map_eq_iff folder Folder.whole folder_eq_iff d.folders e.folders
  have placemarks := map_eq_iff placemark Placemark.whole placemark_eq_iff d.placemarks e.placemarks
  constructor
  · intro same
    have children : head d.name d.visible d.opened ++ d.styles.styles.map style ++ d.folders.map folder ++
        d.placemarks.map placemark = head e.name e.visible e.opened ++ e.styles.styles.map style ++
        e.folders.map folder ++ e.placemarks.map placemark := by
      simpa [document] using same
    have unlike : ∀ doc : Document, ∀ e ∈ head doc.name doc.visible doc.opened ++
        doc.styles.styles.map style ++ doc.folders.map folder, e.tag ≠ "Placemark" := by
      simp [head, or_imp, forall_and]
    have before : ∀ doc : Document, ∀ e ∈ head doc.name doc.visible doc.opened ++
        doc.styles.styles.map style, e.tag ≠ "Folder" := by
      simp [head, or_imp, forall_and]
    obtain ⟨front, last⟩ := append_kinds "Placemark" (unlike d) (unlike e) (by simp) (by simp) children
    obtain ⟨first, middle⟩ := append_kinds "Folder" (before d) (before e) (by simp) (by simp) front
    obtain ⟨start, written⟩ := List.append_inj first rfl
    obtain ⟨name, visible, opened⟩ := head_injective start
    have styles : d.styles.styles = e.styles.styles :=
      List.map_injective_iff.mpr (fun _ _ => style_injective) written
    simp only [Document.whole, Document.mk.injEq]
    exact ⟨name, visible, opened, congrArg StyleBook.mk styles, folders.mp middle, placemarks.mp last⟩
  · intro same
    simp only [Document.whole, Document.mk.injEq] at same
    obtain ⟨name, visible, opened, styles, middle, last⟩ := same
    rw [document, document, name, visible, opened, styles, folders.mpr middle, placemarks.mpr last]

end Kml
end Trackline
