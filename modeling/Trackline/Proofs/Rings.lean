import Mathlib.Algebra.Order.Field.Basic
import Mathlib.Data.Rat.Cast.Order
import Mathlib.Tactic.Positivity
import Mathlib.Tactic.Ring
import Trackline.Proofs.Coordinates
import Trackline.Proofs.Number.Order
import Trackline.Proofs.Workspace.Refusal

/-! Rings and how they close. A polygon and a box come back to their first point, which stands at the end once
more; a circle holds each of its corners once and leads from the last back to the first. -/
namespace Trackline

private theorem Double.same_self (x : Float) : same x x = !isNaN x := by
  rw [same, isNaN_eq]
  cases rank x <;> simp

private theorem Point.same_self (p : Point) : p.same p = true ↔ ∀ x ∈ p.numbers, Double.isNaN x = false := by
  simp only [same, Double.same_self, numbers, List.forall_mem_cons, Bool.and_eq_true, Bool.not_eq_true']
  simp [and_assoc, and_left_comm]

/-- A ring that ends with its first point, behind the points that were given. -/
structure Polygon.Returns (p : Polygon) (first : Point) (rest : List Point) : Prop where
  ring : p.ring = first :: rest ++ [first]
  size : p.ring.length = (first :: rest).length + 1
  ends : p.ring.head? = some first ∧ p.ring.getLast? = some first
  given : p.ring.dropLast = first :: rest
  closed : p.isClosed = true ↔ ∀ x ∈ first.numbers, Double.isNaN x = false

private theorem Polygon.closed_returns (first : Point) (rest : List Point) :
    (Polygon.closed (first :: rest)).Returns first rest := by
  have ring : (Polygon.closed (first :: rest)).ring = first :: rest ++ [first] := rfl
  have last : (first :: rest ++ [first]).getLast? = some first := List.getLast?_concat
  refine ⟨ring, ?_, ?_, ?_, ?_⟩
  · rw [ring, List.length_append, List.length_singleton]
  · rw [ring]
    exact ⟨rfl, last⟩
  · rw [ring, List.dropLast_concat]
  · rw [← Point.same_self, isClosed, ring, last]
    simp

namespace Shape

private theorem polygon_refused_iff (style : String) (points : List Point) (name : Option String) (e : Error) :
    polygon style points name = .error e ↔ points = [] ∧ e = .polygonWithoutPoints := by
  cases points <;> simp [polygon, eq_comm]

private theorem polygon_returns (style : String) (first : Point) (rest : List Point) (name : Option String) :
    ∃ ring : Polygon, polygon style (first :: rest) name =
        .ok { name := some (name.getD "polygon"), style := some style, geometry := .polygon ring } ∧
      ring.Returns first rest :=
  ⟨_, rfl, Polygon.closed_returns first rest⟩

private theorem box_returns (style : String) (northEast southWest : Point) :
    ∃ ring : Polygon, box style northEast southWest = { style := some style, geometry := .polygon ring } ∧
      ring.Returns (.ground northEast.latitude northEast.longitude)
        [.ground southWest.latitude northEast.longitude, .ground southWest.latitude southWest.longitude,
          .ground northEast.latitude southWest.longitude] :=
  ⟨_, rfl, Polygon.closed_returns _ _⟩

/-- The bearing of a corner, worked out in numbers of any kind. -/
def bearing {R : Type} [Mul R] [Div R] (number : Nat → R) (segments place : Nat) : R :=
  number place * (number 360 / number segments)

private theorem corners_eq (earth : Earth) (center : Point) (radius : Float) (segments : Nat) :
    corners earth center radius segments =
      (List.range segments).map fun place => earth center (bearing Float.ofNat segments place) radius := rfl

/-- Bearings that go once around in equal steps: from zero on, always forward, never to a full turn, and by the
same step from the last one back to the first. -/
structure Turns (bearings : Nat → ℚ) (segments : Nat) : Prop where
  start : bearings 0 = 0
  forward : ∀ i j, i < j → bearings i < bearings j
  below : ∀ i < segments, bearings i < 360
  step : ∀ i, bearings (i + 1) - bearings i = 360 / segments
  back : bearings 0 + 360 - bearings (segments - 1) = 360 / segments

private theorem bearing_turns {segments : Nat} (positive : 0 < segments) :
    Turns (bearing (Nat.cast : Nat → ℚ) segments) segments := by
  have divisor : (0 : ℚ) < segments := by exact_mod_cast positive
  have forward : ∀ i j, i < j → bearing (Nat.cast : Nat → ℚ) segments i < bearing Nat.cast segments j := by
    intro i j less
    have turn : (0 : ℚ) < (360 : ℕ) / segments := by positivity
    exact mul_lt_mul_of_pos_right (by exact_mod_cast less) turn
  have full : bearing (Nat.cast : Nat → ℚ) segments segments = 360 := by
    rw [bearing, mul_div_cancel₀ _ divisor.ne']
    rfl
  have step : ∀ i, bearing (Nat.cast : Nat → ℚ) segments (i + 1) - bearing Nat.cast segments i = 360 / segments := by
    intro i
    simp only [bearing]
    push_cast
    ring
  have start : bearing (Nat.cast : Nat → ℚ) segments 0 = 0 := by
    rw [bearing, Nat.cast_zero, zero_mul]
  refine ⟨start, forward, fun i inside => ?_, step, ?_⟩
  · rw [← full]
    exact forward i segments inside
  · have last := step (segments - 1)
    rw [Nat.sub_add_cancel positive, full] at last
    rw [start, zero_add, last]

private theorem circle_refused_iff (earth : Earth) (style : String) (center : Point) (radius : Float) (segments : Nat)
    (name : Option String) (e : Error) :
    circle earth style center radius segments name = .error e ↔ segments < 3 ∧ e = .tooFewSegments segments := by
  rw [circle]
  split <;> simp_all [eq_comm]

private theorem circle_corners (earth : Earth) (style : String) (center : Point) (radius : Float) {segments : Nat}
    (name : Option String) (enough : 3 ≤ segments) :
    ∃ ring : Polygon, circle earth style center radius segments name =
        .ok { name := some (name.getD "circle"), style := some style, geometry := .polygon ring } ∧
      ring.ring.length = segments ∧
      ∀ i < segments, ring.ring[i]? = some (earth center (bearing Float.ofNat segments i) radius) := by
  refine ⟨.wraparound (corners earth center radius segments), ?_, ?_, fun i inside => ?_⟩
  · rw [circle, if_neg (by omega)]
  · rw [Polygon.wraparound, corners_eq, List.length_map, List.length_range]
  · rw [Polygon.wraparound, corners_eq, List.getElem?_map, List.getElem?_range inside]
    rfl

section Sampled

variable (sampling : Sampling) (style : String) (center : Point) (radius : Float) (name : Option String)

private theorem sampledCircle_checked (checked : sampling.check = .ok ()) :
    sampledCircle sampling style center radius name =
      circle (Earth.sphere sampling.earthRadius) style center radius sampling.circleSegments name := by
  rw [sampledCircle, checked]
  rfl

private theorem enough_of_checked (checked : sampling.check = .ok ()) : 3 ≤ sampling.circleSegments := by
  rw [Sampling.check] at checked
  split_ifs at checked with _ few
  exact Nat.le_of_not_lt few

private theorem sampledCircle_refused_iff (e : Error) :
    sampledCircle sampling style center radius name = .error e ↔ sampling.check = .error e := by
  cases checked : sampling.check with
  | error cause =>
    rw [sampledCircle, checked]
    change Except.error cause = Except.error e ↔ _
    rw [Except.error.injEq, Except.error.injEq]
  | ok _ =>
    have enough := enough_of_checked sampling checked
    rw [sampledCircle_checked sampling style center radius name checked, circle_refused_iff]
    exact iff_of_false (fun few => absurd few.1 (Nat.not_lt.mpr enough)) (by simp)

end Sampled

/-- The rings of shapes. A polygon is refused just for no points and otherwise comes back to its first point behind
all that were given, and a box comes back to its north east; both are closed just when that first point has
no NaN. A circle is refused just for less than three segments and otherwise holds one corner for each and
nothing behind the last, every corner where the earth leads from the center at its bearing; exact bearings
go once around in equal steps. With a sampling the circle is refused for the first fault of the sampling,
and is otherwise the circle of its segments on a sphere of its radius. -/
theorem rings_close (style : String) (name : Option String) :
    (∀ points e, polygon style points name = .error e ↔ points = [] ∧ e = .polygonWithoutPoints) ∧
    (∀ first rest, ∃ ring : Polygon, polygon style (first :: rest) name =
        .ok { name := some (name.getD "polygon"), style := some style, geometry := .polygon ring } ∧
      ring.Returns first rest) ∧
    (∀ northEast southWest : Point, ∃ ring : Polygon,
      box style northEast southWest = { style := some style, geometry := .polygon ring } ∧
      ring.Returns (.ground northEast.latitude northEast.longitude)
        [.ground southWest.latitude northEast.longitude, .ground southWest.latitude southWest.longitude,
          .ground northEast.latitude southWest.longitude]) ∧
    (∀ (earth : Earth) center radius segments,
      (∀ e, circle earth style center radius segments name = .error e ↔
        segments < 3 ∧ e = .tooFewSegments segments) ∧
      (3 ≤ segments → Turns (bearing (Nat.cast : Nat → ℚ) segments) segments ∧ ∃ ring : Polygon,
        circle earth style center radius segments name =
          .ok { name := some (name.getD "circle"), style := some style, geometry := .polygon ring } ∧
        ring.ring.length = segments ∧
        ∀ i < segments, ring.ring[i]? = some (earth center (bearing Float.ofNat segments i) radius))) ∧
    ∀ (sampling : Sampling) center radius,
      (∀ e, sampledCircle sampling style center radius name = .error e ↔ sampling.check = .error e) ∧
      (∀ e, sampling.check = .error e ↔ sampling.faults.head? = some e) ∧
      (sampling.check = .ok () → 3 ≤ sampling.circleSegments ∧
        sampledCircle sampling style center radius name =
          circle (Earth.sphere sampling.earthRadius) style center radius sampling.circleSegments name) := by
  refine ⟨fun points e => polygon_refused_iff style points name e,
    fun first rest => polygon_returns style first rest name, box_returns style, ?_, ?_⟩
  · intro earth center radius segments
    refine ⟨circle_refused_iff earth style center radius segments name, fun enough => ?_⟩
    exact ⟨bearing_turns (by omega), circle_corners earth style center radius name enough⟩
  · intro sampling center radius
    refine ⟨sampledCircle_refused_iff sampling style center radius name, (settles_sampling sampling).error_iff,
      fun checked => ?_⟩
    exact ⟨enough_of_checked sampling checked, sampledCircle_checked sampling style center radius name checked⟩

/-- A polygon that was closed already, a square on an earth that answers with the bearing for a latitude, and
samplings with too few segments and with enough. -/
theorem rings_of_four :
    let p : Point := ⟨5, 6, 7⟩
    let earth : Earth := fun center bearing radius => ⟨bearing, radius, center.latitude⟩
    let few : Sampling := { circleSegments := 2 }
    3 ≤ 4 ∧
    (∃ ring : Polygon, polygon "area" [p, p] none =
        .ok { name := some "polygon", style := some "area", geometry := .polygon ring } ∧
      ring.ring = [p, p, p] ∧ ring.isClosed = true) ∧
    (∃ ring : Polygon, circle earth "area" p 9 4 none =
        .ok { name := some "circle", style := some "area", geometry := .polygon ring } ∧
      ring.ring.length = 4 ∧ ring.ring[3]? = some ⟨270, 9, 5⟩) ∧
    bearing (Nat.cast : Nat → ℚ) 4 3 < 360 ∧
    sampledCircle few "area" p 9 none = .error (.tooFewSegments 2) ∧
    ({} : Sampling).check = .ok () ∧
    sampledCircle {} "area" p 9 none = circle (Earth.sphere Earth.equatorialRadius) "area" p 9 50 none := by
  intro p earth few
  obtain ⟨_, polygons, _, circles, sampled⟩ := rings_close "area" none
  obtain ⟨area, made, returns⟩ := polygons p [p]
  obtain ⟨turns, square, drawn, size, corners⟩ := (circles earth p 9 4).2 (by decide)
  obtain ⟨refused, faulty, _⟩ := sampled few p 9
  have numbers : ∀ x ∈ p.numbers, Double.isNaN x = false := by decide +kernel
  have checked : ({} : Sampling).check = .ok () := by decide +kernel
  have west : bearing Float.ofNat 4 3 = 270 := by decide +kernel
  refine ⟨by decide, ⟨area, made, returns.ring, returns.closed.mpr numbers⟩, ⟨square, drawn, size, ?_⟩,
    turns.below 3 (by decide), (refused _).mpr ((faulty _).mpr (by decide +kernel)), checked,
    ((sampled {} p 9).2.2 checked).2⟩
  rw [corners 3 (by decide), west]

end Shape
end Trackline
