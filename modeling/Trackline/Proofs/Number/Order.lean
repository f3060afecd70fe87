import Trackline.Number.Double
import Trackline.Proofs.Number.Text

/-! Least and greatest numbers of a list. Both searches are one search for the first item
with the least key; an item without a key, as NaN has none, is passed over. -/
namespace Trackline

section Foremost

variable {α : Type} (key : α → Option Int)

def Before (x y : α) : Prop := ∃ a b, key x = some a ∧ key y = some b ∧ a < b

/-- The item with the lesser key, the former one if both have the same. -/
def foremost (x y : α) : α :=
  match key x, key y with
  | none, _ => y
  | some _, none => x
  | some a, some b => if b < a then y else x

instance foremost_associative : Std.Associative (foremost key) where
  assoc x y z := by grind [foremost]

private theorem foremost_cases {x : α} {a : Int} (here : key x = some a) (y : α) :
    (foremost key x y = x ∧ ∀ b, key y = some b → a ≤ b) ∨
      (foremost key x y = y ∧ ∃ b, key y = some b ∧ b < a) := by
  cases there : key y with
  | none => simp [foremost, here, there]
  | some b =>
    by_cases below : b < a
    · exact .inr ⟨by simp [foremost, here, there, below], b, rfl, below⟩
    · exact .inl ⟨by simp [foremost, here, there, below], by simpa using below⟩

private theorem foldl_foremost {first : α} {a : Int} (here : key first = some a) (rest : List α) :
    rest.foldl (foremost key) first ∈ first :: rest ∧
      ∃ b, key (rest.foldl (foremost key) first) = some b ∧
        ∀ x ∈ first :: rest, ∀ c, key x = some c → b ≤ c := by
  induction rest generalizing first a with
  | nil => simp [here]
  | cons second rest ih =>
    rw [List.foldl_cons]
    obtain ⟨kept, above⟩ | ⟨left, b, there, below⟩ := foremost_cases key here second
    · obtain ⟨member, c, found, bound⟩ := ih here
      have limit : c ≤ a := bound first List.mem_cons_self a here
      rw [kept]
      refine ⟨by grind, c, found, fun x inside d keyed => ?_⟩
      rcases List.mem_cons.mp inside with rfl | later
      · exact bound x List.mem_cons_self d keyed
      rcases List.mem_cons.mp later with rfl | later
      · exact limit.trans (above d keyed)
      · exact bound x (List.mem_cons_of_mem _ later) d keyed
    · obtain ⟨member, c, found, bound⟩ := ih there
      have limit : c ≤ b := bound second List.mem_cons_self b there
      rw [left]
      refine ⟨List.mem_cons_of_mem _ member, c, found, fun x inside d keyed => ?_⟩
      rcases List.mem_cons.mp inside with rfl | later
      · have same : a = d := Option.some.inj (here.symm.trans keyed)
        omega
      · exact bound x later d keyed

private theorem not_before_foldl {first : α} (keyed : (key first).isSome) (rest : List α) :
    rest.foldl (foremost key) first ∈ first :: rest ∧
      (key (rest.foldl (foremost key) first)).isSome ∧
      ∀ x ∈ first :: rest, ¬Before key x (rest.foldl (foremost key) first) := by
  obtain ⟨a, here⟩ := Option.isSome_iff_exists.mp keyed
  obtain ⟨member, b, found, bound⟩ := foldl_foremost key here rest
  refine ⟨member, Option.isSome_iff_exists.mpr ⟨b, found⟩, ?_⟩
  rintro x inside ⟨c, b', there, found', below⟩
  have same : b = b' := Option.some.inj (found.symm.trans found')
  have limit := bound x inside c there
  omega

end Foremost

namespace Double

/-- The rank counted from above. -/
def depth (x : Float) : Option Int := (rank x).map (- ·)

theorem isNaN_eq (x : Float) : isNaN x = (rank x).isNone := by
  rw [rank]
  split_ifs with nan <;> simp [nan]

private theorem isNaN_depth (x : Float) : isNaN x = (depth x).isNone := by
  rw [isNaN_eq, depth, Option.isNone_map]

private theorem lt_iff {x y : Float} : lt x y = true ↔ Before rank x y := by
  rw [lt, Before]
  split <;> simp_all

private theorem lt_depth {x y : Float} : lt x y = true ↔ Before depth y x := by
  rw [lt_iff]
  constructor
  · rintro ⟨a, b, left, right, below⟩
    exact ⟨-b, -a, by simp [depth, right], by simp [depth, left], by omega⟩
  · rintro ⟨b, a, right, left, below⟩
    obtain ⟨b, there, rfl⟩ := Option.map_eq_some_iff.mp right
    obtain ⟨a, here, rfl⟩ := Option.map_eq_some_iff.mp left
    exact ⟨a, b, here, there, by omega⟩

theorem lt_trans {x y z : Float} (left : lt x y = true) (right : lt y z = true) : lt x z = true := by
  obtain ⟨a, b, before, middle, below⟩ := lt_iff.mp left
  obtain ⟨b', c, middle', behind, above⟩ := lt_iff.mp right
  have same : b = b' := Option.some.inj (middle.symm.trans middle')
  exact lt_iff.mpr ⟨a, c, before, behind, by omega⟩

theorem lt_asymm {x y : Float} (ordered : lt x y = true) : lt y x = false := by
  by_contra other
  have circle := lt_trans ordered (by simpa using other)
  obtain ⟨a, b, here, there, below⟩ := lt_iff.mp circle
  have same : a = b := Option.some.inj (here.symm.trans there)
  omega

theorem lt_numbers {x y : Float} (ordered : lt x y = true) : isNaN x = false ∧ isNaN y = false := by
  obtain ⟨a, b, left, right, _⟩ := lt_iff.mp ordered
  exact ⟨by simp [isNaN_eq, left], by simp [isNaN_eq, right]⟩

private theorem least_eq : least = foremost rank := by
  funext x y
  grind [least, foremost, lt, rank]

private theorem greatest_eq : greatest = foremost depth := by
  funext x y
  grind [greatest, foremost, lt, rank, depth]

instance least_associative : Std.Associative least := least_eq ▸ foremost_associative rank

instance greatest_associative : Std.Associative greatest := greatest_eq ▸ foremost_associative depth

section Search

variable {first : Float} (number : isNaN first = false) (rest : List Float)

include number

theorem foldl_least :
    rest.foldl least first ∈ first :: rest ∧ isNaN (rest.foldl least first) = false ∧
      ∀ x ∈ first :: rest, lt x (rest.foldl least first) = false := by
  simp only [isNaN_eq, Option.isNone_eq_false_iff] at number ⊢
  simp only [← Bool.not_eq_true, lt_iff, least_eq]
  exact not_before_foldl rank number rest

theorem foldl_greatest :
    rest.foldl greatest first ∈ first :: rest ∧ isNaN (rest.foldl greatest first) = false ∧
      ∀ x ∈ first :: rest, lt (rest.foldl greatest first) x = false := by
  simp only [isNaN_depth, Option.isNone_eq_false_iff] at number ⊢
  simp only [← Bool.not_eq_true, lt_depth, greatest_eq]
  exact not_before_foldl depth number rest

end Search

/-- Equal up to the sign of zero. -/
def Alike (x y : Float) : Prop := x = y ∨ magnitude x = 0 ∧ magnitude y = 0

private theorem rank_parts {x : Float} {a : Int} (here : rank x = some a) :
    (negative x = true ∧ -(magnitude x : Int) = a) ∨ (negative x = false ∧ (magnitude x : Int) = a) := by
  rw [rank] at here
  split_ifs at here <;> simp_all

private theorem alike_of_rank {x y : Float} {a : Int} (left : rank x = some a) (right : rank y = some a) :
    Alike x y := by
  obtain ⟨sign, size⟩ | ⟨sign, size⟩ := rank_parts left <;>
    obtain ⟨sign', size'⟩ | ⟨sign', size'⟩ := rank_parts right
  · exact .inl (ext_parts (sign.trans sign'.symm) (by omega))
  · exact .inr (by omega)
  · exact .inr (by omega)
  · exact .inl (ext_parts (sign.trans sign'.symm) (by omega))

theorem alike_of_not_lt {x y : Float} (left : isNaN x = false) (right : isNaN y = false)
    (below : lt x y = false) (above : lt y x = false) : Alike x y := by
  simp only [isNaN_eq, Option.isNone_eq_false_iff, Option.isSome_iff_exists] at left right
  obtain ⟨a, here⟩ := left
  obtain ⟨b, there⟩ := right
  have same : a = b := by
    simp only [lt, here, there, decide_eq_false_iff_not] at below above
    omega
  exact alike_of_rank here (same ▸ there)

end Double
end Trackline
