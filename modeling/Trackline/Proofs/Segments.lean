import Mathlib.Data.List.Forall2
import Trackline.Shape

/-! Segments between places of a track. A track is thinned to some of its places, and
what is drawn are the pairs of neighbours among these. -/
namespace Trackline
open Shape

/-- The places of a thinned track: every `stride`-th one from the first on, and the
last one. -/
def stops (stride first last : Nat) : List Nat :=
  List.range' first ((last - first) / stride + 1) stride ++
    if (last - first) % stride = 0 then [] else [last]

def ends (segments : List Segment) : List Point := segments.flatMap fun s => [s.1, s.2]

def Placemark.segments (p : Placemark) : List Segment := (p.geometry.firstLine.map Line.segments).getD []

/-- A segment from the point at one place of a track to the point at another. -/
def Joins (track : List Point) (s : Segment) (places : Nat × Nat) : Prop :=
  track[places.1]? = some s.1 ∧ track[places.2]? = some s.2

@[simp] theorem firstLine_track (line : Line) : (Geometry.track line).firstLine = some line := rfl

theorem pairs_ends (segments : List Segment) : Line.pairs (ends segments) = segments := by
  induction segments with
  | nil => rfl
  | cons s rest ih => exact congrArg (s :: ·) ih

@[simp] theorem segments_ofSegments (segments : List Segment) :
    (Line.ofSegments segments).segments = segments := pairs_ends segments

theorem length_ends (segments : List Segment) : (ends segments).length = 2 * segments.length := by
  simp [ends, Nat.mul_comm]

@[simp] theorem length_consecutive {α : Type} (xs : List α) :
    (consecutive xs).length = xs.length - 1 := by
  simp [consecutive]

theorem consecutive_append {α : Type} (xs ys : List α) (a : α) :
    consecutive (xs ++ a :: ys) = consecutive (xs ++ [a]) ++ consecutive (a :: ys) := by
  induction xs with
  | nil => simp [consecutive]
  | cons x rest ih =>
    cases rest with
    | nil => simp [consecutive]
    | cons y rest => simpa [consecutive] using ih

theorem consecutive_concat {α : Type} (xs : List α) (a b : α) :
    consecutive (xs ++ [a] ++ [b]) = consecutive (xs ++ [a]) ++ [(a, b)] := by
  rw [List.append_assoc, List.singleton_append, consecutive_append]
  simp [consecutive]

theorem consecutive_forall₂ {α β : Type} {R : α → β → Prop} {xs : List α} {ys : List β}
    (related : List.Forall₂ R xs ys) :
    List.Forall₂ (fun p q => R p.1 q.1 ∧ R p.2 q.2) (consecutive xs) (consecutive ys) := by
  induction related with
  | nil => exact .nil
  | cons first rest ih =>
    cases rest with
    | nil => exact .nil
    | cons second rest => exact .cons ⟨first, second⟩ ih

theorem forall₂_partner {α β : Type} {R : α → β → Prop} {xs : List α} {ys : List β}
    (related : List.Forall₂ R xs ys) {x : α} (member : x ∈ xs) : ∃ y ∈ ys, R x y := by
  induction related with
  | nil => simp at member
  | cons first rest ih =>
    rcases List.mem_cons.mp member with rfl | later
    · exact ⟨_, List.mem_cons_self, first⟩
    · obtain ⟨y, inside, related⟩ := ih later
      exact ⟨y, List.mem_cons_of_mem _ inside, related⟩

theorem mem_consecutive {α : Type} {xs : List α} {pair : α × α} (member : pair ∈ consecutive xs) :
    pair.1 ∈ xs ∧ pair.2 ∈ xs := by
  obtain ⟨first, second⟩ := List.of_mem_zip member
  exact ⟨first, List.mem_of_mem_tail second⟩

theorem consecutive_range {first count : Nat} {pair : Nat × Nat}
    (member : pair ∈ consecutive (List.range' first count)) : pair.2 = pair.1 + 1 := by
  induction count generalizing first with
  | zero => simp [consecutive] at member
  | succ count ih =>
    cases count with
    | zero => simp [consecutive] at member
    | succ count =>
      rcases List.mem_cons.mp member with rfl | later
      · rfl
      · exact ih later

theorem range_of_consecutive {first : Nat} {rest : List Nat}
    (up : ∀ pair ∈ consecutive (first :: rest), pair.2 = pair.1 + 1) :
    first :: rest = List.range' first (rest.length + 1) := by
  induction rest generalizing first with
  | nil => rfl
  | cons second rest ih =>
    have next : second = first + 1 := up (first, second) (by simp [consecutive])
    have later := ih fun pair member => up pair (List.mem_cons_of_mem _ member)
    rw [List.length_cons, List.range'_succ, ← next, ← later]

theorem getElem?_consecutive {α : Type} (xs : List α) (i : Nat) (inside : i + 1 < xs.length) :
    (consecutive xs)[i]? = some (xs[i], xs[i + 1]) := by
  simp [consecutive, List.getElem?_zip_eq_some, inside, Nat.lt_of_succ_lt inside]

private theorem Joins.append {track : List Point} {s : Segment} {places : Nat × Nat}
    (joins : Joins track s places) (more : List Point) : Joins (track ++ more) s places := by
  obtain ⟨start, stop⟩ := joins
  exact ⟨by simp [List.getElem?_append_left (List.getElem?_eq_some_iff.mp start).1, start],
    by simp [List.getElem?_append_left (List.getElem?_eq_some_iff.mp stop).1, stop]⟩

theorem joins_append {track : List Point} {segments : List Segment} {places : List (Nat × Nat)}
    (joined : List.Forall₂ (Joins track) segments places) (more : List Point) :
    List.Forall₂ (Joins (track ++ more)) segments places :=
  joined.imp fun _ _ joins => joins.append more

theorem joins_mem {track : List Point} {segments : List Segment} {places : List (Nat × Nat)}
    (joined : List.Forall₂ (Joins track) segments places) : ∀ s ∈ segments, s.1 ∈ track ∧ s.2 ∈ track := by
  intro s member
  obtain ⟨_, _, start, stop⟩ := forall₂_partner joined member
  exact ⟨List.mem_of_getElem? start, List.mem_of_getElem? stop⟩

theorem joins_unique {track : List Point} {segments others : List Segment} {places : List (Nat × Nat)}
    (joined : List.Forall₂ (Joins track) segments places)
    (rejoined : List.Forall₂ (Joins track) others places) : segments = others := by
  refine List.left_unique_forall₂' ?_ joined rejoined
  rintro ⟨a, b⟩ places ⟨c, d⟩ ⟨start, stop⟩ ⟨start', stop'⟩
  rw [Prod.mk.injEq]
  exact ⟨Option.some.inj (start.symm.trans start'), Option.some.inj (stop.symm.trans stop')⟩

theorem joins_ends {track : List Point} {segments : List Segment} {first second : Nat}
    {rest : List Nat}
    (joined : List.Forall₂ (Joins track) segments (consecutive (first :: second :: rest))) :
    (ends segments).head? = track[first]? ∧
      (ends segments).getLast? = track[(second :: rest).getLast (by simp)]? := by
  induction rest generalizing segments first second with
  | nil =>
    obtain ⟨s, tail, ⟨start, stop⟩, empty, rfl⟩ := List.forall₂_cons_right_iff.mp joined
    have single : tail = [] := by simpa using empty
    simp [ends, single, start, stop]
  | cons third rest ih =>
    obtain ⟨s, tail, ⟨start, stop⟩, chain, rfl⟩ := List.forall₂_cons_right_iff.mp joined
    obtain ⟨_, last⟩ := ih chain
    have nonempty : ends tail ≠ [] := by
      obtain ⟨t, more, _, _, rfl⟩ := List.forall₂_cons_right_iff.mp chain
      simp [ends]
    refine ⟨by simp [ends, start], ?_⟩
    change (s.1 :: s.2 :: ends tail).getLast? = _
    rw [List.getLast?_cons_of_ne_nil (by simp), List.getLast?_cons_of_ne_nil nonempty, last]
    simp

theorem joins_chain {track : List Point} {segments : List Segment} {places : List Nat}
    (joined : List.Forall₂ (Joins track) segments (consecutive places)) :
    segments.IsChain fun s t => s.2 = t.1 := by
  induction places generalizing segments with
  | nil =>
    rw [List.forall₂_nil_right_iff.mp joined]
    exact .nil
  | cons first rest ih =>
    cases rest with
    | nil =>
      rw [List.forall₂_nil_right_iff.mp joined]
      exact .nil
    | cons second rest =>
      obtain ⟨s, tail, ⟨_, stop⟩, chain, rfl⟩ := List.forall₂_cons_right_iff.mp joined
      have later := ih chain
      cases rest with
      | nil =>
        rw [List.forall₂_nil_right_iff.mp chain]
        exact .singleton s
      | cons third rest =>
        obtain ⟨t, more, ⟨start, _⟩, _, rfl⟩ := List.forall₂_cons_right_iff.mp chain
        exact .cons_cons (Option.some.inj (stop.symm.trans start)) later

theorem stops_one (first last : Nat) : stops 1 first last = List.range' first (last - first + 1) := by
  simp [stops, Nat.mod_one]

theorem range_concat (first count stride : Nat) :
    List.range' first (count + 2) stride =
      List.range' first count stride ++ [first + stride * count] ++ [first + stride * (count + 1)] := by
  rw [List.range'_concat, List.range'_concat]

private theorem strides_up (n stride : Nat) (positive : 0 < stride) :
    (n + stride - 1) / stride = n / stride + if n % stride = 0 then 0 else 1 := by
  have split := Nat.div_add_mod n stride
  have small := Nat.mod_lt n positive
  split_ifs with hit
  · have short : (stride - 1) / stride = 0 := Nat.div_eq_of_lt (by omega)
    have sum : n + stride - 1 = stride * (n / stride) + (stride - 1) := by omega
    rw [sum, Nat.mul_add_div positive, short]
  · have short : (n % stride - 1) / stride = 0 := Nat.div_eq_of_lt (by omega)
    have sum : n + stride - 1 = stride * (n / stride + 1) + (n % stride - 1) := by
      rw [Nat.mul_add_one]
      omega
    rw [sum, Nat.mul_add_div positive, short, Nat.add_zero]

theorem length_stops (stride first last : Nat) (positive : 0 < stride) :
    (stops stride first last).length = (last - first + stride - 1) / stride + 1 := by
  rw [strides_up _ _ positive, stops]
  split_ifs <;> simp

theorem stops_ends (stride first last : Nat) (positive : 0 < stride) (apart : first < last) :
    ∃ second rest, stops stride first last = first :: second :: rest ∧
      (second :: rest).getLast (by simp) = last := by
  have size := length_stops stride first last positive
  have many : 0 < (last - first + stride - 1) / stride := Nat.div_pos (by omega) positive
  have final : (stops stride first last).getLast? = some last := by
    unfold stops
    split_ifs with hit
    · have reached := Nat.mul_div_cancel' (Nat.dvd_of_mod_eq_zero hit)
      rw [List.append_nil, List.range'_concat, List.getLast?_concat, reached]
      congr 1
      omega
    · simp
  have head : stops stride first last = first :: (stops stride first last).tail := by
    simp [stops, List.range'_succ]
  match rest : (stops stride first last).tail with
  | [] =>
    rw [head, rest] at size
    simp only [List.length_singleton] at size
    omega
  | second :: rest' =>
    rw [rest] at head
    refine ⟨second, rest', head, ?_⟩
    rw [head, List.getLast?_cons_of_ne_nil (by simp), List.getLast?_eq_some_getLast (by simp)] at final
    exact Option.some.inj final

theorem stops_sorted (stride first last : Nat) (positive : 0 < stride) (apart : first < last) :
    ∃ inner, stops stride first last = first :: (inner ++ [last]) ∧
      (first :: (inner ++ [last])).Pairwise (· < ·) := by
  obtain ⟨second, rest, through, final⟩ := stops_ends stride first last positive apart
  have parts := List.dropLast_append_getLast (l := second :: rest) (by simp)
  rw [final] at parts
  refine ⟨(second :: rest).dropLast, by rw [parts, through], ?_⟩
  rw [parts, ← through, stops]
  split_ifs with hit
  · rw [List.append_nil]
    exact List.pairwise_lt_range' stride positive
  · refine List.pairwise_append.mpr ⟨List.pairwise_lt_range' stride positive, by simp, ?_⟩
    intro place member final isLast
    obtain ⟨k, bound, rfl⟩ := List.mem_range'.mp member
    rw [List.mem_singleton.mp isLast]
    have whole := Nat.div_add_mod (last - first) stride
    have below : stride * k ≤ stride * ((last - first) / stride) :=
      Nat.mul_le_mul_left stride (by omega)
    omega

/-- Stops from a place to a later one, by way of a stop between them. -/
theorem stops_append (stride : Nat) {first middle last : Nat} (whole : stride ∣ middle - first)
    (positive : 0 < stride) (before : first ≤ middle) (behind : middle ≤ last) :
    consecutive (stops stride first middle) ++ consecutive (stops stride middle last) =
      consecutive (stops stride first last) := by
  obtain ⟨k, distance⟩ := whole
  obtain rfl : middle = first + stride * k := by omega
  have rest : last - first = last - (first + stride * k) + stride * k := by omega
  have up : stops stride first (first + stride * k) = List.range' first k stride ++ [first + stride * k] := by
    rw [stops, Nat.add_sub_cancel_left, Nat.mul_div_cancel_left _ positive, Nat.mul_mod_right,
      if_pos rfl, List.append_nil, List.range'_concat]
  have on : stops stride first last =
      List.range' first k stride ++ stops stride (first + stride * k) last := by
    rw [stops, stops, rest, Nat.add_mul_div_left _ _ positive, Nat.add_mul_mod_self_left, ← List.append_assoc,
      Nat.add_comm _ k, Nat.add_assoc, ← List.range'_append]
  obtain ⟨tail, head⟩ : ∃ tail, stops stride (first + stride * k) last = (first + stride * k) :: tail := by
    rw [stops, List.range'_succ]
    exact ⟨_, rfl⟩
  rw [up, on, head, ← consecutive_append]

end Trackline
