import Trackline.Drawing
import Trackline.Proofs.Segments

/-! The chunks of a trip, told by their places. A chunk is drawn from the last fix before
it, so the places where chunks begin and end form one chain. -/
namespace Trackline.Drawing
open Shape

variable {α : Type}

/-- The place that each chunk is drawn from and the place that it ends at, after `count`
places that came before. -/
def bounds (count : Nat) : List (List α) → List (Nat × Nat)
  | [] => []
  | chunk :: rest => (count - 1, count + chunk.length - 1) :: bounds (count + chunk.length) rest

def moving (places : List (Nat × Nat)) : List (Nat × Nat) := places.filter fun b => b.1 < b.2

/-- How long each chunk lasts, after a chunk that ended at `before`. -/
def spans (before : Option Instant) : List (List Fix) → List (Option TimeSpan)
  | [] => []
  | chunk :: rest => lasting before chunk :: spans (lastTime chunk) rest

theorem chunkLength_pos (flushEvery : Nat) (fixes : List Fix) : 0 < chunkLength flushEvery fixes := by
  rw [chunkLength]
  split <;> omega

theorem chunkLength_eq {fixes : List Fix} (nonempty : fixes ≠ []) (flushEvery : Nat) :
    chunkLength flushEvery fixes = if flushEvery = 0 then fixes.length else flushEvery := by
  rw [chunkLength, Nat.max_eq_right (List.length_pos_of_ne_nil nonempty)]

/-- The first chunk starts at zero like the place before it, which is cut off at zero. -/
theorem chunk_start (length k : Nat) : (if k = 0 then 0 else k * length - 1) = k * length - 1 := by
  split
  next first => simp [first]
  next => rfl

theorem length_bounds (count : Nat) (chunks : List (List α)) :
    (bounds count chunks).length = chunks.length := by
  induction chunks generalizing count with
  | nil => rfl
  | cons chunk rest ih => simp [bounds, ih]

theorem length_spans (before : Option Instant) (chunks : List (List Fix)) :
    (spans before chunks).length = chunks.length := by
  induction chunks generalizing before with
  | nil => rfl
  | cons chunk rest ih => simp [spans, ih]

theorem chunks_flatten (length : Nat) (xs : List α) : (chunks length xs).flatten = xs := by
  induction xs using chunks.induct length with
  | case1 => simp [chunks]
  | case2 a rest ih => rw [chunks, List.flatten_cons, ih, List.cons_append, List.take_append_drop]

theorem chunks_nonempty (length : Nat) (xs : List α) : ∀ chunk ∈ chunks length xs, chunk ≠ [] := by
  induction xs using chunks.induct length with
  | case1 => simp [chunks]
  | case2 a rest ih =>
    rw [chunks]
    intro chunk member
    rcases List.mem_cons.mp member with rfl | inside
    · simp
    · exact ih chunk inside

private theorem count_cons (length size : Nat) (positive : 0 < length) :
    (size + 1 + length - 1) / length = (size - (length - 1) + length - 1) / length + 1 := by
  rcases Nat.lt_or_ge size length with short | long
  · have zero : size - (length - 1) = 0 := by omega
    rw [zero, Nat.div_eq_of_lt (a := 0 + length - 1) (by omega), show size + 1 + length - 1 = size + length by omega,
      Nat.add_div_right _ positive, Nat.div_eq_of_lt short]
  · rw [show size + 1 + length - 1 = size - (length - 1) + length - 1 + length by omega,
      Nat.add_div_right _ positive]

theorem chunks_eq (length : Nat) (positive : 0 < length) (xs : List α) :
    chunks length xs = (List.range ((xs.length + length - 1) / length)).map
      fun k => (xs.drop (k * length)).take length := by
  induction xs using chunks.induct length with
  | case1 =>
    have zero : (length - 1) / length = 0 := Nat.div_eq_of_lt (by omega)
    simp [chunks, zero]
  | case2 a rest ih =>
    rw [chunks, ih, List.length_cons, count_cons _ _ positive, List.length_drop, List.range_succ_eq_map,
      List.map_cons, List.map_map]
    congr 1
    · obtain ⟨less, rfl⟩ : ∃ less, length = less + 1 := ⟨length - 1, by omega⟩
      simp
    · apply List.map_congr_left
      intro k _
      have later : (k + 1) * length = length - 1 + k * length + 1 := by
        rw [Nat.add_one_mul]
        omega
      simp only [Function.comp_apply, Nat.succ_eq_add_one, later, List.drop_succ_cons, List.drop_drop]

theorem bounds_chunks (length : Nat) (positive : 0 < length) (xs : List α) (count : Nat) :
    bounds count (chunks length xs) = (List.range ((xs.length + length - 1) / length)).map
      fun k => (count + k * length - 1, count + min ((k + 1) * length) xs.length - 1) := by
  induction xs using chunks.induct length generalizing count with
  | case1 =>
    have zero : (length - 1) / length = 0 := Nat.div_eq_of_lt (by omega)
    simp [chunks, bounds, zero]
  | case2 a rest ih =>
    rw [chunks, bounds, ih, List.length_cons, List.length_cons, count_cons _ _ positive, List.length_drop,
      List.range_succ_eq_map, List.map_cons, List.map_map]
    congr 1
    · simp only [List.length_take, Nat.zero_mul, Nat.zero_add, Nat.one_mul, Nat.add_zero]
      congr 2
      omega
    · apply List.map_congr_left
      intro k inside
      have more : k < (rest.length - (length - 1) + length - 1) / length := List.mem_range.mp inside
      have reached : k * length + length ≤ rest.length - (length - 1) + length - 1 := by
        have below := (Nat.le_div_iff_mul_le positive).mp more
        rwa [Nat.add_one_mul] at below
      simp only [Function.comp_apply, Nat.succ_eq_add_one, List.length_take, Nat.add_one_mul]
      congr 1 <;> omega

/-- The bounds that move on are the links of a chain of stops: it only goes forward, from
the place before the chunks to the last place of the last chunk, and each chunk ends at a
stop. -/
theorem chain_bounds (stride : Nat) (positive : 0 < stride) (count : Nat) (chunks : List (List α))
    (nonempty : ∀ chunk ∈ chunks, chunk ≠ []) :
    ∃ rest, ((count - 1) :: rest).Pairwise (· < ·) ∧
      ((count - 1) :: rest).getLast? = some (count + chunks.flatten.length - 1) ∧
      consecutive ((count - 1) :: rest) =
        (moving (bounds count chunks)).flatMap (fun b => consecutive (stops stride b.1 b.2)) ∧
      ∀ b ∈ bounds count chunks, b.2 ∈ (count - 1) :: rest := by
  induction chunks generalizing count with
  | nil => exact ⟨[], by simp, by simp, by simp [consecutive, moving, bounds], by simp [bounds]⟩
  | cons chunk chunks ih =>
    obtain ⟨rest, sorted, last, linked, reached⟩ :=
      ih (count + chunk.length) fun later member => nonempty later (by simp [member])
    have size : 0 < chunk.length := List.length_pos_of_ne_nil (nonempty chunk (by simp))
    have total : count + (chunk :: chunks).flatten.length - 1 =
        count + chunk.length + chunks.flatten.length - 1 := by
      simp [Nat.add_assoc]
    by_cases moves : count - 1 < count + chunk.length - 1
    · obtain ⟨inner, through, forward⟩ := stops_sorted stride _ _ positive moves
      refine ⟨inner ++ (count + chunk.length - 1) :: rest, ?_, ?_, ?_, ?_⟩
      · have links := List.pairwise_cons.mp sorted
        rw [← List.cons_append, List.append_cons, List.pairwise_append]
        refine ⟨by simpa using forward, links.2, ?_⟩
        intro place before later behind
        rw [← List.cons_append, List.pairwise_append] at forward
        have beyond := links.1 later behind
        rcases List.mem_append.mp before with inside | final
        · exact Nat.lt_trans (forward.2.2 place inside _ (List.mem_singleton_self _)) beyond
        · rwa [List.mem_singleton.mp final]
      · rw [total, ← last, ← List.cons_append, List.getLast?_append_of_ne_nil _ (by simp)]
      · rw [← List.cons_append, consecutive_append, linked, List.cons_append, ← through]
        simp [moving, bounds, moves]
      · intro b member
        rcases List.mem_cons.mp member with rfl | inside
        · simp
        · have stop := reached b inside
          simp only [List.mem_cons, List.mem_append] at stop ⊢
          tauto
    · have still : count + chunk.length - 1 = count - 1 := by omega
      rw [still] at sorted last linked reached
      refine ⟨rest, sorted, by rw [total, last], ?_, ?_⟩
      · simp [linked, moving, bounds, still]
      · intro b member
        rcases List.mem_cons.mp member with rfl | inside
        · simp [still]
        · exact reached b inside

end Trackline.Drawing
