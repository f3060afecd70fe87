import Trackline.Document

/-! Tracks thinned side by side. A pool holds one job for each track, and in each turn some
job goes on by one step; nobody says in what order. A job has its decimator to itself, so
whatever the order is, it ends with the same result. -/
namespace Trackline

/-- A track in a pool: not begun yet, with the points that are still to come, or done. -/
inductive Job where
  | waiting (track : Track)
  | thinning (d : Decimator) (name : Option String) (rest : List Point)
  | done (result : Except Error (Option Placemark))

namespace Job

variable {stride : Nat}

def advance (stride : Nat) : Job → Job
  | .waiting track =>
    match Decimator.new stride with
    | .ok d => .thinning { d with style := track.style, span := track.span } track.name track.points
    | .error error => .done (.error error)
  | .thinning d name (p :: rest) => .thinning (d.push p) name rest
  | .thinning d name [] => .done (.ok (d.take.1.value.map fun p => { p with name }))
  | .done result => .done result

def result? : Job → Option (Except Error (Option Placemark))
  | .done result => some result
  | _ => none

def due : Job → Nat
  | .waiting track => track.points.length + 2
  | .thinning _ _ rest => rest.length + 1
  | .done _ => 0

def outcome (stride : Nat) : Job → Except Error (Option Placemark)
  | .waiting track => (Decimator.new stride).map fun d => (track.placemark? d).value
  | .thinning d name rest => .ok ((d.extend rest).take.1.value.map fun p => { p with name })
  | .done result => result

private theorem outcome_advance (job : Job) : (job.advance stride).outcome stride = job.outcome stride := by
  cases job with
  | waiting track =>
    simp only [advance, outcome]
    cases Decimator.new stride <;> rfl
  | thinning d name rest => cases rest <;> rfl
  | done result => rfl

private theorem due_advance (positive : 0 < stride) (job : Job) : (job.advance stride).due = job.due - 1 := by
  cases job with
  | waiting track => simp [advance, Decimator.new, positive, due]
  | thinning d name rest => cases rest <;> rfl
  | done result => rfl

private theorem result?_eq (stride : Nat) (job : Job) :
    job.result? = if job.due = 0 then some (job.outcome stride) else none := by
  cases job <;> rfl

end Job

namespace Pool
open Job

variable {stride : Nat}

def turn (stride : Nat) (pool : List Job) (place : Nat) : List Job :=
  pool.modify place (advance stride)

def run (stride : Nat) (pool : List Job) (turns : List Nat) : List Job :=
  turns.foldl (turn stride) pool

def results? (pool : List Job) : Option (List (Except Error (Option Placemark))) := pool.mapM result?

/-- Every track had the turns it needs: one to begin, one for each point, one to end. -/
def Served (tracks : List Track) (turns : List Nat) : Prop :=
  ∀ i (inside : i < tracks.length), tracks[i].points.length + 2 ≤ turns.count i

instance (tracks : List Track) (turns : List Nat) : Decidable (Served tracks turns) :=
  inferInstanceAs (Decidable (∀ i (_ : i < tracks.length), _))

private theorem getElem?_turn (pool : List Job) (place i : Nat) :
    (turn stride pool place)[i]? =
      pool[i]?.map fun job => if place = i then job.advance stride else job :=
  List.getElem?_modify ..

private theorem outcomes_turn (pool : List Job) (place : Nat) :
    (turn stride pool place).map (outcome stride) = pool.map (outcome stride) := by
  apply List.ext_getElem?
  intro i
  rw [List.getElem?_map, List.getElem?_map, getElem?_turn, Option.map_map]
  refine Option.map_congr fun job _ => ?_
  rw [Function.comp_apply]
  split
  · exact outcome_advance job
  · rfl

private theorem outcomes_run (pool : List Job) (turns : List Nat) :
    (run stride pool turns).map (outcome stride) = pool.map (outcome stride) := by
  induction turns generalizing pool with
  | nil => rfl
  | cons place rest ih => exact (ih (turn stride pool place)).trans (outcomes_turn pool place)

private theorem due_turn (positive : 0 < stride) (pool : List Job) (place i : Nat) :
    (turn stride pool place)[i]?.map due =
      pool[i]?.map fun job => job.due - if place = i then 1 else 0 := by
  rw [getElem?_turn, Option.map_map]
  refine Option.map_congr fun job _ => ?_
  rw [Function.comp_apply]
  split
  · exact due_advance positive job
  · rfl

private theorem due_run (positive : 0 < stride) (pool : List Job) (turns : List Nat) (i : Nat) :
    (run stride pool turns)[i]?.map due = pool[i]?.map fun job => job.due - turns.count i := by
  induction turns generalizing pool with
  | nil => rfl
  | cons place rest ih =>
    -- A turn takes one from its own job and nothing from the others, so turns can be counted.
    have later := congrArg (Option.map (· - rest.count i)) (due_turn positive pool place i)
    rw [Option.map_map, Option.map_map] at later
    refine (ih (turn stride pool place)).trans (later.trans (Option.map_congr fun job _ => ?_))
    rw [Function.comp_apply, List.count_cons, Nat.sub_sub, Nat.add_comm]
    simp

private theorem results?_eq (stride : Nat) (pool : List Job) :
    results? pool =
      if ∀ job ∈ pool, job.due = 0 then some (pool.map (outcome stride)) else none := by
  induction pool with
  | nil => rfl
  | cons job rest ih =>
    rw [results?] at ih
    rw [results?, List.mapM_cons, ih, result?_eq stride]
    simp only [List.forall_mem_cons]
    by_cases first : job.due = 0
    · simp only [first, if_true, true_and]
      split <;> rfl
    · simp [first]

private theorem served_iff (positive : 0 < stride) (tracks : List Track) (turns : List Nat) :
    (∀ job ∈ run stride (tracks.map .waiting) turns, job.due = 0) ↔ Served tracks turns := by
  have left (i : Nat) : (run stride (tracks.map .waiting) turns)[i]?.map due =
      tracks[i]?.map fun track => track.points.length + 2 - turns.count i := by
    rw [due_run positive, List.getElem?_map, Option.map_map]
    rfl
  constructor
  · intro done i inside
    have place := left i
    rw [List.getElem?_eq_getElem inside, Option.map_some, Option.map_eq_some_iff] at place
    obtain ⟨job, found, rest⟩ := place
    rw [done job (List.mem_of_getElem? found)] at rest
    omega
  · intro served job member
    obtain ⟨i, found⟩ := List.getElem?_of_mem member
    have place := left i
    rw [found, Option.map_some, eq_comm, Option.map_eq_some_iff] at place
    obtain ⟨track, here, rest⟩ := place
    obtain ⟨inside, rfl⟩ := List.getElem?_eq_some_iff.mp here
    have enough := served i inside
    omega

/-- Whatever the order of the turns is, the results are those of each track alone, in the
order of the tracks, and they are there exactly once every track had its turns. -/
theorem results_any_order (positive : 0 < stride) (tracks : List Track) (turns : List Nat) :
    results? (run stride (tracks.map .waiting) turns) =
      if Served tracks turns then
        some (tracks.map fun track => (Job.waiting track).outcome stride)
      else none := by
  rw [results?_eq stride, outcomes_run, List.map_map]
  simp only [served_iff positive]
  rfl

end Pool
end Trackline
