import Mathlib.Data.List.Forall2
import Trackline.Table.Row

/-! What comes of the rows of a table. Each row answers for itself: it is passed over with one warning,
or it gives one fix, with a warning if its time was asked for and cannot be had. -/
namespace Trackline

def Event.skips : Event → Bool
  | .skippedRow _ => true
  | _ => false

def Event.misses : Event → Bool
  | .rowWithoutTime _ => true
  | _ => false

/-- The number of the row that an event warns of. -/
def Event.row? : Event → Option Nat
  | .skippedRow line | .rowWithoutTime line => some line
  | _ => none

namespace Table

variable (columns : Columns)

/-- A row with a number in both of its coordinate cells. -/
structure Placed (row : List (List Char)) (latitude longitude : Float) : Prop where
  latitude : ∃ cell, row[columns.latitude]? = some cell ∧ Double.read? cell = some latitude
  longitude : ∃ cell, row[columns.longitude]? = some cell ∧ Double.read? cell = some longitude

/-- A row with whole seconds in a cell, and these in the range of instants. -/
def Timed (column : Nat) (row : List (List Char)) (t : Instant) : Prop :=
  ∃ cell, row[column]? = some cell ∧ readInt cell = some t.seconds ∧ t.nanos = 0

/-- What a row gives, and what is reported of it. -/
inductive Gives (line : Nat) (row : List (List Char)) : Logged (Option Fix) → Prop
  | skipped (nowhere : ∀ x y, ¬Placed columns row x y) : Gives line row ⟨none, [.skippedRow line]⟩
  | bare {x y : Float} (placed : Placed columns row x y) (unasked : columns.time = none) :
    Gives line row ⟨some { latitude := x, longitude := y }, []⟩
  | missed {x y : Float} {column : Nat} (placed : Placed columns row x y) (asked : columns.time = some column)
    (never : ∀ t, ¬Timed column row t) :
    Gives line row ⟨some { latitude := x, longitude := y }, [.rowWithoutTime line]⟩
  | timed {x y : Float} {column : Nat} {t : Instant} (placed : Placed columns row x y)
    (asked : columns.time = some column) (time : Timed column row t) :
    Gives line row ⟨some { latitude := x, longitude := y, time := some t }, []⟩

/-- What the rows of a table give, each under its own number. -/
def GivesAll (first : Nat) (table : List (List (List Char))) (parts : List (Logged (Option Fix))) : Prop :=
  List.Forall₂ (fun numbered part => Gives columns numbered.2 numbered.1 part) (table.zipIdx first) parts

private theorem number?_eq_some_iff (row : List (List Char)) (column : Nat) (x : Float) :
    number? row column = some x ↔ ∃ cell, row[column]? = some cell ∧ Double.read? cell = some x :=
  Option.bind_eq_some_iff

private theorem instant?_eq_some_iff (row : List (List Char)) (column : Nat) (t : Instant) :
    instant? row column = some t ↔ Timed column row t := by
  unfold instant? Timed
  cases found : row[column]? with
  | none => simp
  | some cell =>
    cases number : readInt cell with
    | none => simp [number]
    | some seconds =>
      have only : (∃ other, some cell = some other ∧ readInt other = some t.seconds ∧ t.nanos = 0) ↔
          seconds = t.seconds ∧ t.nanos = 0 := by simp [number]
      rw [only]
      simp only [Option.bind_eq_bind, Option.bind_some, number]
      constructor
      · intro given
        split at given
        · obtain ⟨same, whole⟩ := Instant.of?_some given
          exact ⟨same.symm, whole⟩
        · contradiction
      · rintro ⟨rfl, whole⟩
        have early := t.earliest
        have late := t.latest
        have wide : Nat.pow 2 63 = 2 ^ 63 := rfl
        rw [if_pos (by omega), Instant.of?, dif_pos ⟨early, late⟩, ← whole]

private theorem gives_fix? (line : Nat) (row : List (List Char)) : Gives columns line row (fix? columns line row) := by
  unfold fix?
  have place := number?_eq_some_iff row
  cases first : number? row columns.latitude with
  | none => exact .skipped fun x y placed => by simp [(place _ x).mpr placed.latitude] at first
  | some x =>
    cases second : number? row columns.longitude with
    | none => exact .skipped fun x y placed => by simp [(place _ y).mpr placed.longitude] at second
    | some y =>
      have placed : Placed columns row x y := ⟨(place _ x).mp first, (place _ y).mp second⟩
      dsimp only
      cases asked : columns.time with
      | none => exact .bare placed asked
      | some column =>
        dsimp only
        cases time : instant? row column with
        | none =>
          refine .missed placed asked fun t timed => ?_
          rw [(instant?_eq_some_iff row column t).mpr timed] at time
          contradiction
        | some t => exact .timed placed asked ((instant?_eq_some_iff row column t).mp time)

/-- The whole of a table from what its rows give. -/
def assembled (parts : List (Logged (Option Fix))) : Logged (Except Error (List Fix)) :=
  let fixes := parts.flatMap (·.value.toList)
  ⟨.ok fixes, parts.flatMap (·.log) ++ [.readRows fixes.length]⟩

def parts (line : Nat) (table : List (List (List Char))) : List (Logged (Option Fix)) :=
  (table.zipIdx line).map fun numbered => fix? columns numbered.2 numbered.1

private theorem rows_failed (line : Nat) {records : List (Option (List (List Char)))} (failed : none ∈ records) :
    (rows columns line records).value = .error .table := by
  induction records generalizing line with
  | nil => contradiction
  | cons record rest ih =>
    cases record with
    | none => rfl
    | some row =>
      have later : none ∈ rest := by simpa using failed
      rw [rows, ih (line + 1) later]
      rfl

private theorem rows_parts (line : Nat) (table : List (List (List Char))) :
    rows columns line (table.map some) =
      ⟨.ok ((parts columns line table).flatMap (·.value.toList)),
        (parts columns line table).flatMap (·.log)⟩ := by
  induction table generalizing line with
  | nil => rfl
  | cons row rest ih =>
    rw [List.map_cons, rows, ih (line + 1)]
    rfl

private theorem read_parts (table : List (List (List Char))) :
    read columns (table.map some) = assembled (parts columns 2 table) := by
  rw [read, rows_parts]
  rfl

section Accounts

variable {columns} {line : Nat} {row : List (List Char)} {part : Logged (Option Fix)}

private theorem Gives.once (given : Gives columns line row part) :
    part.value.toList.length + part.log.countP Event.skips = 1 := by
  cases given <;> rfl

private theorem Gives.timeless (given : Gives columns line row part) (unasked : columns.time = none) :
    (∀ f ∈ part.value, f.time = none) ∧ part.log.countP Event.misses = 0 := by
  cases given <;> simp_all [Event.misses]

private theorem Gives.untimed (given : Gives columns line row part) (asked : columns.time ≠ none) :
    part.log.countP Event.misses = part.value.toList.countP (·.time.isNone) := by
  cases given <;> simp_all [Event.misses]

private theorem Gives.warned (given : Gives columns line row part) :
    part.log.filterMap Event.row? = [] ∨ part.log.filterMap Event.row? = [line] := by
  cases given <;> simp [Event.row?]

private theorem Gives.placed {f : Fix} (given : Gives columns line row part) (kept : part.value = some f) :
    Placed columns row f.latitude f.longitude ∧ f.elevation = none := by
  cases given <;> cases kept <;> exact ⟨‹_›, rfl⟩

private theorem Gives.kept {x y : Float} (given : Gives columns line row part) (placed : Placed columns row x y) :
    ∃ f, part.value = some f := by
  cases given with
  | skipped nowhere => exact absurd placed (nowhere x y)
  | _ => exact ⟨_, rfl⟩

/-- What is told of the rows of a table with the fixes that come of it: each row gives a fix or is
passed over, each fix without a time that was asked for is told, and the rows are told in their order. -/
structure Accounted (columns : Columns) (first rows : Nat) (fixes : List Fix) (log : List Event) : Prop where
  whole : fixes.length + log.countP Event.skips = rows
  timeless : columns.time = none → (∀ f ∈ fixes, f.time = none) ∧ log.countP Event.misses = 0
  untimed : columns.time ≠ none → log.countP Event.misses = fixes.countP (·.time.isNone)
  rising : (log.filterMap Event.row?).Pairwise (· < ·)
  inside : ∀ n ∈ log.filterMap Event.row?, first ≤ n ∧ n < first + rows

private theorem accounted_parts {first : Nat} {table : List (List (List Char))} {parts : List (Logged (Option Fix))}
    (given : GivesAll columns first table parts) :
    Accounted columns first table.length (parts.flatMap (·.value.toList)) (parts.flatMap (·.log)) := by
  induction table generalizing first parts with
  | nil =>
    cases given
    constructor <;> simp
  | cons row rest ih =>
    rw [GivesAll, List.zipIdx_cons] at given
    cases given with
    | cons here later =>
      obtain ⟨whole, timeless, untimed, rising, inside⟩ := ih later
      constructor
      · have once := here.once
        simp only [List.flatMap_cons, List.length_append, List.countP_append, List.length_cons]
        omega
      · intro unasked
        obtain ⟨times, told⟩ := timeless unasked
        obtain ⟨time, tell⟩ := here.timeless unasked
        simp only [List.flatMap_cons, List.mem_append, List.countP_append, tell, told]
        refine ⟨?_, trivial⟩
        rintro f (now | after)
        · exact time f (Option.mem_toList.mp now)
        · exact times f after
      · intro asked
        simp only [List.flatMap_cons, List.countP_append, here.untimed asked, untimed asked]
      · simp only [List.flatMap_cons, List.filterMap_append]
        rcases here.warned with quiet | one
        · rw [quiet]
          exact rising
        · rw [one]
          exact List.pairwise_cons.mpr ⟨fun n member => by have := inside n member; omega, rising⟩
      · simp only [List.flatMap_cons, List.filterMap_append, List.length_cons]
        intro n member
        rcases List.mem_append.mp member with now | after
        · rcases here.warned with quiet | one
          · simp [quiet] at now
          · rw [one] at now
            have same := List.mem_singleton.mp now
            omega
        · have bounds := inside n after
          omega

end Accounts

private theorem gives_parts (line : Nat) (table : List (List (List Char))) :
    GivesAll columns line table (parts columns line table) := by
  rw [GivesAll, parts, List.forall₂_map_right_iff]
  exact List.forall₂_same.mpr fun numbered _ => gives_fix? columns numbered.2 numbered.1

private theorem parts_set (line i : Nat) (table : List (List (List Char))) (row : List (List Char)) :
    parts columns line (table.set i row) = (parts columns line table).set i (fix? columns (line + i) row) := by
  apply List.ext_getElem?
  intro n
  by_cases here : i = n
  · subst here
    by_cases inside : i < table.length <;> simp [parts, inside]
  · simp [parts, here]

private theorem exists_table {α : Type} {records : List (Option α)} (text : none ∉ records) :
    ∃ table : List α, records = table.map some := by
  induction records with
  | nil => exact ⟨[], rfl⟩
  | cons record rest ih =>
    rw [List.mem_cons, not_or] at text
    obtain ⟨table, rfl⟩ := ih text.2
    cases record with
    | none => exact absurd rfl text.1
    | some row => exact ⟨row :: table, rfl⟩

section Found

variable {columns} {records : List (Option (List (List Char)))} {found : List Fix}
  (done : (read columns records).value = .ok found)

include done

private theorem read_ok :
    ∃ table, records = table.map some ∧ found = (parts columns 2 table).flatMap (·.value.toList) := by
  have text : none ∉ records := by
    intro failed
    rw [read, Logged.andThen, rows_failed columns 2 failed] at done
    contradiction
  obtain ⟨table, rfl⟩ := exists_table text
  rw [read_parts] at done
  cases done
  exact ⟨table, rfl, rfl⟩

theorem placed_of_mem {f : Fix} (member : f ∈ found) :
    ∃ row, some row ∈ records ∧ Placed columns row f.latitude f.longitude ∧ f.elevation = none := by
  obtain ⟨table, rfl, rfl⟩ := read_ok done
  obtain ⟨part, here, inside⟩ := List.mem_flatMap.mp member
  obtain ⟨⟨row, line⟩, numbered, rfl⟩ := List.mem_map.mp here
  exact ⟨row, List.mem_map_of_mem (List.fst_mem_of_mem_zipIdx numbered),
    (gives_fix? columns line row).placed (Option.mem_toList.mp inside)⟩

theorem mem_of_placed {row : List (List Char)} (member : some row ∈ records)
    (placed : ∃ x y, Placed columns row x y) : ∃ f ∈ found, Placed columns row f.latitude f.longitude := by
  obtain ⟨table, rfl, rfl⟩ := read_ok done
  have here : row ∈ table := by simpa using member
  obtain ⟨i, there⟩ := List.mem_iff_getElem?.mp here
  obtain ⟨x, y, place⟩ := placed
  obtain ⟨f, kept⟩ := (gives_fix? columns (2 + i) row).kept place
  have numbered : (row, 2 + i) ∈ table.zipIdx 2 := List.mk_add_mem_zipIdx_iff_getElem?.mpr there
  refine ⟨f, ?_, ((gives_fix? columns (2 + i) row).placed kept).1⟩
  exact List.mem_flatMap.mpr ⟨_, List.mem_map_of_mem numbered, Option.mem_toList.mpr kept⟩

end Found

/-- Each row of a table is accounted for by itself. A record that is no text fails the whole table, and
otherwise the fixes and what is told are put together from what each row gives under its number, the
headings being row 1. What another row gives stays the same when one row is replaced. -/
theorem rows_accounted (columns : Columns) :
    (∀ records, none ∈ records → (read columns records).value = .error .table) ∧
    ∀ table : List (List (List Char)), ∃ parts,
      GivesAll columns 2 table parts ∧
      read columns (table.map some) = assembled parts ∧
      Accounted columns 2 table.length (parts.flatMap (·.value.toList)) (parts.flatMap (·.log)) ∧
      ∀ i row, ∃ part, Gives columns (2 + i) row part ∧
        read columns ((table.set i row).map some) = assembled (parts.set i part) := by
  refine ⟨fun records failed => ?_, fun table => ?_⟩
  · rw [read, Logged.andThen, rows_failed columns 2 failed]
  · have given := gives_parts columns 2 table
    refine ⟨parts columns 2 table, given, read_parts columns table, accounted_parts given, fun i row => ?_⟩
    exact ⟨_, gives_fix? columns (2 + i) row, by rw [read_parts, parts_set]⟩

/-- Four rows below the headings: a fix with a time, a word for a latitude, a time out of range, and a row
that ends too early. -/
theorem rows_of_four :
    let columns : Columns := ⟨0, 1, some 2⟩
    let table := [["1", "2", "100"], ["x", "2", "100"], ["3", "4", "8210266876800"], ["5"]].map (·.map String.toList)
    (read columns (table.map some ++ [none])).value = .error .table ∧
      (∃ parts, read columns (table.map some) = assembled parts ∧
        Accounted columns 2 4 (parts.flatMap (·.value.toList)) (parts.flatMap (·.log))) ∧
      (read columns (table.map some)).log = [.skippedRow 3, .rowWithoutTime 4, .skippedRow 5, .readRows 2] := by
  intro columns table
  obtain ⟨failed, put⟩ := rows_accounted columns
  obtain ⟨parts, _, whole, told, _⟩ := put table
  exact ⟨failed _ (by simp), ⟨parts, whole, told⟩, by decide +kernel⟩

end Table
end Trackline
