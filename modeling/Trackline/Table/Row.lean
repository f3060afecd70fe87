import Trackline.Event
import Trackline.Point
import Trackline.Number.Text
import Trackline.Table.Record

/-! Fixes from the rows of a table. A row without coordinates is passed over, and a
time that cannot be read is left out; both are reported with the number of the row,
the headings being row 1. -/
namespace Trackline.Table

/-- Where the values of a fix stand in a row, counted from zero. -/
structure Columns where
  latitude : Nat
  longitude : Nat
  time : Option Nat
  deriving DecidableEq

def number? (row : List (List Char)) (column : Nat) : Option Float :=
  row[column]?.bind Double.read?

def instant? (row : List (List Char)) (column : Nat) : Option Instant := do
  let seconds ← readInt (← row[column]?)
  if -(Nat.pow 2 63 : Int) ≤ seconds ∧ seconds < Nat.pow 2 63 then Instant.of? seconds 0 else none

def fix? (columns : Columns) (line : Nat) (row : List (List Char)) : Logged (Option Fix) :=
  match number? row columns.latitude, number? row columns.longitude with
  | some latitude, some longitude =>
    match columns.time with
    | none => ⟨some { latitude, longitude }, []⟩
    | some column =>
      match instant? row column with
      | some t => ⟨some { latitude, longitude, time := some t }, []⟩
      | none => ⟨some { latitude, longitude }, [.rowWithoutTime line]⟩
  | _, _ => ⟨none, [.skippedRow line]⟩

def rows (columns : Columns) (line : Nat) :
    List (Option (List (List Char))) → Logged (Except Error (List Fix))
  | [] => ⟨.ok [], []⟩
  | none :: _ => ⟨.error .table, []⟩
  | some row :: rest =>
    let here := fix? columns line row
    let after := rows columns (line + 1) rest
    ⟨after.value.map (here.value.toList ++ ·), here.log ++ after.log⟩

/-- All fixes of the rows below the headings, or none when a record is not text. -/
def read (columns : Columns) (records : List (Option (List (List Char)))) :
    Logged (Except Error (List Fix)) :=
  (rows columns 2 records).andThen fun fixes => ⟨.ok fixes, [.readRows fixes.length]⟩

def fixes (columns : Columns) (bytes : List UInt8) : Logged (Except Error (List Fix)) :=
  read columns (records bytes)

end Trackline.Table
