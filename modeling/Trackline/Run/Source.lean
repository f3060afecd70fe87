import Trackline.Settings.Basic
import Trackline.TrackFile

/-! Where fixes come from, told by the path that is to be read. -/
namespace Trackline

inductive Source where
  | input
  | table (path : String)
  | tracks (path : String)
  deriving DecidableEq, Repr

inductive Opened where
  | missing
  /-- Opened, but not to be read: a directory. -/
  | unreadable
  | bytes (bytes : List UInt8)
  deriving DecidableEq

namespace Source

/-- The parts of a path between its slashes; empty parts and single dots count for nothing. -/
def parts (path : String) : List (List Char) :=
  (path.toList.splitOn '/').filter fun part => part ≠ [] ∧ part ≠ ['.']

/-- What stands after the last dot of the last part, unless that part begins with it. -/
def extension? (path : String) : Option (List Char) :=
  match (parts path).getLast? with
  | none => none
  | some last =>
    let behind := last.reverse.takeWhile (· != '.')
    let before := last.reverse.dropWhile (· != '.')
    if last = ['.', '.'] ∨ before.length ≤ 1 then none else some behind.reverse

def ofPath (path : String) : Source :=
  if (extension? path).map (·.map Char.toLower) = some "gpx".toList then .tracks path else .table path

def ofSettings (s : Settings) : Source := (s.input.map ofPath).getD .input

def event : Source → Event
  | .input => .readingInput
  | .table path => .readingTable path
  | .tracks path => .readingTracks path

def fixes (source : Source) (columns : Table.Columns) :
    Opened → Logged (Except Error (List Fix))
  | .missing => ⟨.error .file, []⟩
  | .unreadable =>
    match source with
    | .tracks _ => ⟨.error .trackFile, []⟩
    | _ => ⟨.error .table, []⟩
  | .bytes bytes =>
    match source with
    | .tracks _ => TrackFile.fixes bytes
    | _ => Table.fixes columns bytes

end Source
end Trackline
