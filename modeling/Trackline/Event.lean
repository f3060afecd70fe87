import Trackline.Number.Text

/-! What an operation reports while it runs, which of it is shown, and why an operation
is refused. -/
namespace Trackline

inductive Level where
  | debug
  | info
  | warn
  | error
  deriving DecidableEq, Repr

namespace Level

def rank : Level → Nat
  | .debug => 0
  | .info => 1
  | .warn => 2
  | .error => 3

def word : Level → String
  | .debug => "DEBUG"
  | .info => "INFO"
  | .warn => "WARN"
  | .error => "ERROR"

end Level

inductive Origin where
  | engine
  | program
  deriving DecidableEq, Repr

inductive Event where
  | flushed (points segments : Nat)
  | redefined (tag : String)
  | readTracks (fixes tracks : Nat)
  | skippedRow (line : Nat)
  | rowWithoutTime (line : Nat)
  | readRows (fixes : Nat)
  | built (placemarks fixes : Nat) (mode : String)
  | readingTracks (path : String)
  | readingTable (path : String)
  | readingInput
  | extent (west east south north : String)
  | wrote (name : String) (placemarks : Nat) (path : String)
  | failed (message : String)
  deriving DecidableEq, Repr

namespace Event

def level : Event → Level
  | .flushed .. | .readTracks .. | .readRows .. => .debug
  | .redefined .. | .skippedRow .. | .rowWithoutTime .. => .warn
  | .built .. | .readingTracks .. | .readingTable .. | .readingInput | .extent .. | .wrote .. => .info
  | .failed .. => .error

def origin : Event → Origin
  | .flushed .. | .redefined .. | .readTracks .. | .wrote .. => .engine
  | _ => .program

def message : Event → String
  | .flushed points segments =>
    "Flushing decimated placemark: " ++ toString points ++ " points, " ++ toString segments ++ " segments"
  | .redefined tag => "Style '" ++ tag ++ "' redefined, replacing the earlier definition"
  | .readTracks fixes tracks =>
    "Read " ++ toString fixes ++ " fixes from " ++ toString tracks ++ " GPX tracks"
  | .skippedRow line => "Skipping CSV line " ++ toString line ++ ": missing or invalid coordinates"
  | .rowWithoutTime line => "CSV line " ++ toString line ++ ": missing or invalid timestamp"
  | .readRows fixes => "Read " ++ toString fixes ++ " fixes from CSV"
  | .built placemarks fixes mode =>
    "Built " ++ toString placemarks ++ " placemarks from " ++ toString fixes ++ " fixes (" ++ mode ++ " mode)"
  | .readingTracks path => "Reading GPX fixes from " ++ path
  | .readingTable path => "Reading CSV fixes from " ++ path
  | .readingInput => "Reading CSV fixes from stdin"
  | .extent west east south north =>
    "Overlay extent: lon " ++ west ++ ".." ++ east ++ ", lat " ++ south ++ ".." ++ north
  | .wrote name placemarks path =>
    "Wrote KML document '" ++ name ++ "' (" ++ toString placemarks ++ " placemarks) to " ++ path
  | .failed message => message

def line (e : Event) : String := e.level.word ++ " " ++ e.message

def visible (c : Char) : List Char :=
  match c with
  | '\x07' => "\\x07".toList
  | '\x08' => "\\x08".toList
  | '\x0c' => "\\x0c".toList
  | '\x1b' => "\\x1b".toList
  | '\x7f' => "\\x7f".toList
  | c =>
    if 0x80 ≤ c.toNat ∧ c.toNat ≤ 0x9F then
      "\\u\x7b".toList ++ Nat.toDigits 16 c.toNat ++ "\x7d".toList
    else [c]

def shown (e : Event) : String :=
  e.level.word ++ " " ++ String.ofList (e.message.toList.flatMap visible)

end Event

/-- A value together with what was reported on the way to it. -/
structure Logged (α : Type) where
  value : α
  log : List Event := []
  deriving DecidableEq

namespace Logged

def map {α β : Type} (f : α → β) (x : Logged α) : Logged β := ⟨f x.value, x.log⟩

/-- Goes on with a value that was reached; a failure keeps what was reported before it. -/
def andThen {ε α β : Type} (x : Logged (Except ε α)) (f : α → Logged (Except ε β)) :
    Logged (Except ε β) :=
  match x.value with
  | .error e => ⟨.error e, x.log⟩
  | .ok a => ⟨(f a).value, x.log ++ (f a).log⟩

end Logged

/-- The least level shown of the engine and of the program, none for nothing at all. -/
structure Filter where
  engine : Option Level
  program : Option Level
  deriving DecidableEq, Repr

namespace Filter

def atLeast (level : Level) : Filter := ⟨some level, some level⟩

def off : Filter := ⟨none, none⟩

def engineAtLeast (level : Level) : Filter := ⟨some level, none⟩

/-- A filter by its word: the least level, or that of the engine alone. -/
def ofText? (text : String) : Option Filter :=
  match text with
  | "" | "info" => some (atLeast .info)
  | "off" => some off
  | "error" => some (atLeast .error)
  | "warn" => some (atLeast .warn)
  | "debug" => some (atLeast .debug)
  | "engine=debug" => some (engineAtLeast .debug)
  | _ => none

def shows (f : Filter) (e : Event) : Bool :=
  let least := match e.origin with
    | .engine => f.engine
    | .program => f.program
  least.any (·.rank ≤ e.level.rank)

end Filter

inductive Error where
  | polygonWithoutPoints
  | polylineWithoutPoints
  | tooFewSegments (segments : Nat)
  | strideZero
  | radius (meters : Float)
  | noFixes
  /-- A track file that is not well formed or not of the known versions. -/
  | trackFile
  /-- A table with a record that cannot be read. -/
  | table
  /-- A file that cannot be opened, read or created. -/
  | file
  deriving DecidableEq

def Error.message : Error → String
  | .polygonWithoutPoints => "Empty input: polygon needs at least one point"
  | .polylineWithoutPoints => "Empty input: polyline needs at least one point"
  | .tooFewSegments n =>
    "Invalid segment count: " ++ toString n ++ " (a closed shape needs at least 3)"
  | .strideZero => "Invalid configuration: stride must be at least 1"
  | .radius r =>
    "Invalid configuration: earth radius must be a positive number of meters, got " ++ Double.text r
  | .noFixes => "No usable fixes in input"
  | .trackFile => "GPX parsing error:"
  | .table => "CSV error:"
  | .file => "IO error:"

end Trackline
