import Trackline.Drawing
import Trackline.Kml
import Trackline.Run.Source
import Trackline.Settings.Arguments

/-! One run from the command line to the written document. Reading and drawing come
before the output is touched, so a run that fails in either leaves it as it was. -/
namespace Trackline

structure Report where
  exit : Nat
  written : Option (String × String) := none
  log : List Event := []
  deriving DecidableEq

/-- Files by their paths. -/
structure Directory where
  files : List (String × List UInt8)

namespace Directory

def bytes? (d : Directory) (path : String) : Option (List UInt8) := d.files.lookup path

/-- The files that a report makes new or different, with their texts. -/
def changes (d : Directory) (r : Report) : List (String × String) :=
  match r.written with
  | none => []
  | some (path, text) => if d.bytes? path = some text.toUTF8.toList then [] else [(path, text)]

end Directory

namespace Run

/-- The extent of a document to five places. -/
def extentEvents (doc : Document) : List Event :=
  doc.extent.toList.map fun e =>
    .extent (Double.fixed 5 e.longitude.low) (Double.fixed 5 e.longitude.high)
      (Double.fixed 5 e.latitude.low) (Double.fixed 5 e.latitude.high)

def document (s : Settings) (opened : Opened) : Logged (Except Error Document) :=
  let source := Source.ofSettings s
  let begun : Logged (Except Error Unit) := ⟨.ok (), [source.event]⟩
  begun.andThen fun _ =>
    (source.fixes s.columns opened).andThen fun fixes =>
      (Drawing.document s fixes).andThen fun doc => ⟨.ok doc, extentEvents doc⟩

/-- The report of a run on what was opened; `writable` tells of a path whether it can
be written. -/
def settled (s : Settings) (opened : Opened) (writable : String → Bool) : Report :=
  let made := document s opened
  let failed (e : Error) : Report := { exit := 1, log := made.log ++ [.failed e.message] }
  match made.value with
  | .error e => failed e
  | .ok doc =>
    if writable s.output then
      { exit := 0
        written := some (s.output, Kml.text doc)
        log := made.log ++ [.wrote doc.name doc.allPlacemarks.length s.output] }
    else failed .file

def report (arguments : List String) (opened : Source → Opened) (writable : String → Bool) : Report :=
  match Settings.ofArguments arguments with
  | .error .refused => { exit := 2 }
  | .error .information => { exit := 0 }
  | .ok s => settled s (opened (Source.ofSettings s)) writable

end Run
end Trackline
