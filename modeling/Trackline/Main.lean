import Trackline.Event
import Trackline.Run.Report

/-! The program: reads the command line, opens the source, and writes the document. -/
namespace Trackline

def openSource : Source → IO Opened
  | .input => do
    let bytes ← (← IO.getStdin).readBinToEnd
    return .bytes bytes.toList
  | .table path | .tracks path => do
    match ← (IO.FS.Handle.mk path .read).toBaseIO with
    | .error _ => return .missing
    | .ok handle =>
      match ← handle.readBinToEnd.toBaseIO with
      | .ok bytes => return .bytes bytes.toList
      | .error _ => return .unreadable

def writeText (path text : String) : IO Bool := do
  match ← (IO.FS.writeFile path text).toBaseIO with
  | .ok () => return true
  | .error _ => return false

def display (events : List Event) : IO Unit := do
  let asked := ((← IO.getEnv "TRACKLINE_LOG").bind Filter.ofText?).getD (.atLeast .info)
  for e in events do
    if asked.shows e then IO.eprintln e.shown

end Trackline

open Trackline in
def main (arguments : List String) : IO UInt32 := do
  match Settings.ofArguments arguments with
  | .error stop =>
    IO.println "usage: trackline [-i FILE] [-o FILE] [-n NAME] [-m segments|polyline|trip] [-s STRIDE]"
    IO.println "  [--flush-every N] [--style-tag TAG] [--color COLOR] [--width WIDTH]"
    IO.println "  [--lat-column N] [--lng-column N] [--time-column N] [--help] [--version]"
    return if stop = .information then 0 else 2
  | .ok s =>
    let opened ← openSource (Source.ofSettings s)
    let dry := Run.settled s opened fun _ => true
    match dry.written with
    | none =>
      display dry.log
      return UInt32.ofNat dry.exit
    | some (path, text) =>
      let could ← writeText path text
      let report := Run.settled s opened fun _ => could
      display report.log
      return UInt32.ofNat report.exit
