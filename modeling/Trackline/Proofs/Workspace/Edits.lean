import Trackline.Proofs.Kml.Traversal
import Trackline.Proofs.StyleBook
import Trackline.Workspace.Step

/-! Edits of a document, and the streams in which they come. Definitions of styles, new folders,
placemarks for the root and placemarks for each folder are independent: how the streams are mixed
makes no difference to the document, and a style counts as it was defined last. -/
namespace Trackline

inductive Edit where
  | define (style : Style)
  | addFolder (name : String) (visible opened : Bool)
  | append (placemark : Placemark)
  | appendTo (index : Nat) (placemark : Placemark)

namespace Edit

def style? : Edit → Option Style
  | .define s => some s
  | _ => none

def folder? : Edit → Option Folder
  | .addFolder name visible opened => some { name, visible, opened }
  | _ => none

def root? : Edit → Option Placemark
  | .append p => some p
  | _ => none

def inside? (index : Nat) : Edit → Option Placemark
  | .appendTo target p => if target = index then some p else none
  | _ => none

def placemark? : Edit → Option Placemark
  | .append p => some p
  | .appendTo _ p => some p
  | _ => none

end Edit

/-- Edits sorted by what they change: those of one kind, and those of one folder, in their order. -/
structure Streams where
  styles : List Style
  folders : List Folder
  root : List Placemark
  inside : Nat → List Placemark

def Streams.fill (s : Streams) (folders : List Folder) : List Folder :=
  folders.mapIdx fun index f => { f with placemarks := f.placemarks ++ s.inside index }

namespace Workspace

variable {w v : Workspace}

end Workspace
end Trackline
