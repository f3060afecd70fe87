import Trackline.Event

/-! Named styles. A placemark refers to a style by its tag; what the tag stands for
is settled when the document is written. -/
namespace Trackline

inductive StyleKind where
  /-- Colour in the order alpha, blue, green, red, and a width in pixels. -/
  | line (color : String) (width : Float)
  | icon (href : String)
  | polygon (color : String) (filled : Bool)
  deriving DecidableEq

structure Style where
  tag : String
  kind : StyleKind
  deriving DecidableEq

def Style.url (tag : String) : String := "#" ++ tag

/-- Styles in the order of their first definition. -/
structure StyleBook where
  styles : List Style := []
  deriving DecidableEq

namespace StyleBook

def slot? (book : StyleBook) (tag : String) : Option Nat :=
  book.styles.findIdx? (·.tag == tag)

def resolve (book : StyleBook) (tag : String) : Option Style :=
  (book.slot? tag).bind fun slot => book.styles[slot]?

def contains (book : StyleBook) (tag : String) : Bool := (book.slot? tag).isSome

/-- Defines a style. A tag that has one keeps its place and takes the new kind,
which is reported. -/
def define (book : StyleBook) (tag : String) (kind : StyleKind) : Logged StyleBook :=
  match book.slot? tag with
  | some slot => ⟨⟨book.styles.set slot ⟨tag, kind⟩⟩, [.redefined tag]⟩
  | none => ⟨⟨book.styles ++ [⟨tag, kind⟩]⟩, []⟩

end StyleBook
end Trackline
