import Trackline.Markup.Name

/-! Marked-up text as a tree of elements and runs of text, built from the elements that
are still open. Namespaces are checked, and left out of the tree. -/
namespace Trackline.Markup

/-- An element with its content, or a run of text. -/
inductive Tree where
  | text (chars : List Char)
  | element (name : Name) (attributes : List Attribute) (content : List Tree)

/-- An element that is still open: the prefixes known inside it, its content so far and
the run of text at hand, both reversed. -/
structure Open where
  name : Name
  attributes : List Attribute
  spaces : List String
  content : List Tree := []
  run : List Char := []

/-- A namespace of the language itself, by the parts of its path. -/
def standard (path : List String) : String := "/".intercalate (["http:", "", "www.w3.org"] ++ path)

/-- The namespace of the prefix `xml`. -/
def general : String := standard ["XML", "1998", "namespace"]

/-- What cannot be the namespace of names without a prefix. -/
def reserved : List String := ["xml", "xmlns", general, standard ["2000", "xmlns", ""]]

namespace Open

def settled (o : Open) : Open :=
  if o.run.isEmpty then o else { o with content := .text o.run.reverse :: o.content, run := [] }

def add (o : Open) (child : Tree) : Open := { o.settled with content := child :: o.settled.content }

def push (o : Open) (chars : List Char) : Open := { o with run := chars.reverse ++ o.run }

def closed (o : Open) : Tree := .element o.name o.attributes o.settled.content.reverse

/-- The attributes that are no declarations, and the prefixes that are known with the
declared ones. -/
def declared? (spaces : List String) : List Attribute → Option (List Attribute × List String)
  | [] => some ([], spaces)
  | (name, value) :: rest =>
    let named := String.ofList value
    if name.space = some "xmlns" then
      if name.own = "xmlns" ∨ value.isEmpty then none
      else if name.own = "xml" ∧ named ≠ general then none
      else declared? (name.own :: spaces) rest
    else if name = ⟨none, "xmlns"⟩ then
      if reserved.contains named then none else declared? spaces rest
    else do
      let (others, spaces) ← declared? spaces rest
      if others.any (·.1 = name) then none else return ((name, value) :: others, spaces)

/-- An element inside which these and its own prefixes are known, and no attribute is
there twice. -/
def of? (spaces : List String) (name : Name) (attributes : List Attribute) : Option Open := do
  if !Name.inRow false (name :: attributes.map (·.1)) then none
  let (attributes, spaces) ← declared? spaces attributes
  let known (n : Name) : Bool := n.space.all spaces.contains
  let own := name.space.all fun space => space != "xml" && space != "xmlns"
  if own && known name && attributes.all fun a => known a.1 then return { name, attributes, spaces }
  else none

end Open
end Trackline.Markup
