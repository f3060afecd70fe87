/-! Trees of elements with attributes and texts, and the text of a tree: one element
per line, two blanks per level, a text on the line of its element, and the five
reserved characters escaped. -/
namespace Trackline

structure Element where
  tag : String
  attributes : List (String × String) := []
  text : Option String := none
  children : List Element := []

namespace Element

def leaf (tag text : String) : Element := { tag, text := some text }

def node (tag : String) (children : List Element) : Element := { tag, children }

def child? (e : Element) (tag : String) : Option Element := e.children.find? (·.tag == tag)

def path? (e : Element) (tags : List String) : Option Element := tags.foldlM child? e

def attribute? (e : Element) (name : String) : Option String := e.attributes.lookup name

end Element

namespace Markup

def escaped : Char → List Char
  | '<' => "&lt;".toList
  | '>' => "&gt;".toList
  | '&' => "&amp;".toList
  | '\'' => "&apos;".toList
  | '"' => "&quot;".toList
  | c => [c]

def escape (s : List Char) : List Char := s.flatMap escaped

def attributes (attrs : List (String × String)) : List Char :=
  attrs.flatMap fun a => ' ' :: a.1.toList ++ "=\"".toList ++ escape a.2.toList ++ ['"']

def newline (level : Nat) : List Char := '\n' :: List.replicate (2 * level) ' '

mutual
def element (level : Nat) : Element → List Char
  | ⟨tag, attrs, text, children⟩ =>
    let opening := '<' :: tag.toList ++ attributes attrs
    let closing := "</".toList ++ tag.toList ++ ['>']
    match text, children with
    | none, [] => opening ++ "/>".toList
    | some s, [] => opening ++ '>' :: escape s.toList ++ closing
    | _, first :: rest =>
      opening ++ '>' :: escape (text.getD "").toList ++ elements (level + 1) (first :: rest) ++
        newline level ++ closing

def elements (level : Nat) : List Element → List Char
  | [] => []
  | e :: rest => newline level ++ element level e ++ elements level rest
end

def declaration : List Char := "<?xml version=\"1.0\" encoding=\"UTF-8\"?>".toList

def text (root : Element) : String :=
  String.ofList (declaration ++ newline 0 ++ element 0 root ++ ['\n'])

end Markup
end Trackline
