import Trackline.Markup.Written

/-! A reader of elements that knows nothing of how they are laid out. It unescapes the
five entities; an element without child elements keeps all of its content as its text,
and between child elements only white space is allowed, which is dropped. -/
namespace Trackline.Markup.Reread

/-- The characters that a text stands for; an ampersand has to begin one of the entities. -/
def unescape : List Char → Option (List Char)
  | [] => some []
  | '&' :: 'l' :: 't' :: ';' :: rest => (unescape rest).map ('<' :: ·)
  | '&' :: 'g' :: 't' :: ';' :: rest => (unescape rest).map ('>' :: ·)
  | '&' :: 'a' :: 'm' :: 'p' :: ';' :: rest => (unescape rest).map ('&' :: ·)
  | '&' :: 'a' :: 'p' :: 'o' :: 's' :: ';' :: rest => (unescape rest).map ('\'' :: ·)
  | '&' :: 'q' :: 'u' :: 'o' :: 't' :: ';' :: rest => (unescape rest).map ('"' :: ·)
  | '&' :: _ => none
  | c :: rest => (unescape rest).map (c :: ·)

def blank (chars : List Char) : Bool :=
  chars.all fun c => c == ' ' || c == '\n' || c == '\t' || c == '\r'

inductive Phase where
  | between
  | key (key : List Char)
  | equals (key : List Char)
  | value (key value : List Char)

/-- The attributes so far and one more character: each is a blank, a key, an equals sign
and a value in double quotes. -/
def attributeStep : List (String × String) × Phase → Char →
    Option (List (String × String) × Phase)
  | (read, .between), c => if c = ' ' then some (read, .key []) else none
  | (read, .key key), c => some (read, if c = '=' then .equals key else .key (key ++ [c]))
  | (read, .equals key), c => if c = '"' then some (read, .value key []) else none
  | (read, .value key value), c =>
    if c = '"' then
      (unescape value).map fun value => (read ++ [(String.ofList key, String.ofList value)], .between)
    else some (read, .value key (value ++ [c]))

def attributes? (chars : List Char) : Option (List (String × String)) :=
  match chars.foldlM attributeStep ([], .between) with
  | some (read, .between) => some read
  | _ => none

inductive Tag where
  | opening (name : String) (attributes : List (String × String))
  | single (name : String) (attributes : List (String × String))
  | closing (name : String)

def named? (chars : List Char) : Option (String × List (String × String)) :=
  (attributes? (chars.dropWhile (· != ' '))).map fun read =>
    (String.ofList (chars.takeWhile (· != ' ')), read)

def Tag.ofChars? : List Char → Option Tag
  | '/' :: name => some (.closing (String.ofList name))
  | chars =>
    if chars.getLast? = some '/' then (named? chars.dropLast).map fun (name, read) => .single name read
    else (named? chars).map fun (name, read) => .opening name read

/-- An element that is not closed yet: its children so far, and the characters behind the last one. -/
structure Unclosed where
  tag : String
  attributes : List (String × String) := []
  children : List Element := []
  raw : List Char := []

namespace Unclosed

def with? (u : Unclosed) (child : Element) : Option Unclosed :=
  if blank u.raw then some { u with children := u.children ++ [child], raw := [] } else none

def element? (u : Unclosed) : Option Element :=
  if u.children.isEmpty then
    (unescape u.raw).map fun text =>
      { tag := u.tag, attributes := u.attributes, text := some (String.ofList text) }
  else if blank u.raw then
    some { tag := u.tag, attributes := u.attributes, children := u.children }
  else none

end Unclosed

/-- What a tag does to the unclosed elements, the innermost one first. -/
def Tag.apply : Tag → List Unclosed → Option (List Unclosed)
  | .opening name attributes, top :: rest =>
    if blank top.raw then some ({ tag := name, attributes } :: top :: rest) else none
  | .single name attributes, top :: rest =>
    (top.with? { tag := name, attributes }).map (· :: rest)
  | .closing name, top :: outer :: rest =>
    if name = top.tag then (top.element?.bind outer.with?).map (· :: rest) else none
  | _, _ => none

structure State where
  /-- The innermost element first; the last one stands for the whole text. -/
  unclosed : List Unclosed
  tag : Option (List Char) := none

def step (s : State) (c : Char) : Option State :=
  match s.tag, s.unclosed with
  | none, [] => none
  | none, top :: rest =>
    if c = '<' then some { s with tag := some [] }
    else some { s with unclosed := { top with raw := top.raw ++ [c] } :: rest }
  | some inside, unclosed =>
    if c = '<' then none
    else if c = '>' then
      ((Tag.ofChars? inside).bind (·.apply unclosed)).map fun unclosed => { unclosed }
    else some { s with tag := some (inside ++ [c]) }

def run (s : State) (chars : List Char) : Option State := chars.foldlM step s

/-- The one element of a text, with nothing but white space around it. -/
def read? (text : List Char) : Option Element :=
  match run { unclosed := [{ tag := "" }] } text with
  | some ⟨[⟨_, _, [root], raw⟩], none⟩ => if blank raw then some root else none
  | _ => none

end Trackline.Markup.Reread
