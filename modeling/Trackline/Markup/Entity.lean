import Trackline.Markup.Character

/-! Entities: texts under a name, which references bring in. The names of those that only
a document type may refer to begin with a percent sign. -/
namespace Trackline.Markup

abbrev Entities := List (List Char × List Char)

namespace Entities

/-- Gives a name its text, unless it has one. -/
def define (known : Entities) (name text : List Char) : Entities :=
  if (known.lookup name).isSome then known else (name, text) :: known

end Entities

structure Scope where
  edition : Edition := .v10
  entities : Entities := []

inductive Meaning where
  | char (c : Char)
  | text (chars : List Char)

namespace Meaning

def chars : Meaning → List Char
  | .char c => [c]
  | .text chars => chars

end Meaning

namespace Scope

/-- The name in a reference so far, reversed, and one more character. -/
def grown? (read : List Char) (c : Char) : Option (List Char) :=
  let fits : Bool := if read.isEmpty then c == '#' || nameStart c else nameChar c
  if fits then some (c :: read) else none

def meaning? (s : Scope) (name : List Char) : Option Meaning :=
  match named? name, name with
  | some c, _ => some (.char c)
  | none, '#' :: number => (numbered? s.edition number).map .char
  | none, name => (s.entities.lookup name).map .text

end Scope
end Trackline.Markup
