import Trackline.Markup.Character

/-! Qualified names: a part of its own, and perhaps a prefix that stands for a namespace. -/
namespace Trackline.Markup

structure Name where
  space : Option String
  own : String
  deriving DecidableEq

namespace Name

/-- The characters of a name so far, reversed, and one more. There is at most one colon. -/
def grown? (read : List Char) (c : Char) : Option (List Char) :=
  let fits : Bool :=
    if c == ':' then !read.isEmpty && !read.contains ':'
    else if read.isEmpty then nameStart c
    else nameChar c
  if fits then some (c :: read) else none

def ofChars? (chars : List Char) : Option Name :=
  let front := chars.takeWhile (· != ':')
  if front.isEmpty then none
  else match chars.drop front.length with
    | [] => some ⟨none, String.ofList front⟩
    | _ :: own =>
      if own.isEmpty || own.contains ':' then none
      else some ⟨some (String.ofList front), String.ofList own⟩

/-- Whether a name means a word. A prefix is left aside but for its first letter, which
takes the place of the word's. -/
def means (n : Name) (word : String) : Bool :=
  match n.space.map String.toList, word.toList with
  | none, _ => n.own == word
  | some (c :: d :: _), first :: rest => c == first && nameStart d && n.own.toList == rest
  | _, _ => false

/-- Whether names can stand in a row in one tag. Behind a prefix, a name that begins
outside ASCII has no prefix, and the next name is behind that prefix still. -/
def inRow (behind : Bool) : List Name → Bool
  | [] => true
  | n :: rest =>
    let wide := (n.space.getD n.own).toList.head?.any fun c => 0x80 ≤ c.toNat
    !(wide && behind && n.space.isSome) && inRow (wide && behind || n.space.isSome) rest

end Name

abbrev Attribute := Name × List Char

end Trackline.Markup
