import Trackline.Markup.Entity
import Trackline.Markup.Name
import Trackline.Markup.Token

/-! The attributes of a tag, token by token: each after a blank, with a name, an equals
sign and a quoted value. The declaration in front of a text is made of attributes too: its
edition, and if given its encoding and whether it stands alone, in this order. -/
namespace Trackline.Markup

/-- A value as far as it is read: its quote, its characters, and the name in an open
reference, these two reversed. -/
structure Value where
  quote : Option Char := none
  chars : List Char := []
  reference : Option (List Char) := none

inductive Value.Turn where
  | on (v : Value)
  | whole (chars : List Char)

namespace Value

def before? (v : Value) : Token → Option Turn
  | .quote c => some (.on { v with quote := some c })
  | .char c => if blank c then some (.on v) else none
  | _ => none

/-- A token between the quotes. The other quote, and what could end a tag, are text. -/
def inside? (s : Scope) (v : Value) (quote : Char) : Token → Option Turn
  | .quote c =>
    if c = quote then some (.whole v.chars.reverse) else some (.on { v with chars := c :: v.chars })
  | .reference => some (.on { v with reference := some [] })
  | .opening | .instruction => none
  | .char c => if s.edition.plain c then some (.on { v with chars := c :: v.chars }) else none
  | t => some (.on { v with chars := t.chars.reverse ++ v.chars })

def referring? (s : Scope) (v : Value) (name : List Char) : Token → Option Turn
  | .char c => (Scope.grown? name c).map fun name => .on { v with reference := some name }
  | .semicolon => (s.meaning? name.reverse).map fun m =>
      .on { v with chars := m.chars.reverse ++ v.chars, reference := none }
  | _ => none

def take? (s : Scope) (v : Value) (t : Token) : Option Turn :=
  match v.quote, v.reference with
  | none, _ => v.before? t
  | some quote, none => v.inside? s quote t
  | some _, some name => v.referring? s name t

end Value

inductive Part where
  | between (apart : Bool)
  | name (chars : List Char)
  | sign (name : Name)
  | value (name : Name) (value : Value)

/-- The attributes that are read, the last one first, and the next one. -/
structure Attributes where
  read : List Attribute := []
  part : Part := .between true

namespace Attributes

def moved (a : Attributes) (part : Part) : Attributes := { a with part }

def whole? (a : Attributes) : Option (List Attribute) :=
  match a.part with
  | .between _ => some a.read.reverse
  | _ => none

def take? (s : Scope) (a : Attributes) (t : Token) : Option Attributes :=
  match a.part, t with
  | .between apart, .char c =>
    if blank c then some (a.moved (.between true))
    else if apart && nameStart c then some (a.moved (.name [c]))
    else none
  | .name chars, .equals =>
    (Name.ofChars? chars.reverse).map fun name => a.moved (.value name {})
  | .name chars, .char c =>
    if blank c then (Name.ofChars? chars.reverse).map fun name => a.moved (.sign name)
    else (Name.grown? chars c).map fun chars => a.moved (.name chars)
  | .sign name, .equals => some (a.moved (.value name {}))
  | .sign _, .char c => if blank c then some a else none
  | .value name value, t =>
    (value.take? s t).map fun
      | .on value => a.moved (.value name value)
      | .whole chars => ⟨(name, chars) :: a.read, .between false⟩
  | _, _ => none

end Attributes

structure Declaration where
  edition : Edition
  encoding : Option (List Char)

namespace Declaration

def edition? (value : List Char) : Option Edition :=
  match String.ofList value with
  | "1.0" => some .v10
  | "1.1" => some .v11
  | _ => none

/-- What the fields behind the edition say, each being there at most once. -/
def encoding? : List Attribute → Option (Option (List Char))
  | [] => some none
  | (name, value) :: rest =>
    let standalone : List Attribute → Bool
      | [] => true
      | [(name, value)] =>
        name.means "standalone" && (value == "yes".toList || value == "no".toList)
      | _ => false
    if name.means "encoding" then (if standalone rest then some (some value) else none)
    else if standalone ((name, value) :: rest) then some none
    else none

def ofAttributes? : List Attribute → Option Declaration
  | (name, value) :: rest => do
    if !name.means "version" then none
    return ⟨← edition? value, ← encoding? rest⟩
  | [] => none

/-- The edition that the attributes read so far give, the last of them first. -/
def soFar (read : List Attribute) : Edition :=
  (read.getLast?.bind fun a => edition? a.2).getD .v10

end Declaration
end Trackline.Markup
