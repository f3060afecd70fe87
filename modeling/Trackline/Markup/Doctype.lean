import Trackline.Markup.Entity
import Trackline.Markup.Token

/-! The inside of a document type, token by token. Only what it defines for references
counts; other declarations are passed over. -/
namespace Trackline.Markup

/-- An entity whose text is being read: its name, the quote around the text, and the
text so far, reversed. -/
structure Definition where
  name : List Char
  quote : Char
  text : List Char := []

inductive Doctype where
  | between
  | quoted (quote : Char)
  | comment
  | reference (name : List Char)
  | keyword (word : List Char)
  | beforeName
  | percent
  | naming (name : List Char)
  | beforeText (name : List Char)
  | text (d : Definition)
  | parameter (d : Definition) (name : List Char)
  | ampersand (d : Definition)
  | number (d : Definition) (digits : List Char)
  | passing

inductive Doctype.Turn where
  | on (state : Doctype)
  | define (name text : List Char)
  | insert (chars : List Char)
  | ended

namespace Doctype

def parameter? (s : Scope) (name : List Char) : Option (List Char) :=
  s.entities.lookup ('%' :: name.reverse)

def between? : Token → Option Turn
  | .tagEnd => some .ended
  | .declaration => some (.on (.keyword []))
  | .comment => some (.on .comment)
  | .quote c => some (.on (.quoted c))
  | .cdata | .cdataEnd => none
  | .char c => some (.on (if c = '%' then .reference [] else .between))
  | _ => some (.on .between)

def declared? (keyword : List Char) : Option Doctype :=
  match String.ofList keyword with
  | "ENTITY" => some .beforeName
  | "NOTATION" | "ELEMENT" | "ATTLIST" => some .passing
  | _ => none

/-- A token in the text of an entity. References to characters and parameters are
replaced at once, others stay. -/
def text? (s : Scope) (d : Definition) : Token → Option Turn
  | .quote c =>
    if c = d.quote then some (.define d.name d.text.reverse)
    else some (.on (.text { d with text := c :: d.text }))
  | .reference => some (.on (.ampersand d))
  | .char c =>
    if c = '&' then some (.on (.ampersand d))
    else if c = '%' then some (.on (.parameter d []))
    else if s.edition.allows c then some (.on (.text { d with text := c :: d.text }))
    else none
  | _ => none

def char? (s : Scope) (c : Char) : Doctype → Option Turn
  | .reference name =>
    if nameChar c then some (.on (.reference (c :: name)))
    else if c = ';' then (parameter? s name).map .insert
    else none
  | .keyword word =>
    if blank c then (declared? word.reverse).map .on
    else if 'A' ≤ c ∧ c ≤ 'Z' then some (.on (.keyword (c :: word)))
    else none
  | .beforeName =>
    if blank c then some (.on .beforeName)
    else if c = '%' then some (.on .percent)
    else if nameStart c then some (.on (.naming [c]))
    else none
  | .percent =>
    if blank c then some (.on .percent)
    else if nameStart c then some (.on (.naming [c, '%']))
    else none
  | .naming name =>
    if blank c then some (.on (.beforeText name.reverse))
    else if nameChar c then some (.on (.naming (c :: name)))
    else none
  | .beforeText name =>
    if blank c then some (.on (.beforeText name))
    else if c = 'S' ∨ c = 'P' then some (.define name [])
    else none
  | .parameter d name =>
    if nameChar c then some (.on (.parameter d (c :: name)))
    else if c = ';' then
      (parameter? s name).map fun text => .on (.text { d with text := text.reverse ++ d.text })
    else none
  | .ampersand d =>
    if c = '#' then some (.on (.number d []))
    else if s.edition.allows c then some (.on (.text { d with text := c :: '&' :: d.text }))
    else none
  | .number d digits =>
    if c = ';' then
      (numbered? s.edition digits.reverse).map fun c => .on (.text { d with text := c :: d.text })
    else if s.edition.allows c then some (.on (.number d (c :: digits)))
    else none
  | _ => none

def take? (s : Scope) : Doctype → Token → Option Turn
  | .between, t => between? t
  | .quoted quote, t => some (.on (if t = .quote quote then .between else .quoted quote))
  | .comment, t => some (.on (if t = .commentEnd then .between else .comment))
  | .passing, t => some (.on (if t = .tagEnd then .between else .passing))
  | .text d, t => text? s d t
  | .beforeText name, .quote c => some (.on (.text { name, quote := c }))
  | .ampersand _, .semicolon => none
  | d, .semicolon => char? s ';' d
  | d, .char c => char? s c d
  | _, _ => none

end Doctype
end Trackline.Markup
