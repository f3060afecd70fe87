import Trackline.Markup.Attributes
import Trackline.Markup.Doctype
import Trackline.Markup.Tree

/-! What tokens build: the tree of a text with at most one document type before its
root. Comments leave no trace, character data joins the text around it, and an instruction
divides a run of text. Reading ends with the root. -/
namespace Trackline.Markup

inductive Phase where
  | start
  | content
  | comment
  | cdata
  | reference (name : List Char)
  | instruction (name : List Char)
  | data
  | declaration (a : Attributes)
  | doctype (d : Doctype)
  | naming (name : List Char)
  | tag (name : Name) (a : Attributes)
  | closing (name : List Char)
  | closed (name : Name)

structure Reader where
  phase : Phase := .start
  /-- Whether a declaration may still come. -/
  fresh : Bool := true
  /-- Whether there was a document type. -/
  typed : Bool := false
  scope : Scope := {}
  stack : List Open := []

/-- What a token leads to: reading goes on, perhaps with characters to read next or in
an encoding of some name, or the root is whole. -/
inductive Turn where
  | on (r : Reader)
  | insert (chars : List Char) (r : Reader)
  | encode (name : List Char) (r : Reader)
  | whole (root : Tree)

namespace Reader

def moved (r : Reader) (phase : Phase) : Reader := { r with phase }

def on (r : Reader) (phase : Phase) : Option Turn := some (.on (r.moved phase))

def push (r : Reader) (chars : List Char) : Reader :=
  match r.stack with
  | [] => r
  | top :: outer => { r with stack := top.push chars :: outer }

def settled (r : Reader) : Reader :=
  match r.stack with
  | [] => r
  | top :: outer => { r with stack := top.settled :: outer }

/-- A whole element becomes content of the innermost one, or is the root. -/
def add (r : Reader) (child : Tree) : Turn :=
  match r.stack with
  | [] => .whole child
  | top :: outer => .on { r with phase := .content, stack := top.add child :: outer }

def opened? (r : Reader) (name : Name) (attributes : List Attribute) (single : Bool) : Option Turn := do
  let spaces := (r.stack.head?.map (·.spaces)).getD ["xml", "xmlns"]
  let child ← Open.of? spaces name attributes
  if single then return r.add child.closed
  else return .on { r with phase := .content, stack := child :: r.stack }

def closed? (r : Reader) (name : Name) : Option Turn :=
  match r.stack with
  | [] => none
  | top :: outer => if name = top.name then some ({ r with stack := outer }.add top.closed) else none

def before? (r : Reader) : Token → Option Turn
  | .char c => if blank c then r.on .content else none
  | .comment => { r with fresh := false }.on .comment
  | .instruction => r.on (.instruction [])
  | .doctype =>
    if r.typed then none else { r with fresh := false, typed := true }.on (.doctype .between)
  | .opening => { r with fresh := false }.on (.naming [])
  | _ => none

def inside? (r : Reader) : Token → Option Turn
  | .char c => if r.scope.edition.plain c then some (.on (r.push [c])) else none
  | .opening => r.settled.on (.naming [])
  | .closing => r.settled.on (.closing [])
  | .instruction => r.settled.on (.instruction [])
  | .comment => r.on .comment
  | .cdata => r.on .cdata
  | .reference => r.on (.reference [])
  | .cdataEnd | .declaration | .doctype => none
  | t => some (.on (r.push t.chars))

def content? (r : Reader) (t : Token) : Option Turn :=
  if r.stack.isEmpty then r.before? t else r.inside? t

/-- The end of a reference: characters with a name or a number are text, and the text of
an entity is to be read. -/
def referred? (r : Reader) (name : List Char) : Option Turn :=
  (r.scope.meaning? name.reverse).map fun
    | .char c => .on ((r.moved .content).push [c])
    | .text chars => .insert chars (r.moved .content)

/-- Whether a name is that of the declaration, in small letters or large. -/
def isReserved (name : List Char) : Bool := name.map Char.toLower == "xml".toList

def instruction? (r : Reader) (name : List Char) : Token → Option Turn
  | .char c =>
    if blank c then
      if r.fresh && name.reverse == "xml".toList then r.on (.declaration {})
      else if isReserved name.reverse then none
      else r.on .data
    else if (if name.isEmpty then nameStart c else nameChar c) then r.on (.instruction (c :: name))
    else none
  | .instructionEnd => if name.isEmpty || isReserved name.reverse then none else r.on .content
  | _ => none

def declaration? (r : Reader) (a : Attributes) (t : Token) : Option Turn :=
  match t, a.whole? with
  | .instructionEnd, some attributes => do
    let d ← Declaration.ofAttributes? attributes
    let r : Reader := { r with phase := .content, fresh := false, scope.edition := d.edition }
    match d.encoding with
    | none => return .on r
    | some name => return .encode name r
  | _, _ =>
    let scope := { r.scope with edition := Declaration.soFar a.read }
    (a.take? scope t).bind fun a => r.on (.declaration a)

def doctype? (r : Reader) (d : Doctype) (t : Token) : Option Turn :=
  (d.take? r.scope t).map fun
    | .on d => .on (r.moved (.doctype d))
    | .define name text =>
      .on { r with phase := .doctype .passing, scope.entities := r.scope.entities.define name text }
    | .insert chars => .insert chars (r.moved (.doctype .between))
    | .ended => .on (r.moved .content)

def naming? (r : Reader) (read : List Char) (t : Token) : Option Turn :=
  match t with
  | .tagEnd => do r.opened? (← Name.ofChars? read.reverse) [] false
  | .emptyEnd => do r.opened? (← Name.ofChars? read.reverse) [] true
  | .char c =>
    if blank c then do r.on (.tag (← Name.ofChars? read.reverse) {})
    else (Name.grown? read c).bind fun read => r.on (.naming read)
  | _ => none

def tag? (r : Reader) (name : Name) (a : Attributes) (t : Token) : Option Turn :=
  match t, a.whole? with
  | .tagEnd, some attributes => r.opened? name attributes false
  | .emptyEnd, some attributes => r.opened? name attributes true
  | _, _ => (a.take? r.scope t).bind fun a => r.on (.tag name a)

def closing? (r : Reader) (read : List Char) (t : Token) : Option Turn :=
  match t with
  | .tagEnd => do r.closed? (← Name.ofChars? read.reverse)
  | .char c =>
    if blank c then do r.on (.closed (← Name.ofChars? read.reverse))
    else (Name.grown? read c).bind fun read => r.on (.closing read)
  | _ => none

def take? (r : Reader) (t : Token) : Option Turn :=
  match r.phase, t with
  | .start, .char c => if blank c then { r with fresh := false }.on .content else none
  | .start, t => r.content? t
  | .content, t => r.content? t
  | .comment, .char c => if r.scope.edition.allows c then some (.on r) else none
  | .comment, t => if t = .commentEnd then r.on .content else some (.on r)
  | .cdata, .char c => if r.scope.edition.allows c then some (.on (r.push [c])) else none
  | .cdata, t => if t = .cdataEnd then r.on .content else none
  | .reference name, .char c => (Scope.grown? name c).bind fun name => r.on (.reference name)
  | .reference name, t => if t = .semicolon then r.referred? name else none
  | .instruction name, t => r.instruction? name t
  | .data, .char c => if r.scope.edition.allows c then some (.on r) else none
  | .data, t => if t = .instructionEnd then r.on .content else some (.on r)
  | .declaration a, t => r.declaration? a t
  | .doctype d, t => r.doctype? d t
  | .naming read, t => r.naming? read t
  | .tag name a, t => r.tag? name a t
  | .closing read, t => r.closing? read t
  | .closed name, t =>
    if t = .tagEnd then r.closed? name else if t.isBlank then some (.on r) else none

def takeAll? (r : Reader) : List Token → Option Turn
  | [] => some (.on r)
  | [t] => r.take? t
  | t :: rest =>
    match r.take? t with
    | some (.on r) => r.takeAll? rest
    | turn => turn

end Reader
end Trackline.Markup
