import Trackline.Markup.Character

/-! Characters taken together to tokens. What a character means hangs on where it stands:
in plain text, in a document type or one of its declarations, in a comment, in character
data or in an instruction. -/
namespace Trackline.Markup

inductive Token where
  | char (c : Char)
  | quote (c : Char)
  | opening
  | closing
  | tagEnd
  | emptyEnd
  | instruction
  | instructionEnd
  | doctype
  | declaration
  | comment
  | commentEnd
  | cdata
  | cdataEnd
  | equals
  | reference
  | semicolon
  deriving DecidableEq, Repr

namespace Token

def chars : Token → List Char
  | .char c | .quote c => [c]
  | .opening => "<".toList
  | .closing => "</".toList
  | .tagEnd => ">".toList
  | .emptyEnd => "/>".toList
  | .instruction => "<?".toList
  | .instructionEnd => "?>".toList
  | .doctype => "<!DOCTYPE".toList
  | .declaration => "<!".toList
  | .comment => "<!--".toList
  | .commentEnd => "-->".toList
  | .cdata => "<![CDATA[".toList
  | .cdataEnd => "]]>".toList
  | .equals => "=".toList
  | .reference => "&".toList
  | .semicolon => ";".toList

def isBlank : Token → Bool
  | .char c => blank c
  | _ => false

end Token

inductive Place where
  | plain
  | doctype
  | declaration (quote : Option Char)
  | comment
  | cdata
  | instruction
  deriving DecidableEq, Repr

/-- Characters that wait for the next one: they may yet become a longer token. -/
inductive Held where
  | opening
  | bang (word : List Char)
  | slash
  | bracket
  | brackets
  | dash
  | dashes
  | question
  deriving DecidableEq, Repr

/-- Where reading stands, what is held, and whether a document type is open. -/
structure Scan where
  place : Place := .plain
  held : Option Held := none
  typing : Bool := false
  deriving DecidableEq, Repr

namespace Scan

abbrev Turn := List Token × Scan

def moved (s : Scan) (place : Place) : Scan := { s with place }

def hold (s : Scan) (h : Held) : Turn := ([], { s with held := some h })

def around (s : Scan) : Place := if s.typing then .doctype else .plain

def common (c : Char) : Token :=
  match c with
  | '&' => .reference
  | ';' => .semicolon
  | '"' | '\'' => .quote c
  | _ => .char c

def first? (s : Scan) (c : Char) : Option Turn :=
  match s.place with
  | .plain =>
    match c with
    | '<' => some (s.hold .opening)
    | '/' => some (s.hold .slash)
    | ']' => some (s.hold .bracket)
    | '>' => some ([.tagEnd], s)
    | '=' => some ([.equals], s)
    | _ => some ([common c], s)
  | .doctype =>
    match c with
    | '<' => some (s.hold .opening)
    | '>' => some ([.tagEnd], { s with place := .plain, typing := false })
    | _ => some ([common c], s)
  | .declaration none =>
    match c with
    | '<' => none
    | '>' => some ([.tagEnd], s.moved s.around)
    | '"' | '\'' => some ([.quote c], s.moved (.declaration (some c)))
    | _ => some ([common c], s)
  | .declaration (some quote) =>
    if c = quote then some ([.quote c], s.moved (.declaration none)) else some ([.char c], s)
  | .comment => if c = '-' then some (s.hold .dash) else some ([.char c], s)
  | .cdata => if c = ']' then some (s.hold .bracket) else some ([.char c], s)
  | .instruction =>
    match c with
    | '?' => some (s.hold .question)
    | '<' => some ([.opening], s)
    | '>' => some ([.tagEnd], s)
    | '/' => some ([.closing], s)
    | '=' => some ([.equals], s)
    | _ => some ([common c], s)

def following? (s : Scan) (before : List Token) (c : Char) : Option Turn :=
  (s.first? c).map fun (tokens, s) => (before ++ tokens, s)

def bang? (s : Scan) (word : List Char) (c : Char) : Option Turn :=
  let word := word ++ [c]
  if word = "--".toList then some ([.comment], s.moved .comment)
  else if word = "[CDATA[".toList then some ([.cdata], s.moved .cdata)
  else if word = "DOCTYPE".toList then some ([.doctype], { s with place := .doctype, typing := true })
  else if ["--", "[CDATA[", "DOCTYPE"].any fun known => word.isPrefixOf known.toList then
    some (s.hold (.bang word))
  else if s.typing && (word = ['E'] || word = ['A'] || word = ['N']) then
    some ([.declaration, .char c], s.moved (.declaration none))
  else none

def behind? (s : Scan) (c : Char) : Held → Option Turn
  | .opening =>
    match c with
    | '?' => some ([.instruction], s.moved .instruction)
    | '/' => some ([.closing], s.moved s.around)
    | '!' => some (s.hold (.bang []))
    | _ => if blank c || nameChar c then (s.moved s.around).following? [.opening] c else none
  | .bang word => s.bang? word c
  | .slash => if c = '>' then some ([.emptyEnd], s) else s.following? [.char '/'] c
  | .bracket => if c = ']' then some (s.hold .brackets) else s.following? [.char ']'] c
  | .brackets =>
    if c = '>' then some ([.cdataEnd], s.moved .plain)
    else if c = ']' then some ([.char ']'], { s with held := some .brackets })
    else s.following? [.char ']', .char ']'] c
  | .dash => if c = '-' then some (s.hold .dashes) else s.following? [.char '-'] c
  | .dashes => if c = '>' then some ([.commentEnd], s.moved s.around) else none
  | .question =>
    if c = '>' then some ([.instructionEnd], s.moved s.around) else s.following? [.char '?'] c

def step? (s : Scan) (c : Char) : Option Turn :=
  match s.held with
  | none => s.first? c
  | some h => { s with held := none }.behind? c h

end Scan
end Trackline.Markup
