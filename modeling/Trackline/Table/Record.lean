import Trackline.Text.Utf8

/-! Records of a comma separated table, over bytes. A record ends at either line
break character or at the end, and empty lines hold none. A field that opens with
a quote runs to the next quote that is not doubled, two standing for one; what follows
the closing quote still belongs to the field, and a quote elsewhere is plain. -/
namespace Trackline.Table

inductive Phase where
  | recordStart
  | fieldStart
  | plain
  | quoted
  /-- After a quote inside a quoted field, which closes it or doubles. -/
  | quote
  deriving DecidableEq

def lineBreak (c : UInt8) : Bool := c == 10 || c == 13

structure Progress where
  phase : Phase := .recordStart
  field : List UInt8 := []
  fields : List (List UInt8) := []
  records : List (List (List UInt8)) := []

namespace Progress

def fieldEnd (p : Progress) : Progress :=
  { p with phase := .fieldStart, field := [], fields := p.field.reverse :: p.fields }

def recordEnd (p : Progress) : Progress :=
  { records := (p.field.reverse :: p.fields).reverse :: p.records }

def step (p : Progress) (c : UInt8) : Progress :=
  let take (phase : Phase) : Progress := { p with phase, field := c :: p.field }
  match p.phase with
  | .quoted => if c = 34 then { p with phase := .quote } else take .quoted
  | .recordStart =>
    if lineBreak c then p
    else if c = 34 then { p with phase := .quoted }
    else if c = 44 then p.fieldEnd
    else take .plain
  | phase =>
    if c = 34 ∧ phase = .fieldStart then { p with phase := .quoted }
    else if c = 34 ∧ phase = .quote then take .quoted
    else if c = 44 then p.fieldEnd
    else if lineBreak c then p.recordEnd
    else take .plain

/-- The records once the text ends, which ends the last one as well. -/
def finished (p : Progress) : List (List (List UInt8)) :=
  (if p.phase = .recordStart then p else p.recordEnd).records.reverse

end Progress

def split (bytes : List UInt8) : List (List (List UInt8)) :=
  (bytes.foldl Progress.step {}).finished

/-- A byte order mark in front is no part of a text. -/
def withoutMark : List UInt8 → List UInt8
  | 0xEF :: 0xBB :: 0xBF :: rest => rest
  | bytes => bytes

def blank (c : Char) : Bool :=
  let n := c.toNat
  (9 ≤ n && n ≤ 13) || n == 32 || n == 0x85 || n == 0xA0 || n == 0x1680 ||
    (0x2000 ≤ n && n ≤ 0x200A) || n == 0x2028 || n == 0x2029 || n == 0x202F || n == 0x205F || n == 0x3000

def trimmed (s : List Char) : List Char :=
  ((s.dropWhile blank).reverse.dropWhile blank).reverse

def cell? (bytes : List UInt8) : Option (List Char) :=
  (Utf8.decode? bytes).map trimmed

/-- The records after the first, which holds the headings and need not be text. A
record that is not text is none. -/
def records (bytes : List UInt8) : List (Option (List (List Char))) :=
  ((split (withoutMark bytes)).drop 1).map (·.mapM cell?)

end Trackline.Table
