import Trackline.Markup.Reader
import Trackline.Text.Encoding

/-! Reading marked-up text, character by character, until its root is whole. Characters
that were inserted come before those of the text itself. -/
namespace Trackline.Markup

structure Input where
  text : Encoded
  inserted : List Char := []
  /-- How often something may still be inserted before the text itself is read again. -/
  left : Nat := 10

namespace Input

def next? (i : Input) : Option (Char × Input) :=
  match i.inserted with
  | c :: rest => some (c, { i with inserted := rest })
  | [] => i.text.next?.map fun (c, text) => (c, { text })

/-- Inserts characters, unless this has gone too deep or too many wait already. -/
def insert? (i : Input) (chars : List Char) : Option Input :=
  if chars.isEmpty then some i
  else match i.left with
    | 0 => none
    | left + 1 =>
      if 1000000 < i.inserted.length then none
      else some { i with inserted := chars ++ i.inserted, left }

def encoded? (i : Input) (name : List Char) : Option Input :=
  (i.text.declared? name).map fun encoding => { i with text.encoding := encoding }

theorem length_next? {i next : Input} {c : Char} (found : i.next? = some (c, next)) :
    next.text.bytes.length < i.text.bytes.length ∨
      next.text = i.text ∧ next.left = i.left ∧ next.inserted.length < i.inserted.length := by
  unfold next? at found
  split at found
  · rename_i same
    cases found
    exact .inr ⟨rfl, rfl, by simp [same]⟩
  · obtain ⟨⟨d, text⟩, read, same⟩ := Option.map_eq_some_iff.1 found
    cases same
    exact .inl (Encoded.length_next? read)

theorem left_insert? {i next : Input} {chars : List Char} (found : i.insert? chars = some next) :
    next = i ∨ next.text = i.text ∧ next.left < i.left := by
  unfold insert? at found
  split at found
  · exact .inl (Option.some.inj found).symm
  · split at found
    · cases found
    · rename_i left same
      split at found
      · cases found
      · cases found
        exact .inr ⟨rfl, by simp [same]⟩

theorem encoded?_same {i next : Input} {name : List Char} (found : i.encoded? name = some next) :
    next.text.bytes = i.text.bytes ∧ next.left = i.left ∧ next.inserted = i.inserted := by
  obtain ⟨encoding, _, same⟩ := Option.map_eq_some_iff.1 found
  cases same
  exact ⟨rfl, rfl, rfl⟩

end Input

def turn? (scan : Scan) (r : Reader) (c : Char) : Option (Scan × Turn) := do
  let (tokens, scan) ← scan.step? c
  return (scan, ← r.takeAll? tokens)

def root? (i : Input) (scan : Scan) (r : Reader) : Option Tree :=
  match _ : i.next? with
  | none => none
  | some (c, rest) =>
    match turn? scan r c with
    | none => none
    | some (_, .whole root) => some root
    | some (scan, .on r) => root? rest scan r
    | some (scan, .insert chars r) =>
      match _ : rest.insert? chars with
      | none => none
      | some rest => root? rest scan r
    | some (scan, .encode name r) =>
      match _ : rest.encoded? name with
      | none => none
      | some rest => root? rest scan r
termination_by (i.text.bytes.length, i.left, i.inserted.length)
decreasing_by
  all_goals have smaller := Input.length_next? ‹i.next? = _›
  · grind
  · have fewer := Input.left_insert? ‹Input.insert? _ _ = _›
    grind
  · have same := Input.encoded?_same ‹Input.encoded? _ _ = _›
    grind

/-- The root of a text. What follows it is not looked at. -/
def read? (bytes : List UInt8) : Option Tree := root? { text := .ofBytes bytes } {} {}

end Trackline.Markup
