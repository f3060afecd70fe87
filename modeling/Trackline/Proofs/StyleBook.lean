import Mathlib.Data.Finset.Card
import Mathlib.Data.List.Induction
import Mathlib.Logic.Function.Basic
import Trackline.Style

/-! Style books over whole runs. A book has each tag once, at the place of its first definition
and with the kind of its last one. Beside the book, which searches its styles, stands a register
that keeps the place of each tag and goes there unchecked: no place ever leads outside. -/
namespace Trackline

/-- The last of some styles that has a tag. -/
def latest (styles : List Style) (tag : String) : Option Style := styles.reverse.find? (·.tag == tag)

/-- The tags that an earlier style had already, each as often as that happened. -/
def repeated (styles : List Style) : List String :=
  (styles.zipIdx.filter fun s => s.1.tag ∈ (styles.take s.2).map (·.tag)).map (·.1.tag)

private theorem latest_concat (styles : List Style) (s : Style) (tag : String) :
    latest (styles ++ [s]) tag = if tag = s.tag then some s else latest styles tag := by
  rw [latest, List.reverse_concat, List.find?_cons, latest]
  by_cases same : tag = s.tag
  · simp [same]
  · simp [same, beq_eq_false_iff_ne.mpr (Ne.symm same)]

private theorem latest_isSome (styles : List Style) (tag : String) :
    (latest styles tag).isSome ↔ tag ∈ styles.map (·.tag) := by
  simp [latest]

private theorem repeated_concat (styles : List Style) (s : Style) :
    repeated (styles ++ [s]) =
      repeated styles ++ if s.tag ∈ styles.map (·.tag) then [s.tag] else [] := by
  have older : (styles.zipIdx.filter fun a => a.1.tag ∈ ((styles ++ [s]).take a.2).map (·.tag)) =
      styles.zipIdx.filter fun a => a.1.tag ∈ (styles.take a.2).map (·.tag) := by
    apply List.filter_congr
    rintro ⟨a, place⟩ member
    have inside := (List.mem_zipIdx' member).1
    rw [List.take_append_of_le_length (Nat.le_of_lt inside)]
  rw [repeated, List.zipIdx_append, List.filter_append, List.map_append, older, repeated]
  split_ifs with known <;> simp [known]

private theorem eraseDups_concat (tags : List String) (tag : String) :
    (tags ++ [tag]).eraseDups = if tag ∈ tags then tags.eraseDups else tags.eraseDups ++ [tag] := by
  rw [List.eraseDups_append]
  split_ifs with known <;> simp [List.removeAll, known, List.eraseDups_cons]

namespace StyleBook

def tags (book : StyleBook) : List String := book.styles.map (·.tag)

/-- One definition after another, with the reports of all. -/
def defineAll (book : StyleBook) : List Style → Logged StyleBook
  | [] => ⟨book, []⟩
  | s :: rest =>
    let defined := book.define s.tag s.kind
    let after := defined.value.defineAll rest
    ⟨after.value, defined.log ++ after.log⟩

variable (book : StyleBook) (tag other : String) (kind : StyleKind)

private theorem slot?_some {slot : Nat} (found : book.slot? tag = some slot) :
    ∃ inside : slot < book.styles.length, book.styles[slot].tag = tag := by
  obtain ⟨inside, here, _⟩ := List.findIdx?_eq_some_iff_getElem.mp found
  exact ⟨inside, by simpa using here⟩

private theorem slot?_none : book.slot? tag = none ↔ tag ∉ book.tags := by
  simp [slot?, tags]

private theorem slot?_tags : book.slot? tag = book.tags.findIdx? (· == tag) := by
  rw [tags, List.findIdx?_map]
  rfl

private theorem resolve_eq : book.resolve tag = book.styles.find? (·.tag == tag) :=
  List.find?_eq_bind_findIdx?_getElem?.symm

private theorem contains_iff : book.contains tag = true ↔ tag ∈ book.tags := by
  rw [contains, Option.isSome_iff_ne_none, ne_eq, slot?_none, not_not]

/-- What a definition does: the tag keeps its place, or comes behind all others. -/
theorem define_cases :
    (∃ slot, ∃ inside : slot < book.styles.length, book.styles[slot].tag = tag ∧
      book.slot? tag = some slot ∧
      book.define tag kind = ⟨⟨book.styles.set slot ⟨tag, kind⟩⟩, [.redefined tag]⟩) ∨
    (tag ∉ book.tags ∧ book.slot? tag = none ∧
      book.define tag kind = ⟨⟨book.styles ++ [⟨tag, kind⟩]⟩, []⟩) := by
  cases found : book.slot? tag with
  | some slot =>
    obtain ⟨inside, here⟩ := book.slot?_some tag found
    exact .inl ⟨slot, inside, here, rfl, by rw [define, found]⟩
  | none => exact .inr ⟨(book.slot?_none tag).mp found, rfl, by rw [define, found]⟩

private theorem tags_set {slot : Nat} (inside : slot < book.styles.length) :
    tags ⟨book.styles.set slot ⟨book.styles[slot].tag, kind⟩⟩ = book.tags := by
  have within : slot < book.tags.length := by simpa [tags] using inside
  have same : book.tags[slot] = book.styles[slot].tag := List.getElem_map _
  rw [tags, List.map_set, ← same]
  exact List.set_getElem_self within

private theorem slot?_set {slot : Nat} (inside : slot < book.styles.length) :
    slot? ⟨book.styles.set slot ⟨book.styles[slot].tag, kind⟩⟩ = book.slot? := by
  funext other
  rw [slot?_tags, slot?_tags, tags_set]

private theorem slot?_concat (missing : book.slot? tag = none) :
    slot? ⟨book.styles ++ [⟨tag, kind⟩]⟩ =
      Function.update book.slot? tag (some book.styles.length) := by
  funext other
  rw [slot?, List.findIdx?_append]
  by_cases same : other = tag
  · subst same
    rw [slot?] at missing
    simp [missing]
  · simp [Function.update_of_ne same, Ne.symm same, slot?]

private theorem tags_define : (book.define tag kind).value.tags =
    if tag ∈ book.tags then book.tags else book.tags ++ [tag] := by
  obtain ⟨slot, inside, rfl, _, defined⟩ | ⟨new, _, defined⟩ := book.define_cases tag kind
  · have known : book.styles[slot].tag ∈ book.tags :=
      List.mem_map_of_mem (List.getElem_mem inside)
    rw [defined, if_pos known, tags_set]
  · rw [defined, if_neg new, tags, List.map_append]
    rfl

private theorem resolve_define : (book.define tag kind).value.resolve other =
    if other = tag then some ⟨tag, kind⟩ else book.resolve other := by
  obtain ⟨slot, inside, rfl, found, defined⟩ | ⟨new, _, defined⟩ := book.define_cases tag kind
  · rw [defined, resolve, slot?_set, resolve]
    split_ifs with same
    · rw [same, found, Option.bind_some, List.getElem?_set_self inside]
    · cases there : book.slot? other with
      | none => rfl
      | some place =>
        obtain ⟨_, here⟩ := book.slot?_some other there
        have apart : slot ≠ place := by
          rintro rfl
          exact same here.symm
        rw [Option.bind_some, Option.bind_some, List.getElem?_set_ne apart]
  · rw [defined, resolve_eq, List.find?_append, ← resolve_eq]
    split_ifs with same
    · have missing := (book.slot?_none tag).mpr new
      simp [same, resolve, missing]
    · simp [Ne.symm same]

private theorem log_define :
    (book.define tag kind).log = if tag ∈ book.tags then [.redefined tag] else [] := by
  obtain ⟨slot, inside, rfl, _, defined⟩ | ⟨new, _, defined⟩ := book.define_cases tag kind
  · have known : book.styles[slot].tag ∈ book.tags :=
      List.mem_map_of_mem (List.getElem_mem inside)
    rw [defined, if_pos known]
  · rw [defined, if_neg new]

private theorem defineAll_concat (calls : List Style) (s : Style) :
    book.defineAll (calls ++ [s]) =
      ⟨((book.defineAll calls).value.define s.tag s.kind).value,
        (book.defineAll calls).log ++ ((book.defineAll calls).value.define s.tag s.kind).log⟩ := by
  induction calls generalizing book with
  | nil => simp [defineAll]
  | cons first rest ih => simp [defineAll, ih]

private theorem tags_run (calls : List Style) :
    (defineAll {} calls).value.tags = (calls.map (·.tag)).eraseDups := by
  induction calls using List.reverseRecOn with
  | nil => rfl
  | append_singleton calls s ih =>
    rw [defineAll_concat, tags_define, ih, List.map_append, List.map_singleton, eraseDups_concat]
    simp only [List.mem_eraseDups]

theorem nodup_run (calls : List Style) : (defineAll {} calls).value.tags.Nodup := by
  induction calls using List.reverseRecOn with
  | nil => exact List.nodup_nil
  | append_singleton calls s ih =>
    rw [defineAll_concat, tags_define]
    split_ifs with known
    · exact ih
    · exact List.nodup_append'.mpr ⟨ih, List.nodup_singleton _, by simpa using known⟩

theorem resolve_run (calls : List Style) (tag : String) :
    (defineAll {} calls).value.resolve tag = latest calls tag := by
  induction calls using List.reverseRecOn with
  | nil => rfl
  | append_singleton calls s ih => rw [defineAll_concat, resolve_define, ih, latest_concat]

private theorem log_run (calls : List Style) :
    (defineAll {} calls).log = (repeated calls).map .redefined := by
  induction calls using List.reverseRecOn with
  | nil => rfl
  | append_singleton calls s ih =>
    rw [defineAll_concat, ih, log_define, tags_run, repeated_concat, List.map_append]
    simp only [List.mem_eraseDups]
    split_ifs <;> rfl

private theorem count_run (calls : List Style) :
    (defineAll {} calls).log.length + (defineAll {} calls).value.tags.length = calls.length := by
  induction calls using List.reverseRecOn with
  | nil => rfl
  | append_singleton calls s ih =>
    rw [defineAll_concat, tags_define, log_define, List.length_append, List.length_append,
      List.length_singleton]
    split_ifs <;> simp only [List.length_append, List.length_singleton, List.length_nil] <;> omega

private theorem slot?_iff (distinct : book.tags.Nodup) (place : Nat) :
    book.slot? tag = some place ↔ ∃ s, book.styles[place]? = some s ∧ s.tag = tag := by
  constructor
  · intro found
    obtain ⟨inside, here⟩ := book.slot?_some tag found
    exact ⟨_, List.getElem?_eq_getElem inside, here⟩
  · rintro ⟨s, here, rfl⟩
    have tagged : book.tags[place]? = some s.tag := by rw [tags, List.getElem?_map, here]; rfl
    cases found : book.slot? s.tag with
    | none => exact absurd (List.mem_of_getElem? tagged) ((book.slot?_none s.tag).mp found)
    | some slot =>
      obtain ⟨inside, first⟩ := book.slot?_some s.tag found
      have same : book.tags[slot]? = some s.tag := by
        rw [tags, List.getElem?_map, List.getElem?_eq_getElem inside, Option.map_some, first]
      rw [(List.getElem?_inj (by simpa [tags] using inside) distinct).mp (same.trans tagged.symm)]

private theorem styles_resolve (distinct : book.tags.Nodup) :
    book.styles.map some = book.tags.map book.resolve := by
  rw [tags, List.map_map]
  apply List.map_congr_left
  intro s member
  obtain ⟨place, here⟩ := List.mem_iff_getElem?.mp member
  rw [Function.comp_apply, resolve, (book.slot?_iff s.tag distinct place).mpr ⟨s, here, rfl⟩,
    Option.bind_some, here]

end StyleBook

/-- A style book that knows the place of each tag. What would lead outside the row is none. -/
structure Register where
  row : List Style := []
  places : String → Option Nat := fun _ => none

namespace Register

def define (r : Register) (tag : String) (kind : StyleKind) : Option (Logged Register) :=
  match r.places tag with
  | some place =>
    if place < r.row.length then
      some ⟨{ r with row := r.row.set place ⟨tag, kind⟩ }, [.redefined tag]⟩
    else none
  | none =>
    some ⟨⟨r.row ++ [⟨tag, kind⟩], Function.update r.places tag (some r.row.length)⟩, []⟩

def resolve (r : Register) (tag : String) : Option (Option Style) :=
  match r.places tag with
  | some place => r.row[place]?.map some
  | none => some none

def contains (r : Register) (tag : String) : Bool := (r.places tag).isSome

def defineAll (r : Register) : List Style → Option (Logged Register)
  | [] => some ⟨r, []⟩
  | s :: rest => do
    let defined ← r.define s.tag s.kind
    let after ← defined.value.defineAll rest
    return ⟨after.value, defined.log ++ after.log⟩

def ofBook (book : StyleBook) : Register := ⟨book.styles, book.slot?⟩

variable (book : StyleBook) (tag : String) (kind : StyleKind)

private theorem define_ofBook :
    (ofBook book).define tag kind = some ((book.define tag kind).map ofBook) := by
  obtain ⟨slot, inside, rfl, found, defined⟩ | ⟨new, missing, defined⟩ := book.define_cases tag kind
  · have place : (ofBook book).places book.styles[slot].tag = some slot := found
    rw [defined, define, place]
    simp only [Logged.map, ofBook, inside, if_true, StyleBook.slot?_set]
  · have place : (ofBook book).places tag = none := missing
    rw [defined, define, place]
    simp only [Logged.map, ofBook, book.slot?_concat tag kind missing]

private theorem resolve_ofBook : (ofBook book).resolve tag = some (book.resolve tag) := by
  cases found : book.slot? tag with
  | none =>
    have place : (ofBook book).places tag = none := found
    rw [resolve, place, StyleBook.resolve, found]
    rfl
  | some slot =>
    obtain ⟨inside, _⟩ := book.slot?_some tag found
    have place : (ofBook book).places tag = some slot := found
    rw [resolve, place, StyleBook.resolve, found]
    simp [ofBook, List.getElem?_eq_getElem inside]

private theorem defineAll_ofBook (calls : List Style) :
    (ofBook book).defineAll calls = some ((book.defineAll calls).map ofBook) := by
  induction calls generalizing book with
  | nil => rfl
  | cons s rest ih =>
    rw [defineAll, define_ofBook, Option.bind_eq_bind, Option.bind_some]
    change ((ofBook (book.define s.tag s.kind).value).defineAll rest).bind _ = _
    rw [ih]
    rfl

end Register

/-- A new book after any definitions. It has each tag that was defined once, in the order of the
first definitions, as the last definition of the tag left it; so it counts the different tags and
finds what was defined last. Each definition of a tag that was there already is reported, and no
other. A register that trusts its places does the same and never leaves its row: tags and places
stay each other's inverse. -/
theorem definitions_kept (calls : List Style) :
    let made := StyleBook.defineAll {} calls
    let book := made.value
    let count := (calls.map (·.tag)).toFinset.card
    (book.tags = (calls.map (·.tag)).eraseDups ∧ book.tags.Nodup) ∧
    book.styles.map some = book.tags.map (latest calls) ∧
    book.styles.length = count ∧
    (∀ tag, book.resolve tag = latest calls tag ∧
      ((book.resolve tag).isSome ↔ tag ∈ calls.map (·.tag)) ∧
      (book.contains tag = true ↔ (book.resolve tag).isSome)) ∧
    made.log = (repeated calls).map .redefined ∧
    made.log.length + count = calls.length ∧
    ∃ r, Register.defineAll {} calls = some ⟨r, made.log⟩ ∧ r.row = book.styles ∧
      (∀ tag place, r.places tag = some place ↔ ∃ s, r.row[place]? = some s ∧ s.tag = tag) ∧
      (∀ tag, r.resolve tag = some (book.resolve tag) ∧ r.contains tag = book.contains tag) := by
  intro made book count
  have distinct : book.tags.Nodup := StyleBook.nodup_run calls
  have tags : book.tags = (calls.map (·.tag)).eraseDups := StyleBook.tags_run calls
  have found : ∀ tag, book.resolve tag = latest calls tag := StyleBook.resolve_run calls
  have size : book.tags.length = count := by
    rw [← List.toFinset_card_of_nodup distinct, tags]
    congr 1
    ext tag
    rw [List.mem_toFinset, List.mem_toFinset, List.mem_eraseDups]
  refine ⟨⟨tags, distinct⟩, ?_, ?_, fun tag => ⟨found tag, ?_, ?_⟩, StyleBook.log_run calls, ?_, ?_⟩
  · rw [book.styles_resolve distinct, funext found]
  · rw [← size, StyleBook.tags, List.length_map]
  · rw [found, latest_isSome]
  · rw [book.contains_iff, found, latest_isSome, tags, List.mem_eraseDups]
  · rw [← size]
    exact StyleBook.count_run calls
  · refine ⟨.ofBook book, Register.defineAll_ofBook {} calls, rfl, fun tag place => ?_, ?_⟩
    · exact book.slot?_iff tag distinct place
    · exact fun tag => ⟨Register.resolve_ofBook book tag, rfl⟩

end Trackline
