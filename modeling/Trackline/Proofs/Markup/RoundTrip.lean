import Mathlib.Data.List.Basic
import Trackline.Markup.Written
import Trackline.Proofs.Markup.Reread

/-! What is written reads back. The writer escapes every character that could begin or
end a tag or a value, so the reader meets these only where the writer put them. -/
namespace Trackline.Markup.Reread

private theorem unescape_escape (s : List Char) : unescape (escape s) = some s := by
  induction s with
  | nil => rfl
  | cons c rest ih =>
    change unescape (escaped c ++ escape rest) = _
    unfold escaped
    split
    case h_6 c _ _ amp _ _ =>
      rw [List.singleton_append, unescape]
      · simp [ih]
      all_goals simp_all
    all_goals simp [unescape, ih]

private theorem escape_safe (s : List Char) : ∀ c ∈ escape s, c ≠ '<' ∧ c ≠ '>' ∧ c ≠ '"' := by
  intro c member
  obtain ⟨original, _, inside⟩ := List.mem_flatMap.mp member
  clear member
  unfold escaped at inside
  split at inside
  case h_6 =>
    rw [List.mem_singleton.mp inside]
    simp_all
  all_goals
    revert c
    simp

/-- A name of a tag or an attribute, free of all characters that could end it. -/
def Name (name : String) : Prop :=
  ∀ c ∈ name.toList, c ≠ '<' ∧ c ≠ '>' ∧ c ≠ '/' ∧ c ≠ ' ' ∧ c ≠ '='

instance (name : String) : Decidable (Name name) :=
  decidable_of_iff (name.toList.all fun c => c != '<' && c != '>' && c != '/' && c != ' ' && c != '=')
    (by simp [Name, and_assoc])

structure Proper (name : String) (attrs : List (String × String)) : Prop where
  nonempty : name ≠ ""
  name : Name name
  keys : ∀ a ∈ attrs, Name a.1

private theorem read_key (read : List (String × String)) (key more : List Char) (safe : ∀ c ∈ more, c ≠ '=') :
    more.foldlM attributeStep (read, .key key) = some (read, .key (key ++ more)) := by
  induction more generalizing key with
  | nil => simp
  | cons c rest ih =>
    have plain : c ≠ '=' := safe c (by simp)
    simp [attributeStep, plain, ih (key ++ [c]) fun d member => safe d (by simp [member])]

private theorem read_value (read : List (String × String)) (key value more : List Char)
    (safe : ∀ c ∈ more, c ≠ '"') :
    more.foldlM attributeStep (read, .value key value) = some (read, .value key (value ++ more)) := by
  induction more generalizing value with
  | nil => simp
  | cons c rest ih =>
    have plain : c ≠ '"' := safe c (by simp)
    simp [attributeStep, plain, ih (value ++ [c]) fun d member => safe d (by simp [member])]

private theorem read_attributes (read more : List (String × String)) (names : ∀ a ∈ more, Name a.1) :
    (attributes more).foldlM attributeStep (read, .between) = some (read ++ more, .between) := by
  induction more generalizing read with
  | nil => simp [attributes]
  | cons a rest ih =>
    have name := names a (by simp)
    have key : a.1.toList.foldlM attributeStep (read, .key []) = some (read, .key a.1.toList) :=
      read_key read [] _ fun c member => (name c member).2.2.2.2
    have value : (escape a.2.toList).foldlM attributeStep (read, .value a.1.toList []) =
        some (read, .value a.1.toList (escape a.2.toList)) :=
      read_value read _ [] _ fun c member => (escape_safe _ c member).2.2
    have written : attributes (a :: rest) = ' ' :: (a.1.toList ++
        '=' :: '"' :: (escape a.2.toList ++ '"' :: attributes rest)) := by
      simp [attributes]
    rw [written]
    simp [attributeStep, key, value, unescape_escape, ih _ fun b member => names b (by simp [member])]

private theorem attributes?_attributes (attrs : List (String × String)) (names : ∀ a ∈ attrs, Name a.1) :
    attributes? (attributes attrs) = some attrs := by
  simp [attributes?, read_attributes [] attrs names]

private theorem attributes_last (attrs : List (String × String)) (nonempty : attrs ≠ []) :
    (attributes attrs).getLast? = some '"' := by
  obtain ⟨before, last, rfl⟩ := List.eq_nil_or_concat attrs |>.resolve_left nonempty
  have written : attributes (before.concat last) =
      attributes before ++ (' ' :: last.1.toList ++ "=\"".toList ++ escape last.2.toList) ++ ['"'] := by
    simp [attributes]
  rw [written, List.getLast?_concat]

private theorem attributes_head (attrs : List (String × String)) (nonempty : attrs ≠ []) :
    ∃ rest, attributes attrs = ' ' :: rest := by
  obtain ⟨a, more, rfl⟩ := List.exists_cons_of_ne_nil nonempty
  simp [attributes]

private theorem named?_written {name : String} {attrs : List (String × String)} (proper : Proper name attrs) :
    named? (name.toList ++ attributes attrs) = some (name, attrs) := by
  have safe : ∀ c ∈ name.toList, (c != ' ') = true := fun c member => by
    simpa using (proper.name c member).2.2.2.1
  have behind : (attributes attrs).takeWhile (· != ' ') = [] ∧
      (attributes attrs).dropWhile (· != ' ') = attributes attrs := by
    by_cases empty : attrs = []
    · simp [empty, attributes]
    · obtain ⟨rest, written⟩ := attributes_head attrs empty
      simp [written]
  rw [named?, List.takeWhile_append_of_pos safe, List.dropWhile_append_of_pos safe, behind.1, behind.2,
    attributes?_attributes attrs proper.keys]
  simp

private theorem ofChars?_named {name : String} {attrs : List (String × String)}
    (proper : Proper name attrs) (rest : List Char) :
    Tag.ofChars? (name.toList ++ rest) =
      if (name.toList ++ rest).getLast? = some '/' then
        (named? (name.toList ++ rest).dropLast).map fun (name, read) => .single name read
      else (named? (name.toList ++ rest)).map fun (name, read) => .opening name read := by
  obtain ⟨first, more, chars⟩ := List.exists_cons_of_ne_nil (mt String.toList_eq_nil_iff.mp proper.nonempty)
  have safe : first ≠ '/' := (proper.name first (by simp [chars])).2.2.1
  rw [chars, List.cons_append, Tag.ofChars?]
  simpa using safe

private theorem ofChars?_opening {name : String} {attrs : List (String × String)} (proper : Proper name attrs) :
    Tag.ofChars? (name.toList ++ attributes attrs) = some (.opening name attrs) := by
  have last : (name.toList ++ attributes attrs).getLast? ≠ some '/' := by
    by_cases empty : attrs = []
    · intro slash
      have member := List.mem_of_getLast? slash
      simp only [empty, attributes, List.flatMap_nil, List.append_nil] at member
      exact (proper.name '/' member).2.2.1 rfl
    · rw [List.getLast?_append, attributes_last attrs empty]
      simp
  rw [ofChars?_named proper, if_neg last, named?_written proper]
  rfl

private theorem ofChars?_single {name : String} {attrs : List (String × String)} (proper : Proper name attrs) :
    Tag.ofChars? (name.toList ++ attributes attrs ++ ['/']) = some (.single name attrs) := by
  have last : (name.toList ++ (attributes attrs ++ ['/'])).getLast? = some '/' := by simp
  have front : (name.toList ++ (attributes attrs ++ ['/'])).dropLast =
      name.toList ++ attributes attrs := by simp
  rw [List.append_assoc, ofChars?_named proper, if_pos last, front, named?_written proper]
  rfl

private theorem ofChars?_closing (name : String) : Tag.ofChars? ('/' :: name.toList) = some (.closing name) := by
  simp [Tag.ofChars?]

private theorem run_append {s next : State} {first : List Char} (begun : run s first = some next)
    (rest : List Char) : run s (first ++ rest) = run next rest := by
  simp only [run, List.foldlM_append] at begun ⊢
  simp [begun]

private theorem run_content (chars : List Char) (safe : ∀ c ∈ chars, c ≠ '<') (top : Unclosed)
    (rest : List Unclosed) :
    run { unclosed := top :: rest } chars =
      some { unclosed := { top with raw := top.raw ++ chars } :: rest } := by
  induction chars generalizing top with
  | nil => simp [run]
  | cons c more ih =>
    have plain : c ≠ '<' := safe c (by simp)
    have later := ih (fun d member => safe d (by simp [member])) { top with raw := top.raw ++ [c] }
    simpa [run, step, plain] using later

private theorem run_inside (chars : List Char) (safe : ∀ c ∈ chars, c ≠ '<' ∧ c ≠ '>')
    (unclosed : List Unclosed) (inside : List Char) :
    run { unclosed, tag := some inside } chars = some { unclosed, tag := some (inside ++ chars) } := by
  induction chars generalizing inside with
  | nil => simp [run]
  | cons c more ih =>
    have plain := safe c (by simp)
    have later := ih (fun d member => safe d (by simp [member])) (inside ++ [c])
    simpa [run, step, plain] using later

private theorem run_tag {inside : List Char} (safe : ∀ c ∈ inside, c ≠ '<' ∧ c ≠ '>') {tag : Tag}
    (told : Tag.ofChars? inside = some tag) {top : Unclosed} {rest after : List Unclosed}
    (applied : tag.apply (top :: rest) = some after) :
    run { unclosed := top :: rest } ('<' :: (inside ++ ['>'])) = some { unclosed := after } := by
  have begun : run { unclosed := top :: rest } ['<'] = some { unclosed := top :: rest, tag := some [] } := by
    simp [run, step]
  have ended : run { unclosed := top :: rest, tag := some inside } ['>'] = some { unclosed := after } := by
    simp [run, step, told, applied]
  change run _ (['<'] ++ (inside ++ ['>'])) = _
  rw [run_append begun, run_append (run_inside inside safe _ []), List.nil_append, ended]

/-- Elements that can be told from their text: proper names, and a text only where there
are no children. -/
inductive Plain : Element → Prop
  | leaf (tag : String) (attrs : List (String × String)) (text : Option String)
      (proper : Proper tag attrs) : Plain ⟨tag, attrs, text, []⟩
  | node (tag : String) (attrs : List (String × String)) (children : List Element)
      (proper : Proper tag attrs) (plain : ∀ e ∈ children, Plain e) : Plain ⟨tag, attrs, none, children⟩

private theorem attributes_safe (attrs : List (String × String)) (names : ∀ a ∈ attrs, Name a.1) :
    ∀ c ∈ attributes attrs, c ≠ '<' ∧ c ≠ '>' := by
  have signs : ∀ c ∈ "=\"".toList, c ≠ '<' ∧ c ≠ '>' := by simp
  intro c member
  obtain ⟨a, here, inside⟩ := List.mem_flatMap.mp member
  simp only [List.mem_append, List.mem_cons, List.cons_append, List.not_mem_nil, or_false] at inside
  rcases inside with rfl | ((key | sign) | value) | rfl
  · decide
  · exact ⟨(names a here c key).1, (names a here c key).2.1⟩
  · exact signs c sign
  · exact ⟨(escape_safe _ c value).1, (escape_safe _ c value).2.1⟩
  · decide

private theorem tag_safe {name : String} {attrs : List (String × String)} (proper : Proper name attrs) :
    ∀ c ∈ name.toList ++ attributes attrs, c ≠ '<' ∧ c ≠ '>' := by
  intro c member
  rcases List.mem_append.mp member with inside | inside
  · exact ⟨(proper.name c inside).1, (proper.name c inside).2.1⟩
  · exact attributes_safe attrs proper.keys c inside

private theorem blank_newline (level : Nat) : blank (newline level) = true := by
  simp [blank, newline]

private theorem newline_safe (level : Nat) : ∀ c ∈ newline level, c ≠ '<' := by
  intro c member
  simp only [newline, List.mem_cons, List.mem_replicate] at member
  rcases member with rfl | ⟨_, rfl⟩ <;> decide

section Tags

variable {name : String} {attrs : List (String × String)} (proper : Proper name attrs)
  {top : Unclosed} (rest : List Unclosed) (clear : blank top.raw = true)

include proper clear

private theorem run_opening :
    run { unclosed := top :: rest } ('<' :: (name.toList ++ attributes attrs ++ ['>'])) =
      some { unclosed := { tag := name, attributes := attrs } :: top :: rest } :=
  run_tag (tag_safe proper) (ofChars?_opening proper) (by simp [Tag.apply, clear])

private theorem run_single :
    run { unclosed := top :: rest } ('<' :: (name.toList ++ attributes attrs ++ ['/'] ++ ['>'])) =
      some { unclosed :=
        { top with children := top.children ++ [{ tag := name, attributes := attrs }], raw := [] } ::
          rest } := by
  refine run_tag ?_ (ofChars?_single proper) (by simp [Tag.apply, Unclosed.with?, clear])
  intro c member
  rcases List.mem_append.mp member with inside | slash
  · exact tag_safe proper c inside
  · rw [List.mem_singleton.mp slash]
    decide

private theorem run_closing {inner : Unclosed} (same : inner.tag = name) {e : Element}
    (whole : inner.element? = some e) :
    run { unclosed := inner :: top :: rest } ('<' :: ('/' :: name.toList ++ ['>'])) =
      some { unclosed := { top with children := top.children ++ [e], raw := [] } :: rest } := by
  refine run_tag ?_ (ofChars?_closing name) (by simp [Tag.apply, same, whole, Unclosed.with?, clear])
  intro c member
  rcases List.mem_cons.mp member with rfl | inside
  · decide
  · exact ⟨(proper.name c inside).1, (proper.name c inside).2.1⟩

end Tags

private theorem run_elements {children : List Element} {level : Nat}
    (each : ∀ e ∈ children, ∀ (top : Unclosed) (rest : List Unclosed), blank top.raw = true →
      run { unclosed := top :: rest } (element level e) =
        some { unclosed := { top with children := top.children ++ [e], raw := [] } :: rest })
    (top : Unclosed) (rest : List Unclosed) (clear : top.raw = []) :
    run { unclosed := top :: rest } (elements level children) =
      some { unclosed := { top with children := top.children ++ children } :: rest } := by
  induction children generalizing top with
  | nil => simp [elements, run]
  | cons e more ih =>
    have line := run_content (newline level) (newline_safe level) top rest
    have first := each e (by simp) { top with raw := top.raw ++ newline level } rest (by
      simp [clear, blank_newline])
    have others := ih (fun d member => each d (by simp [member]))
      { top with children := top.children ++ [e], raw := [] } rfl
    rw [elements, List.append_assoc, run_append line, run_append first, others]
    simp [clear]

/-- A written element is read as one more child of the element around it. -/
theorem run_element {e : Element} (plain : Plain e) (level : Nat) (top : Unclosed) (rest : List Unclosed)
    (clear : blank top.raw = true) :
    run { unclosed := top :: rest } (element level e) =
      some { unclosed := { top with children := top.children ++ [e], raw := [] } :: rest } := by
  induction plain generalizing level top rest with
  | leaf tag attrs text proper =>
    cases text with
    | none =>
      have written : element level ⟨tag, attrs, none, []⟩ =
          '<' :: (tag.toList ++ attributes attrs ++ ['/'] ++ ['>']) := by simp [element]
      rw [written, run_single proper rest clear]
    | some s =>
      have written : element level ⟨tag, attrs, some s, []⟩ =
          '<' :: (tag.toList ++ attributes attrs ++ ['>']) ++
            (escape s.toList ++ '<' :: ('/' :: tag.toList ++ ['>'])) := by simp [element]
      have whole : Unclosed.element? ⟨tag, attrs, [], escape s.toList⟩ = some ⟨tag, attrs, some s, []⟩ := by
        simp [Unclosed.element?, unescape_escape]
      have inside := run_content (escape s.toList) (fun c member => (escape_safe _ c member).1)
        ⟨tag, attrs, [], []⟩ (top :: rest)
      rw [written, run_append (run_opening proper rest clear), run_append inside]
      exact run_closing proper rest clear rfl whole
  | node tag attrs children proper _ ih =>
    cases children with
    | nil =>
      have written : element level ⟨tag, attrs, none, []⟩ =
          '<' :: (tag.toList ++ attributes attrs ++ ['/'] ++ ['>']) := by simp [element]
      rw [written, run_single proper rest clear]
    | cons first more =>
      have written : element level ⟨tag, attrs, none, first :: more⟩ =
          '<' :: (tag.toList ++ attributes attrs ++ ['>']) ++ (elements (level + 1) (first :: more) ++
            (newline level ++ '<' :: ('/' :: tag.toList ++ ['>']))) := by simp [element, escape]
      have inside := run_elements (fun e member => ih e member (level + 1)) ⟨tag, attrs, [], []⟩
        (top :: rest) rfl
      have line := run_content (newline level) (newline_safe level) ⟨tag, attrs, first :: more, []⟩
        (top :: rest)
      have whole : Unclosed.element? ⟨tag, attrs, first :: more, newline level⟩ =
          some ⟨tag, attrs, none, first :: more⟩ := by
        simp [Unclosed.element?, blank_newline]
      rw [written, run_append (run_opening proper rest clear), run_append inside]
      rw [List.nil_append, run_append line]
      exact run_closing proper rest clear rfl whole

theorem read?_root {root : Element} (plain : Plain root) :
    read? (newline 0 ++ element 0 root ++ ['\n']) = some root := by
  have line := run_content (newline 0) (newline_safe 0) { tag := "" } []
  have inside := run_element plain 0 { tag := "", raw := newline 0 } [] (blank_newline 0)
  have last := run_content ['\n'] (by simp) { tag := "", children := [root] } []
  rw [read?, List.append_assoc, run_append line, List.nil_append, run_append inside, List.nil_append,
    last]
  rfl

end Trackline.Markup.Reread
