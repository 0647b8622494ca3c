import Listeners.Proofs.Capture
import Listeners.Proofs.EventName
import Listeners.Proofs.PrologueUnique
/-!
Names in generated code stay inside their literals. A literal is read back as the name that it was
written from and ends where that name does, so that the text on both sides of it does not
depend on the name.
-/
namespace Listeners
open Text

namespace Script

/-- The text ends in a backslash that is not escaped itself, so that the next character is. -/
def opensEscape (text : List Char) : Bool := text.foldl (fun opened c => !opened && c == '\\') false

/-- The text starts with a whole escape of one character, but for the backslash, whatever follows.
-/
def HasEscape (text : List Char) : Prop := ∃ c rest, ∀ r, escape (text ++ r) = some ([c], rest ++ r)

/-- What can stand between the quotes of a literal: no control character, no quote that would end it
and no backslash without an escape. -/
structure Enclosed (body : List Char) : Prop where
  visible : ∀ c ∈ body, 32 ≤ c.toNat
  quote_escaped : ∀ before behind, body = before ++ '"' :: behind → opensEscape before = true
  backslash_escapes : ∀ before behind, body = before ++ '\\' :: behind →
    opensEscape before = true ∨ HasEscape behind
  closed : opensEscape body = false

/-- The code has a literal for the name between two texts. It is read as far as the second of them.
-/
def LiteralAt (code front name rest : String) : Prop :=
  ∃ text, code = front ++ text ++ rest ∧ literal (text ++ rest).toList = some (name, rest.toList)

theorem append_split {a b before behind : List Char} {c : Char} (split : a ++ b = before ++ c :: behind) :
    (∃ middle, a = before ++ c :: middle ∧ behind = middle ++ b) ∨
      ∃ middle, before = a ++ middle ∧ b = middle ++ c :: behind := by
  rcases List.append_eq_append_iff.1 split with ⟨middle, first, second⟩ | ⟨middle, first, second⟩
  · exact Or.inr ⟨middle, first, second⟩
  · cases middle with
    | nil =>
      rw [List.append_nil] at first
      exact Or.inr ⟨[], by simp [first], second.symm⟩
    | cons d middle =>
      cases second
      exact Or.inl ⟨middle, first, rfl⟩

theorem opensEscape_append {a : List Char} (closed : opensEscape a = false) (b : List Char) :
    opensEscape (a ++ b) = opensEscape b := by
  unfold opensEscape at closed ⊢
  rw [List.foldl_append, closed]

theorem opensEscape_plain {text : List Char} (plain : ∀ c ∈ text, c ≠ '\\') :
    opensEscape text = false := by
  induction text with
  | nil => rfl
  | cons c text ih =>
    have one : opensEscape [c] = false := by simp [opensEscape, plain c List.mem_cons_self]
    have joined := opensEscape_append one text
    rw [List.singleton_append] at joined
    rw [joined]
    exact ih fun d member => plain d (List.mem_cons_of_mem c member)

theorem HasEscape.append {text : List Char} (has : HasEscape text) (more : List Char) :
    HasEscape (text ++ more) := by
  obtain ⟨c, rest, reads⟩ := has
  refine ⟨c, rest ++ more, fun r => ?_⟩
  rw [List.append_assoc, List.append_assoc]
  exact reads (more ++ r)

theorem Enclosed.append {a b : List Char} (first : Enclosed a) (second : Enclosed b) :
    Enclosed (a ++ b) where
  visible := by
    intro c member
    rcases List.mem_append.1 member with early | late
    · exact first.visible c early
    · exact second.visible c late
  quote_escaped := by
    intro before behind split
    rcases append_split split with ⟨middle, early, _⟩ | ⟨middle, early, late⟩
    · exact first.quote_escaped before middle early
    · rw [early, opensEscape_append first.closed]
      exact second.quote_escaped middle behind late
  backslash_escapes := by
    intro before behind split
    rcases append_split split with ⟨middle, early, late⟩ | ⟨middle, early, late⟩
    · rcases first.backslash_escapes before middle early with escaped | has
      · exact Or.inl escaped
      · rw [late]
        exact Or.inr (has.append b)
    · rw [early, opensEscape_append first.closed]
      exact second.backslash_escapes middle behind late
  closed := by rw [opensEscape_append first.closed, second.closed]

theorem enclosed_nil : Enclosed [] where
  visible := by simp
  quote_escaped := by simp
  backslash_escapes := by simp
  closed := rfl

theorem enclosed_plain {c : Char} (visible : 32 ≤ c.toNat) (no_quote : c ≠ '"')
    (no_backslash : c ≠ '\\') : Enclosed [c] where
  visible := by simpa using visible
  quote_escaped := by
    intro before behind split
    have member : '"' ∈ [c] := by simp [split]
    exact absurd (List.mem_singleton.1 member).symm no_quote
  backslash_escapes := by
    intro before behind split
    have member : '\\' ∈ [c] := by simp [split]
    exact absurd (List.mem_singleton.1 member).symm no_backslash
  closed := opensEscape_plain (by simpa using no_backslash)

theorem escape_split {c d : Char} {text before behind : List Char} (absent : c ∉ text)
    (split : '\\' :: d :: text = before ++ c :: behind) :
    (c = '\\' ∧ behind = d :: text) ∨ before = ['\\'] := by
  rcases List.cons_eq_append_iff.1 split with ⟨_, same⟩ | ⟨later, start, split⟩
  · cases same
    exact Or.inl ⟨rfl, rfl⟩
  rcases List.cons_eq_append_iff.1 split with ⟨empty, _⟩ | ⟨later, _, split⟩
  · rw [start, empty]
    exact Or.inr rfl
  · exact absurd (by simp [split]) absent

theorem enclosed_escape {d : Char} {text : List Char} (has : HasEscape (d :: text))
    (visible : 32 ≤ d.toNat) (plain : ∀ c ∈ text, 32 ≤ c.toNat ∧ c ≠ '"' ∧ c ≠ '\\') :
    Enclosed ('\\' :: d :: text) where
  visible := by
    intro c member
    rcases List.mem_cons.1 member with same | member
    · rw [same]
      decide
    rcases List.mem_cons.1 member with same | later
    · rw [same]
      exact visible
    · exact (plain c later).1
  quote_escaped := by
    intro before behind split
    have absent : '"' ∉ text := fun member => (plain '"' member).2.1 rfl
    rcases escape_split absent split with ⟨same, _⟩ | start
    · cases same
    · rw [start]
      rfl
  backslash_escapes := by
    intro before behind split
    have absent : '\\' ∉ text := fun member => (plain '\\' member).2.2 rfl
    rcases escape_split absent split with ⟨_, rest⟩ | start
    · rw [rest]
      exact Or.inr has
    · rw [start]
      exact Or.inl rfl
  closed := by
    change opensEscape text = false
    exact opensEscape_plain fun c member => (plain c member).2.2

theorem enclosed_escaped (c : Char) : Enclosed (escaped c) := by
  rcases escaped_cases c with ⟨letter, known, form⟩ | ⟨control, form⟩ |
    ⟨noQuote, noBackslash, visible, form⟩
  · have letters : ∀ pair ∈ letterEscapes, 32 ≤ pair.1.toNat := by decide
    rw [form]
    exact enclosed_escape ⟨c, [], escape_letter known⟩ (letters _ known) (by simp)
  · have zero := hexDigit_plain 0 (by decide)
    have high := hexDigit_plain (c.toNat / 16) (by omega)
    have low := hexDigit_plain (c.toNat % 16) (by omega)
    rw [form]
    refine enclosed_escape ⟨c, [], escape_control control⟩ (by decide) ?_
    intro d member
    simp only [List.mem_cons, List.not_mem_nil, or_false] at member
    rcases member with rfl | rfl | rfl | rfl
    · exact zero
    · exact zero
    · exact high
    · exact low
  · rw [form]
    exact enclosed_plain visible noQuote noBackslash

theorem enclosed_flatMap_escaped (s : List Char) : Enclosed (s.flatMap escaped) := by
  induction s with
  | nil => exact enclosed_nil
  | cons c s ih => exact (enclosed_escaped c).append ih

theorem literalAt_quote (front name rest : String) :
    LiteralAt (front ++ quote name ++ rest) front name rest :=
  ⟨quote name, rfl, by rw [String.toList_append, literal_quote]⟩

end Script

open Script

def AlikeAround (x y a b : String) : Prop := ∃ front rest, a = front ++ x ++ rest ∧ b = front ++ y ++ rest

theorem intercalate_around (separator : String) (before later : List String) :
    ∃ front rest, ∀ text, separator.intercalate (before ++ text :: later) = front ++ text ++ rest := by
  have behind : ∃ rest, ∀ text, separator.intercalate (text :: later) = text ++ rest := by
    cases later with
    | nil => exact ⟨"", by simp⟩
    | cons second others =>
      exact ⟨separator ++ separator.intercalate (second :: others), by simp [String.append_assoc]⟩
  obtain ⟨rest, tail⟩ := behind
  cases before with
  | nil => exact ⟨"", rest, by simp [tail]⟩
  | cons first others =>
    refine ⟨separator.intercalate (first :: others) ++ separator, rest, fun text => ?_⟩
    rw [String.intercalate_append_of_ne_nil (by simp) (by simp), tail]
    simp only [String.append_assoc]

namespace AlikeAround
variable {x y a b : String}

theorem between (alike : AlikeAround x y a b) (p q : String) :
    AlikeAround x y (p ++ a ++ q) (p ++ b ++ q) := by
  obtain ⟨front, rest, rfl, rfl⟩ := alike
  exact ⟨p ++ front, rest ++ q, by simp [String.append_assoc], by simp [String.append_assoc]⟩

theorem intercalate (alike : AlikeAround x y a b) (separator : String) (before later : List String) :
    AlikeAround x y (separator.intercalate (before ++ a :: later))
      (separator.intercalate (before ++ b :: later)) := by
  obtain ⟨front, rest, around⟩ := intercalate_around separator before later
  rw [around, around]
  exact alike.between front rest

theorem literals {name other : String} (alike : AlikeAround (quote name) (quote other) a b) :
    ∃ front rest, LiteralAt a front name rest ∧ LiteralAt b front other rest := by
  obtain ⟨front, rest, rfl, rfl⟩ := alike
  exact ⟨front, rest, literalAt_quote front name rest, literalAt_quote front other rest⟩

end AlikeAround

structure Binding.KeyRenamed (event name other : String) (b c : Binding) : Prop where
  value : b.value = c.value
  place : ∃ first others,
    b.modifierNames = first ++ name :: others ∧ c.modifierNames = first ++ other :: others
  left : b.LeavesKey event name
  left_other : c.LeavesKey event other

inductive Handler.KeyRenamed (event name other : String) : Handler → Handler → Prop where
  | single {b c : Binding} (renamed : b.KeyRenamed event name other c) :
      KeyRenamed event name other (.single b) (.single c)
  | several {b c : Binding} (before later : List (Option Binding))
      (renamed : b.KeyRenamed event name other c) :
      KeyRenamed event name other (.several (before ++ some b :: later))
        (.several (before ++ some c :: later))

def Table.KeyRenamed (name other : String) (t u : Table) : Prop :=
  ∃ before later event h k, t.entries = before ++ (event, some h) :: later ∧
    u.entries = before ++ (event, some k) :: later ∧ Handler.KeyRenamed event name other h k

theorem keyRenamed_self {t : Table} {event name : String} {b : Binding} (filters : t.Filters event b)
    (left : b.LeavesKey event name) : t.KeyRenamed name name t := by
  obtain ⟨⟨handler, here, bound⟩, _⟩ := filters
  obtain ⟨before, later, entries⟩ := List.append_of_mem here
  obtain ⟨first, others, names⟩ := List.append_of_mem left.1
  have same : b.KeyRenamed event name name b := ⟨rfl, ⟨first, others, names, names⟩, left, left⟩
  refine ⟨before, later, event, handler, handler, entries, entries, ?_⟩
  cases handler with
  | single c =>
    obtain rfl := List.mem_singleton.1 bound
    exact .single same
  | several slots =>
    obtain ⟨before, later, rfl⟩ := List.append_of_mem (mem_bindings_several.1 bound)
    exact .several before later same

section Renamed
variable (o : Options) {event name other : String}

theorem alike_keyFilter {keys others : List String} {before later : List KeyCode}
    (codes : keys.flatMap KeyCode.ofName = before ++ .custom name :: later)
    (more : others.flatMap KeyCode.ofName = before ++ .custom other :: later) :
    AlikeAround (quote name) (quote other) (keyFilter o keys) (keyFilter o others) := by
  have test : AlikeAround (quote name) (quote other) (keyTest o (.custom name))
      (keyTest o (.custom other)) :=
    ⟨o.eventParam ++ ".keyCode!==" ++ o.keyResolver ++ "(", ")",
      by simp [keyTest, KeyCode.code, String.append_assoc],
      by simp [keyTest, KeyCode.code, String.append_assoc]⟩
  unfold keyFilter
  rw [codes, more, List.map_append, List.map_append, List.map_cons, List.map_cons]
  exact (test.intercalate "&&" _ _).between "if(" ")return;"

section Prologue
variable (first others : List String) (key : NamesKey event name) (other_key : NamesKey event other)
include key

theorem keys_around :
    (Prologue.ofModifiers event (first ++ name :: others)).keys =
      (Prologue.ofModifiers event first).keys ++ name :: (Prologue.ofModifiers event others).keys := by
  simp [keys_ofModifiers, key]

theorem codes_around (custom : KeyCode.ofName name = [.custom name]) :
    (Prologue.ofModifiers event (first ++ name :: others)).keys.flatMap KeyCode.ofName =
      (Prologue.ofModifiers event first).keys.flatMap KeyCode.ofName ++
        .custom name :: (Prologue.ofModifiers event others).keys.flatMap KeyCode.ofName := by
  rw [keys_around first others key, List.flatMap_append, List.flatMap_cons, custom]
  rfl

include other_key

theorem guards_around :
    (Prologue.ofModifiers event (first ++ name :: others)).guards =
      (Prologue.ofModifiers event (first ++ other :: others)).guards := by
  rw [guards_eq_iff]
  simp [guardNames, key, other_key]

theorem alike_prologue (custom : KeyCode.ofName name = [.custom name])
    (other_custom : KeyCode.ofName other = [.custom other]) :
    AlikeAround (quote name) (quote other)
      ((Prologue.ofModifiers event (first ++ name :: others)).code o)
      ((Prologue.ofModifiers event (first ++ other :: others)).code o) := by
  have filter := alike_keyFilter o (codes_around first others key custom)
    (codes_around first others other_key other_custom)
  have some_key : (Prologue.ofModifiers event (first ++ name :: others)).keys.isEmpty = false := by
    simp [keys_around first others key]
  have some_other : (Prologue.ofModifiers event (first ++ other :: others)).keys.isEmpty = false := by
    simp [keys_around first others other_key]
  have around := filter.between ""
    (String.join ((Prologue.ofModifiers event (first ++ name :: others)).guards.map
      (Guard.code o.eventParam)))
  simpa [Prologue.code, some_key, some_other, guards_around first others key other_key] using around

end Prologue

theorem alike_code {b c : Binding} (renamed : b.KeyRenamed event name other c) :
    AlikeAround (quote name) (quote other) (b.code o event) (c.code o event) := by
  obtain ⟨first, others, names, other_names⟩ := renamed.place
  obtain ⟨listed, key, custom⟩ := renamed.left
  obtain ⟨other_listed, other_key, other_custom⟩ := renamed.left_other
  have prologue := alike_prologue o first others key other_key custom other_custom
  rw [code_modified (hasModifiers_of_mem listed), code_modified (hasModifiers_of_mem other_listed),
    names, other_names, renamed.value]
  have around := prologue.between ("function(" ++ o.eventParam ++ ")\x7b")
    (c.value ++ (if Expression.kind c.value = .path then "(" ++ o.eventParam ++ ")" else "") ++ "\x7d")
  simpa [handlerFunction, String.append_assoc] using around

theorem alike_handler {h k : Handler} (renamed : h.KeyRenamed event name other k) :
    AlikeAround (quote name) (quote other) (h.code o event) (k.code o event) := by
  cases renamed with
  | single renamed => exact alike_code o renamed
  | several before later renamed =>
    have slots := (alike_code o renamed).intercalate "," (before.map (slotCode o event))
      (later.map (slotCode o event))
    simp only [Handler.code, Json.writeList, List.map_append, List.map_cons]
    exact slots.between "[" "]"

end Renamed

theorem alike_table (o : Options) (native : Bool) {name other : String} {t u : Table}
    (renamed : t.KeyRenamed name other u) :
    AlikeAround (quote name) (quote other) (t.code o native) (u.code o native) := by
  obtain ⟨before, later, event, h, k, here, there, handlers⟩ := renamed
  have member : AlikeAround (quote name) (quote other) (memberCode o (event, some h))
      (memberCode o (event, some k)) := by
    have named := (alike_handler o handlers).between (quote event ++ ":") ""
    simpa [memberCode, Json.writeMember, entryCode] using named
  have members := member.intercalate "," (before.map (memberCode o)) (later.map (memberCode o))
  rw [table_code, table_code, here, there, List.map_append, List.map_append, List.map_cons, List.map_cons]
  exact members.between _ "\x7d"

/-- What stands before the name of an event depends on the entries before it alone, and what stands
behind the code of its handlers on those behind it. -/
theorem event_literal (o : Options) (native : Bool) (before later : List (String × Option Handler)) :
    ∃ front rest, ∀ (t : Table) event handler, t.entries = before ++ (event, handler) :: later →
      LiteralAt (t.code o native) front event (":" ++ entryCode o event handler ++ rest) := by
  obtain ⟨front, rest, around⟩ :=
    intercalate_around "," (before.map (memberCode o)) (later.map (memberCode o))
  refine ⟨(if native then "nativeOn:\x7b" else "on:\x7b") ++ front, rest ++ "\x7d", ?_⟩
  intro t event handler here
  have code : t.code o native = (if native then "nativeOn:\x7b" else "on:\x7b") ++ front ++ quote event ++
      (":" ++ entryCode o event handler ++ (rest ++ "\x7d")) := by
    rw [table_code, here, List.map_append, List.map_cons, around]
    simp [memberCode, Json.writeMember, String.append_assoc]
  rw [code]
  exact literalAt_quote _ _ _

/-- A quoted name is read back with any text behind it, and nothing between its quotes ends the
literal. In a block every event and every key for the resolver has its name in a literal. An event
of another name of its kind or a key of another name changes that literal and nothing on either side
of it. -/
theorem names_stay_quoted :
    (∀ (s : String) (r : List Char), literal ((quote s).toList ++ r) = some (s, r)) ∧
    (∀ s : String, ∃ body, (quote s).toList = '"' :: body ++ ['"'] ∧ Enclosed body) ∧
    (∀ (o : Options) (native : Bool) (before later : List (String × Option Handler)),
      ∃ front rest, ∀ (t : Table) event handler, t.entries = before ++ (event, handler) :: later →
        LiteralAt (t.code o native) front event (":" ++ entryCode o event handler ++ rest) ∧
        ∀ other, isMouseEvent event = isMouseEvent other →
          entryCode o event handler = entryCode o other handler) ∧
    (∀ (t : Table) event b name, t.Filters event b → b.LeavesKey event name →
      t.KeyRenamed name name t) ∧
    ∀ (o : Options) (native : Bool) (name other : String) (t u : Table), t.KeyRenamed name other u →
      ∃ front rest, LiteralAt (t.code o native) front name rest ∧
        LiteralAt (u.code o native) front other rest := by
  refine ⟨literal_quote, fun s => ⟨_, toList_quote s, enclosed_flatMap_escaped s.toList⟩, ?_, ?_, ?_⟩
  · intro o native before later
    obtain ⟨front, rest, literals⟩ := event_literal o native before later
    refine ⟨front, rest, fun t event handler here => ⟨literals t event handler here, ?_⟩⟩
    intro other kind
    exact entryCode_of_kind o handler kind
  · intro t event b name filters left
    exact keyRenamed_self filters left
  · intro o native name other t u renamed
    exact (alike_table o native renamed).literals

def memberNamed (key : String) : Handler :=
  .several [none, some (.withModifiers ⟨"++n", none⟩ ["stop", key, "enter"])]

def memberNamedTable (key : String) : Table := .bind .empty "a\":b,\"\\" (memberNamed key)

/-- A key named by the end of a call, and one by a backslash and a line end. -/
theorem memberNamedTable_quoted :
    (memberNamedTable "\"))x()//").KeyRenamed "\"))x()//" "\\\n" (memberNamedTable "\\\n") ∧
    (∃ front rest, LiteralAt ((memberNamedTable "\"))x()//").code {} false) front "\"))x()//" rest ∧
      LiteralAt ((memberNamedTable "\\\n").code {} false) front "\\\n" rest) ∧
    ∃ front rest, LiteralAt ((memberNamedTable "\\\n").code {} false) front "a\":b,\"\\"
      (":[function()\x7b\x7d,function($event)\x7bif($event.keyCode!==_k(\"\\\\\\n\")&&" ++
        "$event.keyCode!==13)return;$event.stopPropagation();++n\x7d]" ++ rest) := by
  have renamed : (memberNamedTable "\"))x()//").KeyRenamed "\"))x()//" "\\\n"
      (memberNamedTable "\\\n") :=
    ⟨[], [], "a\":b,\"\\", _, _, rfl, rfl, .several [none] []
      ⟨rfl, ⟨["stop"], ["enter"], rfl, rfl⟩, ⟨by decide, by decide, by decide⟩,
        ⟨by decide, by decide, by decide⟩⟩⟩
  obtain ⟨_, _, events, _, keys⟩ := names_stay_quoted
  obtain ⟨front, rest, literals⟩ := events {} false [] []
  have read := (literals (memberNamedTable "\\\n") "a\":b,\"\\" (some (memberNamed "\\\n")) rfl).1
  have code : ":" ++ entryCode {} "a\":b,\"\\" (some (memberNamed "\\\n")) =
      ":[function()\x7b\x7d,function($event)\x7bif($event.keyCode!==_k(\"\\\\\\n\")&&" ++
        "$event.keyCode!==13)return;$event.stopPropagation();++n\x7d]" := by decide
  rw [code] at read
  exact ⟨renamed, keys {} false _ _ _ _ renamed, front, rest, read⟩

end Listeners
