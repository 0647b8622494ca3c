import Listeners.Block
import Listeners.Proofs.Balance
/-!
The block of listeners falls apart into its entries. Every part of the generated code leaves
the scan where it was: names because they are identifiers, literals because they are escaped,
prologues because they close what they open, and values because they are balanced.
-/
namespace Listeners
open Nesting Text

def Handler.bindings : Handler → List Binding
  | single b => [b]
  | several slots => slots.filterMap id

theorem mem_bindings_several {slots : List (Option Binding)} {b : Binding} :
    b ∈ (Handler.several slots).bindings ↔ some b ∈ slots := by
  simp [Handler.bindings]

def Table.bindings (t : Table) : List Binding :=
  t.entries.flatMap fun (_, handler) => (handler.map Handler.bindings).getD []

/-- The value is balanced, and where it is a handler as it stands no comma of it stands outside
strings and brackets. -/
structure Regular (b : Binding) : Prop where
  balanced : Balanced b.value
  bare : b.hasModifiers = false → (Expression.kind b.value).callable = true → Sealed b.value

theorem plain_of_isIdentPart {c : Char} (part : isIdentPart c = true) : Plain c := by
  have other : ∀ d, isIdentPart d = false → d ≠ c := by
    rintro d no_part rfl
    rw [no_part] at part
    cases part
  refine ⟨?_, ?_, ?_, (other ',' (by decide)).symm⟩
  · simp [isQuote, (other '\'' (by decide)).symm, (other '"' (by decide)).symm]
  · simp [isOpener, brackets, other '(' (by decide), other '[' (by decide), other '\x7b' (by decide)]
  · simp [isCloser, brackets, other ')' (by decide), other ']' (by decide), other '\x7d' (by decide)]

theorem steady_identifier {s : String} (identifier : isIdentifier s = true) : Steady s := by
  obtain ⟨first, rest, shape, starts, parts⟩ := identifier_head identifier
  rw [List.all_eq_true] at parts
  apply steady_of_plain
  intro c member
  rw [shape] at member
  rcases List.mem_cons.1 member with rfl | later
  · exact plain_of_isIdentPart (isIdentPart_of_isIdentStart starts)
  · exact plain_of_isIdentPart (parts c later)

theorem steady_repr (n : Nat) : Steady n.repr := by
  apply steady_of_plain
  intro c member
  rw [Nat.toList_repr] at member
  have digit : isDigit c = true := Nat.isDigit_of_mem_toDigits (by decide) (by decide) member
  exact plain_of_isIdentPart (by simp [isIdentPart, digit])

theorem steady_integer (i : Int) : Steady (Decimal.integer i) := by
  cases i with
  | ofNat n => exact steady_repr n
  | negSucc n =>
    have sign : Steady "-" := fun _ => rfl
    exact sign.append (steady_repr (n + 1))

theorem escaped_inside (c : Char) (openers : List Char) :
    (escaped c).foldlM within ⟨.inside '"', openers⟩ = some ⟨.inside '"', openers⟩ := by
  rcases escaped_cases c with ⟨letter, _, form⟩ | ⟨control, form⟩ | ⟨noQuote, noBackslash, _, form⟩
  · simp [form, within, step, start]
  · have high := hexDigit_plain (c.toNat / 16) (by omega)
    have low := hexDigit_plain (c.toNat % 16) (by omega)
    simp [form, within, step, start, high, low]
  · simp [form, within, step, start, noQuote, noBackslash]

theorem steady_quote (s : String) : Steady (quote s) := by
  intro openers
  have body : (s.toList.flatMap escaped).foldlM within ⟨.inside '"', openers⟩ =
      some ⟨.inside '"', openers⟩ := by
    induction s.toList with
    | nil => rfl
    | cons c r ih => simp [List.foldlM_append, escaped_inside, ih]
  have opening : within ⟨.outside, openers⟩ '"' = some ⟨.inside '"', openers⟩ := rfl
  have closing : within ⟨.inside '"', openers⟩ '"' = some ⟨.outside, openers⟩ := rfl
  simp [Passes, toList_quote, List.foldlM_append, opening, body, closing]

section
variable {o : Options}

theorem steady_keyCode (resolver : isIdentifier o.keyResolver = true) (c : KeyCode) :
    Steady (c.code o) := by
  cases c with
  | number n => exact steady_integer n
  | known n => exact steady_repr n
  | custom name =>
    intro openers
    have opening : Passes ⟨.outside, openers⟩ "(" ⟨.outside, '(' :: openers⟩ := rfl
    have closing : Passes ⟨.outside, '(' :: openers⟩ ")" ⟨.outside, openers⟩ := rfl
    have call := (steady_identifier resolver openers).append opening
    exact (call.append (steady_quote name _)).append closing

theorem steady_keyFilter (parameter : isIdentifier o.eventParam = true)
    (resolver : isIdentifier o.keyResolver = true) (keys : List String) :
    Steady (keyFilter o keys) := by
  have comparison : Steady ".keyCode!==" := fun _ => rfl
  have conjunction : Steady "&&" := fun _ => rfl
  have tests : ∀ test ∈ (keys.flatMap KeyCode.ofName).map (keyTest o), Steady test := by
    intro test member
    obtain ⟨c, _, rfl⟩ := List.mem_map.1 member
    exact ((steady_identifier parameter).append comparison).append (steady_keyCode resolver c)
  intro openers
  have opening : Passes ⟨.outside, openers⟩ "if(" ⟨.outside, '(' :: openers⟩ := rfl
  have closing : Passes ⟨.outside, '(' :: openers⟩ ")return;" ⟨.outside, openers⟩ := rfl
  exact (opening.append (steady_intercalate conjunction tests _)).append closing

theorem steady_guard (parameter : isIdentifier o.eventParam = true) (guard : Guard) :
    Steady (guard.code o.eventParam) := by
  have param := steady_identifier parameter
  cases guard with
  | stopPropagation =>
    have call : Steady ".stopPropagation();" := fun _ => rfl
    exact param.append call
  | preventDefault =>
    have call : Steady ".preventDefault();" := fun _ => rfl
    exact param.append call
  | selfTarget =>
    intro openers
    have opening : Passes ⟨.outside, openers⟩ "if(" ⟨.outside, '(' :: openers⟩ := rfl
    have comparison : Steady ".target!==" := fun _ => rfl
    have closing : Passes ⟨.outside, '(' :: openers⟩ ".currentTarget)return;" ⟨.outside, openers⟩ :=
      rfl
    have target := (opening.append (param _)).append (comparison _)
    exact (target.append (param _)).append closing
  | held key =>
    intro openers
    have opening : Passes ⟨.outside, openers⟩ "if(!" ⟨.outside, '(' :: openers⟩ := rfl
    have dot : Steady "." := fun _ => rfl
    have flag : Steady key.flag := by
      intro below
      cases key <;> rfl
    have closing : Passes ⟨.outside, '(' :: openers⟩ ")return;" ⟨.outside, openers⟩ := rfl
    have test := ((opening.append (param _)).append (dot _)).append (flag _)
    exact test.append closing

theorem steady_prologue (parameter : isIdentifier o.eventParam = true)
    (resolver : isIdentifier o.keyResolver = true) (p : Prologue) : Steady (p.code o) := by
  have filter : Steady (if p.keys.isEmpty then "" else keyFilter o p.keys) := by
    split
    · exact steady_empty
    · exact steady_keyFilter parameter resolver p.keys
  have guards : ∀ text ∈ p.guards.map (Guard.code o.eventParam), Steady text := by
    intro text member
    obtain ⟨guard, _, rfl⟩ := List.mem_map.1 member
    exact steady_guard parameter guard
  exact filter.append (steady_join guards)

theorem passes_function (parameter : isIdentifier o.eventParam = true) {body : String}
    {openers : List Char}
    (inside : Passes ⟨.outside, '\x7b' :: openers⟩ body ⟨.outside, '\x7b' :: openers⟩) :
    Passes ⟨.outside, openers⟩ (handlerFunction o body) ⟨.outside, openers⟩ := by
  have head : Passes ⟨.outside, openers⟩ "function(" ⟨.outside, '(' :: openers⟩ := rfl
  have opening : Passes ⟨.outside, '(' :: openers⟩ ")\x7b" ⟨.outside, '\x7b' :: openers⟩ := rfl
  have closing : Passes ⟨.outside, '\x7b' :: openers⟩ "\x7d" ⟨.outside, openers⟩ := rfl
  have named := (head.append (steady_identifier parameter _)).append opening
  exact (named.append inside).append closing

theorem passes_code (parameter : isIdentifier o.eventParam = true)
    (resolver : isIdentifier o.keyResolver = true) (event : String) {b : Binding}
    (regular : Regular b) : Passes start (b.code o event) start := by
  have value := regular.balanced.inside '\x7b' []
  unfold Binding.code
  split
  · -- behind the prologue the value stands between the braces of the function, called or not
    have prologue := steady_prologue parameter resolver (.ofModifiers event b.modifierNames)
    have call : Steady (if Expression.isSimplePath b.value then "(" ++ o.eventParam ++ ")" else "") := by
      split
      · intro openers
        have opening : Passes ⟨.outside, openers⟩ "(" ⟨.outside, '(' :: openers⟩ := rfl
        have closing : Passes ⟨.outside, '(' :: openers⟩ ")" ⟨.outside, openers⟩ := rfl
        exact (opening.append (steady_identifier parameter _)).append closing
      · exact steady_empty
    exact passes_function parameter (((prologue _).append value).append (call _))
  · next noModifiers =>
    split
    · next callable => exact regular.balanced.passes (regular.bare (by simpa using noModifiers) callable)
    · exact passes_function parameter value

theorem passes_noop : Passes start noop start := by decide

theorem passes_slotCode (parameter : isIdentifier o.eventParam = true)
    (resolver : isIdentifier o.keyResolver = true) (event : String) {slot : Option Binding}
    (regular : ∀ b, slot = some b → Regular b) : Passes start (slotCode o event slot) start := by
  cases slot with
  | none => exact passes_noop
  | some b => exact passes_code parameter resolver event (regular b rfl)

theorem passes_slots (parameter : isIdentifier o.eventParam = true)
    (resolver : isIdentifier o.keyResolver = true) (event : String) {slots : List (Option Binding)}
    (regular : ∀ b, some b ∈ slots → Regular b) :
    ∀ text ∈ slots.map (slotCode o event), Passes start text start := by
  intro text member
  obtain ⟨slot, place, rfl⟩ := List.mem_map.1 member
  apply passes_slotCode parameter resolver event
  rintro b rfl
  exact regular b place

theorem passes_entryCode (parameter : isIdentifier o.eventParam = true)
    (resolver : isIdentifier o.keyResolver = true) (event : String) {handler : Option Handler}
    (regular : ∀ h, handler = some h → ∀ b ∈ h.bindings, Regular b) :
    Passes start (entryCode o event handler) start := by
  cases handler with
  | none => exact passes_noop
  | some h =>
    cases h with
    | single b => exact passes_code parameter resolver event (regular _ rfl b (by simp [Handler.bindings]))
    | several slots =>
      have bound : ∀ b, some b ∈ slots → Regular b := by
        intro b place
        exact regular _ rfl b (mem_bindings_several.2 place)
      have places := passes_slots parameter resolver event bound
      have opening : Passes start "[" ⟨.outside, ['[']⟩ := rfl
      have closing : Passes ⟨.outside, ['[']⟩ "]" start := rfl
      have comma : Balanced "," := by decide
      have list := balanced_intercalate comma fun text member => (places text member).balanced
      have inside := list.inside '[' []
      exact (opening.append inside).append closing

theorem callable_head {text : String} (callable : (Expression.kind text).callable = true) :
    ∃ c r, text.toList = c :: r ∧ c ≠ '[' := by
  have refused : ∀ s, text.toList = s → Expression.isArrowHead s = false →
      Expression.isFunctionHead s = false → Expression.afterIdentifier (dropBlank s) = none →
      False := by
    intro s shape noArrow noHead noName
    have no_function : Expression.isFunction text = false := by
      simp [Expression.isFunction, shape, noArrow, noHead]
    have no_path : Expression.isSimplePath text = false := by
      simp [Expression.isSimplePath, shape, noName]
    simp [Expression.kind, no_function, no_path, Expression.Kind.callable] at callable
  cases shape : text.toList with
  | nil => exact (refused [] shape rfl rfl rfl).elim
  | cons c r =>
    refine ⟨c, r, rfl, ?_⟩
    rintro rfl
    exact refused ('[' :: r) shape rfl rfl rfl

theorem code_head (event : String) (b : Binding) :
    ∃ c r, (b.code o event).toList = c :: r ∧ c ≠ '[' := by
  have function_head : ∀ body, ∃ c r, (handlerFunction o body).toList = c :: r ∧ c ≠ '[' := by
    intro body
    exact ⟨'f', _, by simp [handlerFunction]; rfl, by decide⟩
  unfold Binding.code
  split
  · exact function_head _
  · split
    · next callable => exact callable_head callable
    · exact function_head _

theorem slotCode_head (event : String) (slot : Option Binding) :
    ∃ c r, (slotCode o event slot).toList = c :: r ∧ c ≠ '[' := by
  cases slot with
  | none => exact ⟨'f', noop.toList.tail, (by decide : noop.toList = 'f' :: noop.toList.tail), by decide⟩
  | some b => exact code_head event b

theorem entryCode_opens_list (event : String) (handler : Option Handler) :
    (∃ r, (entryCode o event handler).toList = '[' :: r) ↔ ∃ slots, handler = some (.several slots) := by
  constructor
  · rintro ⟨r, list⟩
    cases handler with
    | none =>
      obtain ⟨c, t, shape, other⟩ := slotCode_head (o := o) event none
      exact absurd (List.cons.inj (shape.symm.trans list)).1 other
    | some h =>
      cases h with
      | single b =>
        obtain ⟨c, t, shape, other⟩ := code_head (o := o) event b
        exact absurd (List.cons.inj (shape.symm.trans list)).1 other
      | several slots => exact ⟨slots, rfl⟩
  · rintro ⟨slots, rfl⟩
    exact ⟨_, by simp [entryCode, Handler.code, Json.writeList]; rfl⟩

def memberCode (o : Options) (entry : String × Option Handler) : String :=
  Json.writeMember entry.1 (entryCode o entry.1 entry.2)

theorem passes_memberCode (parameter : isIdentifier o.eventParam = true)
    (resolver : isIdentifier o.keyResolver = true) {entry : String × Option Handler}
    (regular : ∀ h, entry.2 = some h → ∀ b ∈ h.bindings, Regular b) :
    Passes start (memberCode o entry) start := by
  have colon : Steady ":" := fun _ => rfl
  have named := (steady_quote entry.1).append colon
  exact (named []).append (passes_entryCode parameter resolver entry.1 regular)

theorem memberCode_ne_empty (entry : String × Option Handler) : memberCode o entry ≠ "" := by
  intro empty
  have literal := congrArg String.toList empty
  simp [memberCode, Json.writeMember, toList_quote] at literal

theorem slotCode_ne_empty (event : String) (slot : Option Binding) : slotCode o event slot ≠ "" := by
  intro empty
  obtain ⟨c, r, shape, _⟩ := slotCode_head (o := o) event slot
  simp [empty] at shape

theorem table_code (native : Bool) (t : Table) :
    t.code o native = (if native then "nativeOn:\x7b" else "on:\x7b") ++
      ",".intercalate (t.entries.map (memberCode o)) ++ "\x7d" := by
  cases native <;>
    simp [Table.code, blockLabel, Json.writeObject, memberCode, ← String.toList_inj, Function.comp_def]

theorem passes_members (parameter : isIdentifier o.eventParam = true)
    (resolver : isIdentifier o.keyResolver = true) {entries : List (String × Option Handler)}
    (regular : ∀ entry ∈ entries, ∀ h, entry.2 = some h → ∀ b ∈ h.bindings, Regular b) :
    ∀ text ∈ entries.map (memberCode o), Passes start text start := by
  intro text member
  obtain ⟨entry, here, rfl⟩ := List.mem_map.1 member
  exact passes_memberCode parameter resolver (regular entry here)

theorem cut_members (parameter : isIdentifier o.eventParam = true)
    (resolver : isIdentifier o.keyResolver = true) {entries : List (String × Option Handler)}
    (regular : ∀ entry ∈ entries, ∀ h, entry.2 = some h → ∀ b ∈ h.bindings, Regular b) :
    cut (",".intercalate (entries.map (memberCode o))) = some (entries.map (memberCode o)) := by
  refine cut_intercalate (passes_members parameter resolver regular) ?_
  intro text member
  obtain ⟨entry, _, rfl⟩ := List.mem_map.1 member
  exact memberCode_ne_empty entry

theorem cut_slots (parameter : isIdentifier o.eventParam = true)
    (resolver : isIdentifier o.keyResolver = true) (event : String) {slots : List (Option Binding)}
    (regular : ∀ b, some b ∈ slots → Regular b) :
    cut (",".intercalate (slots.map (slotCode o event))) = some (slots.map (slotCode o event)) := by
  refine cut_intercalate (passes_slots parameter resolver event regular) ?_
  intro text member
  obtain ⟨slot, _, rfl⟩ := List.mem_map.1 member
  exact slotCode_ne_empty event slot

theorem balanced_table (parameter : isIdentifier o.eventParam = true)
    (resolver : isIdentifier o.keyResolver = true) (native : Bool) {t : Table}
    (regular : ∀ entry ∈ t.entries, ∀ h, entry.2 = some h → ∀ b ∈ h.bindings, Regular b) :
    Balanced (t.code o native) := by
  have comma : Balanced "," := by decide
  have members := passes_members parameter resolver regular
  have body := balanced_intercalate comma fun text member => (members text member).balanced
  have opening : Passes start (if native then "nativeOn:\x7b" else "on:\x7b")
      ⟨.outside, ['\x7b']⟩ := by
    cases native <;> rfl
  have closing : Passes ⟨.outside, ['\x7b']⟩ "\x7d" start := rfl
  rw [table_code]
  exact ((opening.append (body.inside _ _)).append closing).balanced

/-- The block is cut into one piece for each event, and a list of handlers into one piece for each
of its places. -/
theorem listeners_cut (native : Bool) (t : Table) (parameter : isIdentifier o.eventParam = true)
    (resolver : isIdentifier o.keyResolver = true) (balanced : ∀ b ∈ t.bindings, Balanced b.value)
    (bare : ∀ b ∈ t.bindings, b.hasModifiers = false →
      (Expression.kind b.value).callable = true → Sealed b.value) :
    (∃ body texts,
      t.code o native = (if native then "nativeOn:\x7b" else "on:\x7b") ++ body ++ "\x7d" ∧
      Balanced (t.code o native) ∧ cut body = some texts ∧ texts.length = t.size ∧
      texts = t.entries.map fun (event, handler) =>
        quote event ++ ":" ++ entryCode o event handler) ∧
    ∀ event handler, (event, handler) ∈ t.entries →
      ((∃ r, (entryCode o event handler).toList = '[' :: r) ↔
        ∃ slots, handler = some (.several slots)) ∧
      ∀ slots, handler = some (.several slots) →
        ∃ inside, entryCode o event handler = "[" ++ inside ++ "]" ∧
          cut inside = some (slots.map (slotCode o event)) := by
  have regular : ∀ entry ∈ t.entries, ∀ h, entry.2 = some h → ∀ b ∈ h.bindings, Regular b := by
    rintro ⟨event, handler⟩ here h rfl b bound
    have member : b ∈ t.bindings := List.mem_flatMap.2 ⟨_, here, bound⟩
    exact ⟨balanced b member, bare b member⟩
  constructor
  · refine ⟨_, _, table_code native t, balanced_table parameter resolver native regular,
      cut_members parameter resolver regular, ?_, rfl⟩
    simp [Ordered.size]
  · intro event handler here
    refine ⟨entryCode_opens_list event handler, ?_⟩
    rintro slots rfl
    have bound : ∀ b, some b ∈ slots → Regular b := by
      intro b place
      exact regular _ here _ rfl b (mem_bindings_several.2 place)
    exact ⟨_, rfl, cut_slots parameter resolver event bound⟩

theorem listeners_cut_commas :
    ∃ t : Table, t.keys = ["a,\"]", "b"] ∧ ∃ body texts,
      t.code {} false = "on:\x7b" ++ body ++ "\x7d" ∧ Balanced (t.code {} false) ∧
        cut body = some texts ∧ texts.length = 2 := by
  let t : Table :=
    ⟨[("a,\"]", some (.single ⟨"e=>f(e,')')", none⟩)),
      ("b", some (.several [none, some ⟨"x,y", some (.ofList [("k,", true)])⟩]))], by decide⟩
  have values : ∀ b ∈ t.bindings,
      b.value = "e=>f(e,')')" ∨ (b.hasModifiers = true ∧ b.value = "x,y") := by
    simp [t, Table.bindings, Handler.bindings, Binding.hasModifiers, Ordered.isEmpty, Ordered.ofList,
      Ordered.insertAll, Ordered.put]
  have balanced : ∀ b ∈ t.bindings, Balanced b.value := by
    intro b member
    rcases values b member with same | ⟨_, same⟩
    · rw [same]
      decide
    · rw [same]
      decide
  have bare : ∀ b ∈ t.bindings, b.hasModifiers = false →
      (Expression.kind b.value).callable = true → Sealed b.value := by
    intro b member noModifiers _
    rcases values b member with same | ⟨modifiers, _⟩
    · rw [same]
      exact Passes.sealed (by decide : Passes start "e=>f(e,')')" start)
    · rw [noModifiers] at modifiers
      cases modifiers
  obtain ⟨⟨body, texts, code, whole, pieces, count, _⟩, _⟩ :=
    listeners_cut (o := {}) false t (by decide) (by decide) balanced bare
  exact ⟨t, rfl, body, texts, code, whole, pieces, count⟩

end

end Listeners
