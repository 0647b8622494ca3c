import Listeners.Options.Load
import Listeners.Proofs.BlockStructure
import Listeners.Proofs.PrologueMeaning
/-!
Which function the key filter of a handler calls. The names are read off the text of the handler
and nothing is known of them before; inside a function the name of its parameter stands for the
event, so a call of that name is not one of the function that resolves key names.
-/
namespace Listeners
open Script Text
open Options (accepted_identifiers)

namespace Script

structure FilteredFunction where
  parameter : String
  comparisons : List KeyComparison
  deriving DecidableEq, Repr

/-- The head of a function whose first statement is a key filter, and the rest of the text. -/
def filteredFunction (s : List Char) : Option (FilteredFunction × List Char) := do
  let r ← after "function(" s
  let (parameter, r) ← word r
  let r ← after ")\x7bif(" r
  let (comparisons, r) ← keyComparisons r
  let r ← after ")return;" r
  some (⟨parameter, comparisons⟩, r)

def FilteredFunction.Calls (f : FilteredFunction) (function argument : String) : Prop :=
  ∃ c ∈ f.comparisons, c.comparand = .call function argument

end Script

/-- The table binds to the event and names a key for it, so that the handler has a key filter. -/
def Table.Filters (t : Table) (event : String) (b : Binding) : Prop :=
  (∃ handler, (event, some handler) ∈ t.entries ∧ b ∈ handler.bindings) ∧
    ∃ name ∈ b.modifierNames, NamesKey event name

/-- A modifier names a key that is left to the resolver. -/
def Binding.LeavesKey (event : String) (b : Binding) (name : String) : Prop :=
  name ∈ b.modifierNames ∧ NamesKey event name ∧ KeyCode.ofName name = [.custom name]

/-- The key filter of the handler calls a name that the handler binds to the event. -/
def Binding.Captures (o : Options) (event : String) (b : Binding) : Prop :=
  ∃ f rest argument, filteredFunction (b.code o event).toList = some (f, rest) ∧
    f.Calls f.parameter argument

theorem code_filtered (o : Options) {event : String} {b : Binding} {c : KeyCode} {cs : List KeyCode}
    (modified : b.hasModifiers = true)
    (codes : (Prologue.ofModifiers event b.modifierNames).keys.flatMap KeyCode.ofName = c :: cs) :
    ∃ rest, (b.code o event).toList = "function(".toList ++ (o.eventParam.toList ++
      (")\x7bif(".toList ++ ((keyTest o c).toList ++
        ((cs.flatMap fun d => "&&".toList ++ (keyTest o d).toList) ++
          (")return;".toList ++ rest))))) := by
  have filtered : (Prologue.ofModifiers event b.modifierNames).keys.isEmpty = false := by
    cases keys : (Prologue.ofModifiers event b.modifierNames).keys with
    | nil => simp [keys] at codes
    | cons key rest => rfl
  have opening : ")\x7bif(".toList = ")\x7b".toList ++ "if(".toList := rfl
  simp only [Binding.code, modified, if_true, handlerFunction, Prologue.code, filtered,
    toList_keyFilter codes, Bool.false_eq_true, if_false, String.toList_append, List.append_assoc,
    opening]
  exact ⟨_, rfl⟩

theorem filteredFunction_code {o : Options} (parameter : isIdentifier o.eventParam = true)
    (resolver : isIdentifier o.keyResolver = true) {event : String} {b : Binding} {c : KeyCode}
    {cs : List KeyCode} (modified : b.hasModifiers = true)
    (codes : (Prologue.ofModifiers event b.modifierNames).keys.flatMap KeyCode.ofName = c :: cs) :
    ∃ rest, filteredFunction (b.code o event).toList =
      some (⟨o.eventParam, ((c :: cs).map Operand.ofCode).map (Operand.comparison o)⟩, rest) := by
  obtain ⟨rest, text⟩ := code_filtered o modified codes
  have read := keyComparisons_keyTests parameter resolver c cs ("return;".toList ++ rest)
  have closing : ')' :: ("return;".toList ++ rest) = ")return;".toList ++ rest := rfl
  rw [closing] at read
  refine ⟨rest, ?_⟩
  rw [text]
  generalize (keyTest o c).toList ++ _ = filter at read ⊢
  have stop : Stops isIdentPart (")\x7bif(".toList ++ filter) := stops_cons (by decide) _
  simp only [filteredFunction, after_append, word_append parameter stop, read, Option.bind_eq_bind,
    Option.bind_some]

theorem custom_mem_ofName {name argument : String} :
    .custom argument ∈ KeyCode.ofName name ↔
      argument = name ∧ KeyCode.ofName name = [.custom name] := by
  unfold KeyCode.ofName
  simp only
  split
  · simp
  · split
    · simp
    · simp

theorem custom_mem_codes {event : String} {b : Binding} {argument : String} :
    .custom argument ∈ (Prologue.ofModifiers event b.modifierNames).keys.flatMap KeyCode.ofName ↔
      b.LeavesKey event argument := by
  simp only [keys_ofModifiers, List.mem_flatMap, List.mem_filter, decide_eq_true_eq, custom_mem_ofName,
    Binding.LeavesKey]
  constructor
  · rintro ⟨name, ⟨listed, named⟩, rfl, left⟩
    exact ⟨listed, named, left⟩
  · rintro ⟨listed, named, left⟩
    exact ⟨argument, ⟨listed, named⟩, rfl, left⟩

theorem calls_codes {o : Options} {codes : List KeyCode} {p k argument : String} :
    FilteredFunction.Calls ⟨p, (codes.map Operand.ofCode).map (Operand.comparison o)⟩ k argument ↔
      k = o.keyResolver ∧ .custom argument ∈ codes := by
  rw [List.map_map]
  constructor
  · rintro ⟨comparison, member, called⟩
    obtain ⟨code, listed, rfl⟩ := List.mem_map.1 member
    cases code with
    | number n => cases called
    | known n => cases called
    | custom name =>
      cases called
      exact ⟨rfl, listed⟩
  · rintro ⟨rfl, listed⟩
    exact ⟨_, List.mem_map_of_mem listed, rfl⟩

/-- Every key filter is read, and what it calls is the resolver, for the keys left to it. -/
theorem calls_of_keyed {o : Options} (parameter : isIdentifier o.eventParam = true)
    (resolver : isIdentifier o.keyResolver = true) {event : String} {b : Binding}
    (keyed : ∃ name ∈ b.modifierNames, NamesKey event name) :
    ∃ f rest, filteredFunction (b.code o event).toList = some (f, rest) ∧ f.parameter = o.eventParam ∧
      ∀ k argument, f.Calls k argument ↔ k = o.keyResolver ∧ b.LeavesKey event argument := by
  obtain ⟨name, listed, named⟩ := keyed
  have key : name ∈ (Prologue.ofModifiers event b.modifierNames).keys := by
    rw [keys_ofModifiers]
    simp [listed, named]
  obtain ⟨first, others, start⟩ := ofName_cons name
  cases codes : (Prologue.ofModifiers event b.modifierNames).keys.flatMap KeyCode.ofName with
  | nil =>
    have none := List.flatMap_eq_nil_iff.1 codes name key
    rw [start] at none
    cases none
  | cons c cs =>
    obtain ⟨rest, read⟩ := filteredFunction_code parameter resolver (hasModifiers_of_mem listed) codes
    refine ⟨_, rest, read, rfl, fun k argument => ?_⟩
    rw [calls_codes, ← codes, custom_mem_codes]

theorem captures_iff {o : Options} (parameter : isIdentifier o.eventParam = true)
    (resolver : isIdentifier o.keyResolver = true) {event : String} {b : Binding}
    (keyed : ∃ name ∈ b.modifierNames, NamesKey event name) :
    b.Captures o event ↔ o.eventParam = o.keyResolver ∧ ∃ name, b.LeavesKey event name := by
  obtain ⟨f, rest, read, bound, calls⟩ := calls_of_keyed parameter resolver keyed
  constructor
  · rintro ⟨g, t, argument, again, captured⟩
    rw [read] at again
    cases again
    obtain ⟨same, left⟩ := (calls _ _).1 captured
    exact ⟨bound ▸ same, argument, left⟩
  · rintro ⟨same, name, left⟩
    refine ⟨f, rest, name, read, (calls _ _).2 ⟨?_, left⟩⟩
    rw [bound, same]

/-- Under options that are accepted every key filter is read, and all that it calls is the resolver,
by its name. That name is the one of the event, and a call is captured, exactly where both options
have the same name and some key is left to the resolver. -/
theorem resolver_captured_iff {o : Options} (accepted : o.Accepted) (t : Table) :
    (∀ event b, t.Filters event b → ∃ f rest,
      filteredFunction (b.code o event).toList = some (f, rest) ∧ f.parameter = o.eventParam ∧
        ∀ k name, f.Calls k name ↔ k = o.keyResolver ∧ b.LeavesKey event name) ∧
    ((∃ event b, t.Filters event b ∧ b.Captures o event) ↔
      o.eventParam = o.keyResolver ∧ ∃ event b name, t.Filters event b ∧ b.LeavesKey event name) := by
  obtain ⟨parameter, resolver⟩ := accepted_identifiers accepted
  constructor
  · intro event b filters
    exact calls_of_keyed parameter resolver filters.2
  · constructor
    · rintro ⟨event, b, filters, captures⟩
      obtain ⟨same, name, left⟩ := (captures_iff parameter resolver filters.2).1 captures
      exact ⟨same, event, b, name, filters, left⟩
    · rintro ⟨same, event, b, name, filters, left⟩
      exact ⟨event, b, filters, (captures_iff parameter resolver filters.2).2 ⟨same, name, left⟩⟩

def customKey : Binding := ({ value := "++count" } : Binding).withModifier "custom"

def customKeyTable : Table := Table.bind .empty "keyup" (.single customKey)

theorem customKey_filters : customKeyTable.Filters "keyup" customKey :=
  ⟨⟨.single customKey, List.mem_singleton.2 rfl, List.mem_singleton.2 rfl⟩,
    "custom", by decide, by decide⟩

theorem customKey_leavesKey : customKey.LeavesKey "keyup" "custom" := ⟨by decide, by decide, by decide⟩

/-- Two equal names are accepted, and then a filter calls the event for the code of a key. -/
theorem event_called_for_key :
    Options.ofNames "e" "e" = .ok ⟨"e", "e"⟩ ∧
      customKey.code ⟨"e", "e"⟩ "keyup" =
        "function(e)\x7bif(e.keyCode!==e(\"custom\"))return;++count\x7d" ∧
      customKeyTable.Filters "keyup" customKey ∧ customKey.Captures ⟨"e", "e"⟩ "keyup" := by
  have captured := (captures_iff (o := ⟨"e", "e"⟩) (by decide) (by decide) customKey_filters.2).2
    ⟨rfl, "custom", customKey_leavesKey⟩
  exact ⟨rfl, by decide, customKey_filters, captured⟩

theorem resolver_called_for_key :
    Options.Accepted ⟨"e", "k"⟩ ∧
      (¬ ∃ event b, customKeyTable.Filters event b ∧ b.Captures ⟨"e", "k"⟩ event) ∧
      ∃ f rest, filteredFunction (customKey.code ⟨"e", "k"⟩ "keyup").toList = some (f, rest) ∧
        f.Calls "k" "custom" := by
  have accepted : Options.Accepted ⟨"e", "k"⟩ := Or.inl ⟨"e", "k", rfl⟩
  obtain ⟨read, captured⟩ := resolver_captured_iff accepted customKeyTable
  refine ⟨accepted, fun found => absurd (captured.1 found).1 (by decide), ?_⟩
  obtain ⟨f, rest, head, _, calls⟩ := read "keyup" customKey customKey_filters
  exact ⟨f, rest, head, (calls "k" "custom").2 ⟨rfl, customKey_leavesKey⟩⟩

end Listeners
