import Listeners.Block
/-!
Text that is a handler as it stands. The two kinds of such text exclude each other, since they differ
in what follows the first word. All that is generated is of one of these kinds, so it is generated
once more from itself.
-/
namespace Listeners
open Text

namespace Expression

def behindWord (s : List Char) : List Char := dropBlank ((dropBlank s).dropWhile isIdentPart)

theorem afterIdentifier_shape {s r : List Char} (read : afterIdentifier s = some r) :
    ∃ c t, s = c :: t ∧ isIdentStart c = true ∧ r = s.dropWhile isIdentPart := by
  cases s with
  | nil => simp [afterIdentifier] at read
  | cons c t =>
    simp only [afterIdentifier, Option.ite_none_right_eq_some, Option.some.injEq] at read
    obtain ⟨starts, rest⟩ := read
    refine ⟨c, t, rfl, starts, ?_⟩
    rw [List.dropWhile_cons_of_pos (isIdentPart_of_isIdentStart starts), rest]

theorem dropBlank_segment {s : List Char} (starts : startsSegment s = true) : dropBlank s = s := by
  cases s with
  | nil => cases starts
  | cons c t =>
    simp only [startsSegment, Bool.or_eq_true, beq_iff_eq] at starts
    rcases starts with rfl | rfl
    · rfl
    · rfl

theorem path_behindWord {text : String} (simple : isSimplePath text = true) :
    (∀ r, dropBlank text.toList ≠ '(' :: r) ∧
      (behindWord text.toList = [] ∨ startsSegment (behindWord text.toList) = true) := by
  unfold isSimplePath at simple
  split at simple
  · next rest read =>
    obtain ⟨u, identifier, later⟩ := Option.bind_eq_some_iff.1 read
    obtain ⟨c, t, shape, starts, rfl⟩ := afterIdentifier_shape identifier
    constructor
    · intro r opening
      cases shape.symm.trans opening
      exact absurd starts (by decide)
    · unfold behindWord
      rw [afterSegments_eq] at later
      split at later
      · next segment =>
        rw [dropBlank_segment segment]
        exact Or.inr segment
      · cases later
        exact Or.inl (List.isEmpty_iff.1 simple)
  · cases simple

/-- An arrow function without parentheses has its arrow behind its first word. -/
theorem arrow_behindWord {s : List Char} (arrow : isArrowHead s = true) :
    (∃ r, dropBlank s = '(' :: r) ∨ ∃ r, behindWord s = '=' :: r := by
  unfold isArrowHead at arrow
  split at arrow
  · next rest read =>
    unfold afterParameters at read
    split at read
    · next r opening => exact Or.inl ⟨r, opening⟩
    · split at read
      · cases read
      · cases read
        obtain ⟨r, shaft⟩ := List.isPrefixOf_iff_prefix.1 arrow
        exact Or.inr ⟨_, shaft.symm⟩
  · cases arrow

theorem anonymous_behindWord {s : List Char} (anonymous : isFunctionHead s = true) :
    ∃ r, behindWord s = '(' :: r := by
  simp only [isFunctionHead, Bool.and_eq_true, List.isPrefixOf_iff_prefix] at anonymous
  obtain ⟨⟨t, rfl⟩, r, opening⟩ := anonymous
  rw [List.drop_left] at opening
  -- the word is the keyword alone, since only blanks part it from the parenthesis
  have stop : Stops isIdentPart t := by
    rintro c u rfl
    by_cases blank : isBlank c = true
    · exact isIdentPart_of_isBlank blank
    · rw [dropBlank, List.dropWhile_cons_of_neg blank] at opening
      cases opening
      decide
  have word : ∀ c ∈ "function".toList, isIdentPart c = true := List.all_eq_true.1 rfl
  have unblanked : dropBlank ("function".toList ++ t) = "function".toList ++ t := rfl
  refine ⟨r, ?_⟩
  rw [behindWord, unblanked, dropWhile_append_stops word stop]
  exact opening.symm

theorem function_behindWord {text : String} (function : isFunction text = true) :
    (∃ r, dropBlank text.toList = '(' :: r) ∨
      ∃ c r, behindWord text.toList = c :: r ∧ (c = '=' ∨ c = '(') := by
  rcases Bool.or_eq_true_iff.1 function with arrow | anonymous
  · rcases arrow_behindWord arrow with opening | ⟨r, shaft⟩
    · exact Or.inl opening
    · exact Or.inr ⟨_, r, shaft, Or.inl rfl⟩
  · obtain ⟨r, opening⟩ := anonymous_behindWord anonymous
    exact Or.inr ⟨_, r, opening, Or.inr rfl⟩

theorem no_function_of_path {text : String} (simple : isSimplePath text = true) :
    isFunction text = false := by
  refine Bool.eq_false_iff.2 fun function => ?_
  obtain ⟨no_parameters, behind⟩ := path_behindWord simple
  rcases function_behindWord function with ⟨r, opening⟩ | ⟨c, r, head, rfl | rfl⟩
  · exact no_parameters r opening
  · simp [head, startsSegment] at behind
  · simp [head, startsSegment] at behind

theorem kind_eq_path_iff (text : String) : kind text = .path ↔ isSimplePath text = true := by
  unfold kind
  by_cases simple : isSimplePath text = true
  · simp [simple, no_function_of_path simple]
  · cases isFunction text <;> simp [simple]

theorem callable_of_isFunction {text : String} (function : isFunction text = true) :
    (kind text).callable = true := by
  simp [kind, function, Kind.callable]

end Expression

open Expression

theorem handlerFunction_inj (o : Options) {body other : String} :
    handlerFunction o body = handlerFunction o other ↔ body = other := by
  simp [handlerFunction, ← String.toList_inj]

theorem length_lt_handlerFunction (o : Options) (body : String) :
    body.length < (handlerFunction o body).length := by
  simp only [handlerFunction, String.length_append]
  have opening : "function(".length = 9 := rfl
  omega

theorem code_modified {b : Binding} (modified : b.hasModifiers = true) (o : Options) (event : String) :
    b.code o event = handlerFunction o ((Prologue.ofModifiers event b.modifierNames).code o ++ b.value ++
      if kind b.value = .path then "(" ++ o.eventParam ++ ")" else "") := by
  simp only [Binding.code, modified, if_true, kind_eq_path_iff]

theorem code_unmodified {b : Binding} (unmodified : b.hasModifiers = false) (o : Options)
    (event : String) : b.code o event =
      if (kind b.value).callable then b.value else handlerFunction o b.value := by
  simp [Binding.code, unmodified]

/-- No text is a path and a function, so that it does not matter which of the two is looked for
first. Behind a prologue the value is called where without modifiers it would count as a path, and
nowhere else. -/
theorem path_excludes_function (text : String) :
    ¬ (isSimplePath text = true ∧ isFunction text = true) ∧
    (kind text = .path ↔ isSimplePath text = true) ∧
    kind text = (if isSimplePath text then .path else if isFunction text then .function
      else .statements) ∧
    ∀ (o : Options) (event : String) (b : Binding), b.value = text → b.hasModifiers = true →
      (b.code o event = handlerFunction o ((Prologue.ofModifiers event b.modifierNames).code o ++
        text ++ ("(" ++ o.eventParam ++ ")")) ↔ kind text = .path) ∧
      (b.code o event = handlerFunction o ((Prologue.ofModifiers event b.modifierNames).code o ++
        text) ↔ kind text ≠ .path) := by
  refine ⟨?_, kind_eq_path_iff text, ?_, ?_⟩
  · rintro ⟨simple, function⟩
    rw [no_function_of_path simple] at function
    cases function
  · unfold kind
    by_cases simple : isSimplePath text = true
    · simp [simple, no_function_of_path simple]
    · simp [simple]
  · rintro o event b rfl modified
    rw [code_modified modified, handlerFunction_inj, handlerFunction_inj]
    have longer : ∀ before, before ++ b.value ≠ before ++ b.value ++ ("(" ++ o.eventParam ++ ")") := by
      intro before same
      have lengths := congrArg String.length same
      have opening : "(".length = 1 := rfl
      simp only [String.length_append] at lengths
      omega
    by_cases path : kind b.value = .path
    · simp [path]
    · simp [path, longer]

def functionsPath : Binding where
  value := "functions['()=>(']"
  modifiers := some (.ofList [("stop", false)])

theorem functionsPath_called :
    functionsPath.hasModifiers = true ∧ isFunction functionsPath.value = false ∧
      functionsPath.code {} "click" =
        "function($event)\x7b$event.stopPropagation();functions['()=>(']($event)\x7d" := by
  obtain ⟨disjoint, path, _, branch⟩ := path_excludes_function functionsPath.value
  have simple : isSimplePath functionsPath.value = true := by decide +kernel
  have modified : functionsPath.hasModifiers = true := by decide
  refine ⟨modified, ?_, ?_⟩
  · rw [Bool.eq_false_iff]
    intro function
    exact disjoint ⟨simple, function⟩
  · rw [(branch {} "click" functionsPath rfl modified).1.2 (path.2 simple)]
    decide

theorem isFunction_handlerFunction (o : Options) (body : String) :
    isFunction (handlerFunction o body) = true := by
  have text : (handlerFunction o body).toList =
      "function".toList ++ '(' :: (o.eventParam ++ ")\x7b" ++ body ++ "\x7d").toList := by
    simp [handlerFunction]
  have opening : dropBlank ('(' :: (o.eventParam ++ ")\x7b" ++ body ++ "\x7d").toList) =
      '(' :: (o.eventParam ++ ")\x7b" ++ body ++ "\x7d").toList := rfl
  have head : isFunctionHead (handlerFunction o body).toList = true := by
    rw [text, isFunctionHead, List.drop_left, opening]
    simp
  simp [isFunction, head]

theorem callable_handlerFunction (o : Options) (body : String) :
    (kind (handlerFunction o body)).callable = true :=
  callable_of_isFunction (isFunction_handlerFunction o body)

theorem callable_code (o : Options) (event : String) (b : Binding) :
    (kind (b.code o event)).callable = true := by
  cases modified : b.hasModifiers with
  | true =>
    rw [code_modified modified]
    exact callable_handlerFunction o _
  | false =>
    rw [code_unmodified modified]
    split
    · next callable => exact callable
    · exact callable_handlerFunction o _

theorem callable_slotCode (o : Options) (event : String) (slot : Option Binding) :
    (kind (slotCode o event slot)).callable = true := by
  cases slot with
  | none => exact callable_of_isFunction (by decide : isFunction noop = true)
  | some b => exact callable_code o event b

theorem code_eq_value_iff {b : Binding} (unmodified : b.hasModifiers = false) (o : Options)
    (event : String) : b.code o event = b.value ↔ (kind b.value).callable = true := by
  rw [code_unmodified unmodified]
  split
  · next callable => simp [callable]
  · next wrapped =>
    refine ⟨fun same => ?_, fun callable => absurd callable wrapped⟩
    have longer := length_lt_handlerFunction o b.value
    rw [same] at longer
    exact absurd longer (Nat.lt_irrefl _)

/-- What is generated for a place is callable, and so it is what is generated from it without
modifiers, whatever the event and the names are then. -/
theorem generated_code_fixed (o : Options) (event : String) (slot : Option Binding) :
    (kind (slotCode o event slot)).callable = true ∧
    ∀ (other : Options) (another : String),
      Binding.code other another { value := slotCode o event slot, modifiers := none } =
        slotCode o event slot ∧
      Binding.code other another { value := slotCode o event slot, modifiers := some .empty } =
        slotCode o event slot := by
  have callable := callable_slotCode o event slot
  exact ⟨callable, fun other another => ⟨(code_eq_value_iff rfl other another).2 callable,
    (code_eq_value_iff rfl other another).2 callable⟩⟩

end Listeners
