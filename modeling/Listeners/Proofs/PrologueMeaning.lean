import Listeners.Proofs.PrologueText

/-!
What a prologue does to an event, told from the names of the modifiers alone. The tables of
routes are compared here, once, with what each name asks for; a run of the statements then
follows the list of names.
-/
namespace Listeners
open Script

/-- The held key that a modifier asks for, where the event is one of a pointing device. -/
def heldFlag? : String → Option Flag
  | "ctrl" => some .ctrlKey
  | "shift" => some .shiftKey
  | "alt" => some .altKey
  | "meta" => some .metaKey
  | _ => none

def effect? : String → Option Effect
  | "stop" => some .stopPropagation
  | "prevent" => some .preventDefault
  | _ => none

/-- A modifier that asks for nothing else names a key. -/
def NamesKey (event name : String) : Prop :=
  name ≠ "stop" ∧ name ≠ "prevent" ∧ name ≠ "self" ∧
    (isMouseEvent event = true → heldFlag? name = none)

/-- Leaving names of keys aside, the event is as the modifier asks. -/
def Admits (event : String) (e : Event) (name : String) : Prop :=
  (name = "self" → e.onSelf = true) ∧
    (isMouseEvent event = true → ∀ f, heldFlag? name = some f → e.held f = true)

instance (event name : String) : Decidable (NamesKey event name) := by
  unfold NamesKey; infer_instance

instance (event : String) (e : Event) (name : String) : Decidable (Admits event e name) :=
  decidable_of_iff ((name = "self" → e.onSelf = true) ∧
      (isMouseEvent event = true → (heldFlag? name).all e.held = true)) (by
    unfold Admits
    cases heldFlag? name <;> simp)

def KeyCode.value (resolve : String → Int) : KeyCode → Int
  | number n => n
  | known n => n
  | custom name => resolve name

def NamesItsKey (event : String) (names : List String) (e : Event) (resolve : String → Int) : Prop :=
  ∃ name ∈ names, NamesKey event name ∧
    ∃ c ∈ KeyCode.ofName name, e.keyCode = c.value resolve

def KeyAccepted (event : String) (names : List String) (e : Event) (resolve : String → Int) : Prop :=
  (∀ name ∈ names, ¬ NamesKey event name) ∨ NamesItsKey event names e resolve

def Guard.Answers (event name : String) (g : Guard) : Prop :=
  ¬ NamesKey event name ∧ (Statement.ofGuard g).effect? = effect? name ∧
    ∀ e resolve, (Statement.ofGuard g).passes e resolve = true ↔ Admits event e name

theorem structural_answers {event name : String} {g : Guard}
    (member : (name, g) ∈ Modifier.structural) : g.Answers event name := by
  simp only [Modifier.structural, List.mem_cons, Prod.mk.injEq, List.not_mem_nil, or_false] at member
  rcases member with ⟨rfl, rfl⟩ | ⟨rfl, rfl⟩ | ⟨rfl, rfl⟩
  all_goals
    refine ⟨by simp [NamesKey], rfl, fun e resolve => ?_⟩
    simp [Admits, heldFlag?, Statement.ofGuard, Statement.passes]

theorem mouse_answers {event name : String} {g : Guard} (pointing : isMouseEvent event = true)
    (member : (name, g) ∈ Modifier.mouse) : g.Answers event name := by
  simp only [Modifier.mouse, List.mem_cons, Prod.mk.injEq, List.not_mem_nil, or_false] at member
  rcases member with ⟨rfl, rfl⟩ | ⟨rfl, rfl⟩ | ⟨rfl, rfl⟩ | ⟨rfl, rfl⟩
  all_goals
    refine ⟨by simp [NamesKey, heldFlag?, pointing], rfl, fun e resolve => ?_⟩
    simp [Admits, heldFlag?, pointing, Statement.ofGuard, Statement.passes]

theorem heldFlag_other {name : String} (other : ∀ g, (name, g) ∉ Modifier.mouse) :
    heldFlag? name = none := by
  simp only [Modifier.mouse, List.mem_cons, Prod.mk.injEq, List.not_mem_nil, or_false,
    not_or, not_and] at other
  have ctrl : name ≠ "ctrl" := fun same => (other _).1 same rfl
  have shift : name ≠ "shift" := fun same => (other _).2.1 same rfl
  have alt : name ≠ "alt" := fun same => (other _).2.2.1 same rfl
  have metaKey : name ≠ "meta" := fun same => (other _).2.2.2 same rfl
  simp [heldFlag?]

theorem other_namesKey {event name : String} (plain : ∀ g, (name, g) ∉ Modifier.structural)
    (unheld : isMouseEvent event = true → ∀ g, (name, g) ∉ Modifier.mouse) :
    NamesKey event name := by
  simp only [Modifier.structural, List.mem_cons, Prod.mk.injEq, List.not_mem_nil, or_false,
    not_or, not_and] at plain
  refine ⟨fun same => (plain _).1 same rfl, fun same => (plain _).2.1 same rfl,
    fun same => (plain _).2.2 same rfl, fun pointing => heldFlag_other (unheld pointing)⟩

/-- A modifier either becomes a guard that answers it or names a key. -/
theorem route_asked (event name : String) :
    (∃ g, (Modifier.route (isMouseEvent event) name).guard? = some g ∧
      (Modifier.route (isMouseEvent event) name).key? = none ∧ g.Answers event name) ∨
    ((Modifier.route (isMouseEvent event) name).guard? = none ∧
      (Modifier.route (isMouseEvent event) name).key? = some name ∧ NamesKey event name) := by
  rcases Modifier.route_cases (isMouseEvent event) name with
    ⟨g, member, routed⟩ | ⟨pointing, g, member, routed⟩ | ⟨plain, unheld, routed⟩
  · exact Or.inl ⟨g, by simp [routed, Route.guard?], by simp [routed, Route.key?],
      structural_answers member⟩
  · exact Or.inl ⟨g, by simp [routed, Route.guard?], by simp [routed, Route.key?],
      mouse_answers pointing member⟩
  · exact Or.inr ⟨by simp [routed, Route.guard?], by simp [routed, Route.key?],
      other_namesKey plain unheld⟩

theorem namesKey_admits {event name : String} (key : NamesKey event name) (e : Event) :
    Admits event e name := by
  obtain ⟨_, _, notSelf, unheld⟩ := key
  refine ⟨fun same => absurd same notSelf, fun pointing f held => ?_⟩
  rw [unheld pointing] at held
  cases held

theorem namesKey_effect {event name : String} (key : NamesKey event name) : effect? name = none := by
  obtain ⟨notStop, notPrevent, _, _⟩ := key
  simp [effect?]

theorem keys_ofModifiers (event : String) (names : List String) :
    (Prologue.ofModifiers event names).keys = names.filter fun name => NamesKey event name := by
  induction names with
  | nil => rfl
  | cons name names ih =>
    simp only [Prologue.ofModifiers, List.map_cons] at ih ⊢
    rcases route_asked event name with ⟨g, _, noKey, answers⟩ | ⟨_, key, named⟩
    · rw [List.filterMap_cons_none noKey, ih]
      simp [answers.1]
    · rw [List.filterMap_cons_some key, ih]
      simp [named]

theorem guards_effects (event : String) (names : List String) (e : Event) (resolve : String → Int) :
    (((Prologue.ofModifiers event names).guards.map Statement.ofGuard).takeWhile
      (Statement.passes e resolve)).filterMap Statement.effect? =
        (names.takeWhile fun name => Admits event e name).filterMap effect? := by
  induction names with
  | nil => rfl
  | cons name names ih =>
    simp only [Prologue.ofModifiers, List.map_cons] at ih ⊢
    rcases route_asked event name with ⟨g, guarded, _, answers⟩ | ⟨unguarded, _, named⟩
    · obtain ⟨_, effect, passes⟩ := answers
      rw [List.filterMap_cons_some guarded, List.map_cons]
      by_cases admitted : Admits event e name
      · have passed := (passes e resolve).mpr admitted
        rw [List.takeWhile_cons_of_pos passed, List.takeWhile_cons_of_pos (by simpa using admitted),
          List.filterMap_cons, List.filterMap_cons, ih, effect]
      · have failed : ¬ (Statement.ofGuard g).passes e resolve = true :=
          fun passed => admitted ((passes e resolve).mp passed)
        rw [List.takeWhile_cons_of_neg failed, List.takeWhile_cons_of_neg (by simpa using admitted)]
        rfl
    · rw [List.filterMap_cons_none unguarded, ih,
        List.takeWhile_cons_of_pos (by simpa using namesKey_admits named e),
        List.filterMap_cons_none (namesKey_effect named)]

theorem guards_pass (event : String) (names : List String) (e : Event) (resolve : String → Int) :
    ((Prologue.ofModifiers event names).guards.map Statement.ofGuard).all
      (Statement.passes e resolve) = true ↔ ∀ name ∈ names, Admits event e name := by
  induction names with
  | nil => simp [Prologue.ofModifiers]
  | cons name names ih =>
    simp only [Prologue.ofModifiers, List.map_cons] at ih ⊢
    rw [List.forall_mem_cons]
    rcases route_asked event name with ⟨g, guarded, _, answers⟩ | ⟨unguarded, _, named⟩
    · rw [List.filterMap_cons_some guarded, List.map_cons, List.all_cons, Bool.and_eq_true,
        answers.2.2, ih]
    · rw [List.filterMap_cons_none unguarded, ih]
      simp [namesKey_admits named e]

theorem operand_value (resolve : String → Int) (c : KeyCode) :
    (Operand.ofCode c).value resolve = c.value resolve := by
  cases c <;> rfl

theorem keyFilter_passes (names : List String) (e : Event) (resolve : String → Int) :
    (Statement.returnUnlessKey ((names.flatMap KeyCode.ofName).map Operand.ofCode)).passes e resolve =
      true ↔ ∃ name ∈ names, ∃ c ∈ KeyCode.ofName name, e.keyCode = c.value resolve := by
  simp [Statement.passes, operand_value]

theorem namesItsKey_iff (event : String) (names : List String) (e : Event) (resolve : String → Int) :
    (∃ name ∈ names.filter fun name => NamesKey event name,
      ∃ c ∈ KeyCode.ofName name, e.keyCode = c.value resolve) ↔
        NamesItsKey event names e resolve := by
  simp [NamesItsKey, and_assoc]

theorem filter_namesKey_eq_nil (event : String) (names : List String) :
    (names.filter fun name => NamesKey event name) = [] ↔ ∀ name ∈ names, ¬ NamesKey event name := by
  simp

/-- The run of a prologue: the key filter decides first, then the modifiers do in their order. -/
theorem run_prologue (event : String) (names : List String) (e : Event) (resolve : String → Int) :
    ((run e resolve (Prologue.ofModifiers event names).statements).reachesEnd = true ↔
      KeyAccepted event names e resolve ∧ ∀ name ∈ names, Admits event e name) ∧
    (KeyAccepted event names e resolve →
      (run e resolve (Prologue.ofModifiers event names).statements).effects =
        (names.takeWhile fun name => Admits event e name).filterMap effect?) ∧
    (¬ KeyAccepted event names e resolve →
      (run e resolve (Prologue.ofModifiers event names).statements).effects = []) := by
  have effects := guards_effects event names e resolve
  have pass := guards_pass event names e resolve
  have itsKey := namesItsKey_iff event names e resolve
  have noKeys := filter_namesKey_eq_nil event names
  rw [run_reachesEnd, run_effects, Prologue.statements, keys_ofModifiers]
  unfold KeyAccepted
  cases keys : names.filter fun name => NamesKey event name with
  | nil =>
    have accepted := noKeys.mp keys
    refine ⟨?_, fun _ => effects, fun refused => absurd (Or.inl accepted) refused⟩
    simp only [List.isEmpty_nil, if_true, List.nil_append, pass]
    exact ⟨fun admitted => ⟨Or.inl accepted, admitted⟩, fun both => both.2⟩
  | cons key rest =>
    have filter := keyFilter_passes (key :: rest) e resolve
    have named : ¬ ∀ name ∈ names, ¬ NamesKey event name := by
      intro none
      rw [noKeys.mpr none] at keys
      cases keys
    rw [keys] at itsKey
    rw [itsKey] at filter
    simp only [List.isEmpty_cons, Bool.false_eq_true, if_false, List.singleton_append,
      List.all_cons, Bool.and_eq_true, filter, pass, named, false_or, true_and]
    refine ⟨fun accepted => ?_, fun refused => ?_⟩
    · rw [List.takeWhile_cons_of_pos (filter.mpr accepted), List.filterMap_cons_none rfl, effects]
    · rw [List.takeWhile_cons_of_neg (fun passed => refused (filter.mp passed))]
      rfl

theorem forall_admits (event : String) (names : List String) (e : Event) :
    (∀ name ∈ names, Admits event e name) ↔
      ("self" ∈ names → e.onSelf = true) ∧
        (isMouseEvent event = true →
          ∀ name ∈ names, ∀ f, heldFlag? name = some f → e.held f = true) := by
  constructor
  · intro admitted
    exact ⟨fun listed => (admitted "self" listed).1 rfl,
      fun pointing name listed => (admitted name listed).2 pointing⟩
  · rintro ⟨onSelf, held⟩ name listed
    refine ⟨?_, fun pointing => held pointing name listed⟩
    rintro rfl
    exact onSelf listed

/-- The text of a prologue is read completely, and its run ends as the modifiers ask. Its effects
are those of the modifiers before the first one that the event does not meet, and none where the
event has none of the keys that are named. -/
theorem prologue_meaning {o : Options} (parameter : Text.isIdentifier o.eventParam = true)
    (resolver : Text.isIdentifier o.keyResolver = true) (distinct : o.eventParam ≠ o.keyResolver)
    (event : String) (names : List String) :
    ∃ guards, statements o.eventParam o.keyResolver
        ((Prologue.ofModifiers event names).code o).toList = some guards ∧
      ∀ (e : Event) (resolve : String → Int),
        ((run e resolve guards).reachesEnd = true ↔
          KeyAccepted event names e resolve ∧ ("self" ∈ names → e.onSelf = true) ∧
            (isMouseEvent event = true →
              ∀ name ∈ names, ∀ f, heldFlag? name = some f → e.held f = true)) ∧
        (KeyAccepted event names e resolve → (run e resolve guards).effects =
          (names.takeWhile fun name => Admits event e name).filterMap effect?) ∧
        (¬ KeyAccepted event names e resolve → (run e resolve guards).effects = []) := by
  refine ⟨_, statements_prologue parameter resolver distinct _, fun e resolve => ?_⟩
  rw [← forall_admits]
  exact run_prologue event names e resolve

/-- A click with the second code of a key. Propagation stops, and then the run goes on only where the
key of the guard is held and the target is the element itself. -/
theorem prologue_meaning_click :
    Text.isIdentifier "$event" = true ∧ Text.isIdentifier "_k" = true ∧ "$event" ≠ "_k" ∧
      ∃ guards, statements "$event" "_k"
          ((Prologue.ofModifiers "click"
            ["delete", "stop", "ctrl", "self", "prevent"]).code {}).toList = some guards ∧
        ∀ onSelf held resolve, run ⟨46, onSelf, fun f => f == .ctrlKey && held⟩ resolve guards =
          if held && onSelf then ⟨[.stopPropagation, .preventDefault], true⟩
          else ⟨[.stopPropagation], false⟩ := by
  have parameter : Text.isIdentifier "$event" = true := by decide
  have resolver : Text.isIdentifier "_k" = true := by decide
  have distinct : "$event" ≠ "_k" := by decide
  obtain ⟨guards, read, meaning⟩ := prologue_meaning (o := {}) parameter resolver distinct
    "click" ["delete", "stop", "ctrl", "self", "prevent"]
  refine ⟨parameter, resolver, distinct, guards, read, fun onSelf held resolve => ?_⟩
  let e : Event := ⟨46, onSelf, fun f => f == .ctrlKey && held⟩
  obtain ⟨reaches, effects, _⟩ := meaning e resolve
  have accepted : KeyAccepted "click" ["delete", "stop", "ctrl", "self", "prevent"] e resolve :=
    Or.inr ⟨"delete", by decide, by decide, .known 46, by decide, rfl⟩
  rw [← forall_admits] at reaches
  have ended : (run e resolve guards).reachesEnd = (held && onSelf) := by
    rw [Bool.eq_iff_iff, reaches, and_iff_right accepted]
    cases onSelf <;> cases held <;> decide
  have acted : (run e resolve guards).effects =
      if held && onSelf then [.stopPropagation, .preventDefault] else [.stopPropagation] := by
    rw [effects accepted]
    cases onSelf <;> cases held <;> decide
  generalize run e resolve guards = outcome at ended acted ⊢
  cases outcome
  subst ended acted
  cases held <;> cases onSelf <;> rfl

end Listeners
