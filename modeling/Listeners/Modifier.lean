import Listeners.Key
/-!
What each modifier of a binding asks for. Some guard every event, the held keys guard
events of a pointing device, and every other name is the name of a key.
-/
namespace Listeners

inductive HeldKey where
  | ctrl
  | shift
  | alt
  | metaKey
  deriving DecidableEq, Repr

def HeldKey.flag : HeldKey → String
  | ctrl => "ctrlKey"
  | shift => "shiftKey"
  | alt => "altKey"
  | metaKey => "metaKey"

inductive Guard where
  | stopPropagation
  | preventDefault
  | selfTarget
  | held (key : HeldKey)
  deriving DecidableEq, Repr

def Guard.code (p : String) : Guard → String
  | stopPropagation => p ++ ".stopPropagation();"
  | preventDefault => p ++ ".preventDefault();"
  | selfTarget => "if(" ++ p ++ ".target!==" ++ p ++ ".currentTarget)return;"
  | held key => "if(!" ++ p ++ "." ++ key.flag ++ ")return;"

def isMouseEvent (event : String) : Bool :=
  ["mouse", "pointer"].any (fun start => start.toList.isPrefixOf event.toList) ||
    ["click", "dblclick", "contextmenu", "wheel"].contains event

inductive Route where
  | structural (guard : Guard)
  | mouse (guard : Guard)
  | key (name : String)
  deriving DecidableEq, Repr

namespace Modifier

def structural : List (String × Guard) :=
  [("stop", .stopPropagation), ("prevent", .preventDefault), ("self", .selfTarget)]

def mouse : List (String × Guard) :=
  [("ctrl", .held .ctrl), ("shift", .held .shift), ("alt", .held .alt), ("meta", .held .metaKey)]

def route (mouseEvent : Bool) (name : String) : Route :=
  match structural.lookup name with
  | some guard => .structural guard
  | none =>
    match if mouseEvent then mouse.lookup name else none with
    | some guard => .mouse guard
    | none => .key name

/-- A modifier is looked for among the structural ones, then among those of a pointing device. -/
theorem route_cases (mouseEvent : Bool) (name : String) :
    (∃ guard, (name, guard) ∈ structural ∧ route mouseEvent name = .structural guard) ∨
    (mouseEvent = true ∧ ∃ guard, (name, guard) ∈ mouse ∧ route mouseEvent name = .mouse guard) ∨
    ((∀ guard, (name, guard) ∉ structural) ∧
      (mouseEvent = true → ∀ guard, (name, guard) ∉ mouse) ∧ route mouseEvent name = .key name) := by
  have member : ∀ {entries : List (String × Guard)} {guard},
      entries.lookup name = some guard → (name, guard) ∈ entries := by
    intro entries guard found
    obtain ⟨before, later, split, _⟩ := List.lookup_eq_some_iff.1 found
    simp [split]
  have absent : ∀ {entries : List (String × Guard)},
      entries.lookup name = none → ∀ guard, (name, guard) ∉ entries := by
    intro entries missing guard here
    simpa using List.lookup_eq_none_iff.1 missing _ here
  unfold route
  cases first : structural.lookup name with
  | some guard => exact Or.inl ⟨guard, member first, rfl⟩
  | none =>
    cases mouseEvent with
    | false => exact Or.inr (Or.inr ⟨absent first, by simp, rfl⟩)
    | true =>
      cases second : mouse.lookup name with
      | some guard => exact Or.inr (Or.inl ⟨rfl, guard, member second, by simp⟩)
      | none => exact Or.inr (Or.inr ⟨absent first, fun _ => absent second, by simp⟩)

end Modifier

def Route.guard? : Route → Option Guard
  | structural guard => some guard
  | mouse guard => some guard
  | key _ => none

def Route.key? : Route → Option String
  | key name => some name
  | _ => none

/-- The statements before the body of a handler: guards and key names, each in the order of the
modifiers. -/
structure Prologue where
  guards : List Guard
  keys : List String
  deriving DecidableEq, Repr

namespace Prologue

def ofModifiers (event : String) (names : List String) : Prologue :=
  let routes := names.map (Modifier.route (isMouseEvent event))
  ⟨routes.filterMap Route.guard?, routes.filterMap Route.key?⟩

/-- The key filter comes before all guards, if there are keys. -/
def code (o : Options) (p : Prologue) : String :=
  (if p.keys.isEmpty then "" else keyFilter o p.keys) ++
    String.join (p.guards.map (Guard.code o.eventParam))

end Prologue

end Listeners
