import Listeners.Proofs.BlockStructure
import Listeners.Proofs.Callable
import Listeners.Proofs.PrologueUnique
import Mathlib.Algebra.GroupWithZero.Nat
import Mathlib.Data.List.Forall2
/-!
The text of a binding as a template with three texts filled in: the two names of the options and the
value. The template is known from the kind of the value, from whether the event is one of a pointing
device and from the names of the modifiers in their order. How often each text comes in is counted on
the template.
-/
namespace Listeners
open Expression

inductive Hole where
  | eventParam
  | keyResolver
  | value
  deriving DecidableEq, Repr

inductive Chunk where
  | literal (text : String)
  | hole (place : Hole)
  deriving DecidableEq, Repr

abbrev Template := List Chunk

def Hole.text (o : Options) (value : String) : Hole → String
  | .eventParam => o.eventParam
  | .keyResolver => o.keyResolver
  | .value => value

def Chunk.text (o : Options) (value : String) : Chunk → String
  | literal text => text
  | hole place => place.text o value

def keyCodes (event : String) (names : List String) : List KeyCode :=
  (keyNames event names).flatMap KeyCode.ofName

def KeyCode.isCustom : KeyCode → Bool
  | custom _ => true
  | _ => false

theorem codes_ofModifiers (event : String) (names : List String) :
    (Prologue.ofModifiers event names).keys.flatMap KeyCode.ofName = keyCodes event names := by
  rw [keys_ofModifiers, keyCodes, keyNames]

namespace Template

def fill (o : Options) (value : String) (t : Template) : String :=
  String.join (t.map (Chunk.text o value))

def holes (t : Template) (place : Hole) : Nat := t.count (.hole place)

def literal (text : String) : Template := [.literal text]

def hole (place : Hole) : Template := [.hole place]

def ofKeyCode : KeyCode → Template
  | .number n => literal (Decimal.integer n)
  | .known n => literal (Nat.repr n)
  | .custom name => hole .keyResolver ++ literal ("(" ++ Text.quote name ++ ")")

def ofKeyTest (c : KeyCode) : Template :=
  hole .eventParam ++ literal ".keyCode!==" ++ ofKeyCode c

def ofKeyFilter (codes : List KeyCode) : Template :=
  literal "if(" ++ (literal "&&").intercalate (codes.map ofKeyTest) ++ literal ")return;"

def ofGuard : Guard → Template
  | .stopPropagation => hole .eventParam ++ literal ".stopPropagation();"
  | .preventDefault => hole .eventParam ++ literal ".preventDefault();"
  | .selfTarget => literal "if(" ++ hole .eventParam ++ literal ".target!==" ++ hole .eventParam ++
      literal ".currentTarget)return;"
  | .held key => literal "if(!" ++ hole .eventParam ++ literal ("." ++ key.flag ++ ")return;")

def ofPrologue (p : Prologue) : Template :=
  (if p.keys.isEmpty then [] else ofKeyFilter (p.keys.flatMap KeyCode.ofName)) ++
    p.guards.flatMap ofGuard

def ofFunction (body : Template) : Template :=
  literal "function(" ++ hole .eventParam ++ literal ")\x7b" ++ body ++ literal "\x7d"

def ofCall (k : Kind) : Template :=
  if k = .path then literal "(" ++ hole .eventParam ++ literal ")" else []

/-- The template of a binding to an event, of which only its being one of a pointing device counts.
-/
def ofBinding (k : Kind) (mouseEvent : Bool) (names : List String) : Template :=
  if names.isEmpty then
    if k.callable then hole .value else ofFunction (hole .value)
  else
    let routes := names.map (Modifier.route mouseEvent)
    ofFunction (ofPrologue ⟨routes.filterMap Route.guard?, routes.filterMap Route.key?⟩ ++
      hole .value ++ ofCall k)

section Fill
variable (o : Options) (value : String)

@[simp] theorem fill_literal (text : String) : fill o value (literal text) = text := by
  simp [fill, literal, Chunk.text]

@[simp] theorem fill_hole (place : Hole) : fill o value (hole place) = place.text o value := by
  simp [fill, hole, Chunk.text]

@[simp] theorem fill_append (t u : Template) :
    fill o value (t ++ u) = fill o value t ++ fill o value u := by
  simp [fill]

theorem fill_flatMap (f : α → Template) (xs : List α) :
    fill o value (xs.flatMap f) = String.join (xs.map fun x => fill o value (f x)) := by
  induction xs with
  | nil => rfl
  | cons x xs ih => simp [ih]

theorem fill_intercalate (separator : Template) (ts : List Template) :
    fill o value (separator.intercalate ts) =
      (fill o value separator).intercalate (ts.map (fill o value)) := by
  induction ts with
  | nil => rfl
  | cons t ts ih =>
    cases ts with
    | nil => simp
    | cons u us =>
      rw [List.intercalate_cons_cons, fill_append, fill_append, ih]
      simp

theorem fill_ofKeyCode (c : KeyCode) : fill o value (ofKeyCode c) = c.code o := by
  cases c with
  | number | known | custom => simp [ofKeyCode, KeyCode.code, Hole.text, String.append_assoc]

theorem fill_ofKeyTest (c : KeyCode) : fill o value (ofKeyTest c) = keyTest o c := by
  simp [ofKeyTest, keyTest, fill_ofKeyCode, Hole.text, String.append_assoc]

theorem fill_ofKeyFilter (keys : List String) :
    fill o value (ofKeyFilter (keys.flatMap KeyCode.ofName)) = keyFilter o keys := by
  have tests : fill o value ∘ ofKeyTest = keyTest o := funext (fill_ofKeyTest o value)
  rw [ofKeyFilter, fill_append, fill_append, fill_intercalate, List.map_map, tests]
  simp [keyFilter]

theorem fill_ofGuard (g : Guard) : fill o value (ofGuard g) = g.code o.eventParam := by
  cases g with
  | stopPropagation | preventDefault | selfTarget | held =>
    simp [ofGuard, Guard.code, Hole.text, String.append_assoc]

theorem fill_ofPrologue (p : Prologue) : fill o value (ofPrologue p) = p.code o := by
  unfold ofPrologue Prologue.code
  rw [fill_append, fill_flatMap]
  simp only [fill_ofGuard]
  split
  · rfl
  · rw [fill_ofKeyFilter]

theorem fill_ofFunction (body : Template) :
    fill o value (ofFunction body) = handlerFunction o (fill o value body) := by
  simp [ofFunction, handlerFunction, Hole.text, String.append_assoc]

theorem fill_ofCall (k : Kind) :
    fill o value (ofCall k) = if k = .path then "(" ++ o.eventParam ++ ")" else "" := by
  unfold ofCall
  split
  · simp [Hole.text, String.append_assoc]
  · rfl

end Fill

theorem ofBinding_modified (k : Kind) (event : String) {names : List String} (some_name : names ≠ []) :
    ofBinding k (isMouseEvent event) names =
      ofFunction (ofPrologue (.ofModifiers event names) ++ hole .value ++ ofCall k) := by
  have filled : ¬ names.isEmpty = true := by simpa using some_name
  rw [ofBinding, if_neg filled]
  rfl

theorem code_eq_fill (o : Options) (event : String) (b : Binding) :
    b.code o event =
      fill o b.value (ofBinding (kind b.value) (isMouseEvent event) b.modifierNames) := by
  cases modified : b.hasModifiers with
  | true =>
    have some_name : b.modifierNames ≠ [] := by simpa [hasModifiers_eq] using modified
    rw [code_modified modified, ofBinding_modified _ _ some_name, fill_ofFunction, fill_append,
      fill_append, fill_ofPrologue, fill_hole, fill_ofCall]
    rfl
  | false =>
    have no_name : b.modifierNames.isEmpty = true := by simpa [hasModifiers_eq] using modified
    rw [code_unmodified modified, ofBinding, if_pos no_name]
    split
    · rw [fill_hole]
      rfl
    · rw [fill_ofFunction, fill_hole]
      rfl

@[simp] theorem holes_nil (place : Hole) : holes [] place = 0 := rfl

@[simp] theorem holes_literal (text : String) (place : Hole) : holes (literal text) place = 0 := by
  simp [holes, literal]

@[simp] theorem holes_hole (other place : Hole) :
    holes (hole other) place = if place = other then 1 else 0 := by
  cases other <;> cases place <;> rfl

@[simp] theorem holes_append (t u : Template) (place : Hole) :
    holes (t ++ u) place = holes t place + holes u place :=
  List.count_append

theorem holes_flatMap (f : α → Template) (xs : List α) (place : Hole) :
    holes (xs.flatMap f) place = (xs.map fun x => holes (f x) place).sum :=
  List.count_flatMap

theorem holes_intercalate (separator : String) (ts : List Template) (place : Hole) :
    holes ((literal separator).intercalate ts) place = (ts.map fun t => holes t place).sum := by
  induction ts with
  | nil => rfl
  | cons t ts ih =>
    cases ts with
    | nil => simp
    | cons u us =>
      rw [List.intercalate_cons_cons, holes_append, holes_append, ih, holes_literal]
      simp

theorem holes_ofKeyTest (c : KeyCode) (place : Hole) :
    holes (ofKeyTest c) place =
      match place with
      | .eventParam => 1
      | .keyResolver => if c.isCustom then 1 else 0
      | .value => 0 := by
  cases c <;> cases place <;> simp [ofKeyTest, ofKeyCode, KeyCode.isCustom]

theorem holes_ofKeyFilter (codes : List KeyCode) (place : Hole) :
    holes (ofKeyFilter codes) place = (codes.map fun c => holes (ofKeyTest c) place).sum := by
  simp [ofKeyFilter, holes_intercalate, Function.comp_def]

theorem holes_ofGuard (g : Guard) (place : Hole) :
    holes (ofGuard g) place =
      if place = .eventParam then if g.modifier = "self" then 2 else 1 else 0 := by
  cases g with
  | stopPropagation | preventDefault | selfTarget =>
    cases place <;> simp [ofGuard, Guard.modifier]
  | held key => cases key <;> cases place <;> simp [ofGuard, Guard.modifier]

theorem holes_ofPrologue (p : Prologue) (place : Hole) :
    holes (ofPrologue p) place =
      ((p.keys.flatMap KeyCode.ofName).map fun c => holes (ofKeyTest c) place).sum +
        (p.guards.map fun g => holes (ofGuard g) place).sum := by
  rw [ofPrologue, holes_append, holes_flatMap]
  cases keys : p.keys with
  | nil => rfl
  | cons key rest => simp [holes_ofKeyFilter]

theorem holes_ofFunction (body : Template) (place : Hole) :
    holes (ofFunction body) place = (if place = .eventParam then 1 else 0) + holes body place := by
  simp [ofFunction]

theorem holes_ofCall (k : Kind) (place : Hole) :
    holes (ofCall k) place = if place = .eventParam ∧ k = .path then 1 else 0 := by
  cases k <;> simp [ofCall]

theorem holes_prologue_eventParam (event : String) (names : List String) :
    holes (ofPrologue (.ofModifiers event names)) .eventParam =
      (keyCodes event names).length +
        ((guardNames event names).map fun name => if name = "self" then 2 else 1).sum := by
  simp only [holes_ofPrologue, codes_ofModifiers, holes_ofKeyTest, holes_ofGuard, if_true,
    ← guards_ofModifiers, List.map_map, Function.comp_def]
  simp

theorem holes_prologue_keyResolver (event : String) (names : List String) :
    holes (ofPrologue (.ofModifiers event names)) .keyResolver =
      (keyCodes event names).countP KeyCode.isCustom := by
  simp only [holes_ofPrologue, codes_ofModifiers, holes_ofKeyTest, holes_ofGuard]
  induction keyCodes event names with
  | nil => simp
  | cons c cs ih => simp_all [List.countP_cons, Nat.add_comm]

theorem holes_prologue_value (p : Prologue) : holes (ofPrologue p) .value = 0 := by
  simp [holes_ofPrologue, holes_ofKeyTest, holes_ofGuard]

theorem holes_value (k : Kind) (mouseEvent : Bool) (names : List String) :
    holes (ofBinding k mouseEvent names) .value = 1 := by
  unfold ofBinding
  split
  · split
    · rfl
    · simp [holes_ofFunction]
  · simp [holes_ofFunction, holes_prologue_value, holes_ofCall]

theorem holes_modified (k : Kind) (event : String) {names : List String} (some_name : names ≠ []) :
    holes (ofBinding k (isMouseEvent event) names) .keyResolver =
      (keyCodes event names).countP KeyCode.isCustom ∧
    holes (ofBinding k (isMouseEvent event) names) .eventParam =
      1 + (keyCodes event names).length +
        ((guardNames event names).map fun name => if name = "self" then 2 else 1).sum +
        if k = .path then 1 else 0 := by
  simp only [ofBinding_modified k event some_name, holes_ofFunction, holes_append,
    holes_prologue_eventParam, holes_prologue_keyResolver, holes_ofCall, holes_hole]
  constructor
  · simp
  · simp [Nat.add_assoc]

end Template

/-- The flags of the modifiers may differ, and an empty map may stand where the other has none. -/
def Binding.SameNames (a b : Binding) : Prop := a.value = b.value ∧ a.modifierNames = b.modifierNames

inductive Handler.SameNames : Handler → Handler → Prop where
  | single {a b : Binding} (same : a.SameNames b) : SameNames (.single a) (.single b)
  | several {slots others : List (Option Binding)}
      (same : List.Forall₂ (Option.Rel Binding.SameNames) slots others) :
      SameNames (.several slots) (.several others)

def Table.SameNames (t u : Table) : Prop :=
  List.Forall₂ (fun entry other => entry.1 = other.1 ∧ Option.Rel Handler.SameNames entry.2 other.2)
    t.entries u.entries

theorem map_eq_of_forall₂ {f : α → γ} {g : β → γ} {as : List α} {bs : List β}
    (same : List.Forall₂ (fun a b => f a = g b) as bs) : as.map f = bs.map g := by
  rw [← List.forall₂_eq_eq_eq, List.forall₂_map_left_iff, List.forall₂_map_right_iff]
  exact same

section SameNames
variable (o : Options) (event : String)

theorem code_of_sameNames {a b : Binding} (same : a.SameNames b) : a.code o event = b.code o event := by
  obtain ⟨value, names⟩ := same
  rw [Template.code_eq_fill, Template.code_eq_fill, value, names]

theorem slotCode_of_sameNames {slot other : Option Binding}
    (same : Option.Rel Binding.SameNames slot other) :
    slotCode o event slot = slotCode o event other := by
  cases same with
  | none => rfl
  | some same => exact code_of_sameNames o event same

theorem entryCode_of_sameNames {handler other : Option Handler}
    (same : Option.Rel Handler.SameNames handler other) :
    entryCode o event handler = entryCode o event other := by
  cases same with
  | none => rfl
  | some same =>
    cases same with
    | single same => exact code_of_sameNames o event same
    | several same =>
      have codes := map_eq_of_forall₂ (same.imp fun _ _ places => slotCode_of_sameNames o event places)
      exact congrArg Json.writeList codes

end SameNames

theorem tableCode_of_sameNames {t u : Table} (same : t.SameNames u) (o : Options) (native : Bool) :
    t.code o native = u.code o native := by
  have members : t.entries.map (memberCode o) = u.entries.map (memberCode o) := by
    refine map_eq_of_forall₂ (same.imp ?_)
    rintro ⟨event, handler⟩ ⟨_, other⟩ ⟨rfl, handlers⟩
    exact congrArg (Json.writeMember event) (entryCode_of_sameNames o event handlers)
  rw [table_code, table_code, members]

/-- The code of a binding is a template with the two names and the value filled in as they are. The
value comes in once, and each name as often as the kind of the value and the modifiers ask. So the
flags of the modifiers do not come in at all. -/
theorem code_fills_template :
    (∀ (o : Options) (event : String) (b : Binding), b.code o event =
      (Template.ofBinding (kind b.value) (isMouseEvent event) b.modifierNames).fill o b.value) ∧
    (∀ k mouseEvent names, (Template.ofBinding k mouseEvent names).holes .value = 1) ∧
    (∀ k mouseEvent, (Template.ofBinding k mouseEvent []).holes .keyResolver = 0 ∧
      (Template.ofBinding k mouseEvent []).holes .eventParam = if k.callable then 0 else 1) ∧
    (∀ k event names, names ≠ [] →
      (Template.ofBinding k (isMouseEvent event) names).holes .keyResolver =
        (keyCodes event names).countP KeyCode.isCustom ∧
      (Template.ofBinding k (isMouseEvent event) names).holes .eventParam =
        1 + (keyCodes event names).length +
          ((guardNames event names).map fun name => if name = "self" then 2 else 1).sum +
          if k = .path then 1 else 0) ∧
    ∀ t u : Table, t.SameNames u → ∀ o native, t.code o native = u.code o native := by
  refine ⟨Template.code_eq_fill, Template.holes_value, ?_, ?_, ?_⟩
  · intro k mouseEvent
    cases k with
    | function | path | statements => exact ⟨rfl, rfl⟩
  · intro k event names some_name
    exact Template.holes_modified k event some_name
  · intro t u same o native
    exact tableCode_of_sameNames same o native

def flaggedTable (enter self : Bool) (unmodified : Option Modifiers) : Table :=
  let path : Binding := ⟨"go.to", some (.ofList [("enter", enter), ("custom", true), ("self", self)])⟩
  .ofList [("keyup", some (.several [some path, none, some ⟨"++count", unmodified⟩]))]

/-- Three codes, a guard that names the event twice and a call of the value; and other flags. -/
theorem flaggedTable_template :
    ["enter", "custom", "self"] ≠ [] ∧
    (Template.ofBinding .path (isMouseEvent "keyup") ["enter", "custom", "self"]).holes .keyResolver = 1 ∧
    (Template.ofBinding .path (isMouseEvent "keyup") ["enter", "custom", "self"]).holes .eventParam = 6 ∧
    (flaggedTable true false none).SameNames (flaggedTable false true (some .empty)) ∧
    ∀ o native, (flaggedTable true false none).code o native =
      (flaggedTable false true (some .empty)).code o native := by
  obtain ⟨_, _, _, counts, flags⟩ := code_fills_template
  have some_name : ["enter", "custom", "self"] ≠ [] := List.cons_ne_nil _ _
  obtain ⟨resolver, parameter⟩ := counts .path "keyup" _ some_name
  have same : (flaggedTable true false none).SameNames (flaggedTable false true (some .empty)) := by
    refine .cons ⟨rfl, .some (.several ?_)⟩ .nil
    exact .cons (.some ⟨rfl, rfl⟩) (.cons .none (.cons (.some ⟨rfl, rfl⟩) .nil))
  refine ⟨some_name, ?_, ?_, same, flags _ _ same⟩
  · rw [resolver]
    decide
  · rw [parameter]
    decide

end Listeners
