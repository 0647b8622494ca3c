import Listeners.Proofs.BlockStructure
import Listeners.Proofs.Callable
import Listeners.Proofs.PrologueMeaning
import Mathlib.Algebra.Order.BigOperators.Group.List
import Mathlib.Algebra.Order.Ring.Nat
/-!
What the name of an event decides about the code of its handlers: whether the modifiers of the held keys
become guards or names of keys, and nothing else. A guard is shorter than the comparison that would
stand for it, so the code is shorter for an event of a pointing device wherever such a modifier is
listed, whatever stands around it.
-/
namespace Listeners
open Expression

def heldNames : List String := ["ctrl", "shift", "alt", "meta"]

def Binding.ListsHeldKey (b : Binding) : Prop := ∃ name ∈ b.modifierNames, name ∈ heldNames

def entryBindings : Option Handler → List Binding
  | some h => h.bindings
  | none => []

theorem length_intercalate (separator first : String) (rest : List String) :
    (separator.intercalate (first :: rest)).length + separator.length =
      ((first :: rest).map fun text => text.length + separator.length).sum := by
  induction rest generalizing first with
  | nil => simp
  | cons second rest ih =>
    have later := ih second
    rw [String.intercalate_cons_cons, String.length_append, String.length_append, List.map_cons,
      List.sum_cons, ← later]
    omega

section Lengths
variable (o : Options)

/-- What a modifier adds to the length of a prologue, each comparison with a sign that joins it to
another. -/
def Route.size : Route → Nat
  | structural g => (g.code o.eventParam).length
  | mouse g => (g.code o.eventParam).length
  | key name => ((KeyCode.ofName name).map fun c => (keyTest o c).length + 2).sum

theorem length_keyFilter {keys : List String} (some_key : keys ≠ []) :
    (keyFilter o keys).length =
      ((keys.flatMap KeyCode.ofName).map fun c => (keyTest o c).length + 2).sum + 9 := by
  obtain ⟨c, cs, codes⟩ := codes_cons some_key
  have opening : "if(".length = 3 := rfl
  have closing : ")return;".length = 8 := rfl
  have sign : "&&".length = 2 := rfl
  have tests := length_intercalate "&&" (keyTest o c) (cs.map (keyTest o))
  rw [← List.map_cons, List.map_map, sign] at tests
  simp only [Function.comp_def] at tests
  simp only [keyFilter, codes, String.length_append, opening, closing, ← tests]
  omega

theorem length_code (p : Prologue) :
    (p.code o).length =
      ((p.keys.flatMap KeyCode.ofName).map fun c => (keyTest o c).length + 2).sum +
        (p.guards.map fun g => (g.code o.eventParam).length).sum +
          if p.keys = [] then 0 else 9 := by
  have guards : (String.join (p.guards.map (Guard.code o.eventParam))).length =
      (p.guards.map fun g => (g.code o.eventParam).length).sum := by
    rw [String.length_join, List.map_map]
    rfl
  rw [Prologue.code, String.length_append, guards]
  cases keys : p.keys with
  | nil => simp
  | cons key rest =>
    have filter := length_keyFilter o (List.cons_ne_nil key rest)
    simp only [List.isEmpty_cons, Bool.false_eq_true, if_false, filter, List.cons_ne_nil]
    omega

theorem sum_sizes (routes : List Route) :
    (routes.map (Route.size o)).sum =
      (((routes.filterMap Route.key?).flatMap KeyCode.ofName).map
        fun c => (keyTest o c).length + 2).sum +
      ((routes.filterMap Route.guard?).map fun g => (g.code o.eventParam).length).sum := by
  induction routes with
  | nil => rfl
  | cons route routes ih =>
    cases route with
    | structural g | mouse g =>
      simp only [List.map_cons, List.sum_cons, ih, List.filterMap_cons, Route.size, Route.key?,
        Route.guard?]
      omega
    | key name =>
      simp only [List.map_cons, List.sum_cons, ih, List.filterMap_cons, Route.size, Route.key?,
        Route.guard?, List.flatMap_cons, List.map_append, List.sum_append]
      omega

theorem length_prologue (event : String) (names : List String) :
    ((Prologue.ofModifiers event names).code o).length =
      (names.map fun name => (Modifier.route (isMouseEvent event) name).size o).sum +
        if (Prologue.ofModifiers event names).keys = [] then 0 else 9 := by
  have sizes := sum_sizes o (names.map (Modifier.route (isMouseEvent event)))
  rw [List.map_map] at sizes
  rw [length_code]
  exact congrArg (· + _) sizes.symm

theorem size_custom {name : String} (left : KeyCode.ofName name = [.custom name]) :
    (Route.key name).size o =
      o.eventParam.length + o.keyResolver.length + (Text.quote name).length + 15 := by
  have comparison : ".keyCode!==".length = 11 := rfl
  have opening : "(".length = 1 := rfl
  have closing : ")".length = 1 := rfl
  simp only [Route.size, left, List.map_cons, List.map_nil, List.sum_cons, List.sum_nil, keyTest,
    KeyCode.code, String.length_append, comparison, opening, closing]
  omega

theorem size_heldGuard (key : HeldKey) :
    (Route.mouse (.held key)).size o = o.eventParam.length + key.flag.length + 13 := by
  have opening : "if(!".length = 4 := rfl
  have dot : ".".length = 1 := rfl
  have closing : ")return;".length = 8 := rfl
  simp only [Route.size, Guard.code, String.length_append, opening, dot, closing]
  omega

end Lengths

theorem held_routes {name : String} (held : name ∈ heldNames) :
    ∃ key : HeldKey, Modifier.route true name = .mouse (.held key) ∧
      Modifier.route false name = .key name ∧ KeyCode.ofName name = [.custom name] ∧
      key.flag.length ≤ (Text.quote name).length + 1 := by
  simp only [heldNames, List.mem_cons, List.not_mem_nil, or_false] at held
  rcases held with rfl | rfl | rfl | rfl
  · exact ⟨.ctrl, by decide⟩
  · exact ⟨.shift, by decide⟩
  · exact ⟨.alt, by decide⟩
  · exact ⟨.metaKey, by decide⟩

theorem route_unheld {name : String} (unheld : name ∉ heldNames) (mouseEvent other : Bool) :
    Modifier.route mouseEvent name = Modifier.route other name := by
  have none : Modifier.mouse.lookup name = none := by
    rw [List.lookup_eq_none_iff]
    simpa [Modifier.mouse, heldNames] using unheld
  unfold Modifier.route
  cases mouseEvent <;> cases other <;> simp [none]

theorem size_held (o : Options) {name : String} (held : name ∈ heldNames) :
    (Modifier.route true name).size o < (Modifier.route false name).size o := by
  obtain ⟨key, guarded, named, left, flag⟩ := held_routes held
  rw [guarded, named, size_heldGuard, size_custom o left]
  omega

theorem size_le (o : Options) (name : String) :
    (Modifier.route true name).size o ≤ (Modifier.route false name).size o := by
  by_cases held : name ∈ heldNames
  · exact Nat.le_of_lt (size_held o held)
  · rw [route_unheld held true false]

theorem length_code_modified (o : Options) {b : Binding} (modified : b.hasModifiers = true) :
    ∃ around, ∀ event, (b.code o event).length =
      ((Prologue.ofModifiers event b.modifierNames).code o).length + around := by
  refine ⟨(handlerFunction o (b.value ++
    if kind b.value = .path then "(" ++ o.eventParam ++ ")" else "")).length, fun event => ?_⟩
  rw [code_modified modified]
  simp only [handlerFunction, String.length_append]
  omega

theorem length_slots (code : Option Binding → String) {slots : List (Option Binding)}
    (filled : slots ≠ []) : (Json.writeList (slots.map code)).length =
      (slots.map fun slot => (code slot).length + 1).sum + 1 := by
  obtain ⟨slot, rest, rfl⟩ := List.exists_cons_of_ne_nil filled
  have opening : "[".length = 1 := rfl
  have comma : ",".length = 1 := rfl
  have closing : "]".length = 1 := rfl
  have items := length_intercalate "," (code slot) (rest.map code)
  rw [← List.map_cons, List.map_map, comma] at items
  simp only [Function.comp_def] at items
  rw [Json.writeList, String.length_append, String.length_append, opening, closing, ← items]
  omega

section Pointing
variable (o : Options) {event other : String} (pointing : isMouseEvent event = true)
  (plain : isMouseEvent other = false)
include pointing plain

omit pointing in
theorem namesKey_plain {name : String} (key : NamesKey event name) : NamesKey other name := by
  obtain ⟨notStop, notPrevent, notSelf, _⟩ := key
  refine ⟨notStop, notPrevent, notSelf, fun mouse => ?_⟩
  rw [plain] at mouse
  cases mouse

omit pointing in
theorem keys_plain {names : List String} (none : (Prologue.ofModifiers other names).keys = []) :
    (Prologue.ofModifiers event names).keys = [] := by
  rw [keys_ofModifiers, filter_namesKey_eq_nil] at none ⊢
  intro name listed key
  exact none name listed (namesKey_plain plain key)

/-- Apart from what the modifiers add one by one, the prologue is no longer for the event of the
device. -/
theorem length_prologue_gap (names : List String) :
    ((Prologue.ofModifiers event names).code o).length +
        (names.map fun name => (Modifier.route false name).size o).sum ≤
      ((Prologue.ofModifiers other names).code o).length +
        (names.map fun name => (Modifier.route true name).size o).sum := by
  rw [length_prologue, length_prologue, pointing, plain]
  by_cases none : (Prologue.ofModifiers other names).keys = []
  · rw [if_pos none, if_pos (keys_plain plain none)]
    omega
  · rw [if_neg none]
    split <;> omega

theorem length_prologue_le (names : List String) :
    ((Prologue.ofModifiers event names).code o).length ≤
      ((Prologue.ofModifiers other names).code o).length := by
  have sizes : (names.map fun name => (Modifier.route true name).size o).sum ≤
      (names.map fun name => (Modifier.route false name).size o).sum :=
    List.sum_le_sum fun name _ => size_le o name
  have gap := length_prologue_gap o pointing plain names
  omega

theorem length_prologue_lt {names : List String} (held : ∃ name ∈ names, name ∈ heldNames) :
    ((Prologue.ofModifiers event names).code o).length <
      ((Prologue.ofModifiers other names).code o).length := by
  obtain ⟨name, listed, among⟩ := held
  have sizes : (names.map fun name => (Modifier.route true name).size o).sum <
      (names.map fun name => (Modifier.route false name).size o).sum :=
    List.sum_lt_sum _ _ (fun name _ => size_le o name) ⟨name, listed, size_held o among⟩
  have gap := length_prologue_gap o pointing plain names
  omega

theorem length_code_le (b : Binding) : (b.code o event).length ≤ (b.code o other).length := by
  cases modified : b.hasModifiers with
  | true =>
    obtain ⟨around, lengths⟩ := length_code_modified o modified
    have prologues := length_prologue_le o pointing plain b.modifierNames
    rw [lengths, lengths]
    omega
  | false => rw [code_unmodified modified, code_unmodified modified]

theorem length_code_lt {b : Binding} (held : b.ListsHeldKey) :
    (b.code o event).length < (b.code o other).length := by
  obtain ⟨name, listed, among⟩ := held
  obtain ⟨around, lengths⟩ := length_code_modified o (hasModifiers_of_mem listed)
  have prologues := length_prologue_lt o pointing plain ⟨name, listed, among⟩
  rw [lengths, lengths]
  omega

theorem length_slotCode_le (slot : Option Binding) :
    (slotCode o event slot).length ≤ (slotCode o other slot).length := by
  cases slot with
  | none => exact Nat.le_refl _
  | some b => exact length_code_le o pointing plain b

theorem length_entryCode_lt {handler : Option Handler}
    (held : ∃ b ∈ entryBindings handler, b.ListsHeldKey) :
    (entryCode o event handler).length < (entryCode o other handler).length := by
  obtain ⟨b, bound, lists⟩ := held
  cases handler with
  | none => cases bound
  | some h =>
    cases h with
    | single c =>
      cases List.mem_singleton.1 bound
      exact length_code_lt o pointing plain lists
    | several slots =>
      have place : some b ∈ slots := mem_bindings_several.1 bound
      have sizes : (slots.map fun slot => (slotCode o event slot).length + 1).sum <
          (slots.map fun slot => (slotCode o other slot).length + 1).sum := by
        refine List.sum_lt_sum _ _ (fun slot _ => ?_) ⟨some b, place, ?_⟩
        · exact Nat.succ_le_succ (length_slotCode_le o pointing plain slot)
        · exact Nat.succ_lt_succ (length_code_lt o pointing plain lists)
      have filled : slots ≠ [] := List.ne_nil_of_mem place
      have lengths := fun event => length_slots (slotCode o event) filled
      simp only [entryCode, Handler.code, lengths]
      omega

end Pointing

theorem code_of_routes (o : Options) {event other : String} {b : Binding}
    (same : ∀ name ∈ b.modifierNames,
      Modifier.route (isMouseEvent event) name = Modifier.route (isMouseEvent other) name) :
    b.code o event = b.code o other := by
  have prologues : Prologue.ofModifiers event b.modifierNames =
      Prologue.ofModifiers other b.modifierNames := by
    simp only [Prologue.ofModifiers, List.map_congr_left same]
  rw [Binding.code, Binding.code, prologues]

theorem entryCode_of_bindings (o : Options) {event other : String} {handler : Option Handler}
    (same : ∀ b ∈ entryBindings handler, b.code o event = b.code o other) :
    entryCode o event handler = entryCode o other handler := by
  cases handler with
  | none => rfl
  | some h =>
    cases h with
    | single b => exact same b (List.mem_singleton.2 rfl)
    | several slots =>
      have codes : slots.map (slotCode o event) = slots.map (slotCode o other) := by
        refine List.map_congr_left fun slot place => ?_
        cases slot with
        | none => rfl
        | some b => exact same b (mem_bindings_several.2 place)
      exact congrArg Json.writeList codes

theorem entryCode_of_kind (o : Options) {event other : String} (handler : Option Handler)
    (kind : isMouseEvent event = isMouseEvent other) :
    entryCode o event handler = entryCode o other handler :=
  entryCode_of_bindings o fun _ _ => code_of_routes o fun _ _ => by rw [kind]

/-- Two names of events give an entry the same code exactly where both or neither are of a pointing
device, or no binding lists a modifier of a held key. The names in the options may be any texts. -/
theorem entryCode_eq_iff (o : Options) (handler : Option Handler) (event other : String) :
    entryCode o event handler = entryCode o other handler ↔
      isMouseEvent event = isMouseEvent other ∨
        ∀ b ∈ entryBindings handler, ∀ name ∈ b.modifierNames,
          name ∉ ["ctrl", "shift", "alt", "meta"] := by
  constructor
  · intro same
    by_contra different
    simp only [not_or, not_forall, not_not] at different
    obtain ⟨events, b, bound, name, listed, held⟩ := different
    have lists : ∃ b ∈ entryBindings handler, b.ListsHeldKey := ⟨b, bound, name, listed, held⟩
    cases first : isMouseEvent event with
    | true =>
      have plain : isMouseEvent other = false := by simpa [first] using events
      have shorter := length_entryCode_lt o first plain lists
      rw [same] at shorter
      exact Nat.lt_irrefl _ shorter
    | false =>
      have pointing : isMouseEvent other = true := by simpa [first] using events
      have shorter := length_entryCode_lt o pointing first lists
      rw [same] at shorter
      exact Nat.lt_irrefl _ shorter
  · rintro (events | unheld)
    · exact entryCode_of_bindings o fun b _ => code_of_routes o fun name _ => by rw [events]
    · exact entryCode_of_bindings o fun b bound => code_of_routes o fun name listed =>
        route_unheld (unheld b bound name listed) _ _

-- The held key is a guard at a click, and the name of a key where a key is released.
example :
    let handler : Handler := .single ⟨"++count", some (.ofList [("ctrl", true)])⟩
    isMouseEvent "click" = true ∧ isMouseEvent "keyup" = false ∧
    entryCode {} "click" (some handler) =
      "function($event)\x7bif(!$event.ctrlKey)return;++count\x7d" ∧
    entryCode {} "keyup" (some handler) =
      "function($event)\x7bif($event.keyCode!==_k(\"ctrl\"))return;++count\x7d" := by
  decide

end Listeners
