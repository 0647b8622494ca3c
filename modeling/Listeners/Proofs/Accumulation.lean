import Listeners.Proofs.TableLog
/-!
Modifiers that are added to a binding one after the other. A name that is new goes to the end and
one that is there keeps its place; both have their flag set. What one addition keeps and changes
gives what a list of them does.
-/
namespace Listeners
open Ordered

def Binding.flag? (b : Binding) (name : String) : Option Bool := b.modifiers.bind (·.get? name)

theorem binding_ext {a b : Binding} (value : a.value = b.value)
    (mapped : a.modifiers.isSome = b.modifiers.isSome) (names : a.modifierNames = b.modifierNames)
    (flags : ∀ name, a.flag? name = b.flag? name) : a = b := by
  obtain ⟨_, modifiers⟩ := a
  obtain ⟨_, others⟩ := b
  cases value
  cases modifiers with
  | none =>
    cases others with
    | none => rfl
    | some n => cases mapped
  | some m =>
    cases others with
    | none => cases mapped
    | some n => rw [eq_of_get names flags]

theorem modifierNames_withModifier (b : Binding) (name : String) :
    (b.withModifier name).modifierNames =
      if name ∈ b.modifierNames then b.modifierNames else b.modifierNames ++ [name] := by
  obtain ⟨value, _ | m⟩ := b
  · rfl
  · exact names_put name true m.entries

theorem flag_withModifier (b : Binding) (name other : String) :
    (b.withModifier name).flag? other = if other = name then some true else b.flag? other := by
  obtain ⟨value, _ | m⟩ := b
  · exact lookup_put name other true []
  · exact lookup_put name other true m.entries

theorem withModifiers_cons (b : Binding) (name : String) (names : List String) :
    b.withModifiers (name :: names) = (b.withModifier name).withModifiers names := rfl

theorem value_withModifiers (b : Binding) (names : List String) :
    (b.withModifiers names).value = b.value := by
  induction names generalizing b with
  | nil => rfl
  | cons name names ih => exact ih (b.withModifier name)

theorem isSome_withModifiers (b : Binding) (names : List String) :
    (b.withModifiers names).modifiers.isSome = (b.modifiers.isSome || !names.isEmpty) := by
  induction names generalizing b with
  | nil => simp [Binding.withModifiers]
  | cons name names ih =>
    rw [withModifiers_cons, ih]
    simp [Binding.withModifier]

theorem modifierNames_withModifiers (b : Binding) (names : List String) :
    (b.withModifiers names).modifierNames =
      b.modifierNames ++ (names.filter (· ∉ b.modifierNames)).eraseDups := by
  induction names generalizing b with
  | nil => simp [Binding.withModifiers]
  | cons name names ih =>
    rw [withModifiers_cons, ih, modifierNames_withModifier]
    by_cases old : name ∈ b.modifierNames
    · simp [old]
    · -- a further occurrence of the name is left out, since it now stands among the others
      have later : names.filter (· ∉ b.modifierNames ++ [name]) =
          (names.filter (· ∉ b.modifierNames)).filter (!· == name) := by
        rw [List.filter_filter]
        apply List.filter_congr
        intro other _
        by_cases same : other = name
        · simp [same]
        · simp [same]
      simp only [old, if_false, later, List.filter_cons, not_false_eq_true, decide_true, if_true,
        List.eraseDups_cons, List.append_assoc, List.singleton_append]

theorem flag_withModifiers (b : Binding) (names : List String) (name : String) :
    (b.withModifiers names).flag? name = if name ∈ names then some true else b.flag? name := by
  induction names generalizing b with
  | nil => simp [Binding.withModifiers]
  | cons first names ih =>
    rw [withModifiers_cons, ih, flag_withModifier]
    by_cases later : name ∈ names
    · simp [later]
    · simp [later]

theorem mem_modifierNames_withModifiers (b : Binding) (names : List String) (name : String) :
    name ∈ (b.withModifiers names).modifierNames ↔ name ∈ b.modifierNames ∨ name ∈ names := by
  rw [modifierNames_withModifiers, List.mem_append, List.mem_eraseDups, List.mem_filter]
  by_cases old : name ∈ b.modifierNames
  · simp [old]
  · simp [old]

theorem hasModifiers_withModifiers (b : Binding) (names : List String) :
    (b.withModifiers names).hasModifiers = true ↔ b.hasModifiers = true ∨ names ≠ [] := by
  cases names with
  | nil => simp [Binding.withModifiers]
  | cons name names =>
    have added : name ∈ (b.withModifiers (name :: names)).modifierNames :=
      (mem_modifierNames_withModifiers b _ name).2 (Or.inr List.mem_cons_self)
    simp [hasModifiers_of_mem added]

theorem withModifiers_append (b : Binding) (first second : List String) :
    b.withModifiers (first ++ second) = (b.withModifiers first).withModifiers second :=
  List.foldl_append

theorem nodup_modifierNames (b : Binding) : b.modifierNames.Nodup := by
  obtain ⟨value, _ | m⟩ := b
  · exact List.nodup_nil
  · exact m.distinct

theorem withModifiers_again (b : Binding) (names : List String) :
    (b.withModifiers names).withModifiers names = b.withModifiers names := by
  apply binding_ext
  · exact value_withModifiers _ names
  · simp only [isSome_withModifiers, Bool.or_assoc, Bool.or_self]
  · have none : names.filter (· ∉ (b.withModifiers names).modifierNames) = [] := by
      rw [List.filter_eq_nil_iff]
      intro name listed
      simp [mem_modifierNames_withModifiers, listed]
    rw [modifierNames_withModifiers, none, List.eraseDups_nil, List.append_nil]
  · intro name
    simp only [flag_withModifiers]
    by_cases listed : name ∈ names
    · simp [listed]
    · simp [listed]

/-- Adding a list of names keeps the value and the modifiers that were there, in their places, and
puts the names that are new behind them in the order of their first occurrences; the flags of all
names in the list are set and no other flag changes. Nothing is added by an empty list or by the
same list again, and two lists add what they add together. -/
theorem withModifiers_accumulates :
    (∀ (b : Binding) (names : List String),
      let c := b.withModifiers names
      c.value = b.value ∧
      c.modifierNames.Nodup ∧
      c.modifierNames = b.modifierNames ++ (names.filter (· ∉ b.modifierNames)).eraseDups ∧
      (∀ name, c.flag? name = if name ∈ names then some true else b.flag? name) ∧
      (c.hasModifiers = true ↔ b.hasModifiers = true ∨ names ≠ []) ∧
      c.withModifiers names = c) ∧
    (∀ b : Binding, b.withModifiers [] = b) ∧
    ∀ (b : Binding) (first second : List String),
      b.withModifiers (first ++ second) = (b.withModifiers first).withModifiers second := by
  refine ⟨fun b names => ?_, fun b => rfl, withModifiers_append⟩
  exact ⟨value_withModifiers b names, nodup_modifierNames _, modifierNames_withModifiers b names,
    flag_withModifiers b names, hasModifiers_withModifiers b names, withModifiers_again b names⟩

end Listeners
