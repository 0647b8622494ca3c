import Listeners.Proofs.TableLog
import Mathlib.Data.List.Forall2
/-!
The two forms of a handler, told as relations on trees: one binding, or a list of places. The reader
of trees finds the form of a tree if it has one, and no tree has both.
-/
namespace Listeners
open Json

/-- `null` stands for no map. In an object of flags a name that is repeated keeps its first place
and has its last flag. -/
inductive ModifiersForm : Value → Option Modifiers → Prop where
  | absent : ModifiersForm .null none
  | flags {entries : List (String × Bool)} {m : Modifiers} (follows : m.Follows entries) :
      ModifiersForm (.object (entries.map fun (name, flag) => (name, .boolean flag))) (some m)

/-- Other members stand anywhere among the two that a binding has. -/
inductive BindingForm : Value → Binding → Prop where
  | bareMembers {value : String} {members others : List (String × Value)}
      (order : members.Perm (("value", .string value) :: others))
      (plain : ∀ e ∈ others, e.1 ≠ "value" ∧ e.1 ≠ "modifiers") :
      BindingForm (.object members) { value }
  | members {value : String} {given : Value} {modifiers : Option Modifiers}
      {members others : List (String × Value)}
      (order : members.Perm (("value", .string value) :: ("modifiers", given) :: others))
      (plain : ∀ e ∈ others, e.1 ≠ "value" ∧ e.1 ≠ "modifiers")
      (form : ModifiersForm given modifiers) : BindingForm (.object members) { value, modifiers }
  | bareList {value : String} : BindingForm (.list [.string value]) { value }
  | list {value : String} {given : Value} {modifiers : Option Modifiers}
      (form : ModifiersForm given modifiers) :
      BindingForm (.list [.string value, given]) { value, modifiers }

inductive SlotForm : Value → Option Binding → Prop where
  | empty : SlotForm .null none
  | bound {v : Value} {b : Binding} (form : BindingForm v b) : SlotForm v (some b)

def SlotsForm (v : Value) (slots : List (Option Binding)) : Prop :=
  ∃ items, v = .list items ∧ List.Forall₂ SlotForm items slots

theorem membersNamed_perm {members others : List (String × Value)} (order : members.Perm others)
    (name : String) : (membersNamed name members).Perm (membersNamed name others) :=
  (order.filter _).map _

theorem membersNamed_plain {name : String} {others : List (String × Value)}
    (plain : ∀ e ∈ others, e.1 ≠ name) : membersNamed name others = [] := by
  have none : others.filter (·.1 == name) = [] := by simpa using plain
  rw [membersNamed, none, List.map_nil]

theorem ne_of_membersNamed {name : String} {members : List (String × Value)}
    (none : membersNamed name members = []) {e : String × Value} (member : e ∈ members) :
    e.1 ≠ name := by
  intro named
  have kept := List.filter_eq_nil_iff.1 (List.map_eq_nil_iff.1 none) e member
  simp [named] at kept

theorem perm_of_membersNamed {name : String} {v : Value} {members : List (String × Value)}
    (one : membersNamed name members = [v]) :
    ∃ others, members.Perm ((name, v) :: others) ∧ ∀ e ∈ others, e.1 ≠ name := by
  refine ⟨members.filter fun e => !(e.1 == name), ?_, by simp⟩
  have first : members.filter (·.1 == name) = [(name, v)] := by
    obtain ⟨e, kept, value⟩ := List.map_eq_singleton_iff.1 one
    have named : e.1 = name := by
      have member : e ∈ members.filter (·.1 == name) := by simp [kept]
      simpa using (List.mem_filter.1 member).2
    rw [kept, ← named, ← value]
  have split := List.filter_append_perm (fun e : String × Value => e.1 == name) members
  rw [first] at split
  exact split.symm

theorem membersNamed_cons_other {name other : String} (different : other ≠ name) (v : Value)
    (members : List (String × Value)) :
    membersNamed name ((other, v) :: members) = membersNamed name members := by
  simp [membersNamed, different]

theorem membersNamed_cons_same (name : String) (v : Value) (members : List (String × Value)) :
    membersNamed name ((name, v) :: members) = v :: membersNamed name members := by
  simp [membersNamed]

theorem mapM_eq_some_iff {f : α → Option β} {as : List α} {bs : List β} :
    as.mapM f = some bs ↔ List.Forall₂ (fun a b => f a = some b) as bs := by
  induction as generalizing bs with
  | nil => cases bs <;> simp
  | cons a as ih =>
    simp only [List.mapM_cons, Option.bind_eq_bind, Option.bind_eq_some_iff, Option.pure_def,
      Option.some.injEq]
    constructor
    · rintro ⟨b, head, rest, tail, rfl⟩
      exact .cons head (ih.1 tail)
    · rintro (_ | ⟨head, tail⟩)
      exact ⟨_, head, _, ih.2 tail, rfl⟩

theorem flag_iff (member : String × Value) (entry : String × Bool) :
    Modifiers.flag? member = some entry ↔ member = (entry.1, .boolean entry.2) := by
  obtain ⟨name, v⟩ := member
  obtain ⟨other, flag⟩ := entry
  cases v <;> simp [Modifiers.flag?]

theorem flags_iff (members : List (String × Value)) (entries : List (String × Bool)) :
    members.mapM Modifiers.flag? = some entries ↔
      members = entries.map fun (name, flag) => (name, .boolean flag) := by
  simp only [mapM_eq_some_iff, flag_iff]
  rw [← List.forall₂_eq_eq_eq, List.forall₂_map_right_iff]

theorem modifiers_ofValue_iff (v : Value) (modifiers : Option Modifiers) :
    Modifiers.ofValue? v = some modifiers ↔ ModifiersForm v modifiers := by
  constructor
  · intro read
    unfold Modifiers.ofValue? at read
    split at read
    · cases read
      exact .absent
    · next members =>
      obtain ⟨m, map, rfl⟩ := Option.map_eq_some_iff.1 read
      obtain ⟨entries, flags, rfl⟩ := Option.map_eq_some_iff.1 map
      rw [(flags_iff members entries).1 flags]
      exact .flags (Ordered.follows_ofList entries)
    · cases read
  · rintro (_ | ⟨follows⟩)
    · rfl
    · next entries m =>
      have flags := (flags_iff _ entries).2 rfl
      simp only [Modifiers.ofValue?, Modifiers.ofMembers?, flags, Option.map_some,
        (Ordered.follows_iff m entries).1 follows]

theorem binding_ofMembers {members : List (String × Value)} {b : Binding}
    (read : Binding.ofValue? (.object members) = some b) : BindingForm (.object members) b := by
  simp only [Binding.ofValue?] at read
  unfold Binding.ofParts? at read
  split at read
  · next value named unmodified =>
    cases read
    obtain ⟨others, order, noValue⟩ := perm_of_membersNamed named
    have noModifiers := (membersNamed_perm order "modifiers").symm
    rw [unmodified, List.perm_nil, membersNamed_cons_other (by decide)] at noModifiers
    exact .bareMembers order fun e member => ⟨noValue e member, ne_of_membersNamed noModifiers member⟩
  · next value given named modified =>
    obtain ⟨modifiers, form, rfl⟩ := Option.map_eq_some_iff.1 read
    obtain ⟨behind, first, noValue⟩ := perm_of_membersNamed named
    have left := membersNamed_perm first "modifiers"
    rw [modified, membersNamed_cons_other (by decide), List.singleton_perm] at left
    obtain ⟨others, second, noModifiers⟩ := perm_of_membersNamed left.symm
    have plain : ∀ e ∈ others, e.1 ≠ "value" ∧ e.1 ≠ "modifiers" := by
      intro e member
      exact ⟨noValue e (second.symm.subset (List.mem_cons_of_mem _ member)), noModifiers e member⟩
    exact .members (first.trans (second.cons _)) plain ((modifiers_ofValue_iff given modifiers).1 form)
  · cases read

theorem binding_ofItems {items : List Value} {b : Binding}
    (read : Binding.ofValue? (.list items) = some b) : BindingForm (.list items) b := by
  simp only [Binding.ofValue?] at read
  unfold Binding.ofParts? at read
  have whole := List.take_append_drop 1 items
  split at read
  · next value first none =>
    cases read
    rw [first, none] at whole
    rw [← whole]
    exact .bareList
  · next value given first rest =>
    obtain ⟨modifiers, form, rfl⟩ := Option.map_eq_some_iff.1 read
    rw [first, rest] at whole
    rw [← whole]
    exact .list ((modifiers_ofValue_iff given modifiers).1 form)
  · cases read

theorem binding_ofValue_iff (v : Value) (b : Binding) :
    Binding.ofValue? v = some b ↔ BindingForm v b := by
  constructor
  · intro read
    cases v with
    | object members => exact binding_ofMembers read
    | list items => exact binding_ofItems read
    | null | boolean | number | string => cases read
  · rintro (⟨order, plain⟩ | ⟨order, plain, form⟩ | _ | ⟨form⟩)
    · next value members others =>
      have named := membersNamed_perm order "value"
      rw [membersNamed_cons_same, membersNamed_plain fun e member => (plain e member).1,
        List.perm_singleton] at named
      have unmodified := membersNamed_perm order "modifiers"
      rw [membersNamed_cons_other (by decide), membersNamed_plain fun e member => (plain e member).2,
        List.perm_nil] at unmodified
      simp [Binding.ofValue?, Binding.ofParts?, named, unmodified]
    · next value given modifiers members others =>
      have named := membersNamed_perm order "value"
      rw [membersNamed_cons_same, membersNamed_cons_other (by decide),
        membersNamed_plain fun e member => (plain e member).1, List.perm_singleton] at named
      have modified := membersNamed_perm order "modifiers"
      rw [membersNamed_cons_other (by decide), membersNamed_cons_same,
        membersNamed_plain fun e member => (plain e member).2, List.perm_singleton] at modified
      have read := (modifiers_ofValue_iff given modifiers).2 form
      simp [Binding.ofValue?, Binding.ofParts?, named, modified, read]
    · rfl
    · next value given modifiers =>
      have read := (modifiers_ofValue_iff given modifiers).2 form
      simp [Binding.ofValue?, Binding.ofParts?, read]

theorem slot_iff (v : Value) (slot : Option Binding) :
    Binding.slot? v = some slot ↔ SlotForm v slot := by
  constructor
  · intro read
    unfold Binding.slot? at read
    split at read
    · cases read
      exact .empty
    · obtain ⟨b, bound, rfl⟩ := Option.map_eq_some_iff.1 read
      exact .bound ((binding_ofValue_iff v b).1 bound)
  · rintro (_ | ⟨form⟩)
    · rfl
    · next b =>
      have read := (binding_ofValue_iff v b).2 form
      unfold Binding.slot?
      split
      · cases read
      · rw [read, Option.map_some]

def Handler.single? (v : Value) : Option Handler := (Binding.ofValue? v).map .single

def Handler.several? : Value → Option Handler
  | .list items => (items.mapM Binding.slot?).map .several
  | _ => none

theorem handler_ofValue_eq (v : Value) :
    Handler.ofValue? v = (Handler.single? v).or (Handler.several? v) := by
  unfold Handler.ofValue? Handler.single? Handler.several?
  cases Binding.ofValue? v with
  | some b => rfl
  | none => cases v <;> rfl

theorem single_iff (v : Value) (h : Handler) :
    Handler.single? v = some h ↔ ∃ b, BindingForm v b ∧ .single b = h := by
  simp only [Handler.single?, Option.map_eq_some_iff, binding_ofValue_iff]

theorem several_iff (v : Value) (h : Handler) :
    Handler.several? v = some h ↔ ∃ slots, SlotsForm v slots ∧ .several slots = h := by
  unfold Handler.several? SlotsForm
  cases v with
  | list items => simp [mapM_eq_some_iff, slot_iff]
  | null | boolean | number | string | object => simp

/-- The listed form of a binding starts with a string, and no place is a string. -/
theorem forms_disjoint {v : Value} {b : Binding} {slots : List (Option Binding)}
    (single : BindingForm v b) : ¬ SlotsForm v slots := by
  rintro ⟨items, rfl, places⟩
  have noPlace : ∀ value slot, ¬ SlotForm (.string value) slot := by
    intro value slot place
    cases place with
    | bound form => cases form
  cases single with
  | bareList =>
    cases places with
    | cons place _ => exact noPlace _ _ place
  | list =>
    cases places with
    | cons place _ => exact noPlace _ _ place

theorem single_or_several (v : Value) : Handler.single? v = none ∨ Handler.several? v = none := by
  cases single : Handler.single? v with
  | none => exact Or.inl rfl
  | some h =>
    obtain ⟨b, form, rfl⟩ := (single_iff v h).1 single
    refine Or.inr (Option.eq_none_iff_forall_ne_some.2 fun other several => ?_)
    obtain ⟨slots, places, rfl⟩ := (several_iff v other).1 several
    exact forms_disjoint form places

theorem handler_ofValue_iff (v : Value) (h : Handler) :
    Handler.ofValue? v = some h ↔
      (∃ b, BindingForm v b ∧ .single b = h) ∨ ∃ slots, SlotsForm v slots ∧ .several slots = h := by
  rw [handler_ofValue_eq, ← single_iff, ← several_iff]
  rcases single_or_several v with none | none
  · simp [none]
  · simp [none]

/-- A tree is read as one binding just where it has the form of that binding, as a list of places
just where it has the form of these, and not at all elsewhere. No tree has both forms, so that it
does not matter which of the two is tried first. -/
theorem handler_forms (v : Value) :
    (∀ b, Handler.ofValue? v = some (.single b) ↔ BindingForm v b) ∧
    (∀ slots, Handler.ofValue? v = some (.several slots) ↔ SlotsForm v slots) ∧
    (Handler.ofValue? v = none ↔ (∀ b, ¬ BindingForm v b) ∧ ∀ slots, ¬ SlotsForm v slots) ∧
    (∀ b slots, ¬ (BindingForm v b ∧ SlotsForm v slots)) ∧
    Handler.ofValue? v = (Handler.single? v).or (Handler.several? v) ∧
    Handler.ofValue? v = (Handler.several? v).or (Handler.single? v) := by
  refine ⟨fun b => ?_, fun slots => ?_, ?_, fun b slots both => forms_disjoint both.1 both.2,
    handler_ofValue_eq v, ?_⟩
  · simp [handler_ofValue_iff]
  · simp [handler_ofValue_iff]
  · rw [Option.eq_none_iff_forall_ne_some]
    constructor
    · intro unread
      exact ⟨fun b form => unread _ ((handler_ofValue_iff v _).2 (Or.inl ⟨b, form, rfl⟩)),
        fun slots form => unread _ ((handler_ofValue_iff v _).2 (Or.inr ⟨slots, form, rfl⟩))⟩
    · rintro ⟨noBinding, noSlots⟩ h read
      rcases (handler_ofValue_iff v h).1 read with ⟨b, form, _⟩ | ⟨slots, form, _⟩
      · exact noBinding b form
      · exact noSlots slots form
  · rw [handler_ofValue_eq]
    rcases single_or_several v with none | none
    · rw [none, Option.none_or, Option.or_none]
    · rw [none, Option.none_or, Option.or_none]

end Listeners
