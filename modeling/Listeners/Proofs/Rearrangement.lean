import Listeners.Proofs.TableLog
import Mathlib.Data.List.Perm.Subperm
/-!
Equality of tables counts entries and looks each name of the first table up in the second. Names
are distinct, so it holds exactly where one table is the other in another order of its events and of the
modifiers inside its bindings, and that is an equivalence.
-/
namespace Listeners

/-- The entries of the first map, put in another order, have the names of the second and values that
are alike. -/
def Ordered.Rearranged (Alike : α → α → Prop) (m n : Ordered α) : Prop :=
  ∃ entries, m.entries.Perm entries ∧
    List.Forall₂ (fun e f => e.1 = f.1 ∧ Alike e.2 f.2) entries n.entries

/-- Modifiers may stand in another order, each with its flag. No map and an empty one are told
apart. -/
inductive Binding.Rearranged : Binding → Binding → Prop where
  | bare {value : String} : Rearranged { value } { value }
  | modified {value : String} {m n : Modifiers} (order : m.entries.Perm n.entries) :
      Rearranged { value, modifiers := some m } { value, modifiers := some n }

inductive Handler.Rearranged : Handler → Handler → Prop where
  | single {a b : Binding} (binding : a.Rearranged b) : Rearranged (.single a) (.single b)
  | several {as bs : List (Option Binding)}
      (slots : List.Forall₂ (Option.Rel Binding.Rearranged) as bs) :
      Rearranged (.several as) (.several bs)

def Table.Rearranged (t u : Table) : Prop :=
  Ordered.Rearranged (Option.Rel Handler.Rearranged) t u

theorem forall₂_mem_left {R : α → β → Prop} {as : List α} {bs : List β} (related : List.Forall₂ R as bs)
    {a : α} (member : a ∈ as) : ∃ b ∈ bs, R a b := by
  induction related with
  | nil => simp at member
  | @cons first other as bs head tail ih =>
    rcases List.mem_cons.1 member with rfl | later
    · exact ⟨other, List.mem_cons_self, head⟩
    · obtain ⟨b, there, found⟩ := ih later
      exact ⟨b, List.mem_cons_of_mem other there, found⟩

theorem forall₂_equivalence {R : α → α → Prop} (equivalence : Equivalence R) :
    Equivalence (List.Forall₂ R) where
  refl as := List.forall₂_same.2 fun a _ => equivalence.refl a
  symm related := (related.imp fun _ _ alike => equivalence.symm alike).flip
  trans := by
    intro as bs cs first
    induction first generalizing cs with
    | nil => exact id
    | cons head tail ih =>
      intro second
      cases second with
      | cons head' tail' => exact .cons (equivalence.trans head head') (ih tail')

theorem optionRel_equivalence {R : α → α → Prop} (equivalence : Equivalence R) :
    Equivalence (Option.Rel R) where
  refl
    | none => .none
    | some a => .some (equivalence.refl a)
  symm
    | .none => .none
    | .some alike => .some (equivalence.symm alike)
  trans
    | .none, .none => .none
    | .some first, .some second => .some (equivalence.trans first second)

theorem sameOption_iff {same : α → α → Bool} {Alike : α → α → Prop}
    (decides : ∀ a b, same a b = true ↔ Alike a b) (a b : Option α) :
    sameOption same a b = true ↔ Option.Rel Alike a b := by
  cases a <;> cases b <;> simp [sameOption, decides]

theorem sameList_iff {same : α → α → Bool} {Alike : α → α → Prop}
    (decides : ∀ a b, same a b = true ↔ Alike a b) (as bs : List α) :
    sameList same as bs = true ↔ List.Forall₂ Alike as bs := by
  induction as generalizing bs with
  | nil => cases bs <;> simp [sameList]
  | cons a as ih => cases bs <;> simp [sameList, decides, ih]

namespace Ordered

theorem keys_perm {m n : Ordered α} (size : m.size = n.size) (found : m.keys ⊆ n.keys) :
    m.keys.Perm n.keys := by
  have distinct : m.keys.Nodup := m.distinct
  apply (distinct.subperm found).perm_of_length_le
  simp only [keys, names, List.length_map]
  exact size.symm.le

theorem entries_perm_of_keys {m n : Ordered α} (order : m.keys.Perm n.keys) :
    ∃ entries, m.entries.Perm entries ∧
      List.Forall₂ (fun e f => e.1 = f.1) entries n.entries := by
  have follow : Relation.Comp (List.Forall₂ fun e name => e.1 = name) List.Perm
      m.entries n.keys := by
    refine ⟨m.keys, ?_, order⟩
    simp [keys, names, List.forall₂_map_right_iff, List.forall₂_same]
  rw [List.forall₂_comp_perm_eq_perm_comp_forall₂] at follow
  obtain ⟨entries, moved, same⟩ := follow
  refine ⟨entries, moved, ?_⟩
  simpa only [keys, names, List.forall₂_map_right_iff] using same

theorem mem_keys_of_get {m : Ordered α} {name : String} {value : α} (found : m.get? name = some value) :
    name ∈ m.keys := by
  obtain ⟨before, later, split, _⟩ := List.lookup_eq_some_iff.1 found
  simp [keys, names, split]

theorem agrees_eq_true {same : α → α → Bool} {m n : Ordered α} :
    m.agrees same n = true ↔ m.size = n.size ∧
      ∀ e ∈ m.entries, ∃ w, n.get? e.1 = some w ∧ same e.2 w = true := by
  simp only [agrees, Bool.and_eq_true, beq_iff_eq, List.all_eq_true]
  refine and_congr_right fun _ => forall₂_congr fun e _ => ?_
  cases n.get? e.1 <;> simp

theorem agrees_iff {same : α → α → Bool} {Alike : α → α → Prop}
    (decides : ∀ a b, same a b = true ↔ Alike a b) (m n : Ordered α) :
    m.agrees same n = true ↔ m.Rearranged Alike n := by
  simp only [agrees_eq_true, decides]
  constructor
  · intro agrees
    obtain ⟨size, matched⟩ := agrees
    have found : m.keys ⊆ n.keys := by
      intro name member
      obtain ⟨e, here, rfl⟩ := List.mem_map.1 member
      obtain ⟨w, get, _⟩ := matched e here
      exact mem_keys_of_get get
    obtain ⟨entries, moved, named⟩ := entries_perm_of_keys (keys_perm size found)
    refine ⟨entries, moved, ?_⟩
    rw [List.forall₂_iff_zip] at named ⊢
    refine ⟨named.1, fun {e f} pair => ⟨named.2 pair, ?_⟩⟩
    -- the names are distinct, so what was found for the name of `e` is the value of `f`
    obtain ⟨inFirst, inSecond⟩ := List.of_mem_zip pair
    obtain ⟨w, get, alike⟩ := matched e (moved.mem_iff.2 inFirst)
    rw [named.2 pair, n.get_of_mem inSecond] at get
    cases get
    exact alike
  · intro rearranged
    obtain ⟨entries, moved, matched⟩ := rearranged
    refine ⟨moved.length_eq.trans matched.length_eq, ?_⟩
    intro e here
    obtain ⟨f, there, named, alike⟩ := forall₂_mem_left matched (moved.mem_iff.1 here)
    exact ⟨f.2, by rw [named, n.get_of_mem there], alike⟩

theorem rearranged_equivalence {Alike : α → α → Prop} (equivalence : Equivalence Alike) :
    Equivalence (Rearranged Alike) := by
  have pairs : Equivalence fun e f : String × α => e.1 = f.1 ∧ Alike e.2 f.2 :=
    ⟨fun e => ⟨rfl, equivalence.refl e.2⟩,
      fun alike => ⟨alike.1.symm, equivalence.symm alike.2⟩,
      fun first second => ⟨first.1.trans second.1, equivalence.trans first.2 second.2⟩⟩
  have lists := forall₂_equivalence pairs
  constructor
  · intro m
    exact ⟨m.entries, .refl _, lists.refl _⟩
  · intro m n rearranged
    obtain ⟨entries, moved, matched⟩ := rearranged
    obtain ⟨back, alike, order⟩ := List.perm_comp_forall₂ moved matched
    exact ⟨back, order.symm, lists.symm alike⟩
  · intro m n k first second
    obtain ⟨entries, moved, matched⟩ := first
    obtain ⟨further, moved', matched'⟩ := second
    -- the second reordering is made first, on the entries that match those of the middle map
    obtain ⟨order, moved'', matched''⟩ : Relation.Comp List.Perm _ entries further := by
      rw [← List.forall₂_comp_perm_eq_perm_comp_forall₂]
      exact ⟨n.entries, matched, moved'⟩
    exact ⟨order, moved.trans moved'', lists.trans matched'' matched'⟩

theorem rearranged_eq_iff (m n : Ordered α) : m.Rearranged (· = ·) n ↔ m.entries.Perm n.entries := by
  have pairs : (fun e f : String × α => e.1 = f.1 ∧ e.2 = f.2) = Eq := by
    funext e f
    rw [← Prod.ext_iff]
  simp [Rearranged, pairs, List.forall₂_eq_eq_eq]

end Ordered

theorem binding_agrees_iff (a b : Binding) : a.agrees b = true ↔ a.Rearranged b := by
  have flags (m n : Modifiers) : m.agrees (· == ·) n = true ↔ m.entries.Perm n.entries := by
    rw [Ordered.agrees_iff fun _ _ => beq_iff_eq, Ordered.rearranged_eq_iff]
  obtain ⟨value, modifiers⟩ := a
  obtain ⟨other, others⟩ := b
  simp only [Binding.agrees, Bool.and_eq_true, beq_iff_eq]
  constructor
  · intro agrees
    obtain ⟨same, agrees⟩ := agrees
    subst same
    cases modifiers with
    | none =>
      cases others with
      | none => exact .bare
      | some n => cases agrees
    | some m =>
      cases others with
      | none => cases agrees
      | some n => exact .modified ((flags m n).1 agrees)
  · intro rearranged
    cases rearranged with
    | bare => exact ⟨rfl, rfl⟩
    | modified order => exact ⟨rfl, (flags _ _).2 order⟩

theorem handler_agrees_iff (h k : Handler) : h.agrees k = true ↔ h.Rearranged k := by
  have slots := sameList_iff (sameOption_iff binding_agrees_iff)
  constructor
  · intro agrees
    cases h with
    | single a =>
      cases k with
      | single b => exact .single ((binding_agrees_iff a b).1 agrees)
      | several bs => cases agrees
    | several as =>
      cases k with
      | single b => cases agrees
      | several bs => exact .several ((slots as bs).1 agrees)
  · intro rearranged
    cases rearranged with
    | single binding => exact (binding_agrees_iff _ _).2 binding
    | several places => exact (slots _ _).2 places

theorem binding_rearranged_equivalence : Equivalence Binding.Rearranged where
  refl
    | ⟨_, none⟩ => .bare
    | ⟨_, some _⟩ => .modified (.refl _)
  symm
    | .bare => .bare
    | .modified order => .modified order.symm
  trans
    | .bare, .bare => .bare
    | .modified first, .modified second => .modified (first.trans second)

theorem slots_rearranged_equivalence :
    Equivalence (List.Forall₂ (Option.Rel Binding.Rearranged)) :=
  forall₂_equivalence (optionRel_equivalence binding_rearranged_equivalence)

theorem handler_rearranged_equivalence : Equivalence Handler.Rearranged where
  refl
    | .single b => .single (binding_rearranged_equivalence.refl b)
    | .several bs => .several (slots_rearranged_equivalence.refl bs)
  symm
    | .single binding => .single (binding_rearranged_equivalence.symm binding)
    | .several places => .several (slots_rearranged_equivalence.symm places)
  trans
    | .single first, .single second => .single (binding_rearranged_equivalence.trans first second)
    | .several first, .several second => .several (slots_rearranged_equivalence.trans first second)

/-- Two tables are equal exactly when one is the other with its events in another order and, inside
each binding, its modifiers in another order, all else being the same. -/
theorem table_agrees_iff :
    (∀ t u : Table, t.agrees u = true ↔ t.Rearranged u) ∧
      Equivalence fun t u : Table => t.agrees u = true := by
  have rearranged (t u : Table) : t.agrees u = true ↔ t.Rearranged u :=
    Ordered.agrees_iff (sameOption_iff handler_agrees_iff) t u
  refine ⟨rearranged, ?_⟩
  simp only [rearranged]
  exact Ordered.rearranged_equivalence (optionRel_equivalence handler_rearranged_equivalence)

end Listeners
