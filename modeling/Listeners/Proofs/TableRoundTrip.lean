import Listeners.Binding.Read
import Listeners.Binding.Write
import Listeners.Proofs.Written

/-!
Tables are read back from their written form. A handler is first shown to be the form of
its own tree; the tree is what the written handler is read as. Members of the table are
then bound one after the other, so repeated events settle as the bindings do.
-/
namespace Listeners
open Json

namespace Ordered

theorem put_new {entries : List (String × α)} {name : String} (new : name ∉ names entries)
    (value : α) : put name value entries = entries ++ [(name, value)] := by
  induction entries with
  | nil => rfl
  | cons e rest ih =>
    simp only [names, List.map_cons, List.mem_cons, not_or] at new
    simp [put, Ne.symm new.1, ih new.2]

theorem entries_insertAll_new (m : Ordered α) (pairs : List (String × α))
    (distinct : (names (m.entries ++ pairs)).Nodup) :
    (m.insertAll pairs).entries = m.entries ++ pairs := by
  induction pairs generalizing m with
  | nil => simp [insertAll]
  | cons pair pairs ih =>
    obtain ⟨name, value⟩ := pair
    have new : name ∉ names m.entries := by
      simp only [names, List.map_append, List.nodup_append] at distinct
      intro old
      exact distinct.2.2 name old name (by simp) rfl
    have grown : (m.insert name value).entries = m.entries ++ [(name, value)] := put_new new value
    have rest := ih (m.insert name value) (by rw [grown]; simpa using distinct)
    rw [grown] at rest
    simpa [insertAll] using rest

theorem ofList_entries (m : Ordered α) : ofList m.entries = m :=
  ext_entries (entries_insertAll_new empty m.entries (by simpa using m.distinct))

end Ordered

def Binding.tree (b : Binding) : Value :=
  .object (("value", .string b.value) ::
    match b.modifiers with
    | none => []
    | some m => [("modifiers", .object (m.entries.map fun e => (e.1, .boolean e.2)))])

def slotTree : Option Binding → Value
  | none => .null
  | some b => b.tree

def Handler.tree : Handler → Value
  | single b => b.tree
  | several slots => .list (slots.map slotTree)

theorem modifiers_ofValue_tree (m : Modifiers) :
    Modifiers.ofValue? (.object (m.entries.map fun e => (e.1, .boolean e.2))) = some (some m) := by
  have flags : (m.entries.map fun e => (e.1, Value.boolean e.2)).mapM Modifiers.flag? =
      some m.entries := by
    induction m.entries with
    | nil => rfl
    | cons e rest ih => simp [Modifiers.flag?, ih]
  simp [Modifiers.ofValue?, Modifiers.ofMembers?, flags, Ordered.ofList_entries]

theorem binding_ofValue_tree (b : Binding) : Binding.ofValue? b.tree = some b := by
  obtain ⟨value, modifiers⟩ := b
  cases modifiers with
  | none => rfl
  | some m =>
    have form := modifiers_ofValue_tree m
    simp [Binding.tree, Binding.ofValue?, membersNamed, Binding.ofParts?, form]

theorem slot_slotTree (slot : Option Binding) : Binding.slot? (slotTree slot) = some slot := by
  cases slot with
  | none => rfl
  | some b =>
    have form := binding_ofValue_tree b
    rw [slotTree]
    unfold Binding.tree at *
    simp [Binding.slot?, form]

theorem binding_ofValue_slots (slots : List (Option Binding)) :
    Binding.ofValue? (.list (slots.map slotTree)) = none := by
  cases slots with
  | nil => rfl
  | cons slot slots => cases slot <;> rfl

theorem handler_ofValue_tree (h : Handler) : Handler.ofValue? h.tree = some h := by
  cases h with
  | single b => simp [Handler.tree, Handler.ofValue?, binding_ofValue_tree]
  | several slots =>
    have places : (slots.map slotTree).mapM Binding.slot? = some slots := by
      induction slots with
      | nil => rfl
      | cons slot slots ih => simp [slot_slotTree, ih]
    simp [Handler.tree, Handler.ofValue?, binding_ofValue_slots, places]

theorem written_modifiers (depth : Nat) (m : Modifiers) :
    Written (value (depth + 1)).run m.write
      (.object (m.entries.map fun e => (e.1, .boolean e.2))) := by
  exact written_object Prod.fst (fun e => writeBoolean e.2) (fun e => .boolean e.2) m.entries
    (fun e _ => written_boolean depth e.2)

theorem written_binding (depth : Nat) (b : Binding) :
    Written (value (depth + 2)).run b.write b.tree := by
  obtain ⟨value, modifiers⟩ := b
  have text := written_string (depth + 1) value
  cases modifiers with
  | none =>
    apply written_object Prod.fst (fun _ => Text.quote value) (fun _ => .string value)
      [("value", ())]
    intro e _
    exact text
  | some m =>
    have flags := written_modifiers depth m
    apply written_object Prod.fst (fun e => e.2.1) (fun e => e.2.2)
      [("value", Text.quote value, .string value),
        ("modifiers", m.write, .object (m.entries.map fun e => (e.1, .boolean e.2)))]
    intro e he
    simp only [List.mem_cons, List.not_mem_nil, or_false] at he
    rcases he with rfl | rfl
    · exact text
    · exact flags

theorem written_slot (depth : Nat) (slot : Option Binding) :
    Written (value (depth + 2)).run (writeOption Binding.write slot) (slotTree slot) := by
  cases slot with
  | none => exact written_null _
  | some b => exact written_binding depth b

theorem written_handler (depth : Nat) (h : Handler) :
    Written (value (depth + 3)).run h.write h.tree := by
  cases h with
  | single b => exact written_binding (depth + 1) b
  | several slots => exact written_list slots (fun slot _ => written_slot depth slot)

/-- Enters what is said of one event: a handler, or that nothing is bound. -/
def Table.enter (t : Table) : String × Option Handler → Table
  | (event, some h) => t.bind event h
  | (event, none) => t.bindNothing event

theorem handler_write_opening (h : Handler) :
    ∃ c r, h.write.toList = c :: r ∧ (c = '{' ∨ c = '[') := by
  have object : ∀ members, ∃ r, (writeObject members).toList = '{' :: r := by simp [writeObject]
  have list : ∀ items, ∃ r, (writeList items).toList = '[' :: r := by simp [writeList]
  cases h with
  | several slots =>
    obtain ⟨r, shape⟩ := list (slots.map (writeOption Binding.write))
    exact ⟨'[', r, shape, Or.inr rfl⟩
  | single b =>
    have shape : ∃ members, b.write = writeObject members := by
      unfold Binding.write
      cases b.modifiers <;> exact ⟨_, rfl⟩
    obtain ⟨members, shape⟩ := shape
    obtain ⟨r, opening⟩ := object members
    exact ⟨'{', r, by rw [Handler.write, shape, opening], Or.inl rfl⟩

/-- A handler starts with a bracket, so it is not mistaken for the word that stands for none. -/
theorem optional_handler (h : Handler) (rest : List Char) :
    (Reader.optional (value (depthLimit - 1))).run (h.write.toList ++ rest) =
      .ok (some h.tree, rest) := by
  have reads : (value (depthLimit - 1)).run (h.write.toList ++ rest) = .ok (h.tree, rest) :=
    (written_handler 123 h).2 rest
  obtain ⟨c, r, shape, bracket⟩ := handler_write_opening h
  have noSpace : isSpace c = false := by rcases bracket with rfl | rfl <;> rfl
  have noWord : c ≠ 'n' := by rcases bracket with rfl | rfl <;> decide
  rw [shape, List.cons_append] at reads ⊢
  rw [optional_some noSpace noWord, reads]
  rfl

theorem gathers_entry (t : Table) (entry : String × Option Handler) :
    Gathers Table.gather t entry.1 (writeOption Handler.write entry.2) (t.enter entry) := by
  obtain ⟨event, handler⟩ := entry
  refine ⟨_, rfl, fun rest => ?_⟩
  rw [Reader.run_map]
  cases handler with
  | none => simp only [writeOption, optional_null, Except.map, Table.enter]
  | some h =>
    simp only [writeOption, optional_handler, handler_ofValue_tree, Except.map, Table.enter]

theorem read_writeEntries (entries : List (String × Option Handler)) :
    Table.read (writeEntries entries) = .ok (entries.foldl Table.enter .empty) := by
  have shape : (writeEntries entries).toList = '{' ::
      ((",".intercalate (entries.map fun e =>
        writeMember e.1 (writeOption Handler.write e.2))).toList ++ ['}']) := by
    simp [writeEntries, writeObject, Function.comp_def]
  have gathered := members_written entries (fun t e _ => gathers_entry t e) .empty []
  unfold Table.read readWhole
  rw [shape]
  simp only [Table.reader, Reader.object, skipSpace_cons (c := '{') rfl, gathered]
  rfl

theorem foldl_enter (entries : List (String × Option Handler)) (t : Table) :
    entries.foldl Table.enter t = t.insertAll entries := by
  induction entries generalizing t with
  | nil => rfl
  | cons entry rest ih =>
    obtain ⟨event, handler⟩ := entry
    rw [List.foldl_cons, ih]
    cases handler <;> rfl

/-- A written list of entries is read as the table into which they are entered in order, and a written
table as itself. -/
theorem table_read_write :
    (∀ entries : List (String × Option Handler),
      Table.read (writeEntries entries) = .ok (entries.foldl Table.enter .empty)) ∧
    ∀ t : Table, Table.read t.write = .ok t := by
  refine ⟨read_writeEntries, fun t => ?_⟩
  have same : Ordered.empty.insertAll t.entries = t := Ordered.ofList_entries t
  rw [Table.write, read_writeEntries, foldl_enter, same]

end Listeners
