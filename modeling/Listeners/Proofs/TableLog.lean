import Listeners.Proofs.TableRoundTrip
import Mathlib.Data.Finset.Dedup
import Mathlib.Data.Finset.Card
/-!
A table beside the log of all that was entered into it. An event keeps the place of its first
entry and has what its last entry says. One insertion keeps this, so every log does.
-/
namespace Listeners

def lastEntry (log : List (String × α)) (name : String) : Option α := log.reverse.lookup name

namespace Ordered

/-- The map holds the names of the log in the order of their first entries, each with its last. -/
structure Follows (m : Ordered α) (log : List (String × α)) : Prop where
  keys : m.keys = (names log).eraseDups
  get : ∀ name, m.get? name = lastEntry log name

theorem names_put (name : String) (value : α) (entries : List (String × α)) :
    names (put name value entries) =
      if name ∈ names entries then names entries else names entries ++ [name] := by
  induction entries with
  | nil => simp [put, names]
  | cons e rest ih =>
    by_cases same : e.1 = name
    · simp [put, names, same]
    · simp only [names] at ih
      simp only [put, same, if_false, names, List.map_cons, List.mem_cons, Ne.symm same, false_or, ih]
      by_cases old : name ∈ rest.map Prod.fst
      · simp [old]
      · simp [old]

theorem lookup_cons_if (first other : String) (value : α) (rest : List (String × α)) :
    ((first, value) :: rest).lookup other =
      if other = first then some value else rest.lookup other := by
  by_cases here : other = first
  · simp [here]
  · have passed : (other == first) = false := by simpa using here
    simp [List.lookup_cons, passed, here]

theorem lookup_put (name other : String) (value : α) (entries : List (String × α)) :
    (put name value entries).lookup other =
      if other = name then some value else entries.lookup other := by
  induction entries with
  | nil => exact lookup_cons_if name other value []
  | cons e rest ih =>
    obtain ⟨first, old⟩ := e
    by_cases same : first = name
    · subst same
      by_cases here : other = first
      · simp [put, here]
      · simp only [put, if_true, lookup_cons_if, here, if_false]
    · simp only [put, same, if_false, lookup_cons_if, ih]
      by_cases here : other = first
      · subst here
        simp [same]
      · simp [here]

theorem lastEntry_append (log : List (String × α)) (name : String) (value : α) (other : String) :
    lastEntry (log ++ [(name, value)]) other =
      if other = name then some value else lastEntry log other := by
  rw [lastEntry, List.reverse_append]
  exact lookup_cons_if name other value log.reverse

theorem lastEntry_eq_none_iff (log : List (String × α)) (name : String) :
    lastEntry log name = none ↔ name ∉ names log := by
  simp only [lastEntry, List.lookup_eq_none_iff, List.mem_reverse, names, List.mem_map, not_exists,
    not_and, bne_iff_ne, ne_eq]
  constructor
  · intro absent e member same
    exact absent e member same.symm
  · intro absent e member same
    exact absent e member same.symm

theorem eraseDups_append_one (used : List String) (name : String) :
    (used ++ [name]).eraseDups =
      if name ∈ used.eraseDups then used.eraseDups else used.eraseDups ++ [name] := by
  rw [List.eraseDups_append]
  by_cases old : name ∈ used
  · simp [List.removeAll, old]
  · simp [List.removeAll, old, List.eraseDups_cons]

theorem follows_empty : Follows (empty : Ordered α) [] where
  keys := rfl
  get := fun _ => rfl

theorem Follows.insert {m : Ordered α} {log : List (String × α)} (follows : m.Follows log)
    (name : String) (value : α) : (m.insert name value).Follows (log ++ [(name, value)]) where
  keys := by
    have used : names (log ++ [(name, value)]) = names log ++ [name] := by simp [names]
    rw [used, eraseDups_append_one, ← follows.keys]
    exact names_put name value m.entries
  get := by
    intro other
    rw [lastEntry_append, ← follows.get other]
    exact lookup_put name other value m.entries

theorem get_of_mem (m : Ordered α) {name : String} {value : α} (member : (name, value) ∈ m.entries) :
    m.get? name = some value := by
  obtain ⟨entries, distinct⟩ := m
  unfold get?
  simp only at member ⊢
  induction entries with
  | nil => simp at member
  | cons e rest ih =>
    simp only [names, List.map_cons, List.nodup_cons] at distinct
    rcases List.mem_cons.1 member with rfl | later
    · simp
    · have other : name ≠ e.1 := fun same => distinct.1 (same ▸ List.mem_map_of_mem later)
      rw [lookup_cons_if, if_neg other]
      exact ih distinct.2 later

theorem follows_ofList (log : List (String × α)) : (ofList log).Follows log := by
  induction log using List.reverseRecOn with
  | nil => exact follows_empty
  | append_singleton log entry ih =>
    have grown : ofList (log ++ [entry]) = (ofList log).insert entry.1 entry.2 := by
      simp [ofList, insertAll]
    rw [grown]
    exact ih.insert entry.1 entry.2

theorem eq_of_get {m n : Ordered α} (keys : m.keys = n.keys)
    (get : ∀ name, m.get? name = n.get? name) : m = n := by
  have found : ∀ k : Ordered α,
      k.entries.map (fun e => (e.1, some e.2)) = k.keys.map fun name => (name, k.get? name) := by
    intro k
    rw [Ordered.keys, names, List.map_map]
    apply List.map_congr_left
    intro e member
    rw [Function.comp_apply, k.get_of_mem member]
  have same : m.entries.map (fun e => (e.1, some e.2)) = n.entries.map fun e => (e.1, some e.2) := by
    rw [found m, found n, keys]
    simp only [get]
  have injective : Function.Injective fun e : String × α => (e.1, some e.2) := by
    rintro ⟨name, value⟩ ⟨other, further⟩ pairs
    simpa using pairs
  exact ext_entries (injective.list_map same)

theorem follows_iff (m : Ordered α) (log : List (String × α)) : m.Follows log ↔ m = ofList log := by
  constructor
  · intro follows
    have logged := follows_ofList log
    exact eq_of_get (follows.keys.trans logged.keys.symm)
      fun name => (follows.get name).trans (logged.get name).symm
  · rintro rfl
    exact follows_ofList log

end Ordered

open Ordered

theorem follows_log (log : List (String × Option Handler)) :
    (log.foldl Table.enter .empty).Follows log := by
  rw [foldl_enter]
  exact follows_ofList log

theorem size_of_follows {t : Table} {log : List (String × Option Handler)} (follows : t.Follows log) :
    t.size = (names log).toFinset.card := by
  have distinct : t.keys.Nodup := t.distinct
  have same : t.keys.toFinset = (names log).toFinset := by
    ext name
    simp [follows.keys]
  rw [← same, List.toFinset_card_of_nodup distinct]
  simp [Ordered.size, Ordered.keys, names]

theorem isEmpty_of_follows {t : Table} {log : List (String × Option Handler)}
    (follows : t.Follows log) : t.isEmpty = true ↔ log = [] := by
  have used : t.entries = [] ↔ names log = [] := by
    have keys := follows.keys
    constructor
    · intro none
      rw [List.eq_nil_iff_forall_not_mem]
      intro name member
      have listed : name ∈ t.keys := by rw [keys]; exact List.mem_eraseDups.2 member
      simp [Ordered.keys, names, none] at listed
    · intro unused
      rw [unused] at keys
      simpa [Ordered.keys, names] using keys
  rw [Ordered.isEmpty, List.isEmpty_iff, used]
  simp [names]

/-- After each step of a log of bindings, with `(event, none)` where nothing is bound: the events
are those used so far in the order of first use, and each has its last entry. A list of pairs gives
the table that binding them one after the other gives. -/
theorem table_follows_log :
    (∀ (operations : List (String × Option Handler)) (steps : Nat),
      let log := operations.take steps
      let t := log.foldl Table.enter .empty
      (t.entries.map Prod.fst).Nodup ∧
      t.entries.map Prod.fst = (log.map Prod.fst).eraseDups ∧
      (∀ entry ∈ t.entries, lastEntry log entry.1 = some entry.2) ∧
      (∀ event, t.get? event = lastEntry log event ∧
        (t.get? event = none ↔ event ∉ log.map Prod.fst)) ∧
      t.size = (log.map Prod.fst).toFinset.card ∧
      (t.isEmpty = true ↔ log = [])) ∧
    ∀ pairs : List (String × Handler),
      Ordered.ofList (pairs.map fun (event, handler) => (event, some handler)) =
        pairs.foldl (fun t (event, handler) => Table.bind t event handler) .empty := by
  constructor
  · intro operations steps log t
    have follows : t.Follows log := follows_log log
    refine ⟨t.distinct, follows.keys, ?_, ?_, size_of_follows follows, isEmpty_of_follows follows⟩
    · intro entry member
      rw [← follows.get, t.get_of_mem member]
    · intro event
      refine ⟨follows.get event, ?_⟩
      rw [follows.get]
      exact lastEntry_eq_none_iff log event
  · intro pairs
    unfold Ordered.ofList Ordered.insertAll
    rw [List.foldl_map]
    rfl

end Listeners
