/-!
Maps from names to values that keep the order in which the names first came. A name that
is inserted again keeps its place and takes the new value.
-/
namespace Listeners

namespace Ordered

/-- Gives `name` the value, in its place if it has one and at the end if it has none. -/
def put (name : String) (value : α) : List (String × α) → List (String × α)
  | [] => [(name, value)]
  | (n, v) :: rest => if n = name then (n, value) :: rest else (n, v) :: put name value rest

def names (entries : List (String × α)) : List String := entries.map (·.1)

theorem mem_names_put {name n : String} {value : α} {entries : List (String × α)} :
    n ∈ names (put name value entries) ↔ n = name ∨ n ∈ names entries := by
  induction entries with
  | nil => simp [put, names]
  | cons e rest ih =>
    by_cases h : e.1 = name
    · simp [put, h, names]
    · simp only [names] at ih
      simp only [put, h, if_false, names, List.map_cons, List.mem_cons, ih]
      grind

theorem nodup_names_put {name : String} {value : α} {entries : List (String × α)}
    (h : (names entries).Nodup) : (names (put name value entries)).Nodup := by
  induction entries with
  | nil => simp [put, names]
  | cons e rest ih =>
    simp only [names, List.map_cons, List.nodup_cons] at h
    by_cases hn : e.1 = name
    · simp only [put, hn, if_true, names, List.map_cons, List.nodup_cons]
      exact hn ▸ h
    · have hm := @mem_names_put _ name e.1 value rest
      simp only [names] at hm ih
      simp only [put, hn, if_false, names, List.map_cons, List.nodup_cons, hm, false_or]
      exact ⟨h.1, ih h.2⟩

end Ordered

structure Ordered (α : Type) where
  entries : List (String × α)
  distinct : (Ordered.names entries).Nodup := by simp [Ordered.names]

namespace Ordered

def empty : Ordered α := { entries := [] }

instance : Inhabited (Ordered α) := ⟨empty⟩

def insert (m : Ordered α) (name : String) (value : α) : Ordered α :=
  ⟨put name value m.entries, nodup_names_put m.distinct⟩

def insertAll (m : Ordered α) (pairs : List (String × α)) : Ordered α :=
  pairs.foldl (fun m (name, value) => m.insert name value) m

def ofList (pairs : List (String × α)) : Ordered α := empty.insertAll pairs

def get? (m : Ordered α) (name : String) : Option α := m.entries.lookup name

def keys (m : Ordered α) : List String := names m.entries

def size (m : Ordered α) : Nat := m.entries.length

def isEmpty (m : Ordered α) : Bool := m.entries.isEmpty

/-- Equality that leaves the order aside: as many entries, and each of the first has its match in
the second. -/
def agrees (same : α → α → Bool) (a b : Ordered α) : Bool :=
  a.size == b.size && a.entries.all fun (name, v) =>
    match b.get? name with
    | some w => same v w
    | none => false

@[simp] theorem entries_empty : (empty : Ordered α).entries = [] := rfl

@[simp] theorem entries_insert (m : Ordered α) (name : String) (value : α) :
    (m.insert name value).entries = put name value m.entries := rfl

theorem ext_entries {a b : Ordered α} (h : a.entries = b.entries) : a = b := by
  cases a; cases b; cases h; rfl

end Ordered

end Listeners
