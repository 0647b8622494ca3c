import Listeners.Json.Kind
import Listeners.Json.Tree
import Listeners.Json.Write
import Listeners.Proofs.CharacterSpelling

/-!
Written forms are read back. Each statement leaves the text after the written form
arbitrary, so that a reader of parts can be followed from one part to the next: literals
first, then lists and objects over any reader of their parts, then trees of values.
-/
namespace Listeners.Json
open Text

theorem characters_escaped (read : List Char) (c : Char) (rest : List Char) :
    characters read (escaped c ++ rest) = characters (c :: read) rest :=
  characters_spelled (spells_escaped c) read rest

theorem characters_flatMap_escaped (read s rest : List Char) :
    characters read (s.flatMap escaped ++ '"' :: rest) =
      .ok (String.ofList (read.reverse ++ s), rest) := by
  induction s generalizing read with
  | nil => simp [characters_quote]
  | cons c s ih =>
    rw [List.flatMap_cons, List.append_assoc, characters_escaped, ih]
    simp

theorem string_escaped (s : String) (rest : List Char) :
    string (s.toList.flatMap escaped ++ '"' :: rest) = .ok (s, rest) := by
  have whole := characters_flatMap_escaped [] s.toList rest
  simpa [string] using whole

/-- A text that starts as a value does: no space comes first, and no bracket that closes a list. -/
def Opens (text : List Char) : Prop := ∃ c r, text = c :: r ∧ isSpace c = false ∧ c ≠ ']'

/-- What is written is read back off the front of any text that starts with it. -/
def Written (scan : Scan α) (text : String) (a : α) : Prop :=
  Opens text.toList ∧ ∀ rest, scan (text.toList ++ rest) = .ok (a, rest)

theorem opens_cons {c : Char} {r : List Char} (noSpace : isSpace c = false) (noCloser : c ≠ ']') :
    Opens (c :: r) := ⟨c, r, rfl, noSpace, noCloser⟩

theorem skipSpace_cons {c : Char} (noSpace : isSpace c = false) (r : List Char) :
    skipSpace (c :: r) = c :: r := by
  simp [skipSpace, noSpace]

theorem skipSpace_opens {text : List Char} (opens : Opens text) (rest : List Char) :
    skipSpace (text ++ rest) = text ++ rest := by
  obtain ⟨c, r, rfl, noSpace, _⟩ := opens
  exact skipSpace_cons noSpace _

theorem firstItem_opens {text : List Char} (opens : Opens text) (rest : List Char) :
    firstItem (text ++ rest) = .ok (true, text ++ rest) := by
  have skipped := skipSpace_opens opens rest
  obtain ⟨c, r, rfl, _, noCloser⟩ := opens
  unfold firstItem
  rw [skipped]
  simp [noCloser]

theorem nextItem_opens {text : List Char} (opens : Opens text) (rest : List Char) :
    nextItem (',' :: (text ++ rest)) = .ok (true, text ++ rest) := by
  have skipped := skipSpace_opens opens rest
  obtain ⟨c, r, rfl, _, noCloser⟩ := opens
  unfold nextItem
  rw [skipSpace_cons rfl]
  simp only [skipped]
  simp [noCloser]

theorem nextItem_closer (rest : List Char) : nextItem (']' :: rest) = .ok (false, rest) := rfl

section Items
variable {item : Reader α} {text : β → String} {value : β → α}

theorem moreItems_written (bs : List β)
    (written : ∀ b ∈ bs, Written item.run (text b) (value b)) (read : List α) (rest : List Char) :
    moreItems item read ((bs.flatMap fun b => ',' :: (text b).toList) ++ ']' :: rest) =
      .ok (read.reverse ++ bs.map value, rest) := by
  induction bs generalizing read with
  | nil =>
    rw [moreItems_eq]
    simp [nextItem_closer, bind, Except.bind]
  | cons b bs ih =>
    obtain ⟨opens, reads⟩ := written b (by simp)
    rw [List.flatMap_cons, List.append_assoc, List.cons_append, moreItems_eq, nextItem_opens opens]
    simp only [bind, Except.bind, reads]
    rw [ih (by intro x hx; exact written x (by simp [hx]))]
    simp

theorem items_written (bs : List β)
    (written : ∀ b ∈ bs, Written item.run (text b) (value b)) (rest : List Char) :
    items item ((",".intercalate (bs.map text)).toList ++ ']' :: rest) =
      .ok (bs.map value, rest) := by
  cases bs with
  | nil => rfl
  | cons b bs =>
    obtain ⟨opens, reads⟩ := written b (by simp)
    rw [List.map_cons, toList_intercalate_cons, List.append_assoc]
    simp only [items, firstItem_opens opens, bind, Except.bind, reads]
    have more := moreItems_written bs (by intro x hx; exact written x (by simp [hx]))
      [value b] rest
    simpa [List.flatMap_map] using more

end Items

def Gathers (gather : Gather σ) (state : σ) (name value : String) (next : σ) : Prop :=
  ∃ reader, gather state name = .ok reader ∧
    ∀ rest, reader.run (value.toList ++ rest) = .ok (.ok next, rest)

theorem member_written {gather : Gather σ} {state next : σ} {name value : String}
    (gathers : Gathers gather state name value next) (rest : List Char) :
    member gather state (name.toList.flatMap escaped ++ '"' :: ':' :: (value.toList ++ rest)) =
      .ok (next, rest) := by
  obtain ⟨reader, accepts, reads⟩ := gathers
  have colon : afterColon (':' :: (value.toList ++ rest)) = .ok (value.toList ++ rest) := rfl
  simp only [member, string_escaped, accepts, colon, reads, bind, Except.bind]

theorem toList_writeMember (name value : String) :
    (writeMember name value).toList =
      '"' :: (name.toList.flatMap escaped ++ '"' :: ':' :: value.toList) := by
  simp [writeMember, toList_quote]

section Members
variable {gather : Gather σ} {name value : β → String} {step : σ → β → σ}

theorem moreMembers_written (bs : List β)
    (gathers : ∀ state, ∀ b ∈ bs, Gathers gather state (name b) (value b) (step state b))
    (state : σ) (rest : List Char) :
    moreMembers gather state
      ((bs.flatMap fun b => ',' :: (writeMember (name b) (value b)).toList) ++ '}' :: rest) =
        .ok (bs.foldl step state, rest) := by
  induction bs generalizing state with
  | nil =>
    rw [moreMembers_eq]
    rfl
  | cons b bs ih =>
    have first := member_written (gathers state b (by simp))
    have next : ∀ r, nextName (',' :: '"' :: r) = .ok (true, r) := fun _ => rfl
    rw [List.flatMap_cons, toList_writeMember, moreMembers_eq]
    simp only [List.cons_append, List.append_assoc, next, bind, Except.bind, first]
    exact ih (by intro state x hx; exact gathers state x (by simp [hx])) (step state b)

theorem members_written (bs : List β)
    (gathers : ∀ state, ∀ b ∈ bs, Gathers gather state (name b) (value b) (step state b))
    (state : σ) (rest : List Char) :
    members gather state
      ((",".intercalate (bs.map fun b => writeMember (name b) (value b))).toList ++ '}' :: rest) =
        .ok (bs.foldl step state, rest) := by
  cases bs with
  | nil => rfl
  | cons b bs =>
    have first := member_written (gathers state b (by simp))
    have opening : ∀ r, firstName ('"' :: r) = .ok (true, r) := fun _ => rfl
    rw [List.map_cons, toList_intercalate_cons, toList_writeMember]
    simp only [List.cons_append, List.append_assoc, members, opening, bind, Except.bind, first]
    have more := moreMembers_written bs
      (by intro state x hx; exact gathers state x (by simp [hx])) (step state b) rest
    simpa [List.flatMap_map] using more

end Members

theorem value_scalar {c : Char} (noSpace : isSpace c = false) (noList : c ≠ '[') (noObject : c ≠ '{')
    (depth : Nat) (r : List Char) : (value depth).run (c :: r) = scalar (c :: r) := by
  cases depth <;> simp [value, skipSpace_cons noSpace, noList, noObject]

theorem written_null (depth : Nat) : Written (value depth).run "null" .null :=
  ⟨opens_cons rfl (by decide), fun _ => value_scalar rfl (by decide) (by decide) depth _⟩

theorem written_boolean (depth : Nat) (b : Bool) :
    Written (value depth).run (writeBoolean b) (.boolean b) := by
  cases b with
  | false => exact ⟨opens_cons rfl (by decide), fun _ => value_scalar rfl (by decide) (by decide) depth _⟩
  | true => exact ⟨opens_cons rfl (by decide), fun _ => value_scalar rfl (by decide) (by decide) depth _⟩

theorem written_string (depth : Nat) (s : String) :
    Written (value depth).run (quote s) (.string s) := by
  unfold Written
  rw [toList_quote]
  refine ⟨opens_cons rfl (by decide), fun rest => ?_⟩
  simp only [List.cons_append, List.append_assoc, List.nil_append]
  rw [value_scalar rfl (by decide) (by decide)]
  simp only [scalar, string_escaped, Except.map]

theorem written_list {depth : Nat} {text : β → String} {tree : β → Value} (bs : List β)
    (written : ∀ b ∈ bs, Written (value depth).run (text b) (tree b)) :
    Written (value (depth + 1)).run (writeList (bs.map text)) (.list (bs.map tree)) := by
  have shape : (writeList (bs.map text)).toList =
      '[' :: ((",".intercalate (bs.map text)).toList ++ [']']) := by
    simp [writeList]
  unfold Written
  rw [shape]
  refine ⟨opens_cons rfl (by decide), fun rest => ?_⟩
  simp only [value, List.cons_append, List.append_assoc, List.nil_append]
  rw [skipSpace_cons rfl]
  simp only [items_written bs written, Except.map]

theorem gathers_tree {depth : Nat} {name text : String} {tree : Value}
    (written : Written (value depth).run text tree) (read : List (String × Value)) :
    Gathers (gatherAll (value depth)) read name text ((name, tree) :: read) := by
  refine ⟨_, rfl, fun rest => ?_⟩
  simp only [Reader.run_map, written.2, Except.map]

theorem written_object {depth : Nat} (name text : β → String) (tree : β → Value) (bs : List β)
    (written : ∀ b ∈ bs, Written (value depth).run (text b) (tree b)) :
    Written (value (depth + 1)).run (writeObject (bs.map fun b => (name b, text b)))
      (.object (bs.map fun b => (name b, tree b))) := by
  have shape : (writeObject (bs.map fun b => (name b, text b))).toList =
      '{' :: ((",".intercalate (bs.map fun b => writeMember (name b) (text b))).toList ++ ['}']) := by
    simp [writeObject, Function.comp_def]
  have gathers : ∀ read, ∀ b ∈ bs,
      Gathers (gatherAll (value depth)) read (name b) (text b) ((name b, tree b) :: read) :=
    fun read b hb => gathers_tree (written b hb) read
  have gathered := members_written bs gathers []
  unfold Written
  rw [shape]
  refine ⟨opens_cons rfl (by decide), fun rest => ?_⟩
  simp only [value, List.cons_append, List.append_assoc, List.nil_append]
  rw [skipSpace_cons rfl]
  simp only [gathered rest, Except.map]
  rw [List.foldl_flip_cons_eq_append]
  simp

theorem optional_null (reader : Reader α) (rest : List Char) :
    (Reader.optional reader).run ("null".toList ++ rest) = .ok (none, rest) := rfl

theorem optional_some {reader : Reader α} {c : Char} {r : List Char}
    (noSpace : isSpace c = false) (noWord : c ≠ 'n') :
    (Reader.optional reader).run (c :: r) =
      (reader.run (c :: r)).map fun (a, rest) => (some a, rest) := by
  simp only [Reader.optional]
  rw [skipSpace_cons noSpace]
  split
  · simp_all
  · rfl

end Listeners.Json
