import Listeners.Proofs.Written
import Mathlib.Computability.Language
import Mathlib.Data.List.TakeWhile
/-!
The texts of strings, of lists of strings and of objects with strings as members: any space stands between
the parts and each character is spelled in any way. Readers take all of these texts, whatever
follows.
-/
namespace Listeners.Json
open Text

def Space : Language Char := {text | ∀ c ∈ text, isSpace c = true}

def Mark (c : Char) : Language Char := {text | ∃ space ∈ Space, text = space ++ [c]}

def CharacterText (c : Char) : Language Char := {text | Spells c text}

def StringText (s : String) : Language Char :=
  Mark '"' * (s.toList.map CharacterText).prod * ({['"']} : Language Char)

def MemberText (member : String × String) : Language Char :=
  StringText member.1 * Mark ':' * StringText member.2

def Joined : List (Language Char) → Language Char
  | [] => 1
  | part :: rest => part * (rest.map (Mark ',' * ·)).prod

def ListText (items : List String) : Language Char :=
  Mark '[' * Joined (items.map StringText) * Mark ']' * Space

def ObjectText (members : List (String × String)) : Language Char :=
  Mark '{' * Joined (members.map MemberText) * Mark '}' * Space

theorem skipSpace_space {space : List Char} (blank : space ∈ Space) (rest : List Char) :
    skipSpace (space ++ rest) = skipSpace rest := by
  exact List.dropWhile_append_of_pos blank

theorem skipSpace_all {space : List Char} (blank : space ∈ Space) : skipSpace space = [] :=
  List.dropWhile_eq_nil_iff.2 blank

theorem skipSpace_mark {c : Char} (mark : isSpace c = false) {text : List Char} (marked : text ∈ Mark c)
    (rest : List Char) : skipSpace (text ++ rest) = c :: rest := by
  obtain ⟨space, blank, rfl⟩ := marked
  rw [List.append_assoc, skipSpace_space blank]
  exact skipSpace_cons mark rest

theorem characters_text {cs word : List Char} (text : word ∈ (cs.map CharacterText).prod)
    (read rest : List Char) :
    characters read (word ++ '"' :: rest) = .ok (String.ofList (read.reverse ++ cs), rest) := by
  induction cs generalizing word read with
  | nil =>
    cases text
    simp [characters_quote]
  | cons c cs ih =>
    obtain ⟨first, spells, others, more, rfl⟩ := Language.mem_mul.1 text
    rw [List.append_assoc, characters_spelled spells, ih more]
    simp

theorem string_opened {s : String} {text : List Char} (spelled : text ∈ StringText s) :
    ∃ body, (∀ rest, skipSpace (text ++ rest) = '"' :: (body ++ rest)) ∧
      ∀ rest, string (body ++ rest) = .ok (s, rest) := by
  obtain ⟨_, opened, _, rfl, rfl⟩ := Language.mem_mul.1 spelled
  obtain ⟨opening, marked, word, letters, rfl⟩ := Language.mem_mul.1 opened
  refine ⟨word ++ ['"'], fun rest => ?_, fun rest => ?_⟩
  · simp only [List.append_assoc]
    exact skipSpace_mark rfl marked _
  · have whole := characters_text letters [] rest
    simpa [string] using whole

theorem reader_string {s : String} {text : List Char} (spelled : text ∈ StringText s)
    (rest : List Char) : Reader.string.run (text ++ rest) = .ok (s, rest) := by
  obtain ⟨body, opens, reads⟩ := string_opened spelled
  simp only [Reader.string, opens, reads]

theorem firstItem_string {s : String} {text : List Char} (spelled : text ∈ StringText s)
    (rest : List Char) :
    ∃ r, firstItem (text ++ rest) = .ok (true, r) ∧ Reader.string.run r = .ok (s, rest) := by
  obtain ⟨body, opens, reads⟩ := string_opened spelled
  refine ⟨'"' :: (body ++ rest), ?_, ?_⟩
  · unfold firstItem
    rw [opens]
    rfl
  · simp only [Reader.string, skipSpace_cons (c := '"') rfl, reads]

theorem nextItem_string {s : String} {comma text : List Char} (separates : comma ∈ Mark ',')
    (spelled : text ∈ StringText s) (rest : List Char) :
    ∃ r, nextItem (comma ++ (text ++ rest)) = .ok (true, r) ∧
      Reader.string.run r = .ok (s, rest) := by
  obtain ⟨body, opens, reads⟩ := string_opened spelled
  refine ⟨'"' :: (body ++ rest), ?_, ?_⟩
  · unfold nextItem
    rw [skipSpace_mark rfl separates]
    simp only [opens]
    rfl
  · simp only [Reader.string, skipSpace_cons (c := '"') rfl, reads]

section Closing
variable {closing : List Char} (closes : closing ∈ Mark ']')
include closes

theorem firstItem_closing (rest : List Char) : firstItem (closing ++ rest) = .ok (false, rest) := by
  unfold firstItem
  rw [skipSpace_mark rfl closes]
  rfl

theorem nextItem_closing (rest : List Char) : nextItem (closing ++ rest) = .ok (false, rest) := by
  unfold nextItem
  rw [skipSpace_mark rfl closes]
  rfl

theorem closeRecord_closing (rest : List Char) : closeRecord (closing ++ rest) = .ok rest := by
  unfold closeRecord
  rw [skipSpace_mark rfl closes]
  rfl

end Closing

inductive Gathered (gather : Gather σ) : σ → List (String × String) → σ → Prop where
  | nil {state : σ} : Gathered gather state [] state
  | cons {state next last : σ} {name value : String} {members : List (String × String)}
      {put : String → Except Cause σ} (accepts : gather state name = .ok (Reader.string.map put))
      (puts : put value = .ok next) (others : Gathered gather next members last) :
      Gathered gather state ((name, value) :: members) last

section Members
variable {gather : Gather σ}

theorem member_opened {state next : σ} {name value : String} {put : String → Except Cause σ}
    (accepts : gather state name = .ok (Reader.string.map put)) (puts : put value = .ok next)
    {text : List Char} (spelled : text ∈ MemberText (name, value)) :
    ∃ body, (∀ rest, skipSpace (text ++ rest) = '"' :: (body ++ rest)) ∧
      ∀ rest, member gather state (body ++ rest) = .ok (next, rest) := by
  obtain ⟨_, front, valueText, valued, rfl⟩ := Language.mem_mul.1 spelled
  obtain ⟨nameText, named, colon, separates, rfl⟩ := Language.mem_mul.1 front
  obtain ⟨body, opens, reads⟩ := string_opened named
  refine ⟨body ++ (colon ++ valueText), fun rest => ?_, fun rest => ?_⟩
  · simp only [List.append_assoc, opens]
  · have after : afterColon (colon ++ (valueText ++ rest)) = .ok (valueText ++ rest) := by
      unfold afterColon
      rw [skipSpace_mark rfl separates]
      rfl
    simp only [List.append_assoc, member, reads, accepts, after, Reader.run_map, reader_string valued,
      Except.map, puts, bind, Except.bind]

theorem moreMembers_spelled {state last : σ} {members : List (String × String)}
    (gathered : Gathered gather state members last) {text closing : List Char}
    (spelled : text ∈ (members.map fun m => Mark ',' * MemberText m).prod)
    (closes : closing ∈ Mark '}') (rest : List Char) :
    moreMembers gather state (text ++ (closing ++ rest)) = .ok (last, rest) := by
  induction gathered generalizing text with
  | nil =>
    cases spelled
    rw [moreMembers_eq, List.nil_append, nextName, skipSpace_mark rfl closes]
    rfl
  | @cons state next last name value members put accepts puts others ih =>
    obtain ⟨_, front, more, behind, rfl⟩ := Language.mem_mul.1 spelled
    obtain ⟨comma, separates, part, first, rfl⟩ := Language.mem_mul.1 front
    obtain ⟨body, opens, reads⟩ := member_opened accepts puts first
    simp only [List.append_assoc]
    rw [moreMembers_eq, nextName, skipSpace_mark rfl separates]
    simp only [opens, bind, Except.bind, reads]
    exact ih behind

theorem members_spelled {state last : σ} {members : List (String × String)}
    (gathered : Gathered gather state members last) {text closing : List Char}
    (spelled : text ∈ Joined (members.map MemberText)) (closes : closing ∈ Mark '}')
    (rest : List Char) :
    Json.members gather state (text ++ (closing ++ rest)) = .ok (last, rest) := by
  cases gathered with
  | nil =>
    cases spelled
    simp only [Json.members, firstName, List.nil_append, skipSpace_mark (c := '}') rfl closes]
    rfl
  | @cons _ next _ name value members put accepts puts others =>
    obtain ⟨part, first, more, behind, rfl⟩ := Language.mem_mul.1 spelled
    obtain ⟨body, opens, reads⟩ := member_opened accepts puts first
    rw [List.map_map] at behind
    simp only [List.append_assoc, Json.members, firstName, opens, bind, Except.bind, reads]
    exact moreMembers_spelled others behind closes rest

end Members

theorem no_space : [] ∈ Space := by
  intro c member
  cases member

theorem mark_alone (c : Char) : [c] ∈ Mark c := ⟨[], no_space, rfl⟩

theorem quote_spelled (s : String) : (quote s).toList ∈ StringText s := by
  have letters : ∀ cs : List Char, cs.flatMap escaped ∈ (cs.map CharacterText).prod := by
    intro cs
    induction cs with
    | nil => rfl
    | cons c cs ih => exact Language.append_mem_mul (spells_escaped c) ih
  rw [toList_quote]
  exact Language.append_mem_mul (Language.append_mem_mul (mark_alone '"') (letters s.toList)) rfl

theorem writeMember_spelled (member : String × String) :
    (writeMember member.1 (quote member.2)).toList ∈ MemberText member := by
  have text : (writeMember member.1 (quote member.2)).toList =
      (quote member.1).toList ++ [':'] ++ (quote member.2).toList := by
    simp [writeMember]
  rw [text]
  exact Language.append_mem_mul (Language.append_mem_mul (quote_spelled _) (mark_alone ':'))
    (quote_spelled _)

theorem writeObject_spelled (members : List (String × String)) :
    (writeObject (members.map fun m => (m.1, quote m.2))).toList ∈ ObjectText members := by
  have joined : (",".intercalate (members.map fun m => writeMember m.1 (quote m.2))).toList ∈
      Joined (members.map MemberText) := by
    cases members with
    | nil => rfl
    | cons first others =>
      have more : ∀ members : List (String × String),
          (members.flatMap fun m => ',' :: (writeMember m.1 (quote m.2)).toList) ∈
            ((members.map MemberText).map (Mark ',' * ·)).prod := by
        intro members
        induction members with
        | nil => rfl
        | cons m members ih =>
          exact Language.append_mem_mul
            (Language.append_mem_mul (mark_alone ',') (writeMember_spelled m)) ih
      rw [List.map_cons, List.map_cons, toList_intercalate_cons, List.flatMap_map]
      exact Language.append_mem_mul (writeMember_spelled first) (more others)
  have text : (writeObject (members.map fun m => (m.1, quote m.2))).toList =
      ['{'] ++ (",".intercalate (members.map fun m => writeMember m.1 (quote m.2))).toList ++ ['}'] ++
        [] := by
    simp [writeObject, Function.comp_def]
  rw [text]
  exact Language.append_mem_mul (Language.append_mem_mul (Language.append_mem_mul (mark_alone '{')
    joined) (mark_alone '}')) no_space

end Listeners.Json
