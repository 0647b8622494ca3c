import Listeners.Json.Value
/-!
Lists and objects over any reader of their parts. The reader of an object's members may
refuse a name as soon as it is read, or a value once it is read; such a refusal has no
place in the text of its own and is placed at the end of the object where that follows.
-/
namespace Listeners.Json

/-- After the opening bracket: does an element follow, and where does the text go on? -/
def firstItem (s : List Char) : Except Fault (Bool × List Char) :=
  match skipSpace s with
  | [] => .error (.on .endInList [])
  | ']' :: r => .ok (false, r)
  | r => .ok (true, r)

def nextItem (s : List Char) : Except Fault (Bool × List Char) :=
  match skipSpace s with
  | [] => .error (.on .endInList [])
  | ']' :: r => .ok (false, r)
  | ',' :: r =>
    match skipSpace r with
    | [] => .error (.on .endInValue [])
    | ']' :: t => .error (.on .trailingComma (']' :: t))
    | t => .ok (true, t)
  | r => .error (.on .noListSeparator r)

/-- After the opening brace: does a member follow, and where does the text go on? That is after the
closing brace or after the quote that opens the name. -/
def firstName (s : List Char) : Except Fault (Bool × List Char) :=
  match skipSpace s with
  | [] => .error (.on .endInObject [])
  | '}' :: r => .ok (false, r)
  | '"' :: r => .ok (true, r)
  | r => .error (.on .nameNotString r)

def nextName (s : List Char) : Except Fault (Bool × List Char) :=
  match skipSpace s with
  | [] => .error (.on .endInObject [])
  | '}' :: r => .ok (false, r)
  | ',' :: r =>
    match skipSpace r with
    | [] => .error (.on .endInValue [])
    | '"' :: t => .ok (true, t)
    | '}' :: t => .error (.on .trailingComma ('}' :: t))
    | t => .error (.on .nameNotString t)
  | r => .error (.on .noObjectSeparator r)

theorem length_firstItem_le {s r : List Char} {more : Bool} (h : firstItem s = .ok (more, r)) :
    r.length ≤ s.length := by
  unfold firstItem at h
  split at h
  · cases h
  · next hs => cases h; exact Nat.le_of_lt (length_lt_of_skipSpace hs)
  · cases h; exact length_skipSpace_le s

theorem length_nextItem_lt {s r : List Char} {more : Bool} (h : nextItem s = .ok (more, r)) :
    r.length < s.length := by
  unfold nextItem at h
  split at h
  · cases h
  · next hs => cases h; exact length_lt_of_skipSpace hs
  · next t hs =>
    split at h
    · cases h
    · cases h
    · cases h; exact Nat.lt_of_le_of_lt (length_skipSpace_le t) (length_lt_of_skipSpace hs)
  · cases h

theorem length_firstName_lt {s r : List Char} {more : Bool} (h : firstName s = .ok (more, r)) :
    r.length < s.length := by
  unfold firstName at h
  split at h
  · cases h
  · next hs => cases h; exact length_lt_of_skipSpace hs
  · next hs => cases h; exact length_lt_of_skipSpace hs
  · cases h

theorem length_nextName_lt {s r : List Char} {more : Bool} (h : nextName s = .ok (more, r)) :
    r.length < s.length := by
  unfold nextName at h
  split at h
  · cases h
  · next hs => cases h; exact length_lt_of_skipSpace hs
  · next hs =>
    split at h
    · cases h
    · next ht => cases h; exact Nat.lt_trans (length_lt_of_skipSpace ht) (length_lt_of_skipSpace hs)
    · cases h
    · cases h
  · cases h

/-- The elements of a list after its first; those read so far come last first. -/
def moreItems (item : Reader α) (read : List α) (s : List Char) :
    Except Fault (List α × List Char) :=
  match _hs : nextItem s with
  | .error fault => .error fault
  | .ok (false, r) => .ok (read.reverse, r)
  | .ok (true, r) =>
    match _hr : item.run r with
    | .error fault => .error fault
    | .ok (a, t) => moreItems item (a :: read) t
termination_by s.length
decreasing_by
  have := length_nextItem_lt _hs
  have := item.shortens _hr
  omega

theorem moreItems_eq (item : Reader α) (read : List α) (s : List Char) :
    moreItems item read s = (do
      match ← nextItem s with
      | (false, r) => .ok (read.reverse, r)
      | (true, r) =>
        let (a, t) ← item.run r
        moreItems item (a :: read) t) := by
  rw [moreItems]
  split
  · next hs => rw [hs]; rfl
  · next hs => rw [hs]; rfl
  · next hs =>
    rw [hs]
    split
    · next hr => simp only [bind, Except.bind, hr]
    · next hr => simp only [bind, Except.bind, hr]

def items (item : Reader α) (s : List Char) : Except Fault (List α × List Char) := do
  match ← firstItem s with
  | (false, r) => .ok ([], r)
  | (true, r) =>
    let (a, t) ← item.run r
    moreItems item [a] t

theorem length_moreItems_le (item : Reader α) (read l : List α) (s r : List Char)
    (h : moreItems item read s = .ok (l, r)) : r.length ≤ s.length := by
  fun_induction moreItems item read s with
  | case1 => cases h
  | case2 read s t hs => have := length_nextItem_lt hs; cases h; omega
  | case3 => cases h
  | case4 read s t hs a u hu ih =>
    have := length_nextItem_lt hs
    have := item.shortens hu
    have := ih h
    omega

theorem length_items_le {item : Reader α} {l : List α} {s r : List Char}
    (h : items item s = .ok (l, r)) : r.length ≤ s.length := by
  obtain ⟨⟨more, t⟩, ht, h⟩ := bind_eq_ok.1 h
  have := length_firstItem_le ht
  cases more with
  | false => cases h; exact this
  | true =>
    obtain ⟨⟨a, u⟩, hu, h⟩ := bind_eq_ok.1 h
    have := item.shortens hu
    have := length_moreItems_le _ _ _ _ _ h
    omega

/-- How members are gathered: the state and a name give the reader of the value and the new state.
Either may refuse. -/
abbrev Gather (σ : Type) := σ → String → Except Cause (Reader (Except Cause σ))

/-- A fault of an object that has no place of its own: after the closing brace if that is next. -/
def Fault.closing (cause : Cause) (s : List Char) : Fault :=
  match skipSpace s with
  | '}' :: r => .before cause r
  | r => .before cause r

def afterColon (s : List Char) : Except Fault (List Char) :=
  match skipSpace s with
  | [] => .error (.on .endInObject [])
  | ':' :: r => .ok r
  | r => .error (.on .noColon r)

theorem length_afterColon_lt {s r : List Char} (h : afterColon s = .ok r) : r.length < s.length := by
  unfold afterColon at h
  split at h
  · cases h
  · next hs => cases h; exact length_lt_of_skipSpace hs
  · cases h

def member (gather : Gather σ) (state : σ) (s : List Char) : Except Fault (σ × List Char) := do
  let (name, s) ← string s
  match gather state name with
  | .error cause => .error (.closing cause s)
  | .ok value =>
    let s ← afterColon s
    let (added, s) ← value.run s
    match added with
    | .error cause => .error (.closing cause s)
    | .ok state => .ok (state, s)

theorem member_shortens (gather : Gather σ) (state : σ) : Shortens (member gather state) := by
  intro s a r h
  obtain ⟨⟨name, s₁⟩, h₁, h⟩ := bind_eq_ok.1 h
  have := string_shortens h₁
  simp only at h
  split at h
  · cases h
  · next value _ =>
    obtain ⟨s₂, h₂, h⟩ := bind_eq_ok.1 h
    obtain ⟨⟨added, s₃⟩, h₃, h⟩ := bind_eq_ok.1 h
    have := length_afterColon_lt h₂
    have := value.shortens h₃
    simp only at h
    split at h
    · cases h
    · cases h; omega

def moreMembers (gather : Gather σ) (state : σ) (s : List Char) : Except Fault (σ × List Char) :=
  match _hs : nextName s with
  | .error fault => .error fault
  | .ok (false, r) => .ok (state, r)
  | .ok (true, r) =>
    match _hr : member gather state r with
    | .error fault => .error fault
    | .ok (next, t) => moreMembers gather next t
termination_by s.length
decreasing_by
  have := length_nextName_lt _hs
  have := member_shortens gather state _hr
  omega

theorem moreMembers_eq (gather : Gather σ) (state : σ) (s : List Char) :
    moreMembers gather state s = (do
      match ← nextName s with
      | (false, r) => .ok (state, r)
      | (true, r) =>
        let (next, t) ← member gather state r
        moreMembers gather next t) := by
  rw [moreMembers]
  split
  · next hs => rw [hs]; rfl
  · next hs => rw [hs]; rfl
  · next hs =>
    rw [hs]
    split
    · next hr => simp only [bind, Except.bind, hr]
    · next hr => simp only [bind, Except.bind, hr]

def members (gather : Gather σ) (state : σ) (s : List Char) : Except Fault (σ × List Char) := do
  match ← firstName s with
  | (false, r) => .ok (state, r)
  | (true, r) =>
    let (next, t) ← member gather state r
    moreMembers gather next t

theorem length_moreMembers_le (gather : Gather σ) (state a : σ) (s r : List Char)
    (h : moreMembers gather state s = .ok (a, r)) : r.length ≤ s.length := by
  fun_induction moreMembers gather state s with
  | case1 => cases h
  | case2 state s t hs => have := length_nextName_lt hs; cases h; omega
  | case3 => cases h
  | case4 state s t hs next u hu ih =>
    have := length_nextName_lt hs
    have := member_shortens gather state hu
    have := ih h
    omega

theorem length_members_le {gather : Gather σ} {state a : σ} {s r : List Char}
    (h : members gather state s = .ok (a, r)) : r.length ≤ s.length := by
  obtain ⟨⟨more, t⟩, ht, h⟩ := bind_eq_ok.1 h
  have := length_firstName_lt ht
  cases more with
  | false => cases h; omega
  | true =>
    obtain ⟨⟨next, u⟩, hu, h⟩ := bind_eq_ok.1 h
    have := member_shortens gather state hu
    have := length_moreMembers_le _ _ _ _ _ h
    omega

end Listeners.Json
