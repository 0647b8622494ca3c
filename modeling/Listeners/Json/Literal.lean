import Listeners.Json.Reader
/-!
The characters of a string, from its opening quote to its closing quote. A character
beyond the basic plane may be written as two escapes, a leading and a trailing
surrogate.
-/
namespace Listeners.Json

def hexValue? (c : Char) : Option Nat :=
  if c.isDigit then some (c.toNat - '0'.toNat)
  else if 'a' ≤ c ∧ c ≤ 'f' then some (c.toNat - 'a'.toNat + 10)
  else if 'A' ≤ c ∧ c ≤ 'F' then some (c.toNat - 'A'.toNat + 10)
  else none

/-- Four hexadecimal digits. Where these are not the next four bytes, all four count as used. -/
def fourDigits : Scan Nat
  | a :: b :: c :: d :: r =>
    match hexValue? a, hexValue? b, hexValue? c, hexValue? d with
    | some a, some b, some c, some d => .ok (((a * 16 + b) * 16 + c) * 16 + d, r)
    | _, _, _, _ => .error ⟨.badEscape, byteCount (a :: b :: c :: d :: r) - 4⟩
  | s =>
    if byteCount s < 4 then .error (.before .endInString [])
    else .error ⟨.badEscape, byteCount s - 4⟩

theorem fourDigits_shortens : Shortens fourDigits := by
  intro s n r h
  unfold fourDigits at h
  split at h
  · split at h
    · cases h
      simp only [List.length_cons]
      omega
    · cases h
  · split at h <;> cases h

def isLeading (n : Nat) : Bool := 0xd800 ≤ n && n ≤ 0xdbff

def isTrailing (n : Nat) : Bool := 0xdc00 ≤ n && n ≤ 0xdfff

def trailing (lead : Nat) : Scan Char
  | '\\' :: 'u' :: r => do
    let (n, rest) ← fourDigits r
    if isTrailing n then .ok (Char.ofNat (0x10000 + (lead - 0xd800) * 0x400 + (n - 0xdc00)), rest)
    else .error (.before .loneSurrogate rest)
  | [] | ['\\'] => .error (.before .endInString [])
  | '\\' :: r => .error (.on .unpairedSurrogate r)
  | r => .error (.on .unpairedSurrogate r)

def codePoint (s : List Char) : Except Fault (Char × List Char) := do
  let (n, rest) ← fourDigits s
  if isTrailing n then .error (.before .loneSurrogate rest)
  else if isLeading n then trailing n rest
  else .ok (Char.ofNat n, rest)

def escape : Scan Char
  | [] => .error (.before .endInString [])
  | '"' :: r => .ok ('"', r)
  | '\\' :: r => .ok ('\\', r)
  | '/' :: r => .ok ('/', r)
  | 'b' :: r => .ok ('\x08', r)
  | 'f' :: r => .ok ('\x0c', r)
  | 'n' :: r => .ok ('\n', r)
  | 'r' :: r => .ok ('\r', r)
  | 't' :: r => .ok ('\t', r)
  | 'u' :: r => codePoint r
  | s => .error (.on .badEscape s)

theorem trailing_shortens (lead : Nat) : Shortens (trailing lead) := by
  intro s c r h
  unfold trailing at h
  split at h
  · obtain ⟨⟨n, rest⟩, hn, h⟩ := bind_eq_ok.1 h
    have := fourDigits_shortens hn
    simp only at h
    split at h
    · obtain ⟨_, rfl⟩ := Prod.mk.inj (Except.ok.inj h)
      simp only [List.length_cons]
      omega
    · cases h
  all_goals cases h

theorem codePoint_shortens : Shortens codePoint := by
  intro s c r h
  obtain ⟨⟨n, rest⟩, hn, h⟩ := bind_eq_ok.1 h
  have hlt := fourDigits_shortens hn
  simp only at h
  split at h
  · cases h
  · split at h
    · have := trailing_shortens n h; omega
    · cases h; exact hlt

theorem escape_shortens : Shortens escape := by
  intro s c r h
  unfold escape at h
  split at h
  case h_10 => exact Nat.lt_succ_of_lt (codePoint_shortens h)
  all_goals cases h
  all_goals exact Nat.lt_succ_self _

def characters (read : List Char) (s : List Char) : Except Fault (String × List Char) :=
  match s with
  | [] => .error (.before .endInString [])
  | '"' :: r => .ok (String.ofList read.reverse, r)
  | '\\' :: r =>
    match _h : escape r with
    | .ok (c, rest) => characters (c :: read) rest
    | .error fault => .error fault
  | c :: r =>
    if c.toNat < 32 then .error (.on .controlCharacter (c :: r)) else characters (c :: read) r
termination_by s.length
decreasing_by
  · exact Nat.lt_succ_of_lt (escape_shortens _h)
  · exact Nat.lt_succ_self _

theorem characters_shortens (read : List Char) : Shortens (characters read) := by
  intro s
  fun_induction characters read s with
  | case1 => intro a r h; cases h
  | case2 read t => intro a r h; cases h; exact Nat.lt_succ_self _
  | case3 read t c rest hc ih =>
    intro a r h
    exact Nat.lt_succ_of_lt (Nat.lt_trans (ih h) (escape_shortens hc))
  | case4 => intro a r h; cases h
  | case5 => intro a r h; cases h
  | case6 read c t _ _ _ ih => intro a r h; exact Nat.lt_succ_of_lt (ih h)

theorem characters_quote (read r : List Char) :
    characters read ('"' :: r) = .ok (String.ofList read.reverse, r) := by
  rw [characters]

theorem characters_escape {read r rest : List Char} {c : Char} (h : escape r = .ok (c, rest)) :
    characters read ('\\' :: r) = characters (c :: read) rest := by
  rw [characters]
  split
  · next h' => rw [h] at h'; cases h'; rfl
  · next h' => rw [h] at h'; cases h'

theorem characters_plain {read r : List Char} {c : Char} (hq : c ≠ '"') (hb : c ≠ '\\')
    (hc : 32 ≤ c.toNat) : characters read (c :: r) = characters (c :: read) r := by
  rw [characters]
  · rw [if_neg (by omega)]
  · exact hq
  · exact hb

def string : Scan String := characters []

theorem string_shortens : Shortens string := characters_shortens []

end Listeners.Json
