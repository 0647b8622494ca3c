import Listeners.Json.Compound
/-!
Passing over a value that nobody asked for. It is checked for its form and not read:
brackets may be nested to any depth, numbers may be of any size, and escapes are not
put together.
-/
namespace Listeners.Json

def simpleEscape (c : Char) : Bool := ['"', '\\', '/', 'b', 'f', 'n', 'r', 't'].contains c

def skipString (s : List Char) : Except Fault (List Char) :=
  match s with
  | [] => .error (.before .endInString [])
  | '"' :: r => .ok r
  | ['\\'] => .error (.before .endInString [])
  | '\\' :: 'u' :: r =>
    match _h : fourDigits r with
    | .ok (_, rest) => skipString rest
    | .error fault => .error fault
  | '\\' :: c :: r => if simpleEscape c then skipString r else .error (.on .badEscape (c :: r))
  | c :: r => if c.toNat < 32 then .error (.before .controlCharacter (c :: r)) else skipString r
termination_by s.length
decreasing_by
  · exact Nat.lt_succ_of_lt (Nat.lt_succ_of_lt (fourDigits_shortens _h))
  · exact Nat.lt_succ_of_lt (Nat.lt_succ_self _)
  · exact Nat.lt_succ_self _

theorem length_skipString_lt {s r : List Char} (h : skipString s = .ok r) : r.length < s.length := by
  fun_induction skipString s with
  | case2 => cases h; exact Nat.lt_succ_self _
  | case4 t n rest hn ih =>
    exact Nat.lt_succ_of_lt (Nat.lt_succ_of_lt (Nat.lt_trans (ih h) (fourDigits_shortens hn)))
  | case6 c t _ _ ih => exact Nat.lt_succ_of_lt (Nat.lt_succ_of_lt (ih h))
  | case9 c t _ _ _ _ _ ih => exact Nat.lt_succ_of_lt (ih h)
  | _ => cases h

def skipScalar : List Char → Except Fault (List Char)
  | [] => .error (.on .endInValue [])
  | 'n' :: r => word ['u', 'l', 'l'] r
  | 't' :: r => word ['r', 'u', 'e'] r
  | 'f' :: r => word ['a', 'l', 's', 'e'] r
  | '"' :: r => skipString r
  | '-' :: r => (numeral .badNumber true r).map (·.2)
  | c :: r =>
    if c.isDigit then (numeral .badNumber false (c :: r)).map (·.2)
    else .error (.on .noValue (c :: r))

theorem length_skipScalar_lt {s r : List Char} (h : skipScalar s = .ok r) : r.length < s.length := by
  unfold skipScalar at h
  split at h
  · cases h
  · exact Nat.lt_succ_of_le (length_word_le h)
  · exact Nat.lt_succ_of_le (length_word_le h)
  · exact Nat.lt_succ_of_le (length_word_le h)
  · exact Nat.lt_succ_of_lt (length_skipString_lt h)
  · obtain ⟨⟨n, t⟩, ht, rfl⟩ := map_eq_ok.1 h
    exact Nat.lt_succ_of_lt (numeral_shortens _ _ ht)
  · split at h
    · obtain ⟨⟨n, t⟩, ht, rfl⟩ := map_eq_ok.1 h
      exact numeral_shortens _ _ ht
    · cases h

inductive Bracket where
  | list
  | object
  deriving DecidableEq, Repr

inductive Stage where
  | value
  | opened (b : Bracket)
  | ended

def Bracket.atEnd : Bracket → Cause
  | list => .endInList
  | object => .endInObject

def Bracket.noSeparator : Bracket → Cause
  | list => .noListSeparator
  | object => .noObjectSeparator

def Bracket.closer : Bracket → Char
  | list => ']'
  | object => '}'

def beforeValue (b : Bracket) (s : List Char) : Except Fault (List Char) :=
  match b with
  | .list => .ok s
  | .object =>
    match skipSpace s with
    | [] => .error (.on .endInObject [])
    | '"' :: r => (skipString r).bind afterColon
    | r => .error (.on .nameNotString r)

theorem length_beforeValue_le {b : Bracket} {s r : List Char} (h : beforeValue b s = .ok r) :
    r.length ≤ s.length := by
  unfold beforeValue at h
  split at h
  · cases h; exact Nat.le_refl _
  · split at h
    · cases h
    · next hs =>
      obtain ⟨t, ht, h⟩ := bind_eq_ok.1 h
      have := length_lt_of_skipSpace hs
      have := length_skipString_lt ht
      have := length_afterColon_lt h
      omega
    · cases h

def Stage.weight : Stage → Nat
  | opened _ => 1
  | _ => 0

def skip (stage : Stage) (enclosing : List Bracket) (s : List Char) : Except Fault (List Char) :=
  match stage with
  | .value =>
    match _hs : skipSpace s with
    | '[' :: r => skip (.opened .list) enclosing r
    | '{' :: r => skip (.opened .object) enclosing r
    | t =>
      match _ht : skipScalar t with
      | .ok r => skip .ended enclosing r
      | .error fault => .error fault
  | .opened b =>
    match _hs : skipSpace s with
    | [] => .error (.on b.atEnd [])
    | c :: r =>
      if c = b.closer then skip .ended enclosing r
      else
        match _hr : beforeValue b (c :: r) with
        | .ok t => skip .value (b :: enclosing) t
        | .error fault => .error fault
  | .ended =>
    match enclosing with
    | [] => .ok s
    | b :: outer =>
      match _hs : skipSpace s with
      | [] => .error (.on b.atEnd [])
      | c :: r =>
        if c = b.closer then skip .ended outer r
        else if c = ',' then
          match _hr : beforeValue b r with
          | .ok t => skip .value (b :: outer) t
          | .error fault => .error fault
        else .error (.on b.noSeparator (c :: r))
termination_by 2 * s.length + stage.weight
decreasing_by
  · have := length_lt_of_skipSpace _hs
    simp only [Stage.weight]
    omega
  · have := length_lt_of_skipSpace _hs
    simp only [Stage.weight]
    omega
  · have hle := length_skipSpace_le s
    have := length_skipScalar_lt _ht
    rw [_hs] at hle
    simp only [Stage.weight]
    omega
  · have := length_lt_of_skipSpace _hs
    simp only [Stage.weight]
    omega
  · have hle := length_skipSpace_le s
    have := length_beforeValue_le _hr
    rw [_hs] at hle
    simp only [Stage.weight]
    omega
  · have := length_lt_of_skipSpace _hs
    simp only [Stage.weight]
    omega
  · have := length_lt_of_skipSpace _hs
    have := length_beforeValue_le _hr
    simp only [Stage.weight]
    omega

def Stage.least : Stage → Nat
  | value => 1
  | _ => 0

theorem length_skip_le {stage : Stage} {enclosing : List Bracket} {s r : List Char}
    (h : skip stage enclosing s = .ok r) : r.length + stage.least ≤ s.length := by
  fun_induction skip stage enclosing s with
  | case1 enclosing s t hs ih => exact Nat.lt_of_le_of_lt (ih h) (length_lt_of_skipSpace hs)
  | case2 enclosing s t hs ih => exact Nat.lt_of_le_of_lt (ih h) (length_lt_of_skipSpace hs)
  | case3 enclosing s _ _ t ht ih =>
    exact Nat.lt_of_le_of_lt (ih h) (Nat.lt_of_lt_of_le (length_skipScalar_lt ht) (length_skipSpace_le s))
  | case6 enclosing s b t hs ih => exact Nat.le_trans (ih h) (Nat.le_of_lt (length_lt_of_skipSpace hs))
  | case7 enclosing s b c t hs _ u hu ih =>
    have hi := ih h
    have := length_lt_of_skipSpace hs
    have := length_beforeValue_le hu
    simp only [Stage.least, List.length_cons] at *
    omega
  | case9 s => cases h; exact Nat.le_refl _
  | case11 s b outer t hs ih => exact Nat.le_trans (ih h) (Nat.le_of_lt (length_lt_of_skipSpace hs))
  | case12 s b outer t u hu hs _ ih =>
    have hi := ih h
    have := length_lt_of_skipSpace hs
    have := length_beforeValue_le hu
    simp only [Stage.least] at *
    omega
  | _ => cases h

def skipped : Reader Unit where
  run s := (skip .value [] s).map ((), ·)
  shortens := by
    intro s a r h
    obtain ⟨t, ht, h⟩ := map_eq_ok.1 h
    cases h
    exact length_skip_le ht

end Listeners.Json
