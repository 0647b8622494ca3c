/-!
Names inside generated code and inside written tables: a double-quoted literal in
which a quote, a backslash and the control characters are escaped and all else
stands for itself.
-/
namespace Listeners.Text

def hexDigit (n : Nat) : Char := Nat.digitChar n

theorem hexDigit_plain :
    ∀ n < 16, 32 ≤ (hexDigit n).toNat ∧ hexDigit n ≠ '"' ∧ hexDigit n ≠ '\\' := by decide

def escaped (c : Char) : List Char :=
  if c = '"' then ['\\', '"']
  else if c = '\\' then ['\\', '\\']
  else if c = '\n' then ['\\', 'n']
  else if c = '\r' then ['\\', 'r']
  else if c = '\t' then ['\\', 't']
  else if c = '\x08' then ['\\', 'b']
  else if c = '\x0c' then ['\\', 'f']
  else if c.toNat < 32 then ['\\', 'u', '0', '0', hexDigit (c.toNat / 16), hexDigit (c.toNat % 16)]
  else [c]

def letterEscapes : List (Char × Char) :=
  [('"', '"'), ('\\', '\\'), ('n', '\n'), ('r', '\r'), ('t', '\t'), ('b', '\x08'), ('f', '\x0c')]

theorem escaped_cases (c : Char) :
    (∃ letter, (letter, c) ∈ letterEscapes ∧ escaped c = ['\\', letter]) ∨
    (c.toNat < 32 ∧
      escaped c = ['\\', 'u', '0', '0', hexDigit (c.toNat / 16), hexDigit (c.toNat % 16)]) ∨
    (c ≠ '"' ∧ c ≠ '\\' ∧ 32 ≤ c.toNat ∧ escaped c = [c]) := by
  unfold escaped
  split
  · subst c; exact Or.inl ⟨'"', by simp [letterEscapes], rfl⟩
  split
  · subst c; exact Or.inl ⟨'\\', by simp [letterEscapes], rfl⟩
  split
  · subst c; exact Or.inl ⟨'n', by simp [letterEscapes], rfl⟩
  split
  · subst c; exact Or.inl ⟨'r', by simp [letterEscapes], rfl⟩
  split
  · subst c; exact Or.inl ⟨'t', by simp [letterEscapes], rfl⟩
  split
  · subst c; exact Or.inl ⟨'b', by simp [letterEscapes], rfl⟩
  split
  · subst c; exact Or.inl ⟨'f', by simp [letterEscapes], rfl⟩
  split
  · next control => exact Or.inr (Or.inl ⟨control, rfl⟩)
  · next notQuote notBackslash _ _ _ _ _ visible =>
    exact Or.inr (Or.inr ⟨notQuote, notBackslash, by omega, rfl⟩)

def quote (s : String) : String :=
  String.ofList ('"' :: s.toList.flatMap escaped ++ ['"'])

theorem toList_quote (s : String) :
    (quote s).toList = '"' :: s.toList.flatMap escaped ++ ['"'] := by
  simp [quote]

end Listeners.Text
