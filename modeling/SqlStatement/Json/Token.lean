/-!
# JSON tokens

The tokens of a JSON text whose only scalars are strings and natural numbers.
Any other text has no tokens: another scalar, a leading zero, a control
character or half a surrogate pair in a string.

* `escaped?`: the character of an escape, two escapes for one outside the basic
  plane.
* `stringTail?`: a string up to its closing quotation mark.
* `tokens?`: the tokens of a whole text.
-/

namespace SqlStatement.Json

inductive Token
  | leftBrace
  | rightBrace
  | leftBracket
  | rightBracket
  | colon
  | comma
  | string (s : String)
  | natural (n : Nat)
deriving DecidableEq, Repr

/-! ### Strings -/

def hexValue? (c : Char) : Option Nat :=
  if c.isDigit then some (c.toNat - 48)
  else if 'a' ≤ c && c ≤ 'f' then some (c.toNat - 87)
  else if 'A' ≤ c && c ≤ 'F' then some (c.toNat - 55)
  else none

/-- The unit written by four hexadecimal digits. -/
def unit? (l : List Char) : Option Nat :=
  l.foldl (fun n c => do return 16 * (← n) + (← hexValue? c)) (some 0)

def isHighSurrogate (n : Nat) : Bool := 0xD800 ≤ n && n < 0xDC00

def isLowSurrogate (n : Nat) : Bool := 0xDC00 ≤ n && n < 0xE000

def ofSurrogates (high low : Nat) : Char :=
  Char.ofNat (0x10000 + (high - 0xD800) * 0x400 + (low - 0xDC00))

/-- The low half of a surrogate pair, written as an escape. -/
def lowSurrogate? : List Char → Option (Nat × List Char)
  | '\\' :: 'u' :: a :: b :: c :: d :: rest =>
    match unit? [a, b, c, d] with
    | some n => if isLowSurrogate n then some (n, rest) else none
    | none => none
  | _ => none

/-- The character of a unit, its other half read from the text behind it if there is one. -/
def ofUnit? (n : Nat) (rest : List Char) : Option (Char × List Char) :=
  if isHighSurrogate n then (lowSurrogate? rest).map fun p => (ofSurrogates n p.1, p.2)
  else if isLowSurrogate n then none
  else some (Char.ofNat n, rest)

def simpleEscape? (c : Char) : Option Char :=
  if c = '"' || c = '\\' || c = '/' then some c
  else if c = 'b' then some (Char.ofNat 8)
  else if c = 'f' then some (Char.ofNat 12)
  else if c = 'n' then some '\n'
  else if c = 'r' then some '\r'
  else if c = 't' then some '\t'
  else none

/-- The character of an escape, read behind its backslash, and what follows. -/
def escaped? : List Char → Option (Char × List Char)
  | 'u' :: a :: b :: c :: d :: rest =>
    match unit? [a, b, c, d] with
    | some n => ofUnit? n rest
    | none => none
  | c :: rest => (simpleEscape? c).map fun x => (x, rest)
  | [] => none

theorem lowSurrogate?_length {l r : List Char} {n : Nat} (h : lowSurrogate? l = some (n, r)) :
    r.length < l.length := by
  unfold lowSurrogate? at h
  split at h
  · split at h
    · split at h
      · simp only [Option.some.injEq, Prod.mk.injEq] at h
        rw [← h.2]
        simp only [List.length_cons]
        omega
      · simp at h
    · simp at h
  · simp at h

theorem ofUnit?_length {n : Nat} {l r : List Char} {x : Char} (h : ofUnit? n l = some (x, r)) :
    r.length ≤ l.length := by
  unfold ofUnit? at h
  split at h
  · obtain ⟨p, hp, he⟩ := Option.map_eq_some_iff.mp h
    simp only [Prod.mk.injEq] at he
    exact he.2 ▸ Nat.le_of_lt (lowSurrogate?_length (n := p.1) hp)
  · split at h
    · simp at h
    · simp only [Option.some.injEq, Prod.mk.injEq] at h
      exact h.2 ▸ Nat.le_refl _

theorem escaped?_length {l r : List Char} {x : Char} (h : escaped? l = some (x, r)) :
    r.length < l.length := by
  unfold escaped? at h
  split at h
  · split at h
    · have := ofUnit?_length h
      simp only [List.length_cons]
      omega
    · simp at h
  · obtain ⟨y, _, he⟩ := Option.map_eq_some_iff.mp h
    simp only [Prod.mk.injEq] at he
    rw [← he.2]
    simp
  · simp at h

/-- The rest of a string and what follows its closing quotation mark. -/
def stringTail? (l : List Char) : Option (List Char × List Char) :=
  match l with
  | [] => none
  | c :: rest =>
    if c = '"' then some ([], rest)
    else if c = '\\' then
      match h : escaped? rest with
      | none => none
      | some (x, after) =>
        have := escaped?_length h
        (stringTail? after).map fun p => (x :: p.1, p.2)
    else if c.toNat < 32 then none
    else (stringTail? rest).map fun p => (c :: p.1, p.2)
termination_by l.length
decreasing_by all_goals simp only [List.length_cons]; omega

theorem stringTail?_length : ∀ (l s r : List Char), stringTail? l = some (s, r) →
    r.length < l.length := by
  intro l
  induction hn : l.length using Nat.strongRecOn generalizing l with
  | _ n ih =>
    intro s r h
    cases l with
    | nil => simp [stringTail?] at h
    | cons c rest =>
      rw [stringTail?] at h
      simp only [List.length_cons] at hn
      split at h
      · simp only [Option.some.injEq, Prod.mk.injEq] at h
        rw [← h.2]
        omega
      · split at h
        · split at h
          · simp at h
          · next x after hx =>
            obtain ⟨p, hp, he⟩ := Option.map_eq_some_iff.mp h
            simp only [Prod.mk.injEq] at he
            have h1 := escaped?_length hx
            have h2 := ih after.length (by omega) after rfl p.1 p.2 hp
            rw [← he.2]
            omega
        · split at h
          · simp at h
          · obtain ⟨p, hp, he⟩ := Option.map_eq_some_iff.mp h
            simp only [Prod.mk.injEq] at he
            have h2 := ih rest.length (by omega) rest rfl p.1 p.2 hp
            rw [← he.2]
            omega

/-! ### Tokens -/

def isSpace (c : Char) : Bool := c = ' ' || c = '\n' || c = '\r' || c = '\t'

def mark? (c : Char) : Option Token :=
  if c = '\x7b' then some .leftBrace
  else if c = '\x7d' then some .rightBrace
  else if c = '[' then some .leftBracket
  else if c = ']' then some .rightBracket
  else if c = ':' then some .colon
  else if c = ',' then some .comma
  else none

/-- Digits without a leading zero. -/
def natural? (l : List Char) : Option Nat :=
  if l.length = 1 || l.head? != some '0' then
    some (l.foldl (fun n c => 10 * n + (c.toNat - 48)) 0)
  else none

def tokens? (l : List Char) : Option (List Token) :=
  match l with
  | [] => some []
  | c :: rest =>
    if isSpace c then tokens? rest
    else if c = '"' then
      match h : stringTail? rest with
      | none => none
      | some (s, after) =>
        have := stringTail?_length rest s after h
        (tokens? after).map (.string (String.ofList s) :: ·)
    else if c.isDigit then
      match natural? (c :: rest.takeWhile Char.isDigit) with
      | none => none
      | some n =>
        have := (List.dropWhile_sublist Char.isDigit (l := rest)).length_le
        (tokens? (rest.dropWhile Char.isDigit)).map (.natural n :: ·)
    else match mark? c with
      | none => none
      | some t => (tokens? rest).map (t :: ·)
termination_by l.length
decreasing_by all_goals simp only [List.length_cons]; omega

end SqlStatement.Json
