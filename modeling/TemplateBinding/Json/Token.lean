import TemplateBinding.Json.Basic

/-!
# JSON tokens

The lexical rules of JSON: blanks separate tokens, strings hold no raw control characters, and
numbers have no leading zeros.  A text is cut into its tokens, or refused.
-/
namespace TemplateBinding.Json
set_option autoImplicit false

/-- A string token is `none` when its escapes leave a surrogate without its partner. -/
inductive Token where
  | openArray
  | closeArray
  | openObject
  | closeObject
  | comma
  | colon
  | string (text : Option String)
  | scalar (value : Json)
  deriving Repr

def isBlank (c : Char) : Bool := c == ' ' || c == '\t' || c == '\n' || c == '\r'

/-! ## Strings -/

/-- One element of a string: a character as it stands, or a sixteen-bit unit from an escape. -/
inductive Unit16 where
  | char (c : Char)
  | code (n : Nat)
  deriving Repr, DecidableEq

def hexValue? (c : Char) : Option Nat :=
  if '0' ≤ c ∧ c ≤ '9' then some (c.toNat - 0x30)
  else if 'a' ≤ c ∧ c ≤ 'f' then some (c.toNat - 0x61 + 10)
  else if 'A' ≤ c ∧ c ≤ 'F' then some (c.toNat - 0x41 + 10)
  else none

def hexUnit? (p q r s : Char) : Option Nat := do
  let p ← hexValue? p
  let q ← hexValue? q
  let r ← hexValue? r
  let s ← hexValue? s
  return ((p * 16 + q) * 16 + r) * 16 + s

def shortEscape? : Char → Option Char
  | '"' => some '"'
  | '\\' => some '\\'
  | '/' => some '/'
  | 'b' => some '\x08'
  | 'f' => some '\x0c'
  | 'n' => some '\n'
  | 'r' => some '\r'
  | 't' => some '\t'
  | _ => none

/-- Reads the elements of a string up to its closing quote, and returns what follows it. -/
def scanString : List Char → Option (List Unit16 × List Char)
  | [] => none
  | '"' :: rest => some ([], rest)
  | '\\' :: 'u' :: p :: q :: r :: s :: rest => do
      let unit ← hexUnit? p q r s
      let (units, rest) ← scanString rest
      return (.code unit :: units, rest)
  | '\\' :: letter :: rest => do
      let c ← shortEscape? letter
      let (units, rest) ← scanString rest
      return (.char c :: units, rest)
  | c :: rest =>
      if c.toNat < 0x20 ∨ c = '\\' then none
      else do
        let (units, rest) ← scanString rest
        return (.char c :: units, rest)

def isHighSurrogate (n : Nat) : Bool := 0xD800 ≤ n && n < 0xDC00

def isLowSurrogate (n : Nat) : Bool := 0xDC00 ≤ n && n < 0xE000

/-- Joins surrogate pairs.  There is no text when a surrogate stands alone. -/
def joinUnits : List Unit16 → Option (List Char)
  | [] => some []
  | .char c :: units => (joinUnits units).map (c :: ·)
  | .code high :: .code low :: units =>
      if isHighSurrogate high && isLowSurrogate low then
        (joinUnits units).map
          (Char.ofNat (0x10000 + (high - 0xD800) * 0x400 + (low - 0xDC00)) :: ·)
      else if isHighSurrogate high || isLowSurrogate high then none
      else (joinUnits (.code low :: units)).map (Char.ofNat high :: ·)
  | .code n :: units =>
      if isHighSurrogate n || isLowSurrogate n then none
      else (joinUnits units).map (Char.ofNat n :: ·)

/-! ## Numbers -/

def isDigit (c : Char) : Bool := '0' ≤ c && c ≤ '9'

def digitsValue (digits : List Char) : Nat :=
  digits.foldl (fun value c => 10 * value + (c.toNat - 0x30)) 0

/-- Splits a text after its leading digits, of which there is at least one. -/
def scanDigits (chars : List Char) : Option (List Char × List Char) :=
  if (chars.takeWhile isDigit).isEmpty then none
  else some (chars.takeWhile isDigit, chars.dropWhile isDigit)

/-- A fraction, if there is one.  The Boolean tells whether there was. -/
def scanFraction : List Char → Option (Bool × List Char)
  | '.' :: rest => do
      let (_, rest) ← scanDigits rest
      return (true, rest)
  | rest => some (false, rest)

/-- An exponent, if there is one.  The Boolean tells whether there was. -/
def scanExponent : List Char → Option (Bool × List Char)
  | [] => some (false, [])
  | c :: rest =>
      if c = 'e' ∨ c = 'E' then do
        let unsigned := match rest with
          | '+' :: rest => rest
          | '-' :: rest => rest
          | rest => rest
        let (_, rest) ← scanDigits unsigned
        return (true, rest)
      else some (false, c :: rest)

/-- The value of a number.  Only integers are supported, and negative zero is none of them. -/
def numberValue (negative : Bool) (digits : List Char) (isInteger : Bool) : Json :=
  if !isInteger then unsupported
  else if negative then
    if digitsValue digits = 0 then unsupported else int (-(digitsValue digits : Int))
  else int (digitsValue digits : Int)

def scanUnsigned (negative : Bool) (chars : List Char) : Option (Json × List Char) := do
  let (digits, rest) ← scanDigits chars
  if digits.head? = some '0' ∧ digits.length ≠ 1 then none
  let (hasFraction, rest) ← scanFraction rest
  let (hasExponent, rest) ← scanExponent rest
  return (numberValue negative digits (!hasFraction && !hasExponent), rest)

def scanNumber : List Char → Option (Json × List Char)
  | '-' :: rest => scanUnsigned true rest
  | chars => scanUnsigned false chars

/-! ## Tokens -/

/-- The token at the front of a text, and what follows it. -/
def scanToken : List Char → Option (Token × List Char)
  | '[' :: rest => some (.openArray, rest)
  | ']' :: rest => some (.closeArray, rest)
  | '{' :: rest => some (.openObject, rest)
  | '}' :: rest => some (.closeObject, rest)
  | ',' :: rest => some (.comma, rest)
  | ':' :: rest => some (.colon, rest)
  | '"' :: rest => do
      let (units, rest) ← scanString rest
      return (.string ((joinUnits units).map String.ofList), rest)
  | 'n' :: 'u' :: 'l' :: 'l' :: rest => some (.scalar null, rest)
  | 't' :: 'r' :: 'u' :: 'e' :: rest => some (.scalar (bool true), rest)
  | 'f' :: 'a' :: 'l' :: 's' :: 'e' :: rest => some (.scalar (bool false), rest)
  | chars => do
      let (value, rest) ← scanNumber chars
      return (.scalar value, rest)

theorem length_scanString (chars : List Char) {units : List Unit16} {rest : List Char}
    (h : scanString chars = some (units, rest)) : rest.length < chars.length := by
  fun_induction scanString chars generalizing units rest with
  | case1 => cases h
  | case2 tail => cases h; simp
  | case3 p q r s tail ih =>
    simp only [Option.bind_eq_bind, Option.bind_eq_some_iff] at h
    obtain ⟨_, _, ⟨_, _⟩, hTail, hResult⟩ := h
    cases hResult
    have := ih hTail
    simp only [List.length_cons]
    omega
  | case4 letter tail _ ih =>
    simp only [Option.bind_eq_bind, Option.bind_eq_some_iff] at h
    obtain ⟨_, _, ⟨_, _⟩, hTail, hResult⟩ := h
    cases hResult
    have := ih hTail
    simp only [List.length_cons]
    omega
  | case5 => cases h
  | case6 c tail _ _ _ _ ih =>
    simp only [Option.bind_eq_bind, Option.bind_eq_some_iff] at h
    obtain ⟨⟨_, _⟩, hTail, hResult⟩ := h
    cases hResult
    have := ih hTail
    simp only [List.length_cons]
    omega

theorem length_scanDigits {chars digits rest : List Char}
    (h : scanDigits chars = some (digits, rest)) : rest.length < chars.length := by
  rw [scanDigits] at h
  split at h
  · cases h
  · rename_i hDigits
    cases h
    have hLength := congrArg List.length (List.takeWhile_append_dropWhile (p := isDigit) (l := chars))
    rw [List.length_append] at hLength
    have hPositive : 0 < (chars.takeWhile isDigit).length := by
      rw [List.length_pos_iff]
      simpa using hDigits
    omega

theorem length_scanFraction {chars rest : List Char} {found : Bool}
    (h : scanFraction chars = some (found, rest)) : rest.length ≤ chars.length := by
  rw [scanFraction.eq_def] at h
  split at h
  · simp only [Option.bind_eq_bind, Option.bind_eq_some_iff] at h
    obtain ⟨⟨_, _⟩, hDigits, hResult⟩ := h
    cases hResult
    have := length_scanDigits hDigits
    simp only [List.length_cons]
    omega
  · cases h
    exact Nat.le_refl _

theorem length_scanExponent {chars rest : List Char} {found : Bool}
    (h : scanExponent chars = some (found, rest)) : rest.length ≤ chars.length := by
  rw [scanExponent.eq_def] at h
  split at h
  · cases h
    exact Nat.le_refl _
  · split at h
    · simp only [Option.bind_eq_bind, Option.bind_eq_some_iff] at h
      obtain ⟨⟨_, _⟩, hDigits, hResult⟩ := h
      cases hResult
      have := length_scanDigits hDigits
      simp only [List.length_cons]
      split at this <;> simp only [List.length_cons] at * <;> omega
    · cases h
      exact Nat.le_refl _

theorem length_scanUnsigned {negative : Bool} {chars rest : List Char} {value : Json}
    (h : scanUnsigned negative chars = some (value, rest)) : rest.length < chars.length := by
  rw [scanUnsigned] at h
  simp only [Option.bind_eq_bind, Option.bind_eq_some_iff] at h
  obtain ⟨⟨digits, afterDigits⟩, hDigits, hRest⟩ := h
  split at hRest
  · cases hRest
  · simp only [Option.bind_eq_some_iff] at hRest
    obtain ⟨⟨_, _⟩, hFraction, ⟨_, _⟩, hExponent, hResult⟩ := hRest
    cases hResult
    exact Nat.lt_of_le_of_lt
      (Nat.le_trans (length_scanExponent hExponent) (length_scanFraction hFraction))
      (length_scanDigits hDigits)

theorem length_scanNumber {chars rest : List Char} {value : Json}
    (h : scanNumber chars = some (value, rest)) : rest.length < chars.length := by
  rw [scanNumber.eq_def] at h
  split at h
  · have := length_scanUnsigned h
    simp only [List.length_cons]
    omega
  · exact length_scanUnsigned h

theorem length_scanToken {chars rest : List Char} {token : Token}
    (h : scanToken chars = some (token, rest)) : rest.length < chars.length := by
  rw [scanToken.eq_def] at h
  split at h
  all_goals try (cases h; simp only [List.length_cons]; omega)
  · simp only [Option.bind_eq_bind, Option.bind_eq_some_iff] at h
    obtain ⟨⟨_, _⟩, hString, hResult⟩ := h
    cases hResult
    have := length_scanString _ hString
    simp only [List.length_cons]
    omega
  · simp only [Option.bind_eq_bind, Option.bind_eq_some_iff] at h
    obtain ⟨⟨_, _⟩, hNumber, hResult⟩ := h
    cases hResult
    exact length_scanNumber hNumber

def tokens (chars : List Char) : Option (List Token) :=
  match chars with
  | [] => some []
  | c :: rest =>
      if isBlank c then tokens rest
      else match _hToken : scanToken (c :: rest) with
        | none => none
        | some (token, rest') => (tokens rest').map (token :: ·)
termination_by chars.length
decreasing_by
  · simp only [List.length_cons]; omega
  · exact length_scanToken (by assumption)

end TemplateBinding.Json
