/-!
# SHA-256

The 256-bit secure hash over a sequence of bytes.  The message is padded to whole blocks of
sixteen words, every block is expanded to sixty-four words, and each of these drives one round on
the eight words of the running state.
-/
namespace TemplateBinding.Sha256
set_option autoImplicit false

def rotateRight (word amount : UInt32) : UInt32 :=
  (word >>> amount) ||| (word <<< (32 - amount))

structure State where
  a : UInt32
  b : UInt32
  c : UInt32
  d : UInt32
  e : UInt32
  f : UInt32
  g : UInt32
  h : UInt32
  deriving DecidableEq

namespace State

def initial : State :=
  ⟨0x6a09e667, 0xbb67ae85, 0x3c6ef372, 0xa54ff53a, 0x510e527f, 0x9b05688c, 0x1f83d9ab, 0x5be0cd19⟩

def words (s : State) : List UInt32 := [s.a, s.b, s.c, s.d, s.e, s.f, s.g, s.h]

def add (s t : State) : State :=
  ⟨s.a + t.a, s.b + t.b, s.c + t.c, s.d + t.d, s.e + t.e, s.f + t.f, s.g + t.g, s.h + t.h⟩

/-- One round, driven by a round constant and a word of the expanded block. -/
def round (s : State) (constant word : UInt32) : State :=
  let mixE := rotateRight s.e 6 ^^^ rotateRight s.e 11 ^^^ rotateRight s.e 25
  let choice := (s.e &&& s.f) ^^^ (~~~s.e &&& s.g)
  let mixA := rotateRight s.a 2 ^^^ rotateRight s.a 13 ^^^ rotateRight s.a 22
  let majority := (s.a &&& s.b) ^^^ (s.a &&& s.c) ^^^ (s.b &&& s.c)
  let first := s.h + mixE + choice + constant + word
  ⟨first + mixA + majority, s.a, s.b, s.c, s.d + first, s.e, s.f, s.g⟩

end State

def roundConstants : List UInt32 := [
  0x428a2f98, 0x71374491, 0xb5c0fbcf, 0xe9b5dba5, 0x3956c25b, 0x59f111f1, 0x923f82a4, 0xab1c5ed5,
  0xd807aa98, 0x12835b01, 0x243185be, 0x550c7dc3, 0x72be5d74, 0x80deb1fe, 0x9bdc06a7, 0xc19bf174,
  0xe49b69c1, 0xefbe4786, 0x0fc19dc6, 0x240ca1cc, 0x2de92c6f, 0x4a7484aa, 0x5cb0a9dc, 0x76f988da,
  0x983e5152, 0xa831c66d, 0xb00327c8, 0xbf597fc7, 0xc6e00bf3, 0xd5a79147, 0x06ca6351, 0x14292967,
  0x27b70a85, 0x2e1b2138, 0x4d2c6dfc, 0x53380d13, 0x650a7354, 0x766a0abb, 0x81c2c92e, 0x92722c85,
  0xa2bfe8a1, 0xa81a664b, 0xc24b8b70, 0xc76c51a3, 0xd192e819, 0xd6990624, 0xf40e3585, 0x106aa070,
  0x19a4c116, 0x1e376c08, 0x2748774c, 0x34b0bcb5, 0x391c0cb3, 0x4ed8aa4a, 0x5b9cca4f, 0x682e6ff3,
  0x748f82ee, 0x78a5636f, 0x84c87814, 0x8cc70208, 0x90befffa, 0xa4506ceb, 0xbef9a3f7, 0xc67178f2]

/-- Puts the next word in front of the words so far, which stand newest first. -/
def expandStep (newestFirst : List UInt32) : List UInt32 :=
  let two := newestFirst.getD 1 0
  let fifteen := newestFirst.getD 14 0
  let mixTwo := rotateRight two 17 ^^^ rotateRight two 19 ^^^ (two >>> 10)
  let mixFifteen := rotateRight fifteen 7 ^^^ rotateRight fifteen 18 ^^^ (fifteen >>> 3)
  (mixTwo + newestFirst.getD 6 0 + mixFifteen + newestFirst.getD 15 0) :: newestFirst

/-- The sixteen words of a block followed by forty-eight words computed from them. -/
def expand (block : List UInt32) : List UInt32 :=
  (Nat.repeat expandStep 48 block.reverse).reverse

def compress (s : State) (block : List UInt32) : State :=
  s.add ((roundConstants.zip (expand block)).foldl (fun t (constant, word) => t.round constant word) s)

/-- The message, a one bit, zeros up to a whole number of blocks, and the length in bits. -/
def pad (bytes : List UInt8) : List UInt8 :=
  let length := bytes.length
  let zeros := (119 - length % 64) % 64
  let bits := 8 * length
  let lengthBytes : List UInt8 :=
    [56, 48, 40, 32, 24, 16, 8, 0].map fun shift => UInt8.ofNat (bits >>> shift)
  bytes ++ [0x80] ++ List.replicate zeros 0 ++ lengthBytes

/-- Four bytes make a word, the most significant first. -/
def toWords : List UInt8 → List UInt32
  | p :: q :: r :: s :: rest =>
      (p.toUInt32 <<< 24 ||| q.toUInt32 <<< 16 ||| r.toUInt32 <<< 8 ||| s.toUInt32) :: toWords rest
  | _ => []

def absorb (s : State) (words : List UInt32) : State :=
  if words.length < 16 then s
  else absorb (compress s (words.take 16)) (words.drop 16)
termination_by words.length
decreasing_by simp only [List.length_drop]; omega

def digest (bytes : List UInt8) : List UInt32 := (absorb .initial (toWords (pad bytes))).words

def hexDigit (n : Nat) : Char := Nat.digitChar n

def hexWord (word : UInt32) : List Char :=
  ([28, 24, 20, 16, 12, 8, 4, 0] : List Nat).map fun shift => hexDigit ((word.toNat >>> shift) % 16)

/-- The hash of a text in UTF-8, as lower-case hexadecimal digits. -/
def hashText (text : String) : String :=
  String.ofList ((digest text.toUTF8.toList).flatMap hexWord)

end TemplateBinding.Sha256
