import Mathlib.Data.List.Basic

/-! SHA-256. A word is a natural number below `2 ^ 32`. -/
namespace Sha256

def roundConstants : List Nat :=
  [0x428a2f98, 0x71374491, 0xb5c0fbcf, 0xe9b5dba5, 0x3956c25b, 0x59f111f1, 0x923f82a4, 0xab1c5ed5,
    0xd807aa98, 0x12835b01, 0x243185be, 0x550c7dc3, 0x72be5d74, 0x80deb1fe, 0x9bdc06a7, 0xc19bf174,
    0xe49b69c1, 0xefbe4786, 0x0fc19dc6, 0x240ca1cc, 0x2de92c6f, 0x4a7484aa, 0x5cb0a9dc, 0x76f988da,
    0x983e5152, 0xa831c66d, 0xb00327c8, 0xbf597fc7, 0xc6e00bf3, 0xd5a79147, 0x06ca6351, 0x14292967,
    0x27b70a85, 0x2e1b2138, 0x4d2c6dfc, 0x53380d13, 0x650a7354, 0x766a0abb, 0x81c2c92e, 0x92722c85,
    0xa2bfe8a1, 0xa81a664b, 0xc24b8b70, 0xc76c51a3, 0xd192e819, 0xd6990624, 0xf40e3585, 0x106aa070,
    0x19a4c116, 0x1e376c08, 0x2748774c, 0x34b0bcb5, 0x391c0cb3, 0x4ed8aa4a, 0x5b9cca4f, 0x682e6ff3,
    0x748f82ee, 0x78a5636f, 0x84c87814, 0x8cc70208, 0x90befffa, 0xa4506ceb, 0xbef9a3f7, 0xc67178f2]

structure State where
  a : Nat := 0x6a09e667
  b : Nat := 0xbb67ae85
  c : Nat := 0x3c6ef372
  d : Nat := 0xa54ff53a
  e : Nat := 0x510e527f
  f : Nat := 0x9b05688c
  g : Nat := 0x1f83d9ab
  h : Nat := 0x5be0cd19

def add (x y : Nat) : Nat := (x + y) % 0x100000000

def rotate (word count : Nat) : Nat := word >>> count ||| (word <<< (32 - count)) % 0x100000000

/-- Three rotations of a word, added bit by bit. -/
def mix (word first second third : Nat) : Nat :=
  rotate word first ^^^ rotate word second ^^^ rotate word third

def spread (word first second shift : Nat) : Nat :=
  rotate word first ^^^ rotate word second ^^^ word >>> shift

/-- The words of a block, the newest first, with `count` more. -/
def extend : Nat → List Nat → List Nat
  | 0, words => words
  | count + 1, words =>
    let next := add (add (spread (words.getD 1 0) 17 19 10) (words.getD 6 0))
      (add (spread (words.getD 14 0) 7 18 3) (words.getD 15 0))
    extend count (next :: words)

def State.round (s : State) (constant word : Nat) : State :=
  let choice := s.e &&& s.f ^^^ (0xffffffff - s.e) &&& s.g
  let majority := s.a &&& s.b ^^^ s.a &&& s.c ^^^ s.b &&& s.c
  let first := add (add s.h (mix s.e 6 11 25)) (add choice (add constant word))
  let second := add (mix s.a 2 13 22) majority
  ⟨add first second, s.a, s.b, s.c, add s.d first, s.e, s.f, s.g⟩

def State.block (s : State) (words : List Nat) : State :=
  let schedule := (extend 48 words.reverse).reverse
  let t := (roundConstants.zip schedule).foldl (fun t entry => t.round entry.1 entry.2) s
  ⟨add s.a t.a, add s.b t.b, add s.c t.c, add s.d t.d, add s.e t.e, add s.f t.f, add s.g t.g,
    add s.h t.h⟩

def bigEndian : Nat → Nat → List UInt8
  | 0, _ => []
  | count + 1, value => bigEndian count (value / 256) ++ [value.toUInt8]

def word (bytes : List UInt8) : Nat := bytes.foldl (fun value byte => 256 * value + byte.toNat) 0

/-- The padded message: a one bit, zeros, and the length in bits. -/
def padded (bytes : List UInt8) : List UInt8 :=
  bytes ++ 0x80 :: List.replicate ((119 - bytes.length % 64) % 64) 0 ++
    bigEndian 8 (8 * bytes.length)

/-- The first `count` words of the bytes. -/
def words : Nat → List UInt8 → List Nat
  | 0, _ => []
  | count + 1, bytes => word (bytes.take 4) :: words count (bytes.drop 4)

def State.blocks (s : State) : Nat → List UInt8 → State
  | 0, _ => s
  | count + 1, bytes => (s.block (words 16 bytes)).blocks count (bytes.drop 64)

def sha256 (bytes : List UInt8) : List UInt8 :=
  let count := bytes.length / 64 + if bytes.length % 64 < 56 then 1 else 2
  let s := State.blocks {} count (padded bytes)
  [s.a, s.b, s.c, s.d, s.e, s.f, s.g, s.h].flatMap (bigEndian 4)

theorem length_bigEndian (count value : Nat) : (bigEndian count value).length = count := by
  induction count generalizing value with
  | zero => rfl
  | succ count ih => simp [bigEndian, ih]

theorem length_sha256 (bytes : List UInt8) : (sha256 bytes).length = 32 := by
  simp [sha256, length_bigEndian]

/-- The digest of `abc`. -/
example : sha256 [97, 98, 99] =
    [0xba, 0x78, 0x16, 0xbf, 0x8f, 0x01, 0xcf, 0xea, 0x41, 0x41, 0x40, 0xde, 0x5d, 0xae, 0x22, 0x23,
      0xb0, 0x03, 0x61, 0xa3, 0x96, 0x17, 0x7a, 0x9c, 0xb4, 0x10, 0xff, 0x61, 0xf2, 0x00, 0x15,
      0xad] := by
  decide +kernel

end Sha256
