import NukeLab.Md5

namespace NukeLab.Sha256

open Md5 (wordSize complement blocks)

def rotateRight (x n : Nat) : Nat := x >>> n ||| (x <<< (32 - n)) % wordSize

structure Digest where
  a : Nat
  b : Nat
  c : Nat
  d : Nat
  e : Nat
  f : Nat
  g : Nat
  h : Nat

def initial : Digest :=
  ⟨0x6a09e667, 0xbb67ae85, 0x3c6ef372, 0xa54ff53a, 0x510e527f, 0x9b05688c, 0x1f83d9ab, 0x5be0cd19⟩

/-- The fractional parts of the cube roots of the first 64 primes. -/
def cubeRoots : List Nat :=
  [0x428a2f98, 0x71374491, 0xb5c0fbcf, 0xe9b5dba5, 0x3956c25b, 0x59f111f1, 0x923f82a4, 0xab1c5ed5,
    0xd807aa98, 0x12835b01, 0x243185be, 0x550c7dc3, 0x72be5d74, 0x80deb1fe, 0x9bdc06a7, 0xc19bf174,
    0xe49b69c1, 0xefbe4786, 0x0fc19dc6, 0x240ca1cc, 0x2de92c6f, 0x4a7484aa, 0x5cb0a9dc, 0x76f988da,
    0x983e5152, 0xa831c66d, 0xb00327c8, 0xbf597fc7, 0xc6e00bf3, 0xd5a79147, 0x06ca6351, 0x14292967,
    0x27b70a85, 0x2e1b2138, 0x4d2c6dfc, 0x53380d13, 0x650a7354, 0x766a0abb, 0x81c2c92e, 0x92722c85,
    0xa2bfe8a1, 0xa81a664b, 0xc24b8b70, 0xc76c51a3, 0xd192e819, 0xd6990624, 0xf40e3585, 0x106aa070,
    0x19a4c116, 0x1e376c08, 0x2748774c, 0x34b0bcb5, 0x391c0cb3, 0x4ed8aa4a, 0x5b9cca4f, 0x682e6ff3,
    0x748f82ee, 0x78a5636f, 0x84c87814, 0x8cc70208, 0x90befffa, 0xa4506ceb, 0xbef9a3f7, 0xc67178f2]

/-- The next word of the schedule, after the words so far with the last one first. -/
def nextWord (ws : List Nat) : Nat :=
  let x := ws.getD 14 0
  let y := ws.getD 1 0
  (ws.getD 15 0 + (rotateRight x 7 ^^^ rotateRight x 18 ^^^ x >>> 3) + ws.getD 6 0 +
    (rotateRight y 17 ^^^ rotateRight y 19 ^^^ y >>> 10)) % wordSize

def schedule (block : List Nat) : List Nat :=
  ((List.range 48).foldl (fun ws _ => nextWord ws :: ws) block.reverse).reverse

def operation (s : Digest) (word : Nat × Nat) : Digest :=
  let sum1 := rotateRight s.e 6 ^^^ rotateRight s.e 11 ^^^ rotateRight s.e 25
  let choice := s.e &&& s.f ^^^ complement s.e &&& s.g
  let t1 := s.h + sum1 + choice + word.1 + word.2
  let sum0 := rotateRight s.a 2 ^^^ rotateRight s.a 13 ^^^ rotateRight s.a 22
  let majority := s.a &&& s.b ^^^ s.a &&& s.c ^^^ s.b &&& s.c
  ⟨(t1 + sum0 + majority) % wordSize, s.a, s.b, s.c, (s.d + t1) % wordSize, s.e, s.f, s.g⟩

def compress (s : Digest) (block : List Nat) : Digest :=
  let t := ((schedule block).zip cubeRoots).foldl operation s
  ⟨(s.a + t.a) % wordSize, (s.b + t.b) % wordSize, (s.c + t.c) % wordSize, (s.d + t.d) % wordSize,
    (s.e + t.e) % wordSize, (s.f + t.f) % wordSize, (s.g + t.g) % wordSize, (s.h + t.h) % wordSize⟩

def bigEndian (k n : Nat) : List Nat := (Md5.littleEndian k n).reverse

def words : List Nat → List Nat
  | a :: b :: c :: d :: rest => (d + 256 * (c + 256 * (b + 256 * a))) :: words rest
  | _ => []

def pad (bytes : List Nat) : List Nat :=
  bytes ++ 128 :: (List.replicate ((119 - bytes.length % 64) % 64) 0 ++ bigEndian 8 (8 * bytes.length))

def sha256 (bytes : List Nat) : List Nat :=
  let s := (blocks (words (pad bytes))).foldl compress initial
  [s.a, s.b, s.c, s.d, s.e, s.f, s.g, s.h].flatMap (bigEndian 4)

def blockKey (key : List Nat) : List Nat :=
  let key := if 64 < key.length then sha256 key else key
  key ++ List.replicate (64 - key.length) 0

def hmac (key message : List Nat) : List Nat :=
  let key := blockKey key
  sha256 (key.map (· ^^^ 0x5c) ++ sha256 (key.map (· ^^^ 0x36) ++ message))

def number (bytes : List Nat) : Nat := bytes.foldl (fun n b => 256 * n + b) 0

example : number (sha256 [97, 98, 99]) = 0xba7816bf8f01cfea414140de5dae2223b00361a396177a9cb410ff61f20015ad := by
  decide +kernel

-- The key "Jefe" on "what do ya want for nothing?".
example : number (hmac [74, 101, 102, 101] [119, 104, 97, 116, 32, 100, 111, 32, 121, 97, 32, 119, 97, 110, 116, 32, 102, 111,
    114, 32, 110, 111, 116, 104, 105, 110, 103, 63]) =
    0x5bdcc146bf60754e6a042426089575c75a003f089d2739839dec58b964ec3843 := by
  decide +kernel

end NukeLab.Sha256
