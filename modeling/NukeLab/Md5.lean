import Mathlib.Data.List.Basic

namespace NukeLab.Md5

def wordSize : Nat := 0x100000000

def rotateLeft (x n : Nat) : Nat := (x <<< n) % wordSize ||| x >>> (32 - n)

def complement (x : Nat) : Nat := x ^^^ (wordSize - 1)

structure Digest where
  a : Nat
  b : Nat
  c : Nat
  d : Nat

def initial : Digest := ⟨0x67452301, 0xefcdab89, 0x98badcfe, 0x10325476⟩

/-- The integer parts of the sines, one for each of the 64 operations. -/
def sines : List Nat :=
  [0xd76aa478, 0xe8c7b756, 0x242070db, 0xc1bdceee, 0xf57c0faf, 0x4787c62a, 0xa8304613, 0xfd469501,
    0x698098d8, 0x8b44f7af, 0xffff5bb1, 0x895cd7be, 0x6b901122, 0xfd987193, 0xa679438e, 0x49b40821,
    0xf61e2562, 0xc040b340, 0x265e5a51, 0xe9b6c7aa, 0xd62f105d, 0x02441453, 0xd8a1e681, 0xe7d3fbc8,
    0x21e1cde6, 0xc33707d6, 0xf4d50d87, 0x455a14ed, 0xa9e3e905, 0xfcefa3f8, 0x676f02d9, 0x8d2a4c8a,
    0xfffa3942, 0x8771f681, 0x6d9d6122, 0xfde5380c, 0xa4beea44, 0x4bdecfa9, 0xf6bb4b60, 0xbebfbc70,
    0x289b7ec6, 0xeaa127fa, 0xd4ef3085, 0x04881d05, 0xd9d4d039, 0xe6db99e5, 0x1fa27cf8, 0xc4ac5665,
    0xf4292244, 0x432aff97, 0xab9423a7, 0xfc93a039, 0x655b59c3, 0x8f0ccc92, 0xffeff47d, 0x85845dd1,
    0x6fa87e4f, 0xfe2ce6e0, 0xa3014314, 0x4e0811a1, 0xf7537e82, 0xbd3af235, 0x2ad7d2bb, 0xeb86d391]

def shifts (i : Nat) : Nat :=
  match i / 16 with
  | 0 => [7, 12, 17, 22].getD (i % 4) 0
  | 1 => [5, 9, 14, 20].getD (i % 4) 0
  | 2 => [4, 11, 16, 23].getD (i % 4) 0
  | _ => [6, 10, 15, 21].getD (i % 4) 0

/-- The mixing function of an operation, and the word of the block it reads. -/
def mix (s : Digest) (i : Nat) : Nat × Nat :=
  match i / 16 with
  | 0 => (s.b &&& s.c ||| complement s.b &&& s.d, i)
  | 1 => (s.d &&& s.b ||| complement s.d &&& s.c, (5 * i + 1) % 16)
  | 2 => (s.b ^^^ s.c ^^^ s.d, (3 * i + 5) % 16)
  | _ => (s.c ^^^ (s.b ||| complement s.d), 7 * i % 16)

def operation (block : List Nat) (s : Digest) (i : Nat × Nat) : Digest :=
  let f := mix s i.1
  ⟨s.d, (s.b + rotateLeft ((s.a + f.1 + i.2 + block.getD f.2 0) % wordSize) (shifts i.1)) % wordSize, s.b, s.c⟩

def compress (s : Digest) (block : List Nat) : Digest :=
  let t := ((List.range 64).zip sines).foldl (operation block) s
  ⟨(s.a + t.a) % wordSize, (s.b + t.b) % wordSize, (s.c + t.c) % wordSize, (s.d + t.d) % wordSize⟩

def littleEndian : Nat → Nat → List Nat
  | 0, _ => []
  | k + 1, n => n % 256 :: littleEndian k (n / 256)

def words : List Nat → List Nat
  | a :: b :: c :: d :: rest => (a + 256 * (b + 256 * (c + 256 * d))) :: words rest
  | _ => []

def pad (bytes : List Nat) : List Nat :=
  bytes ++ 128 :: (List.replicate ((119 - bytes.length % 64) % 64) 0 ++ littleEndian 8 (8 * bytes.length))

def blocks (ws : List Nat) : List (List Nat) := (List.range (ws.length / 16)).map fun k => (ws.drop (16 * k)).take 16

/-- The digest of a text of bytes, as the number its hexadecimal form is. -/
def md5 (bytes : List Nat) : Nat :=
  let s := (blocks (words (pad bytes))).foldl compress initial
  (littleEndian 4 s.a ++ littleEndian 4 s.b ++ littleEndian 4 s.c ++ littleEndian 4 s.d).foldl (fun n b => 256 * n + b) 0

example : md5 [97, 98, 99] = 0x900150983cd24fb0d6963f7d28e17f72 := by decide +kernel

end NukeLab.Md5
