/-!
Fingerprints of texts: the MD5 digest of the bytes of a text, by which an edit is told from a text
that has been seen before.
-/
namespace StoryPreview

/-- Four words of a digest. -/
structure Fingerprint where
  a : UInt32
  b : UInt32
  c : UInt32
  d : UInt32
  deriving DecidableEq

namespace Fingerprint

/-- The digest of nothing, before any block. -/
def initial : Fingerprint := ⟨0x67452301, 0xefcdab89, 0x98badcfe, 0x10325476⟩

/-- The constants added in the sixty-four steps: `2 ^ 32` times the sines of 1 to 64, without sign
and fraction. -/
def constants : List UInt32 :=
  [0xd76aa478, 0xe8c7b756, 0x242070db, 0xc1bdceee, 0xf57c0faf, 0x4787c62a,
   0xa8304613, 0xfd469501, 0x698098d8, 0x8b44f7af, 0xffff5bb1, 0x895cd7be,
   0x6b901122, 0xfd987193, 0xa679438e, 0x49b40821, 0xf61e2562, 0xc040b340,
   0x265e5a51, 0xe9b6c7aa, 0xd62f105d, 0x02441453, 0xd8a1e681, 0xe7d3fbc8,
   0x21e1cde6, 0xc33707d6, 0xf4d50d87, 0x455a14ed, 0xa9e3e905, 0xfcefa3f8,
   0x676f02d9, 0x8d2a4c8a, 0xfffa3942, 0x8771f681, 0x6d9d6122, 0xfde5380c,
   0xa4beea44, 0x4bdecfa9, 0xf6bb4b60, 0xbebfbc70, 0x289b7ec6, 0xeaa127fa,
   0xd4ef3085, 0x04881d05, 0xd9d4d039, 0xe6db99e5, 0x1fa27cf8, 0xc4ac5665,
   0xf4292244, 0x432aff97, 0xab9423a7, 0xfc93a039, 0x655b59c3, 0x8f0ccc92,
   0xffeff47d, 0x85845dd1, 0x6fa87e4f, 0xfe2ce6e0, 0xa3014314, 0x4e0811a1,
   0xf7537e82, 0xbd3af235, 0x2ad7d2bb, 0xeb86d391]

/-- How far the sum is rotated in a step; four amounts alternate in each round of sixteen. -/
def rotation (i : Nat) : UInt32 :=
  let amounts : List UInt32 := match i / 16 with
    | 0 => [7, 12, 17, 22]
    | 1 => [5, 9, 14, 20]
    | 2 => [4, 11, 16, 23]
    | _ => [6, 10, 15, 21]
  amounts.getD (i % 4) 0

/-- The word of a block that a step takes. -/
def wordIndex (i : Nat) : Nat :=
  match i / 16 with
  | 0 => i
  | 1 => (5 * i + 1) % 16
  | 2 => (3 * i + 5) % 16
  | _ => 7 * i % 16

/-- The mixture of three words in a step. -/
def mix (i : Nat) (b c d : UInt32) : UInt32 :=
  match i / 16 with
  | 0 => (b &&& c) ||| (~~~b &&& d)
  | 1 => (d &&& b) ||| (~~~d &&& c)
  | 2 => b ^^^ c ^^^ d
  | _ => c ^^^ (b ||| ~~~d)

def rotateLeft (x n : UInt32) : UInt32 := (x <<< n) ||| (x >>> (32 - n))

/-- One of the sixty-four steps, numbered from zero. -/
def step (block : Array UInt32) (f : Fingerprint) (k : UInt32 × Nat) : Fingerprint :=
  let (constant, i) := k
  let sum := f.a + mix i f.b f.c f.d + constant + block.getD (wordIndex i) 0
  ⟨f.d, f.b + rotateLeft sum (rotation i), f.b, f.c⟩

/-- A block of sixteen words taken into the digest. -/
def absorb (f : Fingerprint) (block : Array UInt32) : Fingerprint :=
  let g := constants.zipIdx.foldl (step block) f
  ⟨f.a + g.a, f.b + g.b, f.c + g.c, f.d + g.d⟩

/-- Words of four bytes, the lowest byte first. -/
def wordsOf : List UInt8 → List UInt32
  | a :: b :: c :: d :: rest =>
    (a.toUInt32 ||| (b.toUInt32 <<< 8) ||| (c.toUInt32 <<< 16) ||| (d.toUInt32 <<< 24)) ::
      wordsOf rest
  | _ => []

/-- The bytes of a number, the lowest first, as many as asked for. -/
def littleEndian : Nat → Nat → List UInt8
  | 0, _ => []
  | k + 1, n => UInt8.ofNat (n % 256) :: littleEndian k (n / 256)

/-- The message filled up to whole blocks: a one bit, zeros, and its length in bits. -/
def padded (bytes : List UInt8) : List UInt8 :=
  let n := bytes.length
  let zeros := (119 - n % 64) % 64
  bytes ++ 0x80 :: List.replicate zeros 0 ++ littleEndian 8 (8 * n)

/-- Takes in words, sixteen at a time; `pending` are those of an unfinished block, last first. -/
def absorbWords (f : Fingerprint) (pending : List UInt32) (count : Nat) :
    List UInt32 → Fingerprint
  | [] => f
  | w :: ws =>
    if count = 15 then absorbWords (f.absorb (w :: pending).reverse.toArray) [] 0 ws
    else absorbWords f (w :: pending) (count + 1) ws

/-- The fingerprint of a text. -/
def ofText (s : String) : Fingerprint :=
  absorbWords initial [] 0 (wordsOf (padded s.toUTF8.toList))

end Fingerprint

end StoryPreview
