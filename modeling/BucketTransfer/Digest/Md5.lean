import BucketTransfer.Utf8

/-!
# MD5

A digest of 16 bytes, which guards the body of a request against accidents.
-/
namespace BucketTransfer.Digest.Md5

def rotateLeft (x : UInt32) (n : UInt32) : UInt32 := (x <<< n) ||| (x >>> (32 - n))

/-- The constant of each step: the leading bits of a sine. -/
def stepConstants : List UInt32 := [
  0xd76aa478, 0xe8c7b756, 0x242070db, 0xc1bdceee, 0xf57c0faf, 0x4787c62a, 0xa8304613, 0xfd469501,
  0x698098d8, 0x8b44f7af, 0xffff5bb1, 0x895cd7be, 0x6b901122, 0xfd987193, 0xa679438e, 0x49b40821,
  0xf61e2562, 0xc040b340, 0x265e5a51, 0xe9b6c7aa, 0xd62f105d, 0x02441453, 0xd8a1e681, 0xe7d3fbc8,
  0x21e1cde6, 0xc33707d6, 0xf4d50d87, 0x455a14ed, 0xa9e3e905, 0xfcefa3f8, 0x676f02d9, 0x8d2a4c8a,
  0xfffa3942, 0x8771f681, 0x6d9d6122, 0xfde5380c, 0xa4beea44, 0x4bdecfa9, 0xf6bb4b60, 0xbebfbc70,
  0x289b7ec6, 0xeaa127fa, 0xd4ef3085, 0x04881d05, 0xd9d4d039, 0xe6db99e5, 0x1fa27cf8, 0xc4ac5665,
  0xf4292244, 0x432aff97, 0xab9423a7, 0xfc93a039, 0x655b59c3, 0x8f0ccc92, 0xffeff47d, 0x85845dd1,
  0x6fa87e4f, 0xfe2ce6e0, 0xa3014314, 0x4e0811a1, 0xf7537e82, 0xbd3af235, 0x2ad7d2bb, 0xeb86d391]

/-- By how many bits a step rotates. -/
def rotation (i : Nat) : UInt32 :=
  let table : List UInt32 := match i / 16 with
    | 0 => [7, 12, 17, 22]
    | 1 => [5, 9, 14, 20]
    | 2 => [4, 11, 16, 23]
    | _ => [6, 10, 15, 21]
  table.getD (i % 4) 0

structure State where
  a : UInt32 := 0x67452301
  b : UInt32 := 0xefcdab89
  c : UInt32 := 0x98badcfe
  d : UInt32 := 0x10325476

/-- The word of four bytes, the least first. -/
def wordOf (a b c d : UInt8) : UInt32 :=
  a.toUInt32 ||| (b.toUInt32 <<< 8) ||| (c.toUInt32 <<< 16) ||| (d.toUInt32 <<< 24)

def bytesOf (w : UInt32) : Bytes :=
  [w.toUInt8, (w >>> 8).toUInt8, (w >>> 16).toUInt8, (w >>> 24).toUInt8]

def wordsOf : Bytes → List UInt32
  | a :: b :: c :: d :: rest => wordOf a b c d :: wordsOf rest
  | _ => []

/-- The mixture of a step and the place of the word it takes in. -/
def mix (s : State) (i : Nat) : UInt32 × Nat :=
  match i / 16 with
  | 0 => ((s.b &&& s.c) ||| (~~~s.b &&& s.d), i)
  | 1 => ((s.d &&& s.b) ||| (~~~s.d &&& s.c), (5 * i + 1) % 16)
  | 2 => (s.b ^^^ s.c ^^^ s.d, (3 * i + 5) % 16)
  | _ => (s.c ^^^ (s.b ||| ~~~s.d), 7 * i % 16)

def step (words : List UInt32) (s : State) (ki : UInt32 × Nat) : State :=
  let (f, place) := mix s ki.2
  let sum := f + s.a + ki.1 + words.getD place 0
  ⟨s.d, s.b + rotateLeft sum (rotation ki.2), s.b, s.c⟩

def compress (s : State) (block : Bytes) : State :=
  let t := stepConstants.zipIdx.foldl (step (wordsOf block)) s
  ⟨s.a + t.a, s.b + t.b, s.c + t.c, s.d + t.d⟩

/-- Takes in the blocks of padded content. -/
def absorb (s : State) : Bytes → State
  | [] => s
  | b :: bs => absorb (compress s ((b :: bs).take 64)) ((b :: bs).drop 64)
termination_by bytes => bytes.length
decreasing_by simp only [List.length_drop, List.length_cons]; omega

/-- What follows content of a given length: one bit, zeros, and the length in bits. -/
def padding (length : Nat) : Bytes :=
  let bits := length * 8
  0x80 :: List.replicate ((119 - length % 64) % 64) 0
    ++ (List.range 8).map fun i => (bits.shiftRight (8 * i)).toUInt8

def digest (content : Bytes) : Bytes :=
  let s := absorb {} (content ++ padding content.length)
  [s.a, s.b, s.c, s.d].flatMap bytesOf

end BucketTransfer.Digest.Md5
