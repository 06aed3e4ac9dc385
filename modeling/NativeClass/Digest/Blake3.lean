import NativeClass.LittleEndian
/-!
# The BLAKE3 digest

The BLAKE3 hash function in its plain mode: no key, the default output.

* `Blake3.hash`: the first 32 bytes of the digest.
* `Blake3.word64`: the first eight of them as a number, least byte first.
-/

namespace NativeClass.Blake3

/-! ## Words -/

/-- The initial chaining value. -/
def initial : List UInt32 :=
  [0x6A09E667, 0xBB67AE85, 0x3C6EF372, 0xA54FF53A, 0x510E527F, 0x9B05688C, 0x1F83D9AB, 0x5BE0CD19]

/-- The places from which the words of a block come in the next round. -/
def permutation : List Nat :=
  [2, 6, 3, 10, 7, 0, 4, 13, 1, 11, 12, 5, 9, 14, 15, 8]

/-- Rotation to the right. -/
def rotateRight (x : UInt32) (n : UInt32) : UInt32 :=
  (x >>> n) ||| (x <<< (32 - n))

/-- The word of up to four bytes, least byte first. -/
def wordOfBytes (bytes : List UInt8) : UInt32 :=
  bytes.foldr (fun b w => (w <<< 8) ||| b.toUInt32) 0

/-- The sixteen words of a block, padded with zeros. -/
def blockWords (block : List UInt8) : List UInt32 :=
  (List.range 16).map fun i => wordOfBytes ((block.drop (4 * i)).take 4)

/-- The bytes of a word, least byte first. -/
def bytesOfWord (w : UInt32) : List UInt8 :=
  [w.toUInt8, (w >>> 8).toUInt8, (w >>> 16).toUInt8, (w >>> 24).toUInt8]

/-! ## Compression -/

/-- The mixing of two message words into the four state words at the given places. -/
def mix (s : Array UInt32) (places : Nat × Nat × Nat × Nat) (x y : UInt32) : Array UInt32 :=
  let (i, j, k, l) := places
  let a := s.getD i 0 + s.getD j 0 + x
  let d := rotateRight (s.getD l 0 ^^^ a) 16
  let c := s.getD k 0 + d
  let b := rotateRight (s.getD j 0 ^^^ c) 12
  let a := a + b + y
  let d := rotateRight (d ^^^ a) 8
  let c := c + d
  let b := rotateRight (b ^^^ c) 7
  (((s.setIfInBounds i a).setIfInBounds j b).setIfInBounds k c).setIfInBounds l d

/-- The places mixed in one round: the columns, then the diagonals. -/
def roundPlaces : List (Nat × Nat × Nat × Nat) :=
  [(0, 4, 8, 12), (1, 5, 9, 13), (2, 6, 10, 14), (3, 7, 11, 15),
    (0, 5, 10, 15), (1, 6, 11, 12), (2, 7, 8, 13), (3, 4, 9, 14)]

/-- The message words in pairs. -/
def wordPairs : List UInt32 → List (UInt32 × UInt32)
  | x :: y :: ws => (x, y) :: wordPairs ws
  | _ => []

/-- One round. -/
def mixRound (s : Array UInt32) (words : List UInt32) : Array UInt32 :=
  (roundPlaces.zip (wordPairs words)).foldl (fun s e => mix s e.1 e.2.1 e.2.2) s

/-- The message words of the next round. -/
def permute (words : List UInt32) : List UInt32 :=
  permutation.map fun i => words.getD i 0

/-- The remaining rounds, permuting the message words after each. -/
def mixRounds : Nat → Array UInt32 → List UInt32 → Array UInt32
  | 0, s, _ => s
  | n + 1, s, words => mixRounds n (mixRound s words) (permute words)

/-- What is compressed at a node of the tree. -/
structure Node where
  /-- The chaining value that goes in. -/
  chaining : List UInt32
  /-- The message words. -/
  words : List UInt32
  /-- The number of the chunk. -/
  counter : Nat
  /-- The bytes of the block. -/
  length : Nat
  /-- The role of the block. -/
  flags : UInt32

/-- The chaining value that comes out of a node, with further flags set. -/
def Node.compress (n : Node) (flags : UInt32) : List UInt32 :=
  let start := n.chaining ++ initial.take 4 ++
    [UInt32.ofNat n.counter, UInt32.ofNat (n.counter / Nat.pow 2 32), UInt32.ofNat n.length,
      n.flags ||| flags]
  let final := mixRounds 7 start.toArray n.words
  (List.range 8).map fun i => final.getD i 0 ^^^ final.getD (i + 8) 0

/-! ## The tree of chunks -/

/-- Bytes of a block. -/
def blockSize : Nat := 64

/-- Bytes of a chunk. -/
def chunkSize : Nat := 1024

/-- The flag of a chunk's first block. -/
def chunkStart : UInt32 := 1

/-- The flag of a chunk's last block. -/
def chunkEnd : UInt32 := 2

/-- The flag of a node with two subtrees. -/
def parentFlag : UInt32 := 4

/-- The flag of the top node. -/
def rootFlag : UInt32 := 8

/-- The last node of a chunk, from the chaining value and the flags of its next block on. -/
def chunkNode (counter : Nat) (chaining : List UInt32) (flags : UInt32) (bytes : List UInt8) : Node :=
  if _h : bytes.length ≤ blockSize then
    ⟨chaining, blockWords bytes, counter, bytes.length, flags ||| chunkEnd⟩
  else
    let block : Node := ⟨chaining, blockWords (bytes.take blockSize), counter, blockSize, flags⟩
    chunkNode counter (block.compress 0) 0 (bytes.drop blockSize)
termination_by bytes.length
decreasing_by simp only [List.length_drop, blockSize] at *; omega

/-- The bytes of the left subtree: the greatest power of two of chunks that leaves some for the right. -/
def leftSize (length : Nat) : Nat :=
  Nat.pow 2 ((length - 1) / chunkSize).log2 * chunkSize

theorem leftSize_pos (length : Nat) : 0 < leftSize length :=
  Nat.mul_pos (Nat.pow_pos (by decide)) (by decide)

theorem leftSize_lt {length : Nat} (h : chunkSize < length) : leftSize length < length := by
  have hq : (length - 1) / chunkSize ≠ 0 := by
    have : 1 ≤ (length - 1) / chunkSize :=
      (Nat.le_div_iff_mul_le (by decide)).2 (by simp only [chunkSize] at *; omega)
    omega
  have h1 : Nat.pow 2 ((length - 1) / chunkSize).log2 ≤ (length - 1) / chunkSize := Nat.log2_self_le hq
  have h2 := Nat.mul_le_mul_right chunkSize h1
  have h3 := Nat.div_mul_le_self (length - 1) chunkSize
  unfold leftSize
  omega

/-- The node above a stretch of the input that begins at a chunk. -/
def treeNode (counter : Nat) (bytes : List UInt8) : Node :=
  if _h : bytes.length ≤ chunkSize then chunkNode counter initial chunkStart bytes
  else
    let size := leftSize bytes.length
    let left := treeNode counter (bytes.take size)
    let right := treeNode (counter + size / chunkSize) (bytes.drop size)
    ⟨initial, left.compress 0 ++ right.compress 0, 0, blockSize, parentFlag⟩
termination_by bytes.length
decreasing_by
  · have := leftSize_lt (Nat.lt_of_not_le _h)
    simp only [List.length_take]; omega
  · have := leftSize_pos bytes.length
    simp only [List.length_drop]; omega

/-- The digest of a byte string. -/
def hash (bytes : List UInt8) : List UInt8 :=
  ((treeNode 0 bytes).compress rootFlag).flatMap bytesOfWord

/-- The first eight bytes of the digest as a number, least byte first. -/
def word64 (bytes : List UInt8) : UInt64 :=
  UInt64.ofNat (LittleEndian.number ((hash bytes).take 8))

end NativeClass.Blake3
