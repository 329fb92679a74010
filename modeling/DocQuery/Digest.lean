/-
# Digests of shapes

BLAKE3 in key derivation mode.  The bytes are cut into chunks of 1024 and those into blocks of 64;
a chunk chains its blocks, and chunks are joined as the leaves of a binary tree whose left subtrees
are complete.  The context string of the mode is hashed first and its digest is the key under which
the text is hashed.
-/
import DocQuery.Json.Writer

namespace DocQuery.Digest

/-- Eight words: a chaining value or a key. -/
abbrev Chain := Vector UInt32 8

/-- Sixteen words: a message block or the state of the compression. -/
abbrev Block := Vector UInt32 16

def initialChain : Chain :=
  #v[0x6A09E667, 0xBB67AE85, 0x3C6EF372, 0xA54FF53A, 0x510E527F, 0x9B05688C, 0x1F83D9AB, 0x5BE0CD19]

/-! ## 1. Compression -/

def rotateRight (x : UInt32) (n : UInt32) : UInt32 := (x >>> n) ||| (x <<< (32 - n))

/-- Mixes two message words into a column or diagonal of the state. -/
def mix (v : Block) (a b c d : Fin 16) (x y : UInt32) : Block :=
  let v := v.set a (v[a] + v[b] + x)
  let v := v.set d (rotateRight (v[d] ^^^ v[a]) 16)
  let v := v.set c (v[c] + v[d])
  let v := v.set b (rotateRight (v[b] ^^^ v[c]) 12)
  let v := v.set a (v[a] + v[b] + y)
  let v := v.set d (rotateRight (v[d] ^^^ v[a]) 8)
  let v := v.set c (v[c] + v[d])
  v.set b (rotateRight (v[b] ^^^ v[c]) 7)

def mixRound (v m : Block) : Block :=
  let v := mix v 0 4 8 12 m[0] m[1]
  let v := mix v 1 5 9 13 m[2] m[3]
  let v := mix v 2 6 10 14 m[4] m[5]
  let v := mix v 3 7 11 15 m[6] m[7]
  let v := mix v 0 5 10 15 m[8] m[9]
  let v := mix v 1 6 11 12 m[10] m[11]
  let v := mix v 2 7 8 13 m[12] m[13]
  mix v 3 4 9 14 m[14] m[15]

/-- The order of the message words in the next round. -/
def permute (m : Block) : Block :=
  #v[m[2], m[6], m[3], m[10], m[7], m[0], m[4], m[13], m[1], m[11], m[12], m[5], m[9], m[14], m[15],
    m[8]]

/-- What is known of a node before it is decided whether it is the root. -/
structure Node where
  chain : Chain
  block : Block
  counter : UInt64
  size : UInt32
  flags : UInt32

/-- The first half of the compression's output. -/
def Node.compress (n : Node) (extraFlags : UInt32) : Chain :=
  let cv := n.chain
  let state : Block :=
    #v[cv[0], cv[1], cv[2], cv[3], cv[4], cv[5], cv[6], cv[7],
      initialChain[0], initialChain[1], initialChain[2], initialChain[3],
      n.counter.toUInt32, (n.counter >>> 32).toUInt32, n.size, n.flags ||| extraFlags]
  let (v, _) := (List.range 7).foldl (fun (v, m) _ => (mixRound v m, permute m)) (state, n.block)
  #v[v[0] ^^^ v[8], v[1] ^^^ v[9], v[2] ^^^ v[10], v[3] ^^^ v[11], v[4] ^^^ v[12], v[5] ^^^ v[13],
    v[6] ^^^ v[14], v[7] ^^^ v[15]]

/-! ## 2. Chunks and the tree -/

def chunkStart : UInt32 := 1
def chunkEnd : UInt32 := 2
def parent : UInt32 := 4
def root : UInt32 := 8
def contextMode : UInt32 := 32
def materialMode : UInt32 := 64

/-- Cuts a list into pieces of `size + 1` elements; the last may be shorter. -/
def pieces {α : Type} (size : Nat) : List α → List (List α)
  | [] => []
  | x :: rest => (x :: rest.take size) :: pieces size (rest.drop size)
termination_by l => l.length
decreasing_by simp only [List.length_drop, List.length_cons]; omega

/-- The words of up to 64 bytes, little-endian, padded with zeros. -/
def blockOf (bytes : List UInt8) : Block :=
  Vector.ofFn fun i =>
    (List.range 4).foldr (fun k word => word <<< 8 ||| (bytes.getD (4 * i + k) 0).toUInt32) 0

/-- Chains the blocks of a chunk up to the last one. -/
def chunkFrom (flags : UInt32) (counter : UInt64) (chain : Chain) (start : UInt32) :
    List (List UInt8) → Node
  | [] => ⟨chain, blockOf [], counter, 0, flags ||| start ||| chunkEnd⟩
  | [last] => ⟨chain, blockOf last, counter, .ofNat last.length, flags ||| start ||| chunkEnd⟩
  | block :: rest =>
    let node : Node := ⟨chain, blockOf block, counter, .ofNat block.length, flags ||| start⟩
    chunkFrom flags counter (node.compress 0) 0 rest

def joinNodes (key : Chain) (flags : UInt32) (left right : Node) : Node :=
  let l := left.compress 0
  let r := right.compress 0
  ⟨key, l ++ r, 0, 64, flags ||| parent⟩

/-- The tree over the chunks: of more than one, the left subtree takes the largest power of two that
leaves something to the right. -/
def tree (key : Chain) (flags : UInt32) : List Node → Option Node
  | [] => none
  | [node] => some node
  | a :: b :: rest => do
    let nodes := a :: b :: rest
    let left := min (Nat.pow 2 (nodes.length - 1).log2) (nodes.length - 1)
    joinNodes key flags (← tree key flags (nodes.take left)) (← tree key flags (nodes.drop left))
termination_by nodes => nodes.length
decreasing_by
  · simp only [List.length_take, List.length_cons]; omega
  · have := Nat.two_pow_pos ((a :: b :: rest).length - 1).log2
    simp only [List.length_drop, List.length_cons, Nat.pow_eq] at this ⊢; omega

/-- The digest words of a text under a key. -/
def words (key : Chain) (flags : UInt32) (bytes : List UInt8) : Chain :=
  let chunks := match pieces 1023 bytes with
    | [] => [[]]
    | chunks => chunks
  let nodes := chunks.zipIdx.map fun (chunk, i) =>
    chunkFrom flags (.ofNat i) key chunkStart (pieces 63 chunk)
  ((tree key flags nodes).getD (chunkFrom flags 0 key chunkStart [])).compress root

/-! ## 3. Shapes -/

/-- Keeps digests of shapes apart from other uses of the function on the same bytes. -/
def shapeContext : String := "qshape 2024 shaped query structure"

/-- The four bytes of a word, low byte first. -/
def bytesOf (word : UInt32) : List UInt8 :=
  [word.toUInt8, (word >>> 8).toUInt8, (word >>> 16).toUInt8, (word >>> 24).toUInt8]

/-- The key that the context derives. -/
def shapeKey : Chain := words initialChain contextMode shapeContext.toUTF8.data.toList

end DocQuery.Digest

namespace DocQuery

/-- The digest of a serialized shape: 256 bits. -/
structure Fingerprint where
  words : Digest.Chain
deriving DecidableEq

namespace Fingerprint

/-- The digest of the compact text of a JSON value. -/
def ofJson (j : Json) : Fingerprint :=
  ⟨Digest.words Digest.shapeKey Digest.materialMode j.text.toUTF8.data.toList⟩

/-- 64 lower-case hexadecimal digits. -/
def hex (f : Fingerprint) : List Char :=
  f.words.toList.flatMap fun word => (Digest.bytesOf word).flatMap fun b =>
    [Json.hexDigit (b.toNat / 16), Json.hexDigit b.toNat]

/-- The first eight digits, enough to tell shapes apart by eye. -/
def short (f : Fingerprint) : List Char := f.hex.take 8

end Fingerprint

end DocQuery
