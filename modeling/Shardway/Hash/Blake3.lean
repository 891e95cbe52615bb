import Shardway.Text.Utf8

/-!
The BLAKE3 hash: a tree of compressions over chunks of 1024 bytes, of which only the first output
words are needed here.
-/
namespace Shardway.Hash.Blake3

/-- Eight words that one compression hands to the next. -/
abbrev Chain := Vector UInt32 8

/-- The sixteen words of a message block, or of the state of a compression. -/
abbrev Block := Vector UInt32 16

def initial : Chain :=
  #v[0x6A09E667, 0xBB67AE85, 0x3C6EF372, 0xA54FF53A, 0x510E527F, 0x9B05688C, 0x1F83D9AB, 0x5BE0CD19]

/-- The order in which a round takes the message words of the round before it. -/
def permutation : Vector (Fin 16) 16 :=
  #v[2, 6, 3, 10, 7, 0, 4, 13, 1, 11, 12, 5, 9, 14, 15, 8]

def rotateRight (w : UInt32) (n : UInt32) : UInt32 := (w >>> n) ||| (w <<< (32 - n))

/-- Mixes two message words into one column or diagonal of the state. -/
def mix (s : Block) (a b c d : Fin 16) (x y : UInt32) : Block :=
  let s := s.set a (s[a] + s[b] + x)
  let s := s.set d (rotateRight (s[d] ^^^ s[a]) 16)
  let s := s.set c (s[c] + s[d])
  let s := s.set b (rotateRight (s[b] ^^^ s[c]) 12)
  let s := s.set a (s[a] + s[b] + y)
  let s := s.set d (rotateRight (s[d] ^^^ s[a]) 8)
  let s := s.set c (s[c] + s[d])
  s.set b (rotateRight (s[b] ^^^ s[c]) 7)

/-- Mixes the columns, then the diagonals. -/
def round (s m : Block) : Block :=
  let s := mix s 0 4 8 12 m[0] m[1]
  let s := mix s 1 5 9 13 m[2] m[3]
  let s := mix s 2 6 10 14 m[4] m[5]
  let s := mix s 3 7 11 15 m[6] m[7]
  let s := mix s 0 5 10 15 m[8] m[9]
  let s := mix s 1 6 11 12 m[10] m[11]
  let s := mix s 2 7 8 13 m[12] m[13]
  mix s 3 4 9 14 m[14] m[15]

def permuted (m : Block) : Block := permutation.map fun i => m[i]

/-- So many rounds, the message permuted after each. -/
def rounds : Nat → Block → Block → Block
  | 0, s, _ => s
  | n + 1, s, m => rounds n (round s m) (permuted m)

def chunkStart : UInt32 := 1
def chunkEnd : UInt32 := 2
def parentFlag : UInt32 := 4
def rootFlag : UInt32 := 8

/-- A node of the tree before its last compression. -/
structure Node where
  chain : Chain
  block : Block
  counter : UInt64
  size : UInt32
  flags : UInt32

/-- The first eight words of the compression. -/
def compress (n : Node) (extra : UInt32) : Chain :=
  let h := n.chain
  let s : Block :=
    #v[h[0], h[1], h[2], h[3], h[4], h[5], h[6], h[7], initial[0], initial[1], initial[2],
      initial[3], n.counter.toUInt32, (n.counter >>> 32).toUInt32, n.size, n.flags ||| extra]
  let s := rounds 7 s n.block
  Vector.ofFn fun (i : Fin 8) => s[i.val] ^^^ s[i.val + 8]

/-- The value a node passes to its parent. -/
def Node.chained (n : Node) : Chain := compress n 0

/-- The list in pieces of `size + 1`, the last one possibly shorter. -/
def pieces (size : Nat) (bytes : Bytes) : List Bytes :=
  match bytes with
  | [] => []
  | b :: r => (b :: r.take size) :: pieces size (r.drop size)
termination_by bytes.length
decreasing_by simp only [List.length_drop, List.length_cons]; omega

/-- Four bytes as a word, the lowest first. -/
def word (b : Nat → UInt8) : UInt32 :=
  (b 0).toUInt32 ||| ((b 1).toUInt32 <<< 8) ||| ((b 2).toUInt32 <<< 16) ||| ((b 3).toUInt32 <<< 24)

/-- At most 64 bytes as a block, filled up with zeros. -/
def blockOf (bytes : Bytes) : Block :=
  let a := bytes.toArray
  Vector.ofFn fun i => word fun j => a[i.val * 4 + j]?.getD 0

/-- Runs the blocks of a chunk; the last one is left to be compressed. -/
def chunkNode (counter : UInt64) (chain : Chain) (flags : UInt32) : List Bytes → Node
  | [] => ⟨chain, blockOf [], counter, 0, flags ||| chunkEnd⟩
  | [b] => ⟨chain, blockOf b, counter, b.length.toUInt32, flags ||| chunkEnd⟩
  | b :: r =>
    chunkNode counter (Node.chained ⟨chain, blockOf b, counter, b.length.toUInt32, flags⟩) 0 r

/-- The node over a chunk of at most 1024 bytes. -/
def chunk (counter : Nat) (bytes : Bytes) : Node :=
  chunkNode counter.toUInt64 initial chunkStart (pieces 63 bytes)

/-- The node over two others. -/
def parent (left right : Node) : Node :=
  ⟨initial, left.chained ++ right.chained, 0, 64, parentFlag⟩

/-- The node over the nodes `first :: rest`: the left half is the largest power of two that leaves
something for the right. -/
def tree (first : Node) (rest : List Node) : Node :=
  match rest with
  | [] => first
  | second :: others =>
    let left := 1 <<< Nat.log2 (others.length + 1)
    match hd : (second :: others).drop (left - 1) with
    | [] => parent first second
    | middle :: right => parent (tree first ((second :: others).take (left - 1))) (tree middle right)
termination_by rest.length
decreasing_by
  all_goals
    have hl := congrArg List.length hd
    simp only [List.length_drop, List.length_cons, List.length_take] at hl ⊢
    omega

/-- The node over the whole input. -/
def root (bytes : Bytes) : Node :=
  match (pieces 1023 bytes).zipIdx.map fun (p, i) => chunk i p with
  | [] => chunk 0 []
  | first :: rest => tree first rest

/-- The first eight words of the hash. -/
def hash (bytes : Bytes) : Chain := compress (root bytes) rootFlag

/-- The first eight bytes of the hash as a number, the lowest first. -/
def hash64 (bytes : Bytes) : UInt64 :=
  let h := hash bytes
  h[0].toUInt64 ||| (h[1].toUInt64 <<< 32)

end Shardway.Hash.Blake3

namespace Shardway

/-- The first eight bytes of the key's hash. -/
def keyHash (key : Bytes) : UInt64 := Hash.Blake3.hash64 key

/-- The slot of a hash among `shards` of them; none when there are no shards. -/
def slotOf (hash : UInt64) (shards : Nat) : Option Nat :=
  if shards = 0 then none else some (hash.toNat % shards)

/-- The slot of a key among `shards` of them. -/
def shardSlot (key : Bytes) (shards : Nat) : Option Nat := slotOf (keyHash key) shards

end Shardway
