import DiscoveryGraph.Bytes

/-!
# BLAKE3

The hash function in its default mode, with 32 octets of output. The input is cut into chunks of
1024 octets, each chunk is compressed block by block into a chaining value, and the chaining values
are joined pairwise into a binary tree whose left subtrees are full. The compression that
completes the tree is marked as the root.
-/

namespace DiscoveryGraph.Blake3

/-- Eight words, the state that is handed from one compression to the next. -/
abbrev Chain := Vector UInt32 8

/-- Sixteen words of input, or of compression state. -/
abbrev Block := Vector UInt32 16

/-- The initial chaining value. -/
def initial : Chain :=
  #v[0x6A09E667, 0xBB67AE85, 0x3C6EF372, 0xA54FF53A, 0x510E527F, 0x9B05688C, 0x1F83D9AB,
    0x5BE0CD19]

/-- Which word of a block stands at each place in the next round. -/
def schedule : Vector (Fin 16) 16 :=
  #v[2, 6, 3, 10, 7, 0, 4, 13, 1, 11, 12, 5, 9, 14, 15, 8]

/-- The first block of a chunk. -/
def chunkStart : UInt32 := 1

/-- The last block of a chunk. -/
def chunkEnd : UInt32 := 2

/-- A block that joins two chaining values. -/
def parent : UInt32 := 4

/-- The compression that completes the tree. -/
def root : UInt32 := 8

/-- Everything that a compression depends on. -/
structure Input where
  chain : Chain
  block : Block
  counter : UInt64
  length : UInt32
  flags : UInt32

/-- Rotation to the right by less than 32 places. -/
def rotateRight (w n : UInt32) : UInt32 :=
  (w >>> n) ||| (w <<< (32 - n))

/-- Four words of the state are mixed with two words of the block. -/
def mix (s : Block) (a b c d : Fin 16) (x y : UInt32) : Block :=
  let wa := s[a] + s[b] + x
  let wd := rotateRight (s[d] ^^^ wa) 16
  let wc := s[c] + wd
  let wb := rotateRight (s[b] ^^^ wc) 12
  let wa := wa + wb + y
  let wd := rotateRight (wd ^^^ wa) 8
  let wc := wc + wd
  let wb := rotateRight (wb ^^^ wc) 7
  (((s.set a wa).set b wb).set c wc).set d wd

/-- The columns of the state are mixed, then its diagonals. -/
def round (s m : Block) : Block :=
  let s := mix s 0 4 8 12 m[0] m[1]
  let s := mix s 1 5 9 13 m[2] m[3]
  let s := mix s 2 6 10 14 m[4] m[5]
  let s := mix s 3 7 11 15 m[6] m[7]
  let s := mix s 0 5 10 15 m[8] m[9]
  let s := mix s 1 6 11 12 m[10] m[11]
  let s := mix s 2 7 8 13 m[12] m[13]
  mix s 3 4 9 14 m[14] m[15]

/-- The given number of rounds, with the words of the block rearranged from each to the next. -/
def rounds : Nat → Block → Block → Block
  | 0, s, _ => s
  | n + 1, s, m => rounds n (round s m) (schedule.map fun i => m[i])

/-- One compression: seven rounds, whose two halves are then folded together. -/
def compress (i : Input) : Chain :=
  let s : Block :=
    #v[i.chain[0], i.chain[1], i.chain[2], i.chain[3], i.chain[4], i.chain[5], i.chain[6],
      i.chain[7], initial[0], initial[1], initial[2], initial[3], i.counter.toUInt32,
      (i.counter >>> 32).toUInt32, i.length, i.flags]
  let s := rounds 7 s i.block
  Vector.ofFn fun j : Fin 8 => s[j.val] ^^^ s[j.val + 8]

/-- A word from its octets, least significant first. Missing octets are zero. -/
def word (bs : Bytes) : UInt32 :=
  (bs.take 4).foldr (fun b w => (w <<< 8) ||| b.toUInt32) 0

/-- A block from its octets, filled up with zeros. -/
def block (bs : Bytes) : Block :=
  Vector.ofFn fun j : Fin 16 => word (bs.drop (4 * j.val))

/-- The sublists of `size` elements each, but for a shorter last one. An empty list has one empty
part. The first argument bounds the number of parts. -/
def parts (size : Nat) : Nat → Bytes → List Bytes
  | 0, bs => [bs]
  | n + 1, bs => if bs.length ≤ size then [bs] else bs.take size :: parts size n (bs.drop size)

/-- The last compression of a chunk, given its blocks. It is left open, because only the tree
tells whether it is the root. -/
def chunkInput (counter : UInt64) : Chain → UInt32 → List Bytes → Input
  | chain, flags, [] => ⟨chain, block [], counter, 0, flags ||| chunkEnd⟩
  | chain, flags, [bs] =>
    ⟨chain, block bs, counter, UInt32.ofNat bs.length, flags ||| chunkEnd⟩
  | chain, flags, bs :: rest =>
    chunkInput counter (compress ⟨chain, block bs, counter, UInt32.ofNat bs.length, flags⟩) 0 rest

/-- The compression that closes a chunk. -/
def ofChunk (counter : Nat) (bs : Bytes) : Input :=
  chunkInput (UInt64.ofNat counter) initial chunkStart (parts 64 bs.length bs)

/-- The compression that joins two subtrees. -/
def join (left right : Chain) : Input :=
  ⟨initial, Vector.ofFn fun j : Fin 16 =>
      if h : j.val < 8 then left[j.val] else right[j.val - 8], 0, 64, parent⟩

/-- Subtrees waiting for their right neighbour, smallest first, after one more full chunk. The
subtree of `chain` has as many chunks as `count` counts; every even count means that a
neighbour of the same size is waiting. -/
def push (count : Nat) (chain : Chain) : List Chain → List Chain
  | [] => [chain]
  | left :: waiting =>
    if count % 2 = 0 then push (count / 2) (compress (join left chain)) waiting
    else chain :: left :: waiting

/-- The compression at the root of the tree. -/
def tree (counter : Nat) (waiting : List Chain) : List Bytes → Input
  | [] => ofChunk counter []
  | [last] => waiting.foldl (fun right left => join left (compress right)) (ofChunk counter last)
  | chunk :: rest =>
    tree (counter + 1) (push (counter + 1) (compress (ofChunk counter chunk)) waiting) rest

/-- The hash of a sequence of octets. -/
def hash (bs : Bytes) : Bytes :=
  let top := tree 0 [] (parts 1024 bs.length bs)
  (compress { top with flags := top.flags ||| root }).toList.flatMap fun w =>
    Bytes.littleEndian 4 w.toNat

end DiscoveryGraph.Blake3
