import ReportQuorum.Word
import ReportQuorum.Octets

/-!
# The BLAKE3 digest

A message is cut into chunks of 1024 bytes and a chunk into blocks of 64. A chunk folds its blocks
into a chaining value; chaining values are joined in pairs, an odd one moving up as it is, until
one node is left, and that node gives the digest.

## Main definitions

* `Blake3.compress`: the compression function
* `Blake3.Node`: a node of the tree, kept open until it is known whether it is the root
* `Blake3.hash`: the digest of a message

## Main results

* `Blake3.length_joinPairs_lt`: joining in pairs leaves fewer nodes, so it comes to an end
-/

namespace ReportQuorum.Blake3

/-- A chaining value. -/
abbrev Chain := Vector UInt32 8

/-- A block of sixteen words, little-endian; also the state of the compression function. -/
abbrev Block := Vector UInt32 16

/-- The chaining value that every chunk starts with. -/
def initial : Chain :=
  #v[0x6a09e667, 0xbb67ae85, 0x3c6ef372, 0xa54ff53a, 0x510e527f, 0x9b05688c, 0x1f83d9ab, 0x5be0cd19]

/-- Marks the first block of a chunk. -/
def chunkStart : UInt32 := 1

/-- Marks the last block of a chunk. -/
def chunkEnd : UInt32 := 2

/-- Marks a node that joins two others. -/
def parentNode : UInt32 := 4

/-- Marks the root of the tree. -/
def rootNode : UInt32 := 8

/-- Rotation to the right. -/
def rotateRight (x : UInt32) (k : UInt32) : UInt32 := (x >>> k) ||| (x <<< (32 - k))

/-- Mixes two message words into a column or a diagonal of the state. -/
def mix (v : Block) (a b c d : Fin 16) (x y : UInt32) : Block :=
  let va := v.get a + v.get b + x
  let vd := rotateRight (v.get d ^^^ va) 16
  let vc := v.get c + vd
  let vb := rotateRight (v.get b ^^^ vc) 12
  let va := va + vb + y
  let vd := rotateRight (vd ^^^ va) 8
  let vc := vc + vd
  let vb := rotateRight (vb ^^^ vc) 7
  (((v.set a va).set b vb).set c vc).set d vd

/-- One round: the four columns, then the four diagonals. -/
def round (v m : Block) : Block :=
  let v := mix v 0 4 8 12 m[0] m[1]
  let v := mix v 1 5 9 13 m[2] m[3]
  let v := mix v 2 6 10 14 m[4] m[5]
  let v := mix v 3 7 11 15 m[6] m[7]
  let v := mix v 0 5 10 15 m[8] m[9]
  let v := mix v 1 6 11 12 m[10] m[11]
  let v := mix v 2 7 8 13 m[12] m[13]
  mix v 3 4 9 14 m[14] m[15]

/-- The order in which the next round takes the words of a block. -/
def permute (m : Block) : Block :=
  #v[m[2], m[6], m[3], m[10], m[7], m[0], m[4], m[13],
    m[1], m[11], m[12], m[5], m[9], m[14], m[15], m[8]]

/-- This many rounds, with the words of the block permuted in between. -/
def rounds : Nat → Block → Block → Block
  | 0, v, _ => v
  | k + 1, v, m => rounds k (round v m) (permute m)

/-- The compression function, cut to its first eight words. -/
def compress (h : Chain) (m : Block) (counter : Word) (length flags : UInt32) : Chain :=
  let v := rounds 7
    #v[h[0], h[1], h[2], h[3], h[4], h[5], h[6], h[7],
      initial[0], initial[1], initial[2], initial[3],
      counter.toUInt32, (counter >>> 32).toUInt32, length, flags] m
  Vector.ofFn fun i : Fin 8 => v[i] ^^^ v[i.val + 8]

/-- Reads words, least significant byte first; missing bytes at the end are zero. -/
def words : List UInt8 → List UInt32
  | [] => []
  | a :: b :: c :: d :: rest =>
    (a.toUInt32 ||| b.toUInt32 <<< 8 ||| c.toUInt32 <<< 16 ||| d.toUInt32 <<< 24) :: words rest
  | [a, b, c] => [a.toUInt32 ||| b.toUInt32 <<< 8 ||| c.toUInt32 <<< 16]
  | [a, b] => [a.toUInt32 ||| b.toUInt32 <<< 8]
  | [a] => [a.toUInt32]

/-- The block that at most 64 bytes make up, filled with zeros. -/
def blockOf (bs : List UInt8) : Block :=
  let ws := (words bs).toArray
  Vector.ofFn fun i => ws.getD i 0

/-- Cuts a list into pieces of length `k + 1`; the last may be shorter. The empty list has the empty
piece. -/
def pieces {α : Type} (k : Nat) (xs : List α) : List (List α) :=
  match h : xs.drop (k + 1) with
  | [] => [xs]
  | y :: ys => xs.take (k + 1) :: pieces k (y :: ys)
termination_by xs.length
decreasing_by
  have := congrArg List.length h
  simp only [List.length_drop, List.length_cons] at this ⊢
  omega

/-- A node whose last compression is still to come. -/
structure Node where
  chain : Chain
  block : Block
  counter : Word
  length : UInt32
  flags : UInt32

/-- The chaining value of a node below the root. -/
def Node.close (n : Node) : Chain := compress n.chain n.block n.counter n.length n.flags

/-- The chaining value of the root. -/
def Node.closeRoot (n : Node) : Chain := compress n.chain n.block 0 n.length (n.flags ||| rootNode)

/-- Folds the blocks of a chunk; `start` marks the block that is the first of its chunk. -/
def chunkFrom (counter : Word) (h : Chain) (start : UInt32) : List (List UInt8) → Node
  | [] => ⟨h, blockOf [], counter, 0, start ||| chunkEnd⟩
  | [b] => ⟨h, blockOf b, counter, UInt32.ofNat b.length, start ||| chunkEnd⟩
  | b :: bs => chunkFrom counter (compress h (blockOf b) counter 64 start) 0 bs

/-- The node of a chunk of at most 1024 bytes. -/
def chunk (counter : Word) (bs : List UInt8) : Node :=
  chunkFrom counter initial chunkStart (pieces 63 bs)

/-- The node that joins two others. -/
def join (left right : Node) : Node :=
  ⟨initial, (left.close ++ right.close : Vector UInt32 16), 0, 64, parentNode⟩

/-- Joins neighbours; an odd node at the end stays. -/
def joinPairs : List Node → List Node
  | a :: b :: rest => join a b :: joinPairs rest
  -- At most one node is left.
  | ns => ns

theorem length_joinPairs_le (ns : List Node) : (joinPairs ns).length ≤ ns.length := by
  fun_induction joinPairs ns with
  | case1 a b rest ih => simp only [List.length_cons]; omega
  | case2 => exact Nat.le_refl _

/-- Joining in pairs leaves fewer nodes. -/
theorem length_joinPairs_lt (a b : Node) (rest : List Node) :
    (joinPairs (a :: b :: rest)).length < (a :: b :: rest).length := by
  have := length_joinPairs_le rest
  simp only [joinPairs, List.length_cons]
  omega

/-- The root over a first node and those after it. -/
def root : List Node → Node
  | [] => chunk 0 []
  | [n] => n
  | a :: b :: rest => root (joinPairs (a :: b :: rest))
termination_by ns => ns.length
decreasing_by exact length_joinPairs_lt a b rest

/-- The bytes of a chaining value, each word least significant byte first. -/
def chainBytes (h : Chain) : List UInt8 := h.toList.flatMap fun w => Word.lowBytes 4 w.toNat

theorem length_chainBytes (h : Chain) : (chainBytes h).length = 32 := by
  have hlen : h.toList.length = 8 := h.length_toList
  rw [chainBytes, List.length_flatMap]
  simp only [Word.length_lowBytes, List.map_const', hlen]
  rfl

/-- The digest of a message. -/
def hash (message : List UInt8) : Digest :=
  let chunks := pieces 1023 message
  let nodes := chunks.zipIdx.map fun (bs, i) => chunk (UInt64.ofNat i) bs
  let h := (root nodes).closeRoot
  ⟨chainBytes h, length_chainBytes h⟩

end ReportQuorum.Blake3
