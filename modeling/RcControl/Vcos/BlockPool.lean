import RcControl.Lib.Run
import Mathlib.Data.Finset.Card

/-!
# The block pool of VCOS

`vcos_generic_blockpool.c` lends blocks of one size. The blocks of a subpool that are available are linked
through their headers; the header of a block that is lent says instead to which subpool it belongs, which is
how `free` finds the pool and how a block that comes back twice is caught. Up to seven subpools can be opened
while the pool is in use.

`Plain` is what the pool is for: a set of blocks that are lent, with no list, no header and no count.
-/

namespace RcControl.Vcos

namespace BlockPool

/-- A block: its subpool, and its number in it. -/
@[ext]
structure Block where
  subpool : ℕ
  index : ℕ
  deriving DecidableEq

/-- The `owner` of a `VCOS_BLOCKPOOL_HEADER_T`, a union. -/
inductive Owner where
  | next (b : Option Block)
  | subpool (k : ℕ)
  deriving DecidableEq

/-- `VCOS_BLOCKPOOL_SUBPOOL_T`. Of `mem` and `start` it matters whether they are null. -/
structure Subpool where
  freeList : Option Block
  mem : Bool
  start : Bool
  numBlocks : ℕ
  availableBlocks : ℕ
  /-- `VCOS_BLOCKPOOL_SUBPOOL_FLAG_OWNS_MEM`. -/
  ownsMem : Bool
  /-- `VCOS_BLOCKPOOL_SUBPOOL_FLAG_EXTENSION`. -/
  extension : Bool

/-- A subpool as `memset` leaves it. -/
def Subpool.zero : Subpool :=
  { freeList := none, mem := false, start := false, numBlocks := 0, availableBlocks := 0, ownsMem := false,
    extension := false }

inductive Status where
  | success | eaccess | einval
  deriving DecidableEq

inductive Event where
  | extend (numExtensions numBlocks : ℕ)
  /-- `malloc` says for which subpools `vcos_malloc` has memory. -/
  | alloc (malloc : ℕ → Bool)
  /-- `none` is the null pointer. -/
  | free (block : Option Block)
  | availableCount
  | usedCount
  | elemToHandle (block : Block)
  | elemFromHandle (handle : ℕ)
  | delete

inductive Out where
  | status (s : Status)
  | block (b : Option Block)
  /-- The subpools whose memory goes back to `vcos_free`. -/
  | freed (ks : List ℕ)
  | count (n : ℕ)
  | handle (h : ℕ)
  deriving DecidableEq

inductive Fault where
  /-- A `vcos_demand` fails, which aborts the program. -/
  | demand
  /-- A `vcos_assert` fails. -/
  | assertion
  /-- What is read is no header of a block. -/
  | wild
  /-- `nb->owner` of a null `nb`. -/
  | null
  deriving DecidableEq

/-! ### Handles -/

/-- `VCOS_BLOCKPOOL_HANDLE_CREATE`. -/
def handleCreate (i s : ℕ) : ℕ := ((i + 1) <<< 3) % 2 ^ 32 ||| s

/-- `VCOS_BLOCKPOOL_HANDLE_GET_INDEX`. -/
def handleGetIndex (h : ℕ) : ℕ := ((h >>> 3) + (2 ^ 32 - 1)) % 2 ^ 32

/-- `VCOS_BLOCKPOOL_HANDLE_GET_SUBPOOL`. -/
def handleGetSubpool (h : ℕ) : ℕ := h &&& 7

end BlockPool

open BlockPool

/-- `VCOS_BLOCKPOOL_T`, with the headers of its blocks. -/
structure BlockPool where
  owner : Block → Owner
  numExtensionBlocks : ℕ
  /-- The first `num_subpools` of the subpools. -/
  subpools : List Subpool
  deleted : Bool

namespace BlockPool

/-- The loop of `vcos_generic_blockpool_subpool_init` over the first `n` blocks of the subpool `k`: the
headers, and the free list. -/
def link (k : ℕ) (owner : Block → Owner) : ℕ → (Block → Owner) × Option Block
  | 0 => (owner, none)
  | n + 1 => (Function.update (link k owner n).1 ⟨k, n⟩ (.next (link k owner n).2), some ⟨k, n⟩)

/-- `vcos_generic_blockpool_subpool_init`. It leaves the flags as they are, whatever it is told. -/
def subpoolInit (s : BlockPool) (k : ℕ) (p : Subpool) (numBlocks : ℕ) (_ownsMem _extension : Bool) : BlockPool :=
  { s with
    owner := (link k s.owner numBlocks).1
    subpools := s.subpools.set k
      { p with freeList := (link k s.owner numBlocks).2, mem := true, start := true, numBlocks := numBlocks,
               availableBlocks := numBlocks } }

/-- `vcos_generic_blockpool_init`, and `vcos_generic_blockpool_create_on_heap` in that the main subpool then
owns its memory. -/
def create (numBlocks : ℕ) (onHeap : Bool) : BlockPool :=
  subpoolInit { owner := fun _ => .next none, numExtensionBlocks := 0, subpools := [.zero], deleted := false } 0
    { Subpool.zero with ownsMem := onHeap } numBlocks false false

/-- `vcos_generic_blockpool_extend`. -/
def extend (s : BlockPool) (numExtensions numBlocks : ℕ) : Out × BlockPool :=
  if 1 < s.subpools.length then (.status .eaccess, s)
  else if numExtensions < 1 ∨ 7 < numExtensions then (.status .einval, s)
  else if numBlocks < 1 then (.status .einval, s)
  else (.status .success, { s with numExtensionBlocks := numBlocks
                                   subpools := s.subpools ++ List.replicate numExtensions .zero })

/-- The first subpool with free blocks. -/
def available (s : BlockPool) : Option ℕ := s.subpools.findIdx? fun p => p.start && decide (0 < p.availableBlocks)

/-- The first subpool but the main one that has no memory and can be given some. -/
def openable (s : BlockPool) (malloc : ℕ → Bool) : Option ℕ :=
  (List.range s.subpools.length).find? fun k => decide (1 ≤ k) && !(s.subpools[k]?.any (·.start)) && malloc k

/-- The end of `vcos_generic_blockpool_alloc`: a block is taken from the free list. -/
def take (s : BlockPool) (k : ℕ) : Except Fault (Out × BlockPool) :=
  match s.subpools[k]? with
  | none => .error .wild
  | some p =>
    match p.freeList with
    | none => .error .null
    | some nb =>
      match s.owner nb with
      | .subpool _ => .error .wild
      | .next b =>
        .ok (.block (some nb), { s with
          owner := Function.update s.owner nb (.subpool k)
          subpools := s.subpools.set k { p with freeList := b, availableBlocks := p.availableBlocks - 1 } })

/-- `vcos_generic_blockpool_alloc`. -/
def alloc (s : BlockPool) (malloc : ℕ → Bool) : Except Fault (Out × BlockPool) :=
  match s.available with
  | some k => s.take k
  | none =>
    match s.openable malloc with
    | some k => (s.subpoolInit k (s.subpools.getD k .zero) s.numExtensionBlocks true true).take k
    | none => .ok (.block none, s)

/-- The header of a block, as long as its subpool has memory. -/
def header (s : BlockPool) (b : Block) : Option Owner :=
  match s.subpools[b.subpool]? with
  | some p => if p.mem = true ∧ b.index < p.numBlocks then some (s.owner b) else none
  | none => none

/-- The subpool a block that is lent belongs to: its header is followed, with the demands on the way. A
header that is a link leads to another header: it begins with the null pointer or an aligned address, and so
not with the magic of a subpool, an odd multiple of two. -/
def lender (s : BlockPool) (b : Block) : Except Fault (ℕ × Subpool) :=
  match s.header b with
  | none => .error .wild
  | some (.next _) => .error .demand
  | some (.subpool k) =>
    match s.subpools[k]? with
    | none => .error .wild
    | some p => if s.deleted then .error .demand else .ok (k, p)

/-- `vcos_generic_blockpool_free`. -/
def free (s : BlockPool) (b : Block) : Except Fault (Out × BlockPool) :=
  match s.lender b with
  | .error f => .error f
  | .ok (k, p) =>
    if p.availableBlocks < p.numBlocks then
      if p.extension = true ∧ p.availableBlocks + 1 = p.numBlocks then
        .ok (.freed [k], { s with
          owner := Function.update s.owner b (.next p.freeList)
          subpools := s.subpools.set k { p with
            freeList := some b, availableBlocks := p.availableBlocks + 1, mem := false, start := false } })
      else
        .ok (.freed [], { s with
          owner := Function.update s.owner b (.next p.freeList)
          subpools := s.subpools.set k { p with
            freeList := some b, availableBlocks := p.availableBlocks + 1 } })
    else .error .assertion

/-- `vcos_generic_blockpool_available_count`. -/
def availableCount (s : BlockPool) : ℕ :=
  (s.subpools.map fun p => if p.start then p.availableBlocks else s.numExtensionBlocks).sum % 2 ^ 32

/-- `vcos_generic_blockpool_used_count`. -/
def usedCount (s : BlockPool) : ℕ :=
  (s.subpools.map fun p => if p.start then p.numBlocks - p.availableBlocks else 0).sum % 2 ^ 32

/-- `vcos_generic_blockpool_elem_to_handle`. -/
def elemToHandle (s : BlockPool) (b : Block) : Except Fault (Out × BlockPool) :=
  match s.lender b with
  | .error f => .error f
  | .ok (k, p) =>
    if b.subpool = k ∧ b.index < p.numBlocks ∧ k < 8 ∧ k < s.subpools.length then
      .ok (.handle (handleCreate b.index k), s)
    else .error .assertion

/-- `vcos_generic_blockpool_elem_from_handle`. -/
def elemFromHandle (s : BlockPool) (h : ℕ) : Option Block :=
  match s.header ⟨handleGetSubpool h, handleGetIndex h⟩ with
  | some (.subpool k) => if k = handleGetSubpool h then some ⟨handleGetSubpool h, handleGetIndex h⟩ else none
  | _ => none

/-- `vcos_generic_blockpool_delete`. -/
def delete (s : BlockPool) : Out × BlockPool :=
  (.freed ((List.range s.subpools.length).filter fun k => s.subpools[k]?.any fun p => p.mem && p.ownsMem),
    { s with subpools := s.subpools.map fun p => { p with mem := false, start := false }, deleted := true })

/-- The pool is asserted first. -/
def asserted (s : BlockPool) (r : Out × BlockPool) : Except Fault (Out × BlockPool) :=
  if s.deleted then .error .demand else .ok r

def step (s : BlockPool) : Event → Except Fault (Out × BlockPool)
  | .extend numExtensions numBlocks => s.asserted (s.extend numExtensions numBlocks)
  | .alloc malloc => if s.deleted then .error .demand else s.alloc malloc
  | .free none => .ok (.freed [], s)
  | .free (some b) => s.free b
  | .availableCount => s.asserted (.count s.availableCount, s)
  | .usedCount => s.asserted (.count s.usedCount, s)
  | .elemToHandle b => s.elemToHandle b
  | .elemFromHandle h => s.asserted (.block (s.elemFromHandle h), s)
  | .delete => s.asserted s.delete

/-! ### What the pool is for -/

/-- A pool with a main subpool and extensions, and the blocks that are lent. -/
structure Plain where
  numBlocks : ℕ
  numExtensions : ℕ
  numExtensionBlocks : ℕ
  opened : Finset ℕ
  lent : Finset Block
  onHeap : Bool
  deleted : Bool

namespace Plain

def create (numBlocks : ℕ) (onHeap : Bool) : Plain :=
  { numBlocks := numBlocks, numExtensions := 0, numExtensionBlocks := 0, opened := {0}, lent := ∅,
    onHeap := onHeap, deleted := false }

def size (u : Plain) (k : ℕ) : ℕ := if k = 0 then u.numBlocks else u.numExtensionBlocks

/-- The pool has memory for the block. -/
def Has (u : Plain) (b : Block) : Prop := b.subpool ∈ u.opened ∧ b.index < u.size b.subpool

def capacity (u : Plain) : ℕ := u.numBlocks + u.numExtensions * u.numExtensionBlocks

/-- What a call may do to a pool that has not been deleted. -/
inductive Does (u : Plain) : Event → Out → Plain → Prop
  | grows (m n : ℕ) (honce : u.numExtensions = 0) (hm : 1 ≤ m ∧ m ≤ 7) (hn : 1 ≤ n) :
      Does u (.extend m n) (.status .success) { u with numExtensions := m, numExtensionBlocks := n }
  | grown (m n : ℕ) (htwice : 1 ≤ u.numExtensions) : Does u (.extend m n) (.status .eaccess) u
  | invalid (m n : ℕ) (honce : u.numExtensions = 0) (hmn : m < 1 ∨ 7 < m ∨ n < 1) :
      Does u (.extend m n) (.status .einval) u
  /-- A block is lent that is not; -/
  | lends (malloc : ℕ → Bool) (b : Block) (hhas : u.Has b) (hnot : b ∉ u.lent) :
      Does u (.alloc malloc) (.block (some b)) { u with lent := insert b u.lent }
  /-- when all are, it is one of a further subpool; -/
  | opens (malloc : ℕ → Bool) (b : Block) (hall : ∀ c, u.Has c → c ∈ u.lent) (hnew : b.subpool ∉ u.opened)
      (hin : b.subpool ≤ u.numExtensions ∧ b.index < u.numExtensionBlocks) (hmem : malloc b.subpool = true) :
      Does u (.alloc malloc) (.block (some b))
        { u with lent := insert b u.lent, opened := insert b.subpool u.opened }
  /-- and there is none only if there is no memory either. -/
  | lacks (malloc : ℕ → Bool) (hall : ∀ c, u.Has c → c ∈ u.lent)
      (hmem : ∀ k ≤ u.numExtensions, k ∉ u.opened → malloc k = false) : Does u (.alloc malloc) (.block none) u
  | takesBack (b : Block) (hlent : b ∈ u.lent) :
      Does u (.free (some b)) (.freed []) { u with lent := u.lent.erase b }
  | available : Does u .availableCount (.count ((u.capacity - u.lent.card) % 2 ^ 32)) u
  | used : Does u .usedCount (.count (u.lent.card % 2 ^ 32)) u
  | names (b : Block) (hlent : b ∈ u.lent) :
      Does u (.elemToHandle b) (.handle (handleCreate b.index b.subpool)) u
  | finds (h : ℕ) (o : Option Block)
      (ho : ∀ b, o = some b ↔ b ∈ u.lent ∧ b.subpool = handleGetSubpool h ∧ b.index = handleGetIndex h) :
      Does u (.elemFromHandle h) (.block o) u
  /-- The memory of further subpools does not go back. -/
  | deletes : Does u .delete (.freed (if u.onHeap then [0] else [])) { u with deleted := true }

inductive Step (u : Plain) : Event → Out → Plain → Prop
  | null : Step u (.free none) (.freed []) u
  | does {e : Event} {o : Out} {u' : Plain} (hthere : u.deleted = false) (hdoes : Does u e o u') : Step u e o u'

/-- A block that a call names. -/
def named : Event → Option Block
  | .free b => b
  | .elemToHandle b => some b
  | _ => none

/-- The call is not one that may be made. -/
def Misuse (u : Plain) (e : Event) : Prop := e ≠ .free none ∧ (u.deleted = true ∨ ∃ b ∈ named e, b ∉ u.lent)

end Plain

end BlockPool

end RcControl.Vcos
