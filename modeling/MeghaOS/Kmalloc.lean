import MeghaOS.State

/-!
# The kernel heap allocator (`kmalloc.c`)

The buffer is divided into sections, each led by a `KMallocHeader`. Three intrusive lists run
through the headers: the adjacent list holds every section in address order, the free list and the
allocated list the sections of either kind. The programs here run on the heap alone; the accesses
of a header that is written for the first time, which may fault, are added where the kernel calls
the allocator.
-/

namespace MeghaOS

open Exec

namespace KHeap

/-- Write the fields of a header. -/
def setHeader (h : KHeap) (at_ : Nat) (m : KMallocHeader) : KHeap :=
  { h with header := fun a => if a = at_ then m else h.header a }

end KHeap

/-- Run an operation of the intrusive lists. -/
def onLinks (f : Links KNode → Except Halt (Links KNode)) : Exec KHeap Unit := do
  let h ← get
  let links ← lift (f h.links)
  set { h with links }

/-- The steps a walk through a list may take before it counts as endless: one for each section the
buffer can hold. -/
abbrev heapFuel : Nat := memLenBytesKmalloc / sizeofKMallocHeader + 1

/-- `FindCriteria`. -/
inductive FindCriteria
  | findCritNodeSize | findCritNodeAddress
  deriving DecidableEq

/-- `s_getMallocHeaderFromList`. -/
def sGetMallocHeaderFromList (head node : KNode) : Exec KHeap Nat :=
  match head, node with
  | .allocHead, .allocnode h => pure h
  | .freeHead, .freenode h => pure h
  | _, _ => halt .fault

/-- The `switch` of `s_findFirst`. -/
def findMatches (h : KHeap) (criteria : FindCriteria) (header value : Nat) : Bool :=
  match criteria with
  | .findCritNodeAddress => header == value
  | .findCritNodeSize => decide ((h.header header).netNodeSize ≥ value)

/-- The loop of `s_findFirst`, at the node that `link` leads to. -/
def findFirstFrom (head : KNode) (criteria : FindCriteria) (value : Nat) :
    Nat → Option KNode → Exec KHeap (Option Nat)
  | 0, _ => halt .hang
  | fuel + 1, link => do
    let node ← lift (Links.deref link)
    if node = head then return none
    else
      let header ← sGetMallocHeaderFromList head node
      if findMatches (← get) criteria header value then return some header
      else findFirstFrom head criteria value fuel ((← get).links.next node)

/-- `s_findFirst`. -/
def sFindFirst (head : KNode) (criteria : FindCriteria) (value : Nat) :
    Exec KHeap (Option Nat) := do
  findFirstFrom head criteria value heapFuel ((← get).links.next head)

/-- `k_assert`, in code that runs on the heap alone. -/
def heapAssert (t : Prop) [Decidable t] (e : String) : Exec KHeap Unit :=
  if t then pure () else halt (.panic ("Assertion failed: " ++ e))

/-- `s_createNewNode`. -/
def sCreateNewNode (at_ netSize : Nat) : Exec KHeap Unit := do
  heapAssert (u32Sub (at_ + netSize) 1 < u32 ((← get).buffer + memLenBytesKmalloc))
    "Node netSize too large"
  modify (·.setHeader at_ ⟨netSize, false⟩)
  onLinks fun l => .ok (l.listInit (.freenode at_))
  onLinks fun l => .ok (l.listInit (.allocnode at_))
  onLinks fun l => .ok (l.listInit (.adjnode at_))

/-- `NET_ALLOCATION_SIZE`. -/
def netAllocationSize (bytes : Nat) : Nat := u32 (bytes + sizeofKMallocHeader)

/-- The address at which `s_splitFreeNode` writes the header of the remaining free section. -/
def splitAt (bytes freeNodeHdr : Nat) : Nat := u32 (freeNodeHdr + netAllocationSize bytes)

/-- `s_splitFreeNode`. -/
def sSplitFreeNode (bytes freeNodeHdr : Nat) : Exec KHeap Unit := do
  let netAllocSize := netAllocationSize bytes
  let remainingSize := u32Sub ((← get).header freeNodeHdr).netNodeSize netAllocSize
  heapAssert (remainingSize ≥ sizeofKMallocHeader) "Not enough space for kmalloc header"
  let newFreeNodeHdr := splitAt bytes freeNodeHdr
  sCreateNewNode newFreeNodeHdr remainingSize
  modify (·.setHeader freeNodeHdr ⟨netAllocSize, true⟩)
  onLinks (·.listAddAfter (.freenode freeNodeHdr) (.freenode newFreeNodeHdr))
  onLinks (·.listAddAfter (.adjnode freeNodeHdr) (.adjnode newFreeNodeHdr))
  onLinks (·.listRemove (.freenode freeNodeHdr))
  onLinks (·.listAddBefore .allocHead (.allocnode freeNodeHdr))

/-- The search of `kmalloc` for a section that is large enough. -/
def findFreeNode (bytes : Nat) : Exec KHeap (Option Nat) := do
  let searchAllocSize := u32 (netAllocationSize bytes + sizeofKMallocHeader)
  match ← sFindFirst .freeHead .findCritNodeSize searchAllocSize with
  | none => return none
  | some node =>
    heapAssert (((← get).header node).netNodeSize ≥ netAllocationSize bytes)
      "Found node too small"
    return some node

/-- `LIST_ITEM` of a link of the adjacent list, `NULL` for the list head. -/
def adjItem (link : Option KNode) : Except Halt (Option Nat) :=
  match link with
  | some (.adjnode h) => .ok (some h)
  | some .adjHead => .ok none
  | _ => .error .fault

/-- The body of either branch of `s_combineAdjFreeNodes`: the section `second` becomes part of the
section `first` before it. -/
def combineSections (first second : Nat) : Exec KHeap Unit := do
  modify fun h => h.setHeader first
    { h.header first with
      netNodeSize := u32 ((h.header first).netNodeSize + (h.header second).netNodeSize) }
  onLinks (·.listRemove (.freenode second))
  onLinks (·.listRemove (.adjnode second))

/-- A branch of `s_combineAdjFreeNodes`: `neighbour != NULL && neighbour->isAllocated == false`. -/
def whenFree (neighbour : Option Nat) (combine : Nat → Exec KHeap Unit) : Exec KHeap Unit := do
  match neighbour with
  | none => return
  | some n => if ((← get).header n).isAllocated = false then combine n

/-- `s_combineAdjFreeNodes`. -/
def sCombineAdjFreeNodes (currentNode : Nat) : Exec KHeap Unit := do
  heapAssert (((← get).header currentNode).isAllocated = false)
    "Cannot combine allocated node. Invalid input."
  let prev ← lift (adjItem ((← get).links.prev (.adjnode currentNode)))
  let next ← lift (adjItem ((← get).links.next (.adjnode currentNode)))
  whenFree next fun next => combineSections currentNode next
  whenFree prev fun prev => combineSections prev currentNode

/-- `kfree`, without the error number; the result says whether the block was found. -/
def heapFree (addr : Nat) : Exec KHeap Bool := do
  let headerAddress := u32Sub addr sizeofKMallocHeader
  match ← sFindFirst .allocHead .findCritNodeAddress headerAddress with
  | none => return false
  | some allocHdr =>
    onLinks (·.listRemove (.allocnode allocHdr))
    onLinks (·.listAddAfter .freeHead (.freenode allocHdr))
    modify fun h => h.setHeader allocHdr { h.header allocHdr with isAllocated := false }
    sCombineAdjFreeNodes allocHdr
    return true

/-- The loop of `kmalloc_getUsedMemory`. -/
def usedMemoryFrom : Nat → Option KNode → Nat → Exec KHeap Nat
  | 0, _, _ => halt .hang
  | fuel + 1, link, usedSz => do
    let node ← lift (Links.deref link)
    if node = .allocHead then return usedSz
    else
      let header ← sGetMallocHeaderFromList .allocHead node
      let size := ((← get).header header).netNodeSize
      heapAssert (size < memLenBytesKmalloc) "Invalid state of kmalloc data"
      usedMemoryFrom fuel ((← get).links.next node) (u32 (usedSz + size))

/-- The body of `kmalloc_getUsedMemory`. -/
def heapUsedMemory : Exec KHeap Nat := do
  usedMemoryFrom heapFuel ((← get).links.next .allocHead) 0

/-- The list heads and the first section, as `kmalloc_init` sets them up in `buffer`. -/
def heapInit (buffer : Nat) : Exec KHeap Unit := do
  onLinks fun l => .ok (l.listInit .freeHead)
  onLinks fun l => .ok (l.listInit .allocHead)
  onLinks fun l => .ok (l.listInit .adjHead)
  modify fun h => { h with buffer }
  sCreateNewNode buffer memLenBytesKmalloc
  onLinks (·.listAddBefore .freeHead (.freenode buffer))
  onLinks (·.listAddBefore .adjHead (.adjnode buffer))

end MeghaOS
