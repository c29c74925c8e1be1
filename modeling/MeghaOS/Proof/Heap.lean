import MeghaOS.Kmalloc
import MeghaOS.Lib.Tiling
import Mathlib.Data.List.Perm.Subperm

/-!
# The sections of the kernel heap

`HeapCore` relates the three rings of the allocator to one tiling of the buffer: the adjacent ring
lists the sections in address order, the free and the allocated ring divide them by their flag.
`HeapInv` adds that no two neighbours are free and that the last section is.
`sSplitFreeNode_sections` and `heapFree_merges` say what allocation and release do to the sections,
and that they never stop.
-/

namespace MeghaOS

open Exec Links

variable {h h₁ h' : KHeap} {secs free alloc ys zs : List Nat} {a b bytes value : Nat}

namespace KHeap

/-- The size of the section at an address. -/
def size (h : KHeap) (a : Nat) : Nat := (h.header a).netNodeSize

/-- Whether the section at an address is allocated. -/
def used (h : KHeap) (a : Nat) : Bool := (h.header a).isAllocated

/-- A header that is written is read. -/
theorem setHeader_header (h : KHeap) (a : Nat) (m : KMallocHeader) (b : Nat) :
    (h.setHeader a m).header b = if b = a then m else h.header b := rfl

end KHeap

/-! ## The three lists -/

/-- The lists that run through the headers. -/
inductive ListKind
  | free | alloc | adj
  deriving DecidableEq

/-- The head of a list, and the node it uses in a header. -/
def ListKind.head : ListKind → KNode
  | .free => .freeHead
  | .alloc => .allocHead
  | .adj => .adjHead

def ListKind.node : ListKind → Nat → KNode
  | .free => .freenode
  | .alloc => .allocnode
  | .adj => .adjnode

/-- The list a node belongs to. -/
def KNode.kind : KNode → ListKind
  | .freeHead | .freenode _ => .free
  | .allocHead | .allocnode _ => .alloc
  | .adjHead | .adjnode _ => .adj

/-- The head of a list belongs to the list. -/
@[simp] theorem ListKind.kind_head (k : ListKind) : k.head.kind = k := by cases k <;> rfl

/-- So do its nodes. -/
@[simp] theorem ListKind.kind_node (k : ListKind) (a : Nat) : (k.node a).kind = k := by
  cases k <;> rfl

/-- Different sections have different nodes. -/
theorem ListKind.node_injective (k : ListKind) : Function.Injective k.node := by
  cases k <;> exact fun a b hab => by injection hab

/-- No node is the head. -/
theorem ListKind.node_ne_head (k : ListKind) (a : Nat) : k.node a ≠ k.head := by
  cases k <;> exact fun hab => by cases hab

/-- The rings of the three lists. -/
def HeapRings (l : Links KNode) (lists : ListKind → List Nat) : Prop :=
  ∀ k : ListKind, Ring l k.head ((lists k).map k.node)

namespace HeapRings

variable {l l' : Links KNode} {lists : ListKind → List Nat} {k : ListKind} {end_ : KNode}

/-- The members of a ring are nodes of its list. -/
theorem kind_of_mem {x : KNode} (hx : x ∈ k.head :: (ys.map k.node)) : x.kind = k := by
  rcases List.mem_cons.1 hx with rfl | hx
  · exact k.kind_head
  · obtain ⟨a, -, rfl⟩ := List.mem_map.1 hx
    exact k.kind_node a

/-- A change of one ring leaves the other two as they are. -/
theorem update (hr : HeapRings l lists) (hk : Ring l' k.head (ys.map k.node))
    (hsame : ∀ x : KNode, x.kind ≠ k → SameAt l l' x) :
    HeapRings l' (Function.update lists k ys) := by
  intro k'
  by_cases heq : k' = k
  · subst heq
    rw [Function.update_self]
    exact hk
  · rw [Function.update_of_ne heq]
    exact (hr k').frame fun x hx => hsame x (by rw [kind_of_mem hx]; exact heq)

/-- A section that is not in a list is not in its ring. -/
theorem notMem_ring (hb : b ∉ ys) : k.node b ∉ k.head :: (ys.map k.node) := by
  rw [List.mem_cons, not_or]
  refine ⟨k.node_ne_head b, fun hmem => ?_⟩
  obtain ⟨a, ha, hab⟩ := List.mem_map.1 hmem
  exact hb (k.node_injective hab ▸ ha)

/-- A new header goes behind the end of the first part of a list. -/
theorem listAddAfter (hr : HeapRings l lists) (hk : lists k = ys ++ zs)
    (hend : (k.head :: ys.map k.node).getLast? = some end_) (hb : b ∉ ys ++ zs) :
    ∃ l', l.listAddAfter end_ (k.node b) = .ok l' ∧
      HeapRings l' (Function.update lists k (ys ++ b :: zs)) := by
  have hring : Ring l k.head (ys.map k.node ++ zs.map k.node) := by
    rw [← List.map_append, ← hk]; exact hr k
  have hnot := notMem_ring (k := k) hb
  rw [List.map_append] at hnot
  obtain ⟨l', hl', hring', hsame⟩ := hring.listAddAfter hend hnot
  refine ⟨l', hl', hr.update (by simpa using hring') fun x hx => hsame x ?_ fun hmem => hx ?_⟩
  · rintro rfl; exact hx (k.kind_node b)
  · rw [← List.map_append] at hmem
    exact kind_of_mem hmem

/-- A new header goes behind a member of a list. -/
theorem listAddAfter_mem (hr : HeapRings l lists) (hk : lists k = ys ++ a :: zs)
    (hb : b ∉ ys ++ a :: zs) :
    ∃ l', l.listAddAfter (k.node a) (k.node b) = .ok l' ∧
      HeapRings l' (Function.update lists k (ys ++ a :: b :: zs)) := by
  have hk' : lists k = (ys ++ [a]) ++ zs := by simpa using hk
  have hend : (k.head :: (ys ++ [a]).map k.node).getLast? = some (k.node a) := by
    rw [List.map_append, ← List.cons_append]; exact List.getLast?_concat
  obtain ⟨l', hl', hr'⟩ := hr.listAddAfter hk' hend (by simpa using hb)
  exact ⟨l', hl', by simpa using hr'⟩

/-- A new header goes to the end of a list. -/
theorem listAddBefore (hr : HeapRings l lists) (hb : b ∉ lists k) :
    ∃ l', l.listAddBefore k.head (k.node b) = .ok l' ∧
      HeapRings l' (Function.update lists k (lists k ++ [b])) := by
  have hring : Ring l k.head ((lists k).map k.node ++ []) := by
    rw [List.append_nil]; exact hr k
  have hnot := notMem_ring (k := k) hb
  obtain ⟨l', hl', hring', hsame⟩ := hring.listAddBefore rfl (by rwa [List.append_nil])
  refine ⟨l', hl', hr.update (by simpa using hring') fun x hx => hsame x ?_ fun hmem => hx ?_⟩
  · rintro rfl; exact hx (k.kind_node b)
  · exact kind_of_mem (by rwa [List.append_nil] at hmem)

/-- A header leaves a list. -/
theorem listRemove (hr : HeapRings l lists) (hk : lists k = ys ++ b :: zs) :
    ∃ l', l.listRemove (k.node b) = .ok l' ∧
      HeapRings l' (Function.update lists k (ys ++ zs)) := by
  have hring : Ring l k.head (ys.map k.node ++ k.node b :: zs.map k.node) := by
    have := hr k
    rw [hk] at this
    simpa using this
  obtain ⟨l', hl', hring', hsame⟩ := hring.listRemove
  refine ⟨l', hl', hr.update (by simpa using hring') fun x hx => hsame x fun hmem => hx ?_⟩
  have hin : x ∈ k.head :: (ys ++ b :: zs).map k.node := by simpa using hmem
  exact kind_of_mem hin

/-- Initialising the nodes of a header that is in no list changes no ring. -/
theorem listInit (hr : HeapRings l lists) (k' : ListKind) (hb : ∀ k, b ∉ lists k) :
    HeapRings (l.listInit (k'.node b)) lists := by
  intro k
  refine (hr k).frame fun x hx => ?_
  have hne : x ≠ k'.node b := by
    rintro rfl
    have hkind := (kind_of_mem hx).symm.trans (k'.kind_node b)
    subst hkind
    exact notMem_ring (hb k) hx
  simp [SameAt, Links.listInit, setNext, setPrev, hne]

end HeapRings

/-- The members of the three lists. -/
def listOf (secs free alloc : List Nat) : ListKind → List Nat
  | .free => free
  | .alloc => alloc
  | .adj => secs

/-- The three lists, with one of them replaced. -/
@[simp] theorem update_free (xs : List Nat) :
    Function.update (listOf secs free alloc) .free xs = listOf secs xs alloc := by
  funext k; cases k <;> rfl

@[simp] theorem update_alloc (xs : List Nat) :
    Function.update (listOf secs free alloc) .alloc xs = listOf secs free xs := by
  funext k; cases k <;> rfl

@[simp] theorem update_adj (xs : List Nat) :
    Function.update (listOf secs free alloc) .adj xs = listOf xs free alloc := by
  funext k; cases k <;> rfl

/-! ## The invariant -/

/-- The sections `secs` tile the buffer, the adjacent list enumerates them, and the other two lists
divide them by their flag. -/
structure HeapCore (h : KHeap) (secs free alloc : List Nat) : Prop where
  rings : HeapRings h.links (listOf secs free alloc)
  tiles : Tiles h.size h.buffer secs (h.buffer + memLenBytesKmalloc)
  bound : h.buffer + memLenBytesKmalloc < 2 ^ 32
  minSize : ∀ a ∈ secs, sizeofKMallocHeader ≤ h.size a
  mem_free : ∀ a, a ∈ free ↔ a ∈ secs ∧ h.used a = false
  mem_alloc : ∀ a, a ∈ alloc ↔ a ∈ secs ∧ h.used a = true

/-- No two neighbours are free. -/
def Apart (used : Nat → Bool) (xs : List Nat) : Prop :=
  xs.IsChain fun a b => used a = true ∨ used b = true

/-- Only what is in use matters. -/
theorem Apart.congr {used used' : Nat → Bool} {xs : List Nat} (hx : Apart used xs)
    (hsame : ∀ x ∈ xs, used' x = used x) : Apart used' xs :=
  List.IsChain.imp_of_mem_imp (fun x y hx hy hxy => by rwa [hsame x hx, hsame y hy]) hx

/-- The heap between two calls of the allocator. -/
structure HeapInv (h : KHeap) (secs free alloc : List Nat) : Prop extends
    HeapCore h secs free alloc where
  apart : Apart h.used secs
  lastFree : ∃ a ∈ secs.getLast?, h.used a = false

namespace HeapCore

/-- No section is twice in a list. -/
theorem secs_nodup (hh : HeapCore h secs free alloc) : secs.Nodup :=
  List.Nodup.of_map _ (List.nodup_cons.1 (hh.rings .adj).nodup).2

theorem free_nodup (hh : HeapCore h secs free alloc) : free.Nodup :=
  List.Nodup.of_map _ (List.nodup_cons.1 (hh.rings .free).nodup).2

theorem alloc_nodup (hh : HeapCore h secs free alloc) : alloc.Nodup :=
  List.Nodup.of_map _ (List.nodup_cons.1 (hh.rings .alloc).nodup).2

/-- A section lies inside the buffer. -/
theorem bounds (hh : HeapCore h secs free alloc) (ha : a ∈ secs) :
    h.buffer ≤ a ∧ a + h.size a ≤ h.buffer + memLenBytesKmalloc :=
  hh.tiles.bounds ha

/-- The buffer holds at most as many sections as headers. -/
theorem secs_length (hh : HeapCore h secs free alloc) :
    secs.length * sizeofKMallocHeader ≤ memLenBytesKmalloc := by
  have hsum := hh.tiles.sum
  have hle : ∀ l : List Nat, (∀ a ∈ l, sizeofKMallocHeader ≤ h.size a) →
      l.length * sizeofKMallocHeader ≤ (l.map h.size).sum := by
    intro l hl
    induction l with
    | nil => simp
    | cons x l ih =>
      have := ih fun a ha => hl a (.tail _ ha)
      have := hl x (by simp)
      simp only [List.length_cons, List.map_cons, List.sum_cons, sizeofKMallocHeader] at *
      omega
  have := hle secs hh.minSize
  omega

/-- A walk through one of the lists ends before its fuel does. -/
theorem length_lt_heapFuel (hh : HeapCore h secs free alloc) {l : List Nat} (hl : l.Nodup)
    (hsub : ∀ a ∈ l, a ∈ secs) : l.length < heapFuel := by
  have h1 := (hl.subperm hsub).length_le
  have h2 := hh.secs_length
  simp only [memLenBytesKmalloc, sizeofKMallocHeader, heapFuel] at *
  omega

end HeapCore

/-! ## Walks through the lists -/

/-- The search through a list finds the first member that matches. -/
theorem findFirstFrom_spec {head : KNode} {mk : Nat → KNode} {criteria : FindCriteria}
    (hget : ∀ a, sGetMallocHeaderFromList head (mk a) = pure a)
    (hne : ∀ a, mk a ≠ head) {fuel : Nat}
    (hring : Ring h.links head ((ys ++ zs).map mk)) (hfuel : zs.length < fuel) :
    findFirstFrom head criteria value fuel ((zs.map mk ++ [head]).head?) h =
      .ok (zs.find? fun a => findMatches h criteria a value, h) := by
  induction zs generalizing ys fuel with
  | nil =>
    obtain ⟨fuel, rfl⟩ : ∃ n, fuel = n + 1 := ⟨fuel - 1, by omega⟩
    simp [findFirstFrom, deref, lift, bind, StateT.bind, Except.bind]
  | cons z zs ih =>
    obtain ⟨fuel, rfl⟩ : ∃ n, fuel = n + 1 := ⟨fuel - 1, by omega⟩
    have hnext : h.links.next (mk z) = (zs.map mk ++ [head]).head? := by
      have hring' : Ring h.links head (ys.map mk ++ mk z :: zs.map mk) := by simpa using hring
      exact hring'.next_mem
    have hring' : Ring h.links head (((ys ++ [z]) ++ zs).map mk) := by simpa using hring
    have hrest := ih hring' (Nat.lt_of_succ_lt_succ (by simpa using hfuel))
    rw [List.map_cons, List.cons_append, List.head?_cons, findFirstFrom]
    have hstart : (lift (deref (some (mk z))) : Exec KHeap KNode) h = .ok (mk z, h) := rfl
    rw [bind_of_ok hstart, if_neg (hne z), hget z, pure_bind, get_bind_apply, Exec.ite_apply]
    rw [List.find?_cons]
    cases hm : findMatches h criteria z value with
    | true => rfl
    | false => simpa [hnext] using hrest

/-- `s_findFirst` finds the first member of a list that matches, and changes nothing. -/
theorem sFindFirst_spec {head : KNode} {mk : Nat → KNode} {criteria : FindCriteria} {xs : List Nat}
    (hget : ∀ a, sGetMallocHeaderFromList head (mk a) = pure a) (hne : ∀ a, mk a ≠ head)
    (hring : Ring h.links head (xs.map mk)) (hlen : xs.length < heapFuel) :
    sFindFirst head criteria value h =
      .ok (xs.find? fun a => findMatches h criteria a value, h) := by
  rw [sFindFirst, get_bind_apply, hring.next_head]
  have hring' : Ring h.links head (([] ++ xs).map mk) := hring
  exact findFirstFrom_spec hget hne hring' hlen

/-! ## Changing the lists -/

/-- A list operation that ends well changes the links only. -/
theorem onLinks_of_ok {f : Links KNode → Except Halt (Links KNode)} {l : Links KNode}
    (hf : f h.links = .ok l) : onLinks f h = .ok ((), { h with links := l }) := by
  simp [onLinks, hf]

/-- An assertion that holds does nothing. -/
theorem heapAssert_of_true {t : Prop} [Decidable t] {e : String} (ht : t) :
    heapAssert t e = pure () := if_pos ht

/-- The links after the three nodes of a new header are initialised. -/
def initNodes (l : Links KNode) (a : Nat) : Links KNode :=
  ((l.listInit (.freenode a)).listInit (.allocnode a)).listInit (.adjnode a)

/-- The nodes of a new section are in no list yet. -/
theorem HeapRings.initNodes {l : Links KNode} {lists : ListKind → List Nat} (hr : HeapRings l lists)
    (ha : ∀ k, a ∉ lists k) : HeapRings (initNodes l a) lists :=
  ((hr.listInit .free ha).listInit .alloc ha).listInit .adj ha

/-- `s_createNewNode` writes a header that its assertion lets through. -/
theorem sCreateNewNode_of_lt {net : Nat}
    (hlt : u32Sub (a + net) 1 < u32 (h.buffer + memLenBytesKmalloc)) :
    sCreateNewNode a net h =
      .ok ((), { h.setHeader a ⟨net, false⟩ with links := initNodes h.links a }) := by
  rw [sCreateNewNode, get_bind_apply, heapAssert_of_true hlt]
  rfl

namespace HeapCore

/-- An address strictly inside a section is the start of none. -/
theorem notMem_of_inside (hh : HeapCore h secs free alloc) (ha : a ∈ secs) (hlt : a < b)
    (hin : b < a + h.size a) : b ∉ secs := fun hb =>
  absurd (hh.tiles.eq_of_mem ha hb (Nat.le_of_lt hlt) hin) (Nat.ne_of_gt hlt)

/-- What is no section is in none of the lists. -/
theorem notMem_lists (hh : HeapCore h secs free alloc) (ha : a ∉ secs) (k : ListKind) :
    a ∉ listOf secs free alloc k := by
  cases k
  · exact fun hmem => ha ((hh.mem_free a).1 hmem).1
  · exact fun hmem => ha ((hh.mem_alloc a).1 hmem).1
  · exact ha

end HeapCore

/-- The headers after a free section was split at `b`. -/
def splitHeader (h : KHeap) (a b net : Nat) : Nat → KMallocHeader := fun x =>
  if x = a then ⟨net, true⟩ else if x = b then ⟨h.size a - net, false⟩ else h.header x

/-- What the headers say after a section was split at an address inside it. -/
theorem HeapCore.splitHeader_eq {net : Nat} (hh : HeapCore h (ys ++ a :: zs) free alloc)
    (hpos : 0 < net) (hlt : net < h.size a) (hheader : h'.header = splitHeader h a (a + net) net) :
    (h'.size a = net ∧ h'.used a = true) ∧
      (h'.size (a + net) = h.size a - net ∧ h'.used (a + net) = false) ∧
      ∀ x ∈ ys ++ zs, h'.size x = h.size x ∧ h'.used x = h.used x := by
  have hb : a + net ∉ ys ++ a :: zs := hh.notMem_of_inside (a := a) (by simp) (by omega) (by omega)
  have hba : a + net ≠ a := by omega
  have hnd := hh.secs_nodup
  rw [List.nodup_middle, List.nodup_cons] at hnd
  have hsz : ∀ x, h'.size x = (splitHeader h a (a + net) net x).netNodeSize := fun x => by
    rw [KHeap.size, hheader]
  have hus : ∀ x, h'.used x = (splitHeader h a (a + net) net x).isAllocated := fun x => by
    rw [KHeap.used, hheader]
  refine ⟨?_, ?_, fun x hx => ?_⟩
  · rw [hsz, hus, splitHeader, if_pos rfl]; exact ⟨rfl, rfl⟩
  · rw [hsz, hus, splitHeader, if_neg hba, if_pos rfl]; exact ⟨rfl, rfl⟩
  · have hxa : x ≠ a := fun heq => hnd.1 (heq ▸ hx)
    have hxb : x ≠ a + net := fun heq => hb (by rw [← heq]; simp at hx ⊢; tauto)
    rw [hsz, hus, splitHeader, if_neg hxa, if_neg hxb]
    exact ⟨rfl, rfl⟩

/-- The sections after a free section was split: it becomes an allocated section, followed by a free
section that takes its place in the free list. -/
theorem HeapCore.split {fs₁ fs₂ : List Nat} {net : Nat}
    (hh : HeapCore h (ys ++ a :: zs) (fs₁ ++ a :: fs₂) alloc) (hnet : sizeofKMallocHeader ≤ net)
    (hsize : net + sizeofKMallocHeader ≤ h.size a) (hbuf : h'.buffer = h.buffer)
    (hheader : h'.header = splitHeader h a (a + net) net)
    (hrings : HeapRings h'.links (listOf (ys ++ a :: (a + net) :: zs) (fs₁ ++ (a + net) :: fs₂)
      (alloc ++ [a]))) :
    HeapCore h' (ys ++ a :: (a + net) :: zs) (fs₁ ++ (a + net) :: fs₂) (alloc ++ [a]) := by
  simp only [sizeofKMallocHeader] at hnet hsize
  have hb : a + net ∉ ys ++ a :: zs := hh.notMem_of_inside (a := a) (by simp) (by omega) (by omega)
  have hafree := hh.free_nodup
  have hasecs := hh.secs_nodup
  rw [List.nodup_middle, List.nodup_cons] at hafree hasecs
  obtain ⟨hsa, hsb, hold⟩ := hh.splitHeader_eq (by omega) (by omega) hheader
  refine ⟨hrings, ?_, by rw [hbuf]; exact hh.bound, ?_, ?_, ?_⟩
  · rw [hbuf]
    refine hh.tiles.split (by rw [hsa.1]) ?_ fun x hx => (hold x hx).1
    rw [hsa.1, hsb.1]; omega
  · intro x hx
    by_cases hxa : x = a
    · subst hxa; rw [hsa.1]; exact hnet
    by_cases hxb : x = a + net
    · subst hxb; rw [hsb.1, sizeofKMallocHeader]; omega
    have hx' : x ∈ ys ++ zs := by simp at hx ⊢; tauto
    rw [(hold x hx').1]
    exact hh.minSize x (by simp at hx' ⊢; tauto)
  · intro x
    have hmem := hh.mem_free x
    grind
  · intro x
    have hmem := hh.mem_alloc x
    grind

/-- Splitting a free section of sufficient size: it becomes an allocated section of the requested
size, followed by a free section that takes its place in the free list. -/
theorem sSplitFreeNode_spec {fs₁ fs₂ : List Nat}
    (hh : HeapCore h (ys ++ a :: zs) (fs₁ ++ a :: fs₂) alloc)
    (hsize : bytes + 2 * sizeofKMallocHeader ≤ h.size a) :
    ∃ h', sSplitFreeNode bytes a h = .ok ((), h') ∧
      HeapCore h' (ys ++ a :: (a + (bytes + 32)) :: zs) (fs₁ ++ (a + (bytes + 32)) :: fs₂)
        (alloc ++ [a]) ∧
      h'.header = splitHeader h a (a + (bytes + 32)) (bytes + 32) ∧ h'.buffer = h.buffer := by
  simp only [sizeofKMallocHeader] at hsize
  have hsecs : a ∈ ys ++ a :: zs := by simp
  have hbounds := hh.bounds hsecs
  have hbound := hh.bound
  simp only [memLenBytesKmalloc] at hbounds hbound
  obtain ⟨-, hfree⟩ := (hh.mem_free a).1 (by simp)
  set b := a + (bytes + 32) with hb
  have hne : b ≠ a := by omega
  have hbsecs : b ∉ ys ++ a :: zs := hh.notMem_of_inside hsecs (by omega) (by omega)
  have hbfree : b ∉ fs₁ ++ a :: fs₂ := hh.notMem_lists hbsecs .free
  have halloc : a ∉ alloc := fun hmem => by
    have := ((hh.mem_alloc a).1 hmem).2
    rw [hfree] at this
    cases this
  -- the words the program computes, without wrapping
  have hnet : netAllocationSize bytes = bytes + 32 :=
    Nat.mod_eq_of_lt (show bytes + 32 < 2 ^ 32 by omega)
  have hsplit : splitAt bytes a = b := by
    rw [splitAt, hnet, u32, Nat.mod_eq_of_lt (by omega)]
  have hrem : u32Sub (h.header a).netNodeSize (bytes + 32) = h.size a - (bytes + 32) := by
    have : h.size a = (h.header a).netNodeSize := rfl
    unfold u32Sub
    omega
  have hassert : u32Sub (b + (h.size a - (bytes + 32))) 1 <
      u32 (h.buffer + memLenBytesKmalloc) := by
    unfold u32Sub u32 memLenBytesKmalloc
    omega
  -- the changes of the lists, in the order of the program
  have hr₀ := hh.rings.initNodes (a := b) (hh.notMem_lists hbsecs)
  obtain ⟨l₁, hl₁, hr₁⟩ := hr₀.listAddAfter_mem
    (show listOf (ys ++ a :: zs) (fs₁ ++ a :: fs₂) alloc .free = fs₁ ++ a :: fs₂ from rfl) hbfree
  rw [update_free] at hr₁
  obtain ⟨l₂, hl₂, hr₂⟩ := hr₁.listAddAfter_mem
    (show listOf (ys ++ a :: zs) (fs₁ ++ a :: b :: fs₂) alloc .adj = ys ++ a :: zs from rfl) hbsecs
  rw [update_adj] at hr₂
  obtain ⟨l₃, hl₃, hr₃⟩ := hr₂.listRemove
    (show listOf (ys ++ a :: b :: zs) (fs₁ ++ a :: b :: fs₂) alloc .free = fs₁ ++ a :: (b :: fs₂)
      from rfl)
  rw [update_free] at hr₃
  obtain ⟨l₄, hl₄, hr₄⟩ := hr₃.listAddBefore (k := .alloc) (b := a) halloc
  rw [update_alloc] at hr₄
  let h₁ : KHeap :=
    { h.setHeader b ⟨h.size a - (bytes + 32), false⟩ with links := initNodes h.links b }
  refine ⟨{ h₁.setHeader a ⟨bytes + 32, true⟩ with links := l₄ }, ?_, ?_, ?_, rfl⟩
  · rw [sSplitFreeNode, get_bind_apply, hnet, hrem, hsplit, heapAssert_of_true (by
      show h.size a - (bytes + 32) ≥ 32; omega)]
    rw [pure_bind, bind_of_ok (sCreateNewNode_of_lt hassert), modify_bind_apply]
    rw [bind_of_ok (onLinks_of_ok hl₁), bind_of_ok (onLinks_of_ok hl₂),
      bind_of_ok (onLinks_of_ok hl₃)]
    exact onLinks_of_ok hl₄
  · exact hh.split (Nat.le_add_left 32 bytes) (show bytes + 32 + 32 ≤ h.size a by omega) rfl rfl hr₄
  · rfl

/-! ## Release -/

/-- The sections after an allocated section was marked free. -/
theorem HeapCore.markFree {as₁ as₂ : List Nat} (hh : HeapCore h secs free (as₁ ++ a :: as₂))
    (hbuf : h'.buffer = h.buffer) (hsize : ∀ x, h'.size x = h.size x)
    (hused : ∀ x, h'.used x = if x = a then false else h.used x)
    (hrings : HeapRings h'.links (listOf secs (a :: free) (as₁ ++ as₂))) :
    HeapCore h' secs (a :: free) (as₁ ++ as₂) := by
  obtain ⟨hasecs, haused⟩ := (hh.mem_alloc a).1 (by simp)
  have hanot := hh.alloc_nodup
  rw [List.nodup_middle, List.nodup_cons] at hanot
  refine ⟨hrings, ?_, by rw [hbuf]; exact hh.bound, ?_, ?_, ?_⟩
  · rw [hbuf]
    exact hh.tiles.congr fun x _ => hsize x
  · exact fun x hx => (hsize x).symm ▸ hh.minSize x hx
  · intro x
    have hmem := hh.mem_free x
    grind
  · intro x
    have hmem := hh.mem_alloc x
    grind

/-- The sections after a free section was merged with the free section that follows it. -/
theorem HeapCore.merge {fs₁ fs₂ : List Nat}
    (hh : HeapCore h (ys ++ a :: b :: zs) (fs₁ ++ b :: fs₂) alloc)
    (hbuf : h'.buffer = h.buffer) (hsum : h'.size a = h.size a + h.size b)
    (hsize : ∀ x, x ≠ a → h'.size x = h.size x) (hused : h'.used = h.used)
    (hrings : HeapRings h'.links (listOf (ys ++ a :: zs) (fs₁ ++ fs₂) alloc)) :
    HeapCore h' (ys ++ a :: zs) (fs₁ ++ fs₂) alloc := by
  obtain ⟨hb, hbused⟩ := (hh.mem_free b).1 (by simp)
  have hbfree := hh.free_nodup
  rw [List.nodup_middle, List.nodup_cons] at hbfree
  have hnd := hh.secs_nodup
  rw [List.nodup_middle, List.nodup_cons] at hnd
  have hbnot : b ∉ ys ++ a :: zs := by
    have hnd' := hh.secs_nodup
    rw [show ys ++ a :: b :: zs = (ys ++ [a]) ++ b :: zs by simp, List.nodup_middle,
      List.nodup_cons] at hnd'
    simpa using hnd'.1
  refine ⟨hrings, ?_, by rw [hbuf]; exact hh.bound, ?_, ?_, ?_⟩
  · rw [hbuf]
    refine hh.tiles.merge hsum fun x hx => hsize x fun heq => hnd.1 ?_
    rw [← heq]; simp at hx ⊢; tauto
  · intro x hx
    have hmin := hh.minSize x (by simp at hx ⊢; tauto)
    by_cases hxa : x = a
    · subst hxa; rw [hsum]; omega
    · rwa [hsize x hxa]
  · intro x
    have hmem := hh.mem_free x
    rw [hused]
    grind
  · intro x
    have hmem := hh.mem_alloc x
    rw [hused]
    grind

/-- Taking an element out of a list in which it occurs once. -/
theorem erase_middle {xs₁ xs₂ : List Nat} (hnd : (xs₁ ++ a :: xs₂).Nodup) :
    (xs₁ ++ a :: xs₂).erase a = xs₁ ++ xs₂ := by
  rw [List.nodup_middle, List.nodup_cons] at hnd
  rw [List.erase_append_right _ fun hm => hnd.1 (by simp [hm]), List.erase_cons_head]

/-- Two neighbouring sections together lie inside the buffer. -/
theorem HeapCore.add_size_le (hh : HeapCore h (ys ++ a :: b :: zs) free alloc) :
    h.size a + h.size b ≤ memLenBytesKmalloc := by
  have ha := (hh.bounds (show a ∈ ys ++ a :: b :: zs by simp)).1
  have hb := (hh.bounds (show b ∈ ys ++ a :: b :: zs by simp)).2
  obtain ⟨mid, -, hamid, hab, -⟩ := Tiles.append.1 hh.tiles
  omega

/-- Combining a free section with the free section that follows it. -/
theorem combineSections_spec (hh : HeapCore h (ys ++ a :: b :: zs) free alloc)
    (ha : h.used a = false) (hb : h.used b = false) :
    ∃ h', combineSections a b h = .ok ((), h') ∧
      HeapCore h' (ys ++ a :: zs) (free.erase b) alloc ∧ h'.used = h.used ∧
      h'.size a = h.size a + h.size b ∧ (∀ x, x ≠ a → h'.size x = h.size x) ∧
      h'.buffer = h.buffer := by
  have hle := hh.add_size_le
  have hsum : u32 ((h.header a).netNodeSize + (h.header b).netNodeSize) = h.size a + h.size b :=
    Nat.mod_eq_of_lt (show h.size a + h.size b < 2 ^ 32
      by simp only [memLenBytesKmalloc] at hle; omega)
  obtain ⟨fs₁, fs₂, rfl⟩ := List.append_of_mem ((hh.mem_free b).2 ⟨by simp, hb⟩)
  obtain ⟨l₁, hl₁, hr₁⟩ := hh.rings.listRemove
    (show listOf (ys ++ a :: b :: zs) (fs₁ ++ b :: fs₂) alloc .free = fs₁ ++ b :: fs₂ from rfl)
  rw [update_free] at hr₁
  obtain ⟨l₂, hl₂, hr₂⟩ := hr₁.listRemove (b := b)
    (show listOf (ys ++ a :: b :: zs) (fs₁ ++ fs₂) alloc .adj = (ys ++ [a]) ++ b :: zs by
      simp [listOf])
  rw [update_adj, List.append_assoc] at hr₂
  let h₁ : KHeap := h.setHeader a { h.header a with netNodeSize := h.size a + h.size b }
  have hus : h₁.used = h.used := by
    funext x
    by_cases hxa : x = a
    · subst hxa; simp [KHeap.used, h₁, KHeap.setHeader_header]
    · simp [KHeap.used, h₁, KHeap.setHeader_header, hxa]
  have hsz : ∀ x, x ≠ a → h₁.size x = h.size x := fun x hx => by
    simp [KHeap.size, h₁, KHeap.setHeader_header, hx]
  have hsa : h₁.size a = h.size a + h.size b := by
    simp [KHeap.size, h₁, KHeap.setHeader_header]
  refine ⟨{ h₁ with links := l₂ }, ?_, ?_, hus, hsa, hsz, rfl⟩
  · rw [combineSections, modify_bind_apply, hsum, bind_of_ok (onLinks_of_ok hl₁)]
    exact onLinks_of_ok hl₂
  · rw [erase_middle hh.free_nodup]
    exact hh.merge rfl hsa hsz hus hr₂

/-! The neighbours of a section in the adjacent list. -/

/-- The section behind, if there is one. -/
theorem HeapCore.adjItem_next (hh : HeapCore h (ys ++ a :: zs) free alloc) :
    adjItem (h.links.next (.adjnode a)) = .ok zs.head? := by
  have hring : Ring h.links .adjHead (ys.map .adjnode ++ .adjnode a :: zs.map .adjnode) := by
    simpa [listOf, ListKind.head, ListKind.node] using hh.rings .adj
  rw [hring.next_mem]
  cases zs <;> rfl

/-- The section before, if there is one. -/
theorem HeapCore.adjItem_prev (hh : HeapCore h (ys ++ a :: zs) free alloc) :
    adjItem (h.links.prev (.adjnode a)) = .ok ys.getLast? := by
  have hring : Ring h.links .adjHead (ys.map .adjnode ++ .adjnode a :: zs.map .adjnode) := by
    simpa [listOf, ListKind.head, ListKind.node] using hh.rings .adj
  rw [hring.prev_mem]
  induction ys using List.reverseRecOn with
  | nil => rfl
  | append_singleton ys y =>
    rw [List.map_append, ← List.cons_append, List.getLast?_append, List.getLast?_append]
    rfl

/-- The section `a`, which is free, was merged with the free section before it and the free section
behind it, where there are such: `left` and `right` hold them. -/
structure Merged (h h' : KHeap) (ys left : List Nat) (a : Nat) (right zs : List Nat) : Prop where
  left_length : left.length ≤ 1
  right_length : right.length ≤ 1
  left_free : ∀ x ∈ left, h.used x = false
  right_free : ∀ x ∈ right, h.used x = false
  before : ∀ y ∈ ys.getLast?, h.used y = true
  behind : ∀ z ∈ zs.head?, h.used z = true
  used : h'.used (left.headD a) = false
  used_other : ∀ x, x ≠ a → h'.used x = h.used x
  size : h'.size (left.headD a) = (left.map h.size).sum + h.size a + (right.map h.size).sum
  size_other : ∀ x, x ≠ left.headD a → x ≠ a → h'.size x = h.size x
  buffer : h'.buffer = h.buffer

/-- Only the section itself may have been marked before. -/
theorem Merged.congr {left right : List Nat} (hm : Merged h₁ h' ys left a right zs)
    (hys : a ∉ ys ++ left) (hzs : a ∉ right ++ zs) (hsize : ∀ x, h₁.size x = h.size x)
    (hused : ∀ x, x ≠ a → h₁.used x = h.used x) (hbuf : h₁.buffer = h.buffer) :
    Merged h h' ys left a right zs := by
  have hleft : ∀ x ∈ left, h₁.used x = h.used x := fun x hx =>
    hused x fun hxa => hys (List.mem_append_right _ (hxa ▸ hx))
  have hright : ∀ x ∈ right, h₁.used x = h.used x := fun x hx =>
    hused x fun hxa => hzs (List.mem_append_left _ (hxa ▸ hx))
  have hsizes : h₁.size = h.size := funext hsize
  refine ⟨hm.left_length, hm.right_length, fun x hx => (hleft x hx).symm.trans (hm.left_free x hx),
    fun x hx => (hright x hx).symm.trans (hm.right_free x hx), fun y hy => ?_,
      fun z hz => ?_, hm.used,
    fun x hx => (hm.used_other x hx).trans (hused x hx), hsizes ▸ hm.size,
    fun x hx hxa => (hm.size_other x hx hxa).trans (hsize x), hm.buffer.trans hbuf⟩
  · rw [← hused y fun hya => hys (List.mem_append_left _ (hya ▸ List.mem_of_getLast? hy))]
    exact hm.before y hy
  · rw [← hused z fun hza => hzs (List.mem_append_right _ (hza ▸ List.mem_of_head? hz))]
    exact hm.behind z hz

/-- The first half of `s_combineAdjFreeNodes`: a free section that follows the released one becomes
part of it, and an allocated section, or none, follows afterwards. -/
theorem whenFree_next (hh : HeapCore h (ys ++ a :: zs) free alloc) (ha : h.used a = false)
    (hzs : Apart h.used zs) :
    ∃ h' right zs', zs = right ++ zs' ∧
      whenFree zs.head? (fun next => combineSections a next) h = .ok ((), h') ∧
      HeapCore h' (ys ++ a :: zs') (free.diff right) alloc ∧ h'.used = h.used ∧
      h'.size a = h.size a + (right.map h.size).sum ∧ (∀ x, x ≠ a → h'.size x = h.size x) ∧
      h'.buffer = h.buffer ∧ right.length ≤ 1 ∧ (∀ x ∈ right, h.used x = false) ∧
      (∀ z ∈ zs'.head?, h.used z = true) := by
  cases zs with
  | nil =>
    exact ⟨h, [], [], rfl, rfl, hh, rfl, by simp, fun _ _ => rfl, rfl, by simp, by simp, by simp⟩
  | cons b zs =>
    rw [List.head?_cons, whenFree, get_bind_apply, Exec.ite_apply]
    have hused : (h.header b).isAllocated = h.used b := rfl
    rw [hused]
    cases hb : h.used b with
    | true =>
      exact ⟨h, [], b :: zs, rfl, if_neg (by simp), hh, rfl, by simp, fun _ _ => rfl, rfl, by simp,
        by simp, by simpa using hb⟩
    | false =>
      obtain ⟨h', hrun, hh', hus, hsa, hsz, hbuf⟩ := combineSections_spec hh ha hb
      refine ⟨h', [b], zs, rfl,
        by rw [if_pos rfl]; exact hrun, by simpa using hh', hus, by simpa using hsa, hsz,
        hbuf, by simp, by simpa using hb, fun z hz => ?_⟩
      cases zs with
      | nil => cases hz
      | cons y zs =>
        cases hz
        simpa [hb] using hzs.rel

/-- The second half: the released section becomes part of a free section that precedes it, and an
allocated section, or none, precedes afterwards. -/
theorem whenFree_prev (hh : HeapCore h (ys ++ a :: zs) free alloc) (ha : h.used a = false)
    (hys : Apart h.used ys) :
    ∃ h' ys' left, ys = ys' ++ left ∧
      whenFree ys.getLast? (fun prev => combineSections prev a) h = .ok ((), h') ∧
      HeapCore h' (ys' ++ left.headD a :: zs) (if left = [] then free else free.erase a) alloc ∧
      h'.used = h.used ∧ h.used (left.headD a) = false ∧
      h'.size (left.headD a) = (left.map h.size).sum + h.size a ∧
      (∀ x, x ≠ left.headD a → h'.size x = h.size x) ∧ h'.buffer = h.buffer ∧ left.length ≤ 1 ∧
      (∀ x ∈ left, h.used x = false) ∧ (∀ y ∈ ys'.getLast?, h.used y = true) := by
  induction ys using List.reverseRecOn with
  | nil =>
    exact ⟨h, [], [], rfl, rfl, hh, rfl,
      ha, by simp, fun _ _ => rfl, rfl, by simp, by simp, by simp⟩
  | append_singleton ys b =>
    rw [List.getLast?_concat, whenFree, get_bind_apply, Exec.ite_apply]
    have hused : (h.header b).isAllocated = h.used b := rfl
    rw [hused]
    cases hb : h.used b with
    | true =>
      exact ⟨h, ys ++ [b], [], by simp, if_neg (by simp), hh, rfl, ha, by simp, fun _ _ => rfl, rfl,
        by simp, by simp, by simpa using hb⟩
    | false =>
      rw [List.append_assoc, List.singleton_append] at hh
      obtain ⟨h', hrun, hh', hus, hsb, hsz, hbuf⟩ := combineSections_spec hh hb ha
      obtain ⟨-, -, hlink⟩ := List.isChain_append.1 hys
      refine ⟨h', ys, [b], rfl,
        by rw [if_pos rfl]; exact hrun, hh', hus, hb, by simpa using hsb, hsz,
        hbuf, by simp, by simpa using hb, fun y hy => ?_⟩
      simpa [hb] using hlink y hy b rfl

/-- `s_combineAdjFreeNodes` of a section that was released merges it with its free neighbours, and
restores the invariant. -/
theorem sCombineAdjFreeNodes_spec (hh : HeapCore h (ys ++ a :: zs) free alloc)
    (ha : h.used a = false) (hys : Apart h.used ys) (hzs : Apart h.used zs)
    (hlast : ∀ z ∈ zs.getLast?, h.used z = false) :
    ∃ h' ys' left right zs', ys = ys' ++ left ∧ zs = right ++ zs' ∧
      sCombineAdjFreeNodes a h = .ok ((), h') ∧
      HeapInv h' (ys' ++ left.headD a :: zs')
        (if left = [] then free.diff right else (free.diff right).erase a) alloc ∧
      Merged h h' ys' left a right zs' := by
  obtain ⟨h₁, right, zs', rfl, hrun₁, hh₁, hus₁, hsa₁, hsz₁, hbuf₁, hright, hrfree, hhead⟩ :=
    whenFree_next hh ha hzs
  obtain ⟨h₂, ys', left, rfl, hrun₂, hh₂, hus₂, hb, hsb₂, hsz₂, hbuf₂, hleft, hlfree, hend⟩ :=
    whenFree_prev hh₁ (hus₁ ▸ ha) (hus₁ ▸ hys)
  rw [hus₁] at hus₂ hb hlfree hend
  have hnd := hh.secs_nodup
  have hleft₁ : left.map h₁.size = left.map h.size := List.map_congr_left fun x hx =>
      hsz₁ x fun hxa => by
    simp only [List.nodup_append, List.mem_append] at hnd
    exact hnd.2.2 x (.inr hx) a (by simp) hxa
  refine ⟨h₂, ys', left, right, zs', rfl, rfl, ?_, ⟨hh₂, ?_, ?_⟩, hleft, hright,
    hlfree, hrfree, hend,
    hhead, hus₂ ▸ hb, fun x _ => by rw [hus₂], ?_, fun x hx hxa => ?_, hbuf₂.trans hbuf₁⟩
  · rw [sCombineAdjFreeNodes, get_bind_apply,
      heapAssert_of_true (show (h.header a).isAllocated = false from ha),
      pure_bind, get_bind_apply, bind_of_ok (lift_eq_ok.2 ⟨hh.adjItem_prev, rfl⟩), get_bind_apply,
      bind_of_ok (lift_eq_ok.2 ⟨hh.adjItem_next, rfl⟩), bind_of_ok hrun₁, hrun₂]
  · rw [hus₂]
    refine List.isChain_append.2 ⟨(List.isChain_append.1 hys).1,
      List.isChain_cons.2 ⟨fun z hz => ?_,
      (List.isChain_append.1 hzs).2.1⟩, ?_⟩
    · exact .inr (hhead z hz)
    · exact fun y hy _ _ => .inl (hend y hy)
  · cases zs' with
    | nil => exact ⟨left.headD a, by simp, hus₂ ▸ hb⟩
    | cons z zs' =>
      have hz : (z :: zs').getLast? = some ((z :: zs').getLast (by simp)) :=
        List.getLast?_eq_some_getLast (by simp)
      exact ⟨_, by simpa [List.getLast?_append] using hz,
        hus₂ ▸ hlast _ (by simpa [List.getLast?_append] using hz)⟩
  · rw [hsb₂, hsa₁, hleft₁]
    omega
  · rw [hsz₂ x hx, hsz₁ x hxa]

/-- A search through the allocated list. -/
theorem HeapCore.findFirst_alloc (hh : HeapCore h secs free alloc) (criteria : FindCriteria) :
    sFindFirst .allocHead criteria value h =
      .ok (alloc.find? fun a => findMatches h criteria a value, h) :=
  sFindFirst_spec (fun _ => rfl) (ListKind.node_ne_head .alloc) (hh.rings .alloc)
    (hh.length_lt_heapFuel hh.alloc_nodup fun a ha => ((hh.mem_alloc a).1 ha).1)

/-- A search through the free list. -/
theorem HeapCore.findFirst_free (hh : HeapCore h secs free alloc) (criteria : FindCriteria) :
    sFindFirst .freeHead criteria value h =
      .ok (free.find? fun a => findMatches h criteria a value, h) :=
  sFindFirst_spec (fun _ => rfl) (ListKind.node_ne_head .free) (hh.rings .free)
    (hh.length_lt_heapFuel hh.free_nodup fun a ha => ((hh.mem_free a).1 ha).1)

/-- `kfree` of a block that is not allocated changes nothing. -/
theorem heapFree_of_notMem (hh : HeapCore h secs free alloc) {addr : Nat}
    (hno : u32Sub addr sizeofKMallocHeader ∉ alloc) : heapFree addr h = .ok (false, h) := by
  have hnone : alloc.find? (fun a => findMatches h .findCritNodeAddress a
      (u32Sub addr sizeofKMallocHeader)) = none := by
    rw [List.find?_eq_none]
    intro x hx hmatch
    have heq : x = u32Sub addr sizeofKMallocHeader := by simpa [findMatches] using hmatch
    exact hno (heq ▸ hx)
  rw [heapFree, bind_of_ok (hh.findFirst_alloc .findCritNodeAddress), hnone]
  rfl

/-- The free list after a section, which was put in front, was merged with its free neighbours. -/
theorem diff_erase {left right : List Nat} (hright : right.length ≤ 1) (ha : a ∉ right) :
    (if left = [] then (a :: free).diff right else ((a :: free).diff right).erase a) =
      if left = [] then a :: free.diff right else free.diff right := by
  have hdiff : (a :: free).diff right = a :: free.diff right := by
    match right, hright with
    | [], _ => rfl
    | [b], _ =>
      have hab : a ≠ b := fun heq => ha (by simp [heq])
      rw [List.diff_cons, List.diff_cons, List.diff_nil, List.diff_nil,
        List.erase_cons_tail (by simpa using hab)]
  rw [hdiff, List.erase_cons_head]

/-- `kfree` of an allocated block merges its section with its free neighbours. -/
theorem heapFree_merges (hh : HeapInv h secs free alloc) {addr : Nat}
    (hmem : u32Sub addr sizeofKMallocHeader ∈ alloc) (ha : a = u32Sub addr sizeofKMallocHeader) :
    ∃ h' ys left right zs, secs = ys ++ left ++ a :: (right ++ zs) ∧
      heapFree addr h = .ok (true, h') ∧
      HeapInv h' (ys ++ left.headD a :: zs)
        (if left = [] then a :: free.diff right else free.diff right) (alloc.erase a) ∧
      Merged h h' ys left a right zs := by
  have hfind : sFindFirst .allocHead .findCritNodeAddress (u32Sub addr sizeofKMallocHeader) h = _ :=
    hh.findFirst_alloc .findCritNodeAddress
  rw [heapFree]
  rw [← ha] at hfind hmem ⊢
  have hsome : alloc.find? (fun x => findMatches h .findCritNodeAddress x a) = some a := by
    cases hx : alloc.find? (fun x => findMatches h .findCritNodeAddress x a) with
    | none => exact absurd (List.find?_eq_none.1 hx a hmem) (by simp [findMatches])
    | some x =>
      have heq : x = a := by simpa [findMatches] using List.find?_some hx
      rw [heq]
  rw [hsome] at hfind
  obtain ⟨hasecs, haused⟩ := (hh.mem_alloc a).1 hmem
  obtain ⟨ys, zs, rfl⟩ := List.append_of_mem hasecs
  obtain ⟨as₁, as₂, rfl⟩ := List.append_of_mem hmem
  have hafree : a ∉ free := fun hm => by
    have := ((hh.mem_free a).1 hm).2
    rw [haused] at this
    cases this
  rw [erase_middle hh.alloc_nodup]
  obtain ⟨l₁, hl₁, hr₁⟩ := hh.rings.listRemove
    (show listOf (ys ++ a :: zs) free (as₁ ++ a :: as₂) .alloc = as₁ ++ a :: as₂ from rfl)
  rw [update_alloc] at hr₁
  obtain ⟨l₂, hl₂, hr₂⟩ := hr₁.listAddAfter (k := .free) (b := a)
    (show listOf (ys ++ a :: zs) free (as₁ ++ as₂) .free = [] ++ free from rfl) rfl hafree
  rw [update_free, List.nil_append] at hr₂
  let h₁ : KHeap := { h.setHeader a { h.header a with isAllocated := false } with links := l₂ }
  have hsz : ∀ x, h₁.size x = h.size x := fun x => by
    by_cases hxa : x = a
    · subst hxa; simp [KHeap.size, h₁, KHeap.setHeader_header]
    · simp [KHeap.size, h₁, KHeap.setHeader_header, hxa]
  have hus : ∀ x, h₁.used x = if x = a then false else h.used x := fun x => by
    by_cases hxa : x = a
    · subst hxa; simp [KHeap.used, h₁, KHeap.setHeader_header]
    · simp [KHeap.used, h₁, KHeap.setHeader_header, hxa]
  have hh₁ : HeapCore h₁ (ys ++ a :: zs) (a :: free) (as₁ ++ as₂) :=
    hh.markFree rfl hsz hus hr₂
  have hnd := hh.secs_nodup
  rw [List.nodup_middle, List.nodup_cons] at hnd
  obtain ⟨hys, hzs, -⟩ := List.isChain_append.1 hh.apart
  have hold : ∀ x ∈ ys ++ zs, h₁.used x = h.used x := fun x hx => by
    rw [hus, if_neg fun heq : x = a => hnd.1 (heq ▸ hx)]
  have hlast : ∀ z ∈ zs.getLast?, h₁.used z = false := fun z hz => by
    obtain ⟨z', hz', hfree⟩ := hh.lastFree
    rw [hold z (List.mem_append_right _ (List.mem_of_getLast? hz))]
    have heq : z' = z := by
      cases zs with
      | nil => cases hz
      | cons y zs => simpa [List.getLast?_append, Option.mem_def.1 hz, eq_comm] using hz'
    exact heq ▸ hfree
  obtain ⟨h', ys', left, right, zs', rfl, rfl, hrun, hh', hmerged⟩ := sCombineAdjFreeNodes_spec hh₁
    (by rw [hus, if_pos rfl]) (Apart.congr hys fun x hx => hold x (List.mem_append_left _ hx))
    (Apart.congr hzs.tail fun x hx => hold x (List.mem_append_right _ hx)) hlast
  rw [List.mem_append, not_or] at hnd
  have haright : a ∉ right := fun hm => hnd.1.2 (List.mem_append_left _ hm)
  rw [diff_erase hmerged.right_length haright] at hh'
  refine ⟨h', ys', left, right, zs', rfl, ?_, hh', hmerged.congr hnd.1.1 hnd.1.2 hsz
    (fun x hx => by rw [hus, if_neg hx]) rfl⟩
  rw [bind_of_ok hfind]
  show (onLinks _ >>= _) h = _
  rw [bind_of_ok (onLinks_of_ok hl₁), bind_of_ok (onLinks_of_ok hl₂), modify_bind_apply]
  exact bind_of_ok hrun

/-- `kfree` of an allocated block takes it out of the allocated list, and leaves the others. -/
theorem heapFree_of_mem (hh : HeapInv h secs free alloc) {addr : Nat}
    (hmem : u32Sub addr sizeofKMallocHeader ∈ alloc) :
    ∃ h' secs' free', heapFree addr h = .ok (true, h') ∧
      HeapInv h' secs' free' (alloc.erase (u32Sub addr sizeofKMallocHeader)) ∧
      (∀ x ∈ alloc.erase (u32Sub addr sizeofKMallocHeader), h'.size x = h.size x) ∧
      h'.buffer = h.buffer := by
  obtain ⟨h', ys, left, right, zs, -, hrun, hh', hm⟩ := heapFree_merges hh hmem rfl
  refine ⟨h', _, _, hrun, hh', fun x hx => ?_, hm.buffer⟩
  have hused := ((hh'.mem_alloc x).1 hx).2
  refine hm.size_other x (fun hxb => ?_) fun hxa => hh.alloc_nodup.not_mem_erase (hxa ▸ hx)
  rw [hxb, hm.used] at hused
  cases hused

/-! ## Allocation -/

/-- `kmalloc` takes the first free section that holds the block, its header and a further header. -/
theorem findFreeNode_eq (hh : HeapCore h secs free alloc)
    (hbytes : bytes + 2 * sizeofKMallocHeader < 2 ^ 32) :
    findFreeNode bytes h =
      .ok (free.find? fun a => decide (bytes + 2 * sizeofKMallocHeader ≤ h.size a), h) := by
  have hnet : u32 (netAllocationSize bytes + sizeofKMallocHeader) =
      bytes + 2 * sizeofKMallocHeader := by
    simp only [netAllocationSize, u32, sizeofKMallocHeader] at *
    omega
  have hmatch : (fun a => findMatches h .findCritNodeSize a (bytes + 2 * sizeofKMallocHeader)) =
      fun a => decide (bytes + 2 * sizeofKMallocHeader ≤ h.size a) := rfl
  rw [findFreeNode, hnet, bind_of_ok (hh.findFirst_free .findCritNodeSize), hmatch]
  cases hfind : free.find? fun a => decide (bytes + 2 * sizeofKMallocHeader ≤ h.size a) with
  | none => rfl
  | some node =>
    have hsize : bytes + 2 * sizeofKMallocHeader ≤ h.size node := by
      simpa using List.find?_some hfind
    have hassert : (h.header node).netNodeSize ≥ netAllocationSize bytes := by
      have : netAllocationSize bytes ≤ bytes + 2 * sizeofKMallocHeader := by
        simp only [netAllocationSize, u32, sizeofKMallocHeader] at *
        omega
      exact this.trans hsize
    show (get >>= _ : Exec KHeap _) h = _
    rw [get_bind_apply, heapAssert_of_true hassert]
    rfl

/-- What `kmalloc` finds is a free section that is large enough. -/
theorem findFreeNode_spec (hh : HeapCore h secs free alloc)
    (hbytes : bytes + 2 * sizeofKMallocHeader < 2 ^ 32) :
    ∃ found, findFreeNode bytes h = .ok (found, h) ∧
      ∀ node ∈ found, node ∈ free ∧ bytes + 2 * sizeofKMallocHeader ≤ h.size node :=
  ⟨_, findFreeNode_eq hh hbytes, fun _ hnode =>
    ⟨List.mem_of_find?_eq_some hnode, by simpa using List.find?_some hnode⟩⟩

/-- Splitting a free section keeps the invariant. -/
theorem sSplitFreeNode_sections {fs₁ fs₂ : List Nat}
    (hh : HeapInv h (ys ++ a :: zs) (fs₁ ++ a :: fs₂) alloc)
    (hsize : bytes + 2 * sizeofKMallocHeader ≤ h.size a) :
    ∃ h', sSplitFreeNode bytes a h = .ok ((), h') ∧
      HeapInv h' (ys ++ a :: (a + (bytes + 32)) :: zs) (fs₁ ++ (a + (bytes + 32)) :: fs₂)
        (alloc ++ [a]) ∧
      h'.header = splitHeader h a (a + (bytes + 32)) (bytes + 32) ∧ h'.buffer = h.buffer := by
  obtain ⟨-, hused⟩ := (hh.mem_free a).1 (by simp)
  obtain ⟨h', hrun, hh', hheader, hbuf⟩ := sSplitFreeNode_spec hh.toHeapCore hsize
  simp only [sizeofKMallocHeader] at hsize
  obtain ⟨hsa, hsb, hold⟩ := hh.splitHeader_eq (by omega) (by omega) hheader
  refine ⟨h', hrun, ⟨hh', ?_, ?_⟩, hheader, hbuf⟩
  · obtain ⟨hys, hzs, hlink⟩ := List.isChain_append.1 hh.apart
    have hzs' := List.isChain_cons.1 hzs
    refine List.isChain_append.2 ⟨?_, List.isChain_cons_cons.2 ⟨.inl hsa.2, ?_⟩, ?_⟩
    · exact Apart.congr hys fun x hx => (hold x (List.mem_append_left _ hx)).2
    · refine List.isChain_cons.2 ⟨fun z hz => ?_, ?_⟩
      · have hz' := hzs'.1 z hz
        rw [hused] at hz'
        rw [(hold z (List.mem_append_right _ (List.mem_of_head? hz))).2]
        exact .inr (hz'.resolve_left (by simp))
      · exact Apart.congr hzs'.2 fun x hx => (hold x (List.mem_append_right _ hx)).2
    · rintro _ - _ ⟨⟩
      exact .inr hsa.2
  · obtain ⟨z, hz, hzfree⟩ := hh.lastFree
    cases zs with
    | nil => exact ⟨a + (bytes + 32), by simp, hsb.2⟩
    | cons y zs =>
      have hz' : (y :: zs).getLast? = some z := by
        simpa [List.getLast?_append, List.getLast?_cons_cons] using hz
      refine ⟨z, by simp [List.getLast?_append, List.getLast?_cons_cons, hz'], ?_⟩
      rwa [(hold z (List.mem_append_right _ (List.mem_of_getLast? hz'))).2]

/-- Splitting a free section adds it to the allocated list, and leaves the other allocated
sections. -/
theorem sSplitFreeNode_inv (hh : HeapInv h secs free alloc) {node : Nat} (hnode : node ∈ free)
    (hsize : bytes + 2 * sizeofKMallocHeader ≤ h.size node) :
    ∃ h' secs' free', sSplitFreeNode bytes node h = .ok ((), h') ∧
      HeapInv h' secs' free' (alloc ++ [node]) ∧ h'.size node = bytes + sizeofKMallocHeader ∧
      (∀ x ∈ alloc, h'.size x = h.size x) ∧ h'.buffer = h.buffer := by
  obtain ⟨hsecs, hused⟩ := (hh.mem_free node).1 hnode
  obtain ⟨ys, zs, rfl⟩ := List.append_of_mem hsecs
  obtain ⟨fs₁, fs₂, rfl⟩ := List.append_of_mem hnode
  obtain ⟨h', hrun, hh', hheader, hbuf⟩ := sSplitFreeNode_sections hh hsize
  simp only [sizeofKMallocHeader] at hsize
  obtain ⟨hsa, -, hold⟩ := hh.splitHeader_eq (by omega) (by omega) hheader
  refine ⟨h', _, _, hrun, hh', hsa.1, fun x hx => ?_, hbuf⟩
  have hmem := (hh.mem_alloc x).1 hx
  have hne : x ≠ node := fun heq => by
    rw [heq, hused] at hmem
    exact absurd hmem.2 (by simp)
  exact (hold x (by have := hmem.1; simp at this ⊢; tauto)).1

/-! ## The accounting -/

/-- The sections are the allocated and the free ones. -/
theorem HeapCore.secs_perm (hh : HeapCore h secs free alloc) : secs.Perm (alloc ++ free) := by
  have hdisj : (alloc ++ free).Nodup := by
    refine List.nodup_append.2 ⟨hh.alloc_nodup, hh.free_nodup, fun a ha b hb heq => ?_⟩
    have h1 := ((hh.mem_alloc a).1 ha).2
    have h2 := ((hh.mem_free b).1 hb).2
    rw [heq, h2] at h1
    cases h1
  refine (List.perm_ext_iff_of_nodup hh.secs_nodup hdisj).2 fun a => ?_
  rw [List.mem_append, hh.mem_alloc, hh.mem_free]
  cases h.used a <;> simp

/-- The sizes of the allocated and of the free sections add up to the size of the buffer. -/
theorem HeapCore.sizes_sum (hh : HeapCore h secs free alloc) :
    (alloc.map h.size).sum + (free.map h.size).sum = memLenBytesKmalloc := by
  have hperm := (hh.secs_perm.map h.size).sum_eq
  have hsum := hh.tiles.sum
  rw [List.map_append, List.sum_append] at hperm
  omega

/-- A free section follows every allocated one. -/
theorem HeapInv.end_le (hh : HeapInv h secs free alloc) (ha : a ∈ alloc) :
    a + h.size a + sizeofKMallocHeader ≤ h.buffer + memLenBytesKmalloc := by
  obtain ⟨hasecs, haused⟩ := (hh.mem_alloc a).1 ha
  obtain ⟨z, hz, hzfree⟩ := hh.lastFree
  have hzsecs : z ∈ secs := List.mem_of_getLast? hz
  have hne : a ≠ z := fun heq => by
    rw [heq, hzfree] at haused
    cases haused
  obtain ⟨ys, rfl⟩ : ∃ ys, secs = ys ++ [z] :=
    ⟨secs.dropLast, (List.dropLast_append_getLast? z hz).symm⟩
  obtain ⟨mid, -, rfl, hend⟩ := Tiles.append.1 hh.tiles
  have hend : z + h.size z = h.buffer + memLenBytesKmalloc := hend
  have hamin := hh.minSize a hasecs
  have hzmin := hh.minSize z hzsecs
  have hale := (hh.bounds hasecs).2
  rcases hh.tiles.disjoint hasecs hzsecs hne with h | h <;> omega

/-- An allocated section does not fill the buffer. -/
theorem HeapInv.size_lt (hh : HeapInv h secs free alloc) (ha : a ∈ alloc) :
    h.size a < memLenBytesKmalloc := by
  have h1 := hh.end_le ha
  have h2 := (hh.bounds ((hh.mem_alloc a).1 ha).1).1
  simp only [sizeofKMallocHeader] at h1
  omega

/-- The walk of `kmalloc_getUsedMemory` adds up the sizes of the rest of the allocated list. -/
theorem usedMemoryFrom_spec {used fuel : Nat}
    (hring : Ring h.links .allocHead ((ys ++ zs).map KNode.allocnode)) (hfuel : zs.length < fuel)
    (hlt : ∀ z ∈ zs, h.size z < memLenBytesKmalloc)
    (hsum : used + (zs.map h.size).sum < 2 ^ 32) :
    usedMemoryFrom fuel ((zs.map KNode.allocnode ++ [KNode.allocHead]).head?) used h =
      .ok (used + (zs.map h.size).sum, h) := by
  induction zs generalizing ys fuel used with
  | nil =>
    obtain ⟨fuel, rfl⟩ : ∃ n, fuel = n + 1 := ⟨fuel - 1, by omega⟩
    simp [usedMemoryFrom, deref, lift, bind, StateT.bind, Except.bind]
  | cons z zs ih =>
    obtain ⟨fuel, rfl⟩ : ∃ n, fuel = n + 1 := ⟨fuel - 1, by omega⟩
    have hnext : h.links.next (.allocnode z) =
        (zs.map KNode.allocnode ++ [KNode.allocHead]).head? := by
      have hring' : Ring h.links .allocHead
          (ys.map KNode.allocnode ++ .allocnode z :: zs.map .allocnode) := by simpa using hring
      exact hring'.next_mem
    have hring' : Ring h.links .allocHead (((ys ++ [z]) ++ zs).map .allocnode) := by
      simpa using hring
    rw [List.map_cons, List.sum_cons] at hsum
    have hu32 : u32 (used + h.size z) = used + h.size z := Nat.mod_eq_of_lt (by omega)
    have hrest := ih hring' (Nat.lt_of_succ_lt_succ (by simpa using hfuel))
      (fun y hy => hlt y (.tail _ hy))
      (show used + h.size z + (zs.map h.size).sum < 2 ^ 32 by omega)
    rw [List.map_cons, List.cons_append, List.head?_cons, usedMemoryFrom]
    have hstart : (lift (deref (some (.allocnode z))) : Exec KHeap KNode) h =
      .ok (.allocnode z, h) :=
      rfl
    have hassert : (h.header z).netNodeSize < memLenBytesKmalloc := hlt z (by simp)
    rw [bind_of_ok hstart, if_neg (by simp), sGetMallocHeaderFromList, pure_bind, get_bind_apply,
      heapAssert_of_true hassert, pure_bind, get_bind_apply, hnext]
    rw [show u32 (used + (h.header z).netNodeSize) = used + h.size z from hu32, hrest]
    simp [Nat.add_assoc]

/-- `kmalloc_getUsedMemory` returns the total size of the allocated sections. -/
theorem heapUsedMemory_spec (hh : HeapInv h secs free alloc) :
    heapUsedMemory h = .ok ((alloc.map h.size).sum, h) := by
  have hsum := hh.sizes_sum
  have hring : Ring h.links .allocHead (([] ++ alloc).map .allocnode) := hh.rings .alloc
  rw [heapUsedMemory, get_bind_apply, hring.next_head]
  have hbound : 0 + (alloc.map h.size).sum < 2 ^ 32 := by
    simp only [memLenBytesKmalloc] at hsum
    omega
  have hwalk := usedMemoryFrom_spec hring
    (hh.length_lt_heapFuel hh.alloc_nodup fun a ha => ((hh.mem_alloc a).1 ha).1)
    (fun z hz => hh.size_lt hz) hbound
  rwa [Nat.zero_add] at hwalk

/-! ## Initialisation -/

/-- The list heads, initialised one after another. -/
theorem HeapRings.init (l : Links KNode) :
    HeapRings (((l.listInit .freeHead).listInit .allocHead).listInit .adjHead)
      (listOf [] [] []) := by
  intro k
  cases k <;>
    exact ⟨by simp [ListKind.head, listOf, Linked, Links.listInit, setNext, setPrev],
      by simp [listOf]⟩

/-- `kmalloc_init` leaves one free section that fills the buffer. -/
theorem heapInit_spec {buffer : Nat} {h₀ : KHeap} (hbound : buffer + memLenBytesKmalloc < 2 ^ 32) :
    ∃ h', heapInit buffer h₀ = .ok ((), h') ∧ HeapInv h' [buffer] [buffer] [] ∧
      h'.buffer = buffer := by
  have hassert : u32Sub (buffer + memLenBytesKmalloc) 1 < u32 (buffer + memLenBytesKmalloc) := by
    simp only [u32Sub, u32, memLenBytesKmalloc] at *
    omega
  let h₁ : KHeap :=
    { h₀ with
      buffer
      links := ((h₀.links.listInit .freeHead).listInit .allocHead).listInit .adjHead }
  have hr₁ := (HeapRings.init h₀.links).initNodes (a := buffer) fun k =>
    by cases k <;> simp [listOf]
  obtain ⟨l₂, hl₂, hr₂⟩ := hr₁.listAddBefore (k := .free) (b := buffer) (by simp [listOf])
  rw [update_free] at hr₂
  obtain ⟨l₃, hl₃, hr₃⟩ := hr₂.listAddBefore (k := .adj) (b := buffer) (by simp [listOf])
  rw [update_adj] at hr₃
  let h' : KHeap := { h₁.setHeader buffer ⟨memLenBytesKmalloc, false⟩ with links := l₃ }
  have hsize : h'.size buffer = memLenBytesKmalloc := by
    simp [KHeap.size, h', KHeap.setHeader_header]
  have hused : h'.used buffer = false := by
    simp [KHeap.used, h', KHeap.setHeader_header]
  refine ⟨h', ?_, ⟨⟨hr₃, ⟨rfl, by rw [hsize]; rfl⟩, hbound, ?_, ?_, ?_⟩, .singleton _, ?_⟩, rfl⟩
  · have hcreate : sCreateNewNode buffer memLenBytesKmalloc h₁ = _ := sCreateNewNode_of_lt hassert
    have hinit : ∀ (x : KNode) (h : KHeap), onLinks (fun l => .ok (l.listInit x)) h =
        .ok ((), { h with links := h.links.listInit x }) := fun _ _ => rfl
    rw [heapInit, bind_of_ok (hinit _ _), bind_of_ok (hinit _ _), bind_of_ok (hinit _ _),
      modify_bind_apply, bind_of_ok hcreate, bind_of_ok (onLinks_of_ok hl₂)]
    exact onLinks_of_ok hl₃
  · intro a ha
    rw [List.mem_singleton.1 ha, hsize]
    decide
  · intro a
    constructor
    · intro ha; rw [List.mem_singleton.1 ha]; exact ⟨by simp, hused⟩
    · exact fun ha => ha.1
  · intro a
    constructor
    · intro ha; cases ha
    · rintro ⟨ha, hau⟩
      rw [List.mem_singleton.1 ha, hused] at hau
      cases hau
  · exact ⟨buffer, rfl, hused⟩

end MeghaOS
