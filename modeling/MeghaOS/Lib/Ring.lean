import MeghaOS.Lib.Exec
import Mathlib.Data.List.Chain
import Mathlib.Data.List.Nodup

/-!
# Intrusive circular lists

A list is threaded through nodes of a type `ι` by their two link words (`Links`), the list head
being a node like the others. `listAddBefore`, `listAddAfter` and `listRemove` are the pointer
surgery, word by word, in the order an implementation performs it; a link word that is `none` is a
null pointer, and following it is a fault.

`Ring l head xs` says that the links of `l` thread `head`, the members `xs` in order, and `head`
again, in both directions, through distinct nodes. `Ring.addBefore`, `Ring.addAfter` and
`Ring.remove` say what the surgery does to a ring, and `Ring.frame` that a ring survives every
change of the links of other nodes.
-/

namespace MeghaOS

/-- The link words of every node. -/
structure Links (ι : Type) where
  next : ι → Option ι
  prev : ι → Option ι

namespace Links

variable {ι : Type}

/-- Follow a link word. -/
def deref (p : Option ι) : Except Halt ι :=
  match p with
  | some n => .ok n
  | none => .error .fault

section

variable [DecidableEq ι]

/-- Write the `next` word of `n`. -/
def setNext (l : Links ι) (n : ι) (v : Option ι) : Links ι :=
  { l with next := fun m => if m = n then v else l.next m }

/-- Write the `prev` word of `n`. -/
def setPrev (l : Links ι) (n : ι) (v : Option ι) : Links ι :=
  { l with prev := fun m => if m = n then v else l.prev m }

/-- `list_init`. -/
def listInit (l : Links ι) (node : ι) : Links ι :=
  (l.setNext node (some node)).setPrev node (some node)

/-- `list_is_empty`. -/
def listIsEmpty (l : Links ι) (head : ι) : Bool :=
  l.next head == some head && l.prev head == some head

/-- `list_add_before`. -/
def listAddBefore (l : Links ι) (node item : ι) : Except Halt (Links ι) := do
  let l := l.setNext item (some node)
  let l := l.setPrev item (l.prev node)
  let p ← deref (l.prev node)
  let l := l.setNext p (some item)
  return l.setPrev node (some item)

/-- `list_add_after`. -/
def listAddAfter (l : Links ι) (node item : ι) : Except Halt (Links ι) := do
  let l := l.setPrev item (some node)
  let l := l.setNext item (l.next node)
  let n ← deref (l.next node)
  let l := l.setPrev n (some item)
  return l.setNext node (some item)

/-- `list_remove`. -/
def listRemove (l : Links ι) (item : ι) : Except Halt (Links ι) := do
  let p ← deref (l.prev item)
  let l := l.setNext p (l.next item)
  let n ← deref (l.next item)
  let l := l.setPrev n (l.prev item)
  let l := l.setNext item none
  return l.setPrev item none

end

/-! ## Chains of links -/

variable {l l' : Links ι} {head node item a b : ι} {xs ys zs : List ι}

/-- `a` and `b` are neighbours: each is what the other's word says. -/
def Linked (l : Links ι) (a b : ι) : Prop := l.next a = some b ∧ l.prev b = some a

/-- Two link maps agree on both words of a node. -/
def SameAt (l l' : Links ι) (a : ι) : Prop := l'.next a = l.next a ∧ l'.prev a = l.prev a

/-- A chain only depends on the `next` words of all its nodes but the last, and on the `prev` words
of all but the first. -/
theorem chain_congr (hchain : xs.IsChain l.Linked)
    (hnext : ∀ x ∈ xs.dropLast, l'.next x = l.next x)
    (hprev : ∀ x ∈ xs.tail, l'.prev x = l.prev x) : xs.IsChain l'.Linked := by
  induction xs with
  | nil => exact .nil
  | cons x xs ih =>
    cases xs with
    | nil => exact .singleton x
    | cons y xs =>
      obtain ⟨hxy, hrest⟩ := List.isChain_cons_cons.1 hchain
      refine List.isChain_cons_cons.2 ⟨⟨?_, ?_⟩, ih hrest ?_ ?_⟩
      · rw [hnext x (by simp), hxy.1]
      · rw [hprev y (by simp), hxy.2]
      · exact fun z hz => hnext z (by simp [hz])
      · exact fun z hz => hprev z (by simp only [List.tail_cons] at hz ⊢; exact .tail _ hz)

/-- `l'` is `l` with `item` between the neighbours `a` and `b`. -/
structure Spliced (l l' : Links ι) (a item b : ι) : Prop where
  before : l'.Linked a item
  after : l'.Linked item b
  next : ∀ x, x ≠ a → x ≠ item → l'.next x = l.next x
  prev : ∀ x, x ≠ b → x ≠ item → l'.prev x = l.prev x

/-- `l'` is `l` without `item` between `a` and `b`, which become neighbours. -/
structure Unspliced (l l' : Links ι) (a item b : ι) : Prop where
  linked : l'.Linked a b
  next : ∀ x, x ≠ a → x ≠ item → l'.next x = l.next x
  prev : ∀ x, x ≠ b → x ≠ item → l'.prev x = l.prev x

section

variable [DecidableEq ι]

theorem listAddAfter_spliced (hab : l.Linked a b) (ha : item ≠ a) (hb : item ≠ b) :
    ∃ l', l.listAddAfter a item = .ok l' ∧ Spliced l l' a item b := by
  have ha' : a ≠ item := ha.symm
  refine ⟨_, by simp [listAddAfter, setNext, setPrev, deref, bind, Except.bind, pure, Except.pure,
    ha', hab.1]; rfl, ?_, ?_, ?_, ?_⟩
  · simp [Linked, hb]
  · simp [Linked, ha]
  · intro x h1 h2; simp [h1, h2]
  · intro x h1 h2; simp [h1, h2]

theorem listAddBefore_spliced (hab : l.Linked a b) (ha : item ≠ a) (hb : item ≠ b) :
    ∃ l', l.listAddBefore b item = .ok l' ∧ Spliced l l' a item b := by
  have hb' : b ≠ item := hb.symm
  refine ⟨_, by simp [listAddBefore, setNext, setPrev, deref, bind, Except.bind, pure, Except.pure,
    hb', hab.2]; rfl, ?_, ?_, ?_, ?_⟩
  · simp [Linked, hb]
  · simp [Linked, ha]
  · intro x h1 h2; simp [h1, h2]
  · intro x h1 h2; simp [h1, h2]

theorem listRemove_unspliced (ha : l.Linked a item) (hb : l.Linked item b) (hai : a ≠ item)
    (hbi : b ≠ item) : ∃ l', l.listRemove item = .ok l' ∧ Unspliced l l' a item b := by
  have hia : item ≠ a := hai.symm
  refine ⟨_, by simp [listRemove, setNext, setPrev, deref, bind, Except.bind, pure, Except.pure,
    ha.2, hb.1, hia]; rfl, ?_, ?_, ?_⟩
  · simp [Linked, hai, hbi]
  · intro x h1 h2; simp [h1, h2]
  · intro x h1 h2; simp [h1, h2]

end

end Links

open Links

variable {ι : Type} {l l' : Links ι} {head node item a b : ι} {xs ys zs : List ι}

/-! ## Rings -/

/-- The links thread `head`, the members `xs` in order, and `head` again, through distinct nodes. -/
structure Ring (l : Links ι) (head : ι) (xs : List ι) : Prop where
  chain : (head :: (xs ++ [head])).IsChain l.Linked
  nodup : (head :: xs).Nodup

namespace Ring

/-- A ring survives every change of the links of other nodes. -/
theorem frame (h : Ring l head xs) (hsame : ∀ x ∈ head :: xs, SameAt l l' x) : Ring l' head xs where
  nodup := h.nodup
  chain := by
    refine chain_congr h.chain (fun x hx => (hsame x ?_).1) (fun x hx => (hsame x ?_).2)
    · rw [← List.cons_append, List.dropLast_concat] at hx
      exact hx
    · simpa [or_comm] using hx

/-- The links of two neighbours in a ring that is split between them. -/
theorem linked (h : Ring l head (ys ++ zs)) (ha : (head :: ys).getLast? = some a)
    (hb : (zs ++ [head]).head? = some b) : l.Linked a b := by
  have hchain : ((head :: ys) ++ (zs ++ [head])).IsChain l.Linked := by
    simpa [List.append_assoc] using h.chain
  exact (List.isChain_append.1 hchain).2.2 a ha b hb

/-- In a ring that is split between `a` and `b`: `a` ends the first part and is nowhere else before
the final head, and `b` begins the second part and is nowhere else after the first head. -/
theorem split_fresh (h : (head :: (ys ++ zs)).Nodup) (ha : (head :: ys).getLast? = some a)
    (hb : (zs ++ [head]).head? = some b) :
    a ∉ (head :: ys).dropLast ∧ b ∉ ys ∧ a ∉ zs ∧ b ∉ (zs ++ [head]).tail := by
  have hys : head :: ys = (head :: ys).dropLast ++ [a] :=
    (List.dropLast_append_getLast? a ha).symm
  have hnd : (head :: ys).Nodup := List.Nodup.sublist (by simp) h
  have hdisj : ∀ x ∈ head :: ys, x ∉ zs := by
    intro x hx hz
    have := h
    rw [← List.cons_append] at this
    exact (List.nodup_append.1 this).2.2 x hx x hz rfl
  have hamem : a ∈ head :: ys := List.mem_of_getLast? ha
  refine ⟨?_, ?_, hdisj a hamem, ?_⟩
  · rw [hys] at hnd
    intro hmem
    exact (List.nodup_append.1 hnd).2.2 a hmem a (by simp) rfl
  · intro hmem
    cases zs with
    | nil =>
      cases hb
      exact (List.nodup_cons.1 hnd).1 hmem
    | cons z zs =>
      cases hb
      exact hdisj _ (.tail _ hmem) (by simp)
  · cases zs with
    | nil => simp
    | cons z zs =>
      cases hb
      simp only [List.cons_append, List.tail_cons, List.mem_append, List.mem_singleton, not_or]
      refine ⟨fun hmem => ?_, fun heq => ?_⟩
      · have : (b :: zs).Nodup := List.Nodup.sublist (by simp) h
        exact (List.nodup_cons.1 this).1 hmem
      · exact (List.nodup_cons.1 h).1 (by simp [heq])

/-- Changing the `next` word of the last node of the first part, the `prev` word of the first node
of the second part, and the words of a new node keeps the chains of both parts. -/
theorem parts_kept (hfirst : (head :: ys).IsChain l.Linked)
    (hsecond : (zs ++ [head]).IsChain l.Linked) (hnd : (head :: (ys ++ zs)).Nodup)
    (ha : (head :: ys).getLast? = some a) (hb : (zs ++ [head]).head? = some b)
    (hitem : item ∉ head :: (ys ++ zs)) (hnext : ∀ x, x ≠ a → x ≠ item → l'.next x = l.next x)
    (hprev : ∀ x, x ≠ b → x ≠ item → l'.prev x = l.prev x) :
    (head :: ys).IsChain l'.Linked ∧ (zs ++ [head]).IsChain l'.Linked := by
  obtain ⟨ha₁, hb₁, ha₂, hb₂⟩ := split_fresh hnd ha hb
  have hne : ∀ x ∈ head :: (ys ++ zs), x ≠ item := fun x hx heq => hitem (heq ▸ hx)
  constructor
  · refine chain_congr hfirst (fun x hx => ?_) (fun x hx => ?_)
    · refine hnext x (fun heq => ha₁ (heq ▸ hx)) (hne x ?_)
      rw [← List.cons_append]
      exact List.mem_append_left _ (List.dropLast_subset _ hx)
    · exact hprev x (fun heq => hb₁ (heq ▸ hx)) (hne x (.tail _ (List.mem_append_left _ hx)))
  · refine chain_congr hsecond (fun x hx => ?_) (fun x hx => ?_)
    · rw [List.dropLast_concat] at hx
      exact hnext x (fun heq => ha₂ (heq ▸ hx)) (hne x (.tail _ (List.mem_append_right _ hx)))
    · refine hprev x (fun heq => hb₂ (heq ▸ hx)) (hne x ?_)
      have := List.mem_of_mem_tail hx
      simp only [List.mem_append, List.mem_cons] at this ⊢
      tauto

/-- The node that a list gets in its middle moves to its front by a permutation. -/
theorem perm_front (head item : ι) (ys zs : List ι) :
    (head :: (ys ++ item :: zs)).Perm (item :: (head :: (ys ++ zs))) :=
  (List.perm_middle.cons head).trans (List.Perm.swap _ _ _)

/-- Splicing a new node in between two neighbours of a ring. -/
theorem spliced (h : Ring l head (ys ++ zs)) (ha : (head :: ys).getLast? = some a)
    (hb : (zs ++ [head]).head? = some b) (hitem : item ∉ head :: (ys ++ zs))
    (hs : Spliced l l' a item b) : Ring l' head (ys ++ item :: zs) where
  nodup := (perm_front head item ys zs).nodup_iff.2 (List.nodup_cons.2 ⟨hitem, h.nodup⟩)
  chain := by
    have hold : ((head :: ys) ++ (zs ++ [head])).IsChain l.Linked := by
      simpa [List.append_assoc] using h.chain
    obtain ⟨hfirst, hsecond, -⟩ := List.isChain_append.1 hold
    obtain ⟨hfirst, hsecond⟩ := parts_kept hfirst hsecond h.nodup ha hb hitem hs.next hs.prev
    have hchain : ((head :: ys) ++ (item :: (zs ++ [head]))).IsChain l'.Linked := by
      refine List.isChain_append.2 ⟨hfirst, List.isChain_cons.2 ⟨fun y hy => ?_, hsecond⟩, ?_⟩
      · cases hb.symm.trans hy
        exact hs.after
      · intro x hx y hy
        cases ha.symm.trans hx
        cases hy
        exact hs.before
    simpa [List.append_assoc] using hchain

/-- Taking a node out from between its neighbours. -/
theorem unspliced (h : Ring l head (ys ++ item :: zs)) (ha : (head :: ys).getLast? = some a)
    (hb : (zs ++ [head]).head? = some b) (hs : Unspliced l l' a item b) :
    Ring l' head (ys ++ zs) := by
  obtain ⟨hitem, hnd⟩ := List.nodup_cons.1 ((perm_front head item ys zs).nodup_iff.1 h.nodup)
  have hold : ((head :: ys) ++ (item :: (zs ++ [head]))).IsChain l.Linked := by
    simpa [List.append_assoc] using h.chain
  obtain ⟨hfirst, hsecond, -⟩ := List.isChain_append.1 hold
  obtain ⟨hfirst, hsecond⟩ :=
    parts_kept hfirst (List.isChain_cons.1 hsecond).2 hnd ha hb hitem hs.next hs.prev
  refine ⟨?_, hnd⟩
  have hchain : ((head :: ys) ++ (zs ++ [head])).IsChain l'.Linked := by
    refine List.isChain_append.2 ⟨hfirst, hsecond, ?_⟩
    intro x hx y hy
    cases ha.symm.trans hx
    cases hb.symm.trans hy
    exact hs.linked
  simpa [List.append_assoc] using hchain

/-- The links around a member of a ring. -/
theorem linked_mem (h : Ring l head (ys ++ item :: zs)) (ha : (head :: ys).getLast? = some a)
    (hb : (zs ++ [head]).head? = some b) : l.Linked a item ∧ l.Linked item b := by
  refine ⟨h.linked ha (by simp), ?_⟩
  have h' : Ring l head ((ys ++ [item]) ++ zs) := by simpa using h
  have hlast : (head :: (ys ++ [item])).getLast? = some item := by
    rw [← List.cons_append, List.getLast?_concat]
  exact h'.linked hlast hb

/-! ## The operations on rings -/

section

variable [DecidableEq ι]

/-- `list_init` makes an empty ring. -/
theorem listInit (l : Links ι) (head : ι) : Ring (l.listInit head) head [] where
  nodup := by simp
  chain := by simp [Links.listInit, Linked, setNext, setPrev]

end

/-- The second part of a split ring, closed by the head, has a first node. -/
theorem exists_after (zs : List ι) (head : ι) : ∃ b, (zs ++ [head]).head? = some b := by
  cases zs <;> simp

/-- The first part of a split ring, opened by the head, has a last node. -/
theorem exists_before (ys : List ι) (head : ι) : ∃ a, (head :: ys).getLast? = some a :=
  ⟨_, List.getLast?_eq_getLast_of_ne_nil (by simp)⟩

/-- The two ends of a split lie in the ring. -/
theorem ends_mem (ha : (head :: ys).getLast? = some a) (hb : (zs ++ [head]).head? = some b) :
    a ∈ head :: (ys ++ zs) ∧ b ∈ head :: (ys ++ zs) := by
  have h1 := List.mem_of_getLast? ha
  have h2 := List.mem_of_head? hb
  simp only [List.mem_append, List.mem_cons] at h1 h2 ⊢
  tauto

/-- Links that differ from `l` only at the ends of a split and at `item` agree with it elsewhere. -/
theorem sameAt_of_ends (ha : (head :: ys).getLast? = some a) (hb : (zs ++ [head]).head? = some b)
    (hnext : ∀ x, x ≠ a → x ≠ item → l'.next x = l.next x)
    (hprev : ∀ x, x ≠ b → x ≠ item → l'.prev x = l.prev x) {x : ι} (hx : x ≠ item)
    (hout : x ∉ head :: (ys ++ zs)) : SameAt l l' x := by
  obtain ⟨hamem, hbmem⟩ := ends_mem ha hb
  exact ⟨hnext x (fun h => hout (h ▸ hamem)) hx, hprev x (fun h => hout (h ▸ hbmem)) hx⟩

section

variable [DecidableEq ι]

/-- `list_add_after` inserts a new node behind a node of the ring. -/
theorem listAddAfter (h : Ring l head (ys ++ zs)) (ha : (head :: ys).getLast? = some a)
    (hitem : item ∉ head :: (ys ++ zs)) :
    ∃ l', l.listAddAfter a item = .ok l' ∧ Ring l' head (ys ++ item :: zs) ∧
      ∀ x, x ≠ item → x ∉ head :: (ys ++ zs) → SameAt l l' x := by
  obtain ⟨b, hb⟩ := exists_after zs head
  obtain ⟨hamem, hbmem⟩ := ends_mem ha hb
  have hia : item ≠ a := fun heq => hitem (heq ▸ hamem)
  have hib : item ≠ b := fun heq => hitem (heq ▸ hbmem)
  obtain ⟨l', hl', hs⟩ := listAddAfter_spliced (h.linked ha hb) hia hib
  exact ⟨l', hl', h.spliced ha hb hitem hs, fun _ => sameAt_of_ends ha hb hs.next hs.prev⟩

/-- `list_add_before` inserts a new node before a node of the ring. -/
theorem listAddBefore (h : Ring l head (ys ++ zs)) (hb : (zs ++ [head]).head? = some b)
    (hitem : item ∉ head :: (ys ++ zs)) :
    ∃ l', l.listAddBefore b item = .ok l' ∧ Ring l' head (ys ++ item :: zs) ∧
      ∀ x, x ≠ item → x ∉ head :: (ys ++ zs) → SameAt l l' x := by
  obtain ⟨a, ha⟩ := exists_before ys head
  obtain ⟨hamem, hbmem⟩ := ends_mem ha hb
  have hia : item ≠ a := fun heq => hitem (heq ▸ hamem)
  have hib : item ≠ b := fun heq => hitem (heq ▸ hbmem)
  obtain ⟨l', hl', hs⟩ := listAddBefore_spliced (h.linked ha hb) hia hib
  exact ⟨l', hl', h.spliced ha hb hitem hs, fun _ => sameAt_of_ends ha hb hs.next hs.prev⟩

/-- `list_remove` takes a member out of the ring. -/
theorem listRemove (h : Ring l head (ys ++ item :: zs)) :
    ∃ l', l.listRemove item = .ok l' ∧ Ring l' head (ys ++ zs) ∧
      ∀ x, x ∉ head :: (ys ++ item :: zs) → SameAt l l' x := by
  obtain ⟨a, ha⟩ := exists_before ys head
  obtain ⟨b, hb⟩ := exists_after zs head
  obtain ⟨hitem, -⟩ := List.nodup_cons.1 ((perm_front head item ys zs).nodup_iff.1 h.nodup)
  obtain ⟨hamem, hbmem⟩ := ends_mem ha hb
  obtain ⟨hai, hib⟩ := h.linked_mem ha hb
  obtain ⟨l', hl', hs⟩ := listRemove_unspliced hai hib
    (fun heq => hitem (heq ▸ hamem)) (fun heq => hitem (heq ▸ hbmem))
  refine ⟨l', hl', h.unspliced ha hb hs, fun x hx => sameAt_of_ends ha hb hs.next hs.prev ?_ ?_⟩
  · rintro rfl
    exact hx (by simp)
  · exact fun hmem => hx ((perm_front head item ys zs).mem_iff.2 (.tail _ hmem))

end

/-- The word that leads from the head, and the one that leads on from a member. -/
theorem next_head (h : Ring l head xs) : l.next head = (xs ++ [head]).head? := by
  obtain ⟨b, hb⟩ := exists_after xs head
  rw [hb]
  have h' : Ring l head ([] ++ xs) := h
  exact (h'.linked rfl hb).1

theorem next_mem (h : Ring l head (ys ++ item :: zs)) : l.next item = (zs ++ [head]).head? := by
  obtain ⟨a, ha⟩ := exists_before ys head
  obtain ⟨b, hb⟩ := exists_after zs head
  rw [hb]
  exact (h.linked_mem ha hb).2.1

theorem prev_mem (h : Ring l head (ys ++ item :: zs)) : l.prev item = (head :: ys).getLast? := by
  obtain ⟨a, ha⟩ := exists_before ys head
  obtain ⟨b, hb⟩ := exists_after zs head
  rw [ha]
  exact (h.linked_mem ha hb).1.2

end Ring

end MeghaOS
