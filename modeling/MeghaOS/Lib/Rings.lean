import MeghaOS.Lib.Ring
import Mathlib.Data.List.Lattice

/-!
# Heaps of intrusive lists

A heap holds several lists, each with the sequence of its members (`Lists`). `Rings l L` says that
the links of `l` thread every list of `L`, and that no node lies in two of them. `Rings.addBefore`,
`Rings.addAfter` and `Rings.remove` say what the three kinds of pointer surgery do to the list they
are applied to, and that the links of the other lists stay as they were. `Lists.edit` changes the
list that a node lies in, wherever that is, and `insertIdx_before` and `insertIdx_after` find the
place of a node in its circle. `Ring.walk_next` and `Ring.walk_prev` are the traversals of a list in
both directions.
-/

namespace MeghaOS

open Links

variable {ι : Type} {l l' : Links ι} {head node item a b : ι} {xs ys zs : List ι}

/-! ## Places in a circle -/

section Places

variable [DecidableEq ι]

/-- Behind a node of the circle that begins with the head. -/
theorem insertIdx_after (h : node ∈ head :: xs) (item : ι) :
    ∃ ys zs, xs = ys ++ zs ∧ (head :: ys).getLast? = some node ∧
      xs.insertIdx ((head :: xs).idxOf node) item = ys ++ item :: zs := by
  have hlt : (head :: xs).idxOf node < xs.length + 1 := List.idxOf_lt_length_iff.2 h
  obtain ⟨ys, zs, hxs, hlen, hplace⟩ :=
    List.exists_of_modifyTailIdx (List.cons item) (Nat.le_of_lt_succ hlt)
  refine ⟨ys, zs, hxs, ?_, hplace⟩
  have hget : (head :: xs)[(head :: xs).idxOf node]? = some node := by
    rw [List.getElem?_eq_getElem hlt, List.getElem_idxOf hlt]
  rw [← hlen, hxs, ← List.cons_append, List.getElem?_append_left (by simp)] at hget
  rw [List.getLast?_eq_getElem?]
  exact hget

/-- Before a node of the circle that ends with the head. -/
theorem insertIdx_before (h : node ∈ head :: xs) (item : ι) :
    ∃ ys zs, xs = ys ++ zs ∧ (zs ++ [head]).head? = some node ∧
      xs.insertIdx ((xs ++ [head]).idxOf node) item = ys ++ item :: zs := by
  have hlt : (xs ++ [head]).idxOf node < (xs ++ [head]).length :=
    List.idxOf_lt_length_iff.2 (by simpa [or_comm] using h)
  have hle : (xs ++ [head]).idxOf node ≤ xs.length := by
    rw [List.length_append, List.length_singleton] at hlt
    exact Nat.le_of_lt_succ hlt
  obtain ⟨ys, zs, hxs, hlen, hplace⟩ := List.exists_of_modifyTailIdx (List.cons item) hle
  refine ⟨ys, zs, hxs, ?_, hplace⟩
  have hget : (xs ++ [head])[(xs ++ [head]).idxOf node]? = some node := by
    rw [List.getElem?_eq_getElem hlt, List.getElem_idxOf hlt]
  rw [← hlen, hxs, List.append_assoc, List.getElem?_append_right (Nat.le_refl _),
    Nat.sub_self] at hget
  rw [List.head?_eq_getElem?]
  exact hget

end Places

/-! ## Heaps -/

/-- The lists of a heap: the members of each, in order, by its head. -/
abbrev Lists (ι : Type) : Type := ι → Option (List ι)

namespace Lists

/-- A node lies in a list. -/
def Linked (L : Lists ι) (node : ι) : Prop := ∃ head xs, L head = some xs ∧ node ∈ head :: xs

/-- A node is a member of a list, and not its head. -/
def Member (L : Lists ι) (node : ι) : Prop := ∃ head xs, L head = some xs ∧ node ∈ xs

/-- A node is the head of a list. -/
def Head (L : Lists ι) (node : ι) : Prop := ∃ xs, L node = some xs

/-- Change the list that a node lies in. -/
def edit [DecidableEq ι] (L : Lists ι) (node : ι) (f : ι → List ι → List ι) : Lists ι := fun head =>
  (L head).map fun xs => if node ∈ head :: xs then f head xs else xs

end Lists

variable {L : Lists ι}

/-- The links thread all lists of the heap, and no node lies in two of them. -/
structure Rings (l : Links ι) (L : Lists ι) : Prop where
  ring : ∀ head xs, L head = some xs → Ring l head xs
  apart : ∀ a xs b ys, L a = some xs → L b = some ys → a ≠ b → (a :: xs).Disjoint (b :: ys)

namespace Rings

/-- A heap without a list. -/
theorem empty (l : Links ι) : Rings l fun _ => none :=
  ⟨fun _ _ h => (by cases h), fun _ _ _ _ h => (by cases h)⟩

/-- A node of a list lies in no list with another head. -/
theorem notMem_other (h : Rings l L) (ha : L a = some xs) (hb : L b = some ys) (hne : b ≠ a)
    (hnode : node ∈ a :: xs) : node ∉ b :: ys := fun hmem =>
  h.apart b ys a xs hb ha hne hmem hnode

variable [DecidableEq ι]

/-- The list that a node lies in is the only one that is changed. -/
theorem edit_eq (h : Rings l L) (hhead : L head = some xs) (hnode : node ∈ head :: xs)
    (f : ι → List ι → List ι) : L.edit node f = Function.update L head (some (f head xs)) := by
  funext b
  by_cases hb : b = head
  · subst hb
    rw [Function.update_self, Lists.edit, hhead, Option.map_some, if_pos hnode]
  · rw [Function.update_of_ne hb, Lists.edit]
    cases hL : L b with
    | none => rfl
    | some ys => rw [Option.map_some, if_neg (h.notMem_other hhead hL hb hnode)]

/-- One list is threaded anew, apart from the others and without a change of their links. -/
theorem put (h : Rings l L) (hring : Ring l' head ys)
    (hapart : ∀ b zs, L b = some zs → b ≠ head → (head :: ys).Disjoint (b :: zs))
    (hsame : ∀ b zs, L b = some zs → b ≠ head → ∀ x ∈ b :: zs, SameAt l l' x) :
    Rings l' (Function.update L head (some ys)) := by
  have hold : ∀ b zs, b ≠ head → Function.update L head (some ys) b = some zs → L b = some zs := by
    intro b zs hne hb
    rwa [Function.update_of_ne hne] at hb
  have hnew : ∀ zs, Function.update L head (some ys) head = some zs → zs = ys := by
    intro zs hb
    rw [Function.update_self] at hb
    cases hb
    rfl
  constructor
  · intro b zs hb
    by_cases hbh : b = head
    · subst hbh
      rwa [hnew zs hb]
    · have hb := hold b zs hbh hb
      exact (h.ring b zs hb).frame (hsame b zs hb hbh)
  · intro b us c vs hb hc hne
    by_cases hbh : b = head
    · subst hbh
      rw [hnew us hb]
      exact hapart c vs (hold c vs hne.symm hc) hne.symm
    · by_cases hch : c = head
      · subst hch
        rw [hnew vs hc]
        exact List.Disjoint.symm (hapart b us (hold b us hbh hb) hbh)
      · exact h.apart b us c vs (hold b us hbh hb) (hold c vs hch hc) hne

/-- `list_init` turns a node of no list into the head of an empty one. -/
theorem listInit (h : Rings l L) (hhead : ¬ L.Linked head) :
    Rings (l.listInit head) (Function.update L head (some [])) := by
  refine h.put (Ring.listInit l head) (fun b zs hb _ x hx hmem => ?_) fun b zs hb _ x hx => ?_
  · rw [List.mem_singleton.1 hx] at hmem
    exact hhead ⟨b, zs, hb, hmem⟩
  · have hne : x ≠ head := by
      rintro rfl
      exact hhead ⟨b, zs, hb, hx⟩
    simp [SameAt, Links.listInit, setNext, setPrev, hne]

/-- One list is threaded anew, through its own nodes and nodes of no list. -/
theorem update (h : Rings l L) (hhead : L head = some xs) (hring : Ring l' head ys)
    (hnodes : ∀ x ∈ head :: ys, x ∈ head :: xs ∨ ¬ L.Linked x)
    (hsame : ∀ x, L.Linked x → x ∉ head :: xs → SameAt l l' x) :
    Rings l' (Function.update L head (some ys)) := by
  refine h.put hring (fun b zs hb hne x hx hmem => ?_) fun b zs hb hne x hx => ?_
  · rcases hnodes x hx with hold | hnew
    · exact h.notMem_other hb hhead hne.symm hmem hold
    · exact hnew ⟨b, zs, hb, hmem⟩
  · exact hsame x ⟨b, zs, hb, hx⟩ (h.notMem_other hb hhead hne.symm hx)

/-- A new node enters a list. -/
theorem insert (h : Rings l L) (hhead : L head = some (ys ++ zs)) (hitem : ¬ L.Linked item)
    (hring : Ring l' head (ys ++ item :: zs))
    (hsame : ∀ x, x ≠ item → x ∉ head :: (ys ++ zs) → SameAt l l' x) :
    Rings l' (Function.update L head (some (ys ++ item :: zs))) := by
  refine h.update hhead hring (fun x hx => ?_) fun x hx hout => hsame x ?_ hout
  · rcases List.mem_cons.1 ((Ring.perm_front head item ys zs).mem_iff.1 hx) with rfl | hold
    · exact .inr hitem
    · exact .inl hold
  · rintro rfl
    exact hitem hx

/-- `list_add_after`, behind the first part of a list. -/
theorem addAfter (h : Rings l L) (hhead : L head = some (ys ++ zs))
    (ha : (head :: ys).getLast? = some a) (hitem : ¬ L.Linked item) :
    ∃ l', l.listAddAfter a item = .ok l' ∧
      Rings l' (Function.update L head (some (ys ++ item :: zs))) ∧
      ∀ x, x ≠ item → x ∉ head :: (ys ++ zs) → SameAt l l' x := by
  obtain ⟨l', hrun, hring, hsame⟩ := (h.ring head _ hhead).listAddAfter ha
    fun hin => hitem ⟨head, _, hhead, hin⟩
  exact ⟨l', hrun, h.insert hhead hitem hring hsame, hsame⟩

/-- `list_add_before`, before the second part of a list. -/
theorem addBefore (h : Rings l L) (hhead : L head = some (ys ++ zs))
    (hb : (zs ++ [head]).head? = some b) (hitem : ¬ L.Linked item) :
    ∃ l', l.listAddBefore b item = .ok l' ∧
      Rings l' (Function.update L head (some (ys ++ item :: zs))) ∧
      ∀ x, x ≠ item → x ∉ head :: (ys ++ zs) → SameAt l l' x := by
  obtain ⟨l', hrun, hring, hsame⟩ := (h.ring head _ hhead).listAddBefore hb
    fun hin => hitem ⟨head, _, hhead, hin⟩
  exact ⟨l', hrun, h.insert hhead hitem hring hsame, hsame⟩

/-- `list_remove`, from between the two parts of a list. -/
theorem remove (h : Rings l L) (hhead : L head = some (ys ++ item :: zs)) :
    ∃ l', l.listRemove item = .ok l' ∧ Rings l' (Function.update L head (some (ys ++ zs))) ∧
      ∀ x, x ∉ head :: (ys ++ item :: zs) → SameAt l l' x := by
  obtain ⟨l', hrun, hring, hsame⟩ := (h.ring head _ hhead).listRemove
  refine ⟨l', hrun, h.update hhead hring (fun x hx => .inl ?_) fun x _ hout => hsame x hout, hsame⟩
  exact (Ring.perm_front head item ys zs).mem_iff.2 (.tail _ hx)

end Rings

/-! ## Traversals -/

/-- The same nodes with the two words of each exchanged. -/
def Links.mirror (l : Links ι) : Links ι := ⟨l.prev, l.next⟩

/-- The nodes that a loop visits that starts where `link` leads to, goes on with `step` and ends at
the head, in less than so many turns. -/
def ringWalk [DecidableEq ι] (step : ι → Option ι) (head : ι) :
    Nat → Option ι → Except Halt (List ι)
  | 0, _ => .error .hang
  | turns + 1, link => do
    let node ← deref link
    if node = head then return []
    else return node :: (← ringWalk step head turns (step node))

namespace Ring

/-- A ring is one in both directions. -/
theorem mirror (h : Ring l head xs) : Ring l.mirror head xs.reverse where
  chain := by
    have hreverse : head :: (xs.reverse ++ [head]) = (head :: (xs ++ [head])).reverse := by simp
    rw [hreverse, List.isChain_reverse]
    exact h.chain.imp fun a b hab => ⟨hab.2, hab.1⟩
  nodup := by
    rw [List.nodup_cons, List.mem_reverse, List.nodup_reverse]
    exact List.nodup_cons.1 h.nodup

/-- The word that leads back from the head. -/
theorem prev_head (h : Ring l head xs) : l.prev head = (head :: xs).getLast? := by
  have hnext : l.prev head = (xs.reverse ++ [head]).head? := h.mirror.next_head
  rw [hnext, ← List.reverse_cons, List.head?_reverse]

variable [DecidableEq ι]

/-- From any place on, the rest of the members is visited. -/
theorem walk_eq (h : Ring l head (ys ++ zs)) {turns : Nat} (hturns : zs.length < turns) :
    ringWalk l.next head turns (zs ++ [head]).head? = .ok zs := by
  induction zs generalizing ys turns with
  | nil =>
    obtain ⟨turns, rfl⟩ := Nat.exists_eq_succ_of_ne_zero (Nat.ne_of_gt hturns)
    simp [ringWalk, deref, bind, Except.bind, pure, Except.pure]
  | cons z zs ih =>
    obtain ⟨turns, rfl⟩ := Nat.exists_eq_succ_of_ne_zero (Nat.ne_of_gt (Nat.zero_lt_of_lt hturns))
    have hne : z ≠ head := by
      rintro rfl
      exact (List.nodup_cons.1 h.nodup).1 (by simp)
    have hrest : ringWalk l.next head turns (l.next z) = .ok zs := by
      have hsplit : Ring l head ((ys ++ [z]) ++ zs) := by simpa using h
      rw [h.next_mem]
      exact ih hsplit (Nat.lt_of_succ_lt_succ hturns)
    simp [ringWalk, deref, bind, Except.bind, pure, Except.pure, hne, hrest]

/-- The traversal from the head on. -/
theorem walk_next (h : Ring l head xs) {turns : Nat} (hturns : xs.length < turns) :
    ringWalk l.next head turns (l.next head) = .ok xs := by
  have hsplit : Ring l head ([] ++ xs) := h
  rw [h.next_head]
  exact walk_eq hsplit hturns

/-- The traversal backwards. -/
theorem walk_prev (h : Ring l head xs) {turns : Nat} (hturns : xs.length < turns) :
    ringWalk l.prev head turns (l.prev head) = .ok xs.reverse :=
  h.mirror.walk_next (by rwa [List.length_reverse])

end Ring

end MeghaOS
