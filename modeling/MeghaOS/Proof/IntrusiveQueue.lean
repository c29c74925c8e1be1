import MeghaOS.IntrusiveQueue

/-!
# What the list and queue functions do to a heap of lists

A call is compared with what it does to the sequences of members: `ListOp.after` are the lists after
it and `ListOp.returned` is the node it returns. `intrusive_lists_refine` says that every call that
inserts a node of no list, or removes a member of one, keeps all lists well formed, edits one
sequence as stated, and leaves the links of every other list alone, and that the loops of the
headers visit the members of a list in order and in reverse order. `ListOp.run_refines` follows from
it for any number of calls.
-/

namespace MeghaOS

open Links

variable {ι : Type} {l l' : Links ι} {L : Lists ι} {head node item : ι} {xs ys zs : List ι}
  {op : ListOp ι}

/-! ## Calls on sequences -/

namespace ListOp

/-- A node of the list that the call makes or changes. -/
def place : ListOp ι → ι
  | .listInit node | .listAddBefore node _ | .listAddAfter node _ | .listRemove node
  | .queueRemove node => node
  | .enqueue head _ | .enqueueFront head _ | .dequeue head | .dequeueBack head => head

/-- The node that the call inserts, or makes the head of a list. -/
def inserted : ListOp ι → Option ι
  | .listInit node => some node
  | .listAddBefore _ item | .listAddAfter _ item | .enqueue _ item | .enqueueFront _ item =>
    some item
  | .listRemove _ | .queueRemove _ | .dequeue _ | .dequeueBack _ => none

/-- What the call asks for: a node that is inserted lies in no list, one that is removed is a member
of one, and a queue is given by its head. -/
def Allowed (L : Lists ι) : ListOp ι → Prop
  | .listInit node => ¬ L.Linked node
  | .listAddBefore node item | .listAddAfter node item => L.Linked node ∧ ¬ L.Linked item
  | .listRemove item | .queueRemove item => L.Member item
  | .enqueue head item | .enqueueFront head item => L.Head head ∧ ¬ L.Linked item
  | .dequeue head | .dequeueBack head => L.Head head

/-- The node that the call returns. -/
def returned (L : Lists ι) : ListOp ι → Option ι
  | .dequeue head => (L head).bind List.head?
  | .dequeueBack head => (L head).bind List.getLast?
  | _ => none

/-- The node that the call takes out of its list. -/
def removed (L : Lists ι) : ListOp ι → Option ι
  | .listRemove item | .queueRemove item => some item
  | op => op.returned L

/-- The lists after the call. -/
def after [DecidableEq ι] (L : Lists ι) : ListOp ι → Lists ι
  | .listInit node => Function.update L node (some [])
  | .listAddBefore node item =>
    L.edit node fun head xs => xs.insertIdx ((xs ++ [head]).idxOf node) item
  | .listAddAfter node item =>
    L.edit node fun head xs => xs.insertIdx ((head :: xs).idxOf node) item
  | .listRemove item | .queueRemove item => L.edit item fun _ xs => xs.erase item
  | .enqueue head item => L.edit head fun _ xs => xs ++ [item]
  | .enqueueFront head item => L.edit head fun _ xs => item :: xs
  | .dequeue head => L.edit head fun _ xs => xs.tail
  | .dequeueBack head => L.edit head fun _ xs => xs.dropLast

theorem Allowed.inserted_loose (h : op.Allowed L) {x : ι} (hx : op.inserted = some x) :
    ¬ L.Linked x := by
  cases op with
  | listInit =>
    cases hx
    exact h
  | listAddBefore | listAddAfter | enqueue | enqueueFront =>
    cases hx
    exact h.2
  | listRemove | queueRemove | dequeue | dequeueBack => cases hx

variable [DecidableEq ι]

/-- The links after a call are those of the lists after it. Every other list, and every node of no
list but the one that is inserted, is as before, and a node that is taken out has `NULL` in both
words. -/
structure Refines (op : ListOp ι) (l l' : Links ι) (L : Lists ι) : Prop where
  rings : Rings l' (op.after L)
  others : ∀ head xs, L head = some xs → op.place ∉ head :: xs →
    op.after L head = some xs ∧ ∀ x ∈ head :: xs, SameAt l l' x
  loose : ∀ x, ¬ L.Linked x → op.inserted ≠ some x → SameAt l l' x
  cleared : ∀ x, op.removed L = some x → l'.next x = none ∧ l'.prev x = none

/-- A call that edits the list it is given, and no links outside of it. -/
theorem Refines.of_update (h : Rings l L) (hop : op.Allowed L) (hhead : L head = some xs)
    (hplace : op.place ∈ head :: xs) (hafter : op.after L = Function.update L head (some ys))
    (hrings : Rings l' (Function.update L head (some ys)))
    (hsame : ∀ x, op.inserted ≠ some x → x ∉ head :: xs → SameAt l l' x)
    (hcleared : ∀ x, op.removed L = some x → l'.next x = none ∧ l'.prev x = none) :
    op.Refines l l' L where
  rings := hafter ▸ hrings
  others := by
    intro b us hb hout
    have hne : b ≠ head := by
      rintro rfl
      cases hhead.symm.trans hb
      exact hout hplace
    refine ⟨by rw [hafter, Function.update_of_ne hne, hb], fun x hx => hsame x ?_ ?_⟩
    · intro hins
      exact hop.inserted_loose hins ⟨b, us, hb, hx⟩
    · exact h.notMem_other hb hhead hne.symm hx
  loose := by
    intro x hx hins
    exact hsame x hins fun hmem => hx ⟨head, xs, hhead, hmem⟩
  cleared := hcleared

end ListOp

variable [DecidableEq ι]

/-- `list_remove` leaves `NULL` in both words. -/
theorem listRemove_null (h : l.listRemove item = .ok l') :
    l'.next item = none ∧ l'.prev item = none := by
  obtain ⟨p, -, h⟩ := Exec.except_bind_eq_ok.1 h
  obtain ⟨n, -, h⟩ := Exec.except_bind_eq_ok.1 h
  cases h
  simp [setNext, setPrev]

/-! ## The functions of the list -/

theorem listInit_refines (h : Rings l L) (hop : (ListOp.listInit node).Allowed L) :
    (ListOp.listInit node).Refines l (l.listInit node) L where
  rings := h.listInit hop
  others := by
    intro b us hb hout
    have hne : ∀ x ∈ b :: us, x ≠ node := fun x hx heq => hout (heq ▸ hx)
    refine ⟨?_, fun x hx => ?_⟩
    · rw [ListOp.after, Function.update_of_ne (hne b (.head _)), hb]
    · simp [SameAt, listInit, setNext, setPrev, hne x hx]
  loose := by
    intro x _ hins
    have hne : x ≠ node := fun heq => hins (by rw [heq]; rfl)
    simp [SameAt, listInit, setNext, setPrev, hne]
  cleared := by simp [ListOp.removed, ListOp.returned]

theorem listAddBefore_refines (h : Rings l L) (hop : (ListOp.listAddBefore node item).Allowed L) :
    ∃ l', l.listAddBefore node item = .ok l' ∧
      (ListOp.listAddBefore node item).Refines l l' L := by
  obtain ⟨⟨head, xs, hhead, hnode⟩, hitem⟩ := id hop
  obtain ⟨ys, zs, rfl, hfirst, hplace⟩ := insertIdx_before hnode item
  obtain ⟨l', hrun, hrings, hsame⟩ := h.addBefore hhead hfirst hitem
  refine ⟨l', hrun, .of_update h hop hhead hnode ?_ hrings (fun x hx => ?_)
    (by simp [ListOp.removed, ListOp.returned])⟩
  · rw [ListOp.after, h.edit_eq hhead hnode, hplace]
  · exact hsame x fun heq => hx (by rw [heq]; rfl)

theorem listAddAfter_refines (h : Rings l L) (hop : (ListOp.listAddAfter node item).Allowed L) :
    ∃ l', l.listAddAfter node item = .ok l' ∧
      (ListOp.listAddAfter node item).Refines l l' L := by
  obtain ⟨⟨head, xs, hhead, hnode⟩, hitem⟩ := id hop
  obtain ⟨ys, zs, rfl, hlast, hplace⟩ := insertIdx_after hnode item
  obtain ⟨l', hrun, hrings, hsame⟩ := h.addAfter hhead hlast hitem
  refine ⟨l', hrun, .of_update h hop hhead hnode ?_ hrings (fun x hx => ?_)
    (by simp [ListOp.removed, ListOp.returned])⟩
  · rw [ListOp.after, h.edit_eq hhead hnode, hplace]
  · exact hsame x fun heq => hx (by rw [heq]; rfl)

/-- A call that removes a member, whatever function it goes through. -/
theorem remove_refines (h : Rings l L) (hop : op.Allowed L)
    (hhead : L head = some (ys ++ item :: zs))
    (hplace : op.place ∈ head :: (ys ++ item :: zs)) (hremoved : op.removed L = some item)
    (hafter : op.after L = Function.update L head (some (ys ++ zs))) :
    ∃ l', l.listRemove item = .ok l' ∧ op.Refines l l' L := by
  obtain ⟨l', hrun, hrings, hsame⟩ := h.remove hhead
  refine ⟨l', hrun, .of_update h hop hhead hplace hafter hrings (fun x _ => hsame x) fun x hx => ?_⟩
  cases hremoved.symm.trans hx
  exact listRemove_null hrun

theorem listRemove_refines (h : Rings l L) (hop : (ListOp.listRemove item).Allowed L) :
    ∃ l', l.listRemove item = .ok l' ∧ (ListOp.listRemove item).Refines l l' L := by
  obtain ⟨head, xs, hhead, hmem⟩ := id hop
  obtain ⟨ys, zs, -, rfl, herase⟩ := List.exists_erase_eq hmem
  refine remove_refines h hop hhead (.tail _ hmem) rfl ?_
  rw [ListOp.after, h.edit_eq hhead (.tail _ hmem), herase]

/-! ## The functions of the queue -/

theorem enqueue_refines (h : Rings l L) (hop : (ListOp.enqueue head item).Allowed L) :
    ∃ l', l.enqueue head item = .ok l' ∧ (ListOp.enqueue head item).Refines l l' L := by
  obtain ⟨⟨xs, hhead⟩, hitem⟩ := id hop
  have hsplit : L head = some (xs ++ []) := by rw [List.append_nil, hhead]
  obtain ⟨l', hrun, hrings, hsame⟩ := h.addBefore hsplit rfl hitem
  refine ⟨l', hrun, .of_update h hop hsplit (.head _) ?_ hrings (fun x hx => ?_)
    (by simp [ListOp.removed, ListOp.returned])⟩
  · rw [ListOp.after, h.edit_eq hhead (.head _)]
  · exact hsame x fun heq => hx (by rw [heq]; rfl)

theorem enqueueFront_refines (h : Rings l L) (hop : (ListOp.enqueueFront head item).Allowed L) :
    ∃ l', l.enqueueFront head item = .ok l' ∧ (ListOp.enqueueFront head item).Refines l l' L := by
  obtain ⟨⟨xs, hhead⟩, hitem⟩ := id hop
  have hsplit : L head = some ([] ++ xs) := hhead
  obtain ⟨l', hrun, hrings, hsame⟩ := h.addAfter hsplit rfl hitem
  refine ⟨l', hrun, .of_update h hop hhead (.head _) ?_ hrings (fun x hx => ?_)
    (by simp [ListOp.removed, ListOp.returned])⟩
  · rw [ListOp.after, h.edit_eq hhead (.head _)]
    rfl
  · exact hsame x fun heq => hx (by rw [heq]; rfl)

/-- A call that finds its queue empty. -/
theorem empty_refines (h : Rings l L) (hop : op.Allowed L) (hhead : L op.place = some [])
    (hafter : op.after L = Function.update L op.place (some []))
    (hremoved : op.removed L = none) : op.Refines l l L := by
  refine .of_update h hop hhead (.head _) hafter ?_ (fun x _ _ => ⟨rfl, rfl⟩) fun x hx => ?_
  · rwa [← hhead, Function.update_eq_self]
  · rw [hremoved] at hx
    cases hx

theorem dequeue_refines (h : Rings l L) (hop : (ListOp.dequeue head).Allowed L) :
    ∃ l', l.dequeue head = .ok ((ListOp.dequeue head).returned L, l') ∧
      (ListOp.dequeue head).Refines l l' L := by
  obtain ⟨xs, hhead⟩ := id hop
  have hring := h.ring head xs hhead
  cases xs with
  | nil =>
    have hnext : l.next head = some head := hring.next_head
    refine ⟨l, ?_, empty_refines h hop hhead ?_ ?_⟩
    · rw [dequeue, if_pos hnext, ListOp.returned, hhead]
      rfl
    · exact h.edit_eq hhead (.head _) _
    · simp [ListOp.removed, ListOp.returned, hhead]
  | cons x xs =>
    have hnext : l.next head = some x := hring.next_head
    have hne : l.next head ≠ some head := by
      rw [hnext]
      rintro ⟨⟩
      exact (List.nodup_cons.1 hring.nodup).1 (.head _)
    have hsplit : L head = some ([] ++ x :: xs) := hhead
    obtain ⟨l', hrun, hrefines⟩ := remove_refines h hop hsplit (.head _)
      (by simp [ListOp.removed, ListOp.returned, hhead]) (h.edit_eq hhead (.head _) _)
    refine ⟨l', ?_, hrefines⟩
    rw [dequeue, if_neg hne, hnext]
    simp [deref, hrun, ListOp.returned, hhead, bind, Except.bind, pure, Except.pure]

theorem dequeueBack_refines (h : Rings l L) (hop : (ListOp.dequeueBack head).Allowed L) :
    ∃ l', l.dequeueBack head = .ok ((ListOp.dequeueBack head).returned L, l') ∧
      (ListOp.dequeueBack head).Refines l l' L := by
  obtain ⟨xs, hhead⟩ := id hop
  have hring := h.ring head xs hhead
  rcases List.eq_nil_or_concat' xs with rfl | ⟨ys, x, rfl⟩
  · have hprev : l.prev head = some head := hring.prev_head
    refine ⟨l, ?_, empty_refines h hop hhead ?_ ?_⟩
    · rw [dequeueBack, if_pos hprev, ListOp.returned, hhead]
      rfl
    · exact h.edit_eq hhead (.head _) _
    · simp [ListOp.removed, ListOp.returned, hhead]
  · have hprev : l.prev head = some x := by
      rw [hring.prev_head, ← List.cons_append, List.getLast?_concat]
    have hne : l.prev head ≠ some head := by
      rw [hprev]
      rintro ⟨⟩
      exact (List.nodup_cons.1 hring.nodup).1 (by simp)
    obtain ⟨l', hrun, hrefines⟩ := remove_refines h hop hhead (.head _)
      (by simp [ListOp.removed, ListOp.returned, hhead])
      ((h.edit_eq hhead (.head _) _).trans (by simp))
    refine ⟨l', ?_, hrefines⟩
    rw [dequeueBack, if_neg hne, hprev]
    simp [deref, hrun, ListOp.returned, hhead, bind, Except.bind, pure, Except.pure]

/-! ## All calls -/

/-- A call that returns nothing ends as the function that it makes does. -/
theorem exec_of_run {run : Except Halt (Links ι)} (h : ∃ l', run = .ok l' ∧ op.Refines l l' L) :
    ∃ l', (do return (none, ← run) : Except Halt (Option ι × Links ι)) = .ok (none, l') ∧
      op.Refines l l' L := by
  obtain ⟨l', rfl, hrefines⟩ := h
  exact ⟨l', rfl, hrefines⟩

/-- Every call does to the links what it does to the sequences. -/
theorem ListOp.exec_refines (h : Rings l L) (hop : op.Allowed L) :
    ∃ l', op.exec l = .ok (op.returned L, l') ∧ op.Refines l l' L := by
  cases op with
  | listInit node => exact ⟨_, rfl, listInit_refines h hop⟩
  | listAddBefore node item => exact exec_of_run (listAddBefore_refines h hop)
  | listAddAfter node item => exact exec_of_run (listAddAfter_refines h hop)
  | listRemove item => exact exec_of_run (listRemove_refines h hop)
  | enqueue head item => exact exec_of_run (enqueue_refines h hop)
  | dequeue head => exact dequeue_refines h hop
  | enqueueFront head item => exact exec_of_run (enqueueFront_refines h hop)
  | dequeueBack head => exact dequeueBack_refines h hop
  | queueRemove node =>
    have hremove : (ListOp.listRemove node).Allowed L := hop
    obtain ⟨l', hrun, hrings, hothers, hloose, hcleared⟩ := listRemove_refines h hremove
    exact exec_of_run ⟨l', hrun, hrings, hothers, hloose, hcleared⟩

/-- Make calls one after another. -/
def ListOp.run (l : Links ι) : List (ListOp ι) → Except Halt (List (Option ι) × Links ι)
  | [] => return ([], l)
  | op :: ops => do
    let (node, l) ← op.exec l
    let (nodes, l) ← run l ops
    return (node :: nodes, l)

/-- Every call is allowed in the lists that those before it leave. -/
def ListOp.AllAllowed (L : Lists ι) : List (ListOp ι) → Prop
  | [] => True
  | op :: ops => op.Allowed L ∧ AllAllowed (op.after L) ops

/-- The nodes that calls return. -/
def ListOp.allReturned (L : Lists ι) : List (ListOp ι) → List (Option ι)
  | [] => []
  | op :: ops => op.returned L :: allReturned (op.after L) ops

/-- Any number of calls does to the links what it does to the sequences. -/
theorem ListOp.run_refines {ops : List (ListOp ι)} (h : Rings l L)
    (hops : ListOp.AllAllowed L ops) :
    ∃ l', ListOp.run l ops = .ok (ListOp.allReturned L ops, l') ∧
      Rings l' (ops.foldl (fun L op => op.after L) L) := by
  induction ops generalizing l L with
  | nil => exact ⟨l, rfl, h⟩
  | cons op ops ih =>
    obtain ⟨hop, hrest⟩ := hops
    obtain ⟨l₁, hexec, hrefines⟩ := op.exec_refines h hop
    obtain ⟨l', hrun, hrings⟩ := ih hrefines.rings hrest
    refine ⟨l', ?_, hrings⟩
    simp [ListOp.run, ListOp.allReturned, hexec, hrun, bind, Except.bind, pure, Except.pure]

/-- Whatever memory held before, the lists that calls build up in it are well formed. -/
theorem ListOp.run_rings {ops : List (ListOp ι)} (l : Links ι)
    (hops : ListOp.AllAllowed (fun _ => none) ops) :
    ∃ nodes l', ListOp.run l ops = .ok (nodes, l') ∧
      Rings l' (ops.foldl (fun L op => op.after L) fun _ => none) := by
  obtain ⟨l', hrun, hrings⟩ := ListOp.run_refines (Rings.empty l) hops
  exact ⟨_, l', hrun, hrings⟩

/-- `list_is_empty` tells whether a list has members. -/
theorem listIsEmpty_iff (h : Rings l L) (hhead : L head = some xs) :
    l.listIsEmpty head = true ↔ xs = [] := by
  have hring := h.ring head xs hhead
  rw [listIsEmpty, hring.next_head, hring.prev_head]
  cases xs with
  | nil => simp
  | cons x xs =>
    have hne : x ≠ head := by
      rintro rfl
      exact (List.nodup_cons.1 hring.nodup).1 (.head _)
    simp [hne]

/-- On a heap of well-formed lists, every call that is allowed acts on the sequences as stated and
leaves all other lists unchanged, and the two directions of a traversal are the reverses of each
other. -/
theorem intrusive_lists_refine (h : Rings l L) :
    (∀ op : ListOp ι, op.Allowed L →
      ∃ l', op.exec l = .ok (op.returned L, l') ∧ op.Refines l l' L) ∧
    ∀ head xs, L head = some xs → ∀ turns, xs.length < turns →
      l.listForEach turns head = .ok xs ∧ l.queueForEach turns head = .ok xs ∧
        l.queueForEachBackward turns head = .ok xs.reverse := by
  refine ⟨fun op hop => op.exec_refines h hop, fun head xs hhead turns hturns => ?_⟩
  have hring := h.ring head xs hhead
  exact ⟨hring.walk_next hturns, hring.walk_next hturns, hring.walk_prev hturns⟩

/-- A queue with the head 0 and the members 1 and 2, and an empty one with the head 3. -/
def twoQueues : Links Nat where
  next n := [some 1, some 2, some 0, some 3].getD n none
  prev n := [some 2, some 0, some 1, some 3].getD n none

/-- The sequences of the two queues. -/
def twoQueuesLists : Lists Nat := fun head => [some [1, 2], none, none, some []].getD head none

theorem twoQueues_rings : Rings twoQueues twoQueuesLists := by
  have hlists : ∀ a xs, twoQueuesLists a = some xs → a = 0 ∧ xs = [1, 2] ∨ a = 3 ∧ xs = [] := by
    intro a xs ha
    match a, ha with
    | 0, rfl => exact .inl ⟨rfl, rfl⟩
    | 3, rfl => exact .inr ⟨rfl, rfl⟩
  constructor
  · intro head xs hhead
    rcases hlists head xs hhead with ⟨rfl, rfl⟩ | ⟨rfl, rfl⟩
    · exact ⟨by simp [Linked, twoQueues], by simp⟩
    · exact ⟨by simp [Linked, twoQueues], by simp⟩
  · intro a xs b ys ha hb hne
    rcases hlists a xs ha with ⟨rfl, rfl⟩ | ⟨rfl, rfl⟩ <;>
      rcases hlists b ys hb with ⟨rfl, rfl⟩ | ⟨rfl, rfl⟩ <;> simp at hne ⊢

/-- The first member leaves the first queue, whose members are visited from both ends. -/
theorem intrusive_lists_refine_twoQueues :
    (∃ l', (ListOp.dequeue 0).exec twoQueues = .ok (some 1, l') ∧
      (ListOp.dequeue 0).Refines twoQueues l' twoQueuesLists) ∧
    twoQueues.queueForEach 3 0 = .ok [1, 2] ∧ twoQueues.queueForEachBackward 3 0 = .ok [2, 1] := by
  obtain ⟨hcalls, hloops⟩ := intrusive_lists_refine twoQueues_rings
  exact ⟨hcalls (.dequeue 0) ⟨[1, 2], rfl⟩, (hloops 0 [1, 2] rfl 3 (by decide)).2⟩

end MeghaOS
