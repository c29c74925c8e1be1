import MeghaOS.Events
import MeghaOS.Proof.Dispatch

/-!
# The clean-up of an events queue

A queue that events were pushed to is a ring. The clean-up of the queue of a killed process walks
the ring to its end, and frees the events in order and nothing else; but it takes the way on from
each of them after it freed it.
-/

namespace MeghaOS

open Exec KState

variable {s s' s₁ : KState} {alloc alloc' alloc₁ es es₁ : List Nat} {e : Nat}

/-! ## Blocks that leave the heap -/

/-- The blocks `es` are released, and nothing else changes. -/
structure BlocksFreed (s s' : KState) (alloc alloc' es : List Nat) : Prop where
  heapOk : HeapOk s' alloc'
  blocks : ∀ a, IsBlock alloc' a ↔ IsBlock alloc a ∧ a ∉ es
  sizes : ∀ node ∈ alloc', s'.heap.size node = s.heap.size node
  objs : ∀ a, s'.objs a = if a ∈ es then none else s.objs a
  rest : s' = { s with heap := s'.heap, objs := s'.objs, freedContext := s'.freedContext }

/-- A new record is a block of the heap. -/
theorem HeapOk.newBlock {o : Obj} (hs : HeapOk s alloc) (h : kmallocObj o s = .ok (e, s'))
    (he : e ≠ 0) :
    ∃ alloc', HeapOk s' alloc' ∧ IsBlock alloc' e ∧ (∀ a, IsBlock alloc a → IsBlock alloc' a) ∧
      s'.phase = s.phase := by
  rcases kmallocObj_spec hs h with ⟨rfl, -⟩ | ⟨node, s₁, s₂, rfl, hnew, rfl⟩
  · exact absurd rfl he
  · exact ⟨_, hnew.setObj o, ⟨node, by simp, rfl⟩, fun a ⟨n, hn, ha⟩ => ⟨n, by simp [hn], ha⟩,
      hnew.phase_eq⟩

namespace BlocksFreed

theorem nil (hs : HeapOk s alloc) : BlocksFreed s s alloc alloc [] :=
  ⟨hs, fun a => by simp, fun _ _ => rfl, fun a => by simp, rfl⟩

/-- One block is released. -/
theorem kfree (hs : HeapOk s alloc) (hphase : s.phase.check .kmallocReady = true)
    (he : IsBlock alloc e) :
    ∃ alloc' s', MeghaOS.kfree e s = .ok (true, s') ∧ BlocksFreed s s' alloc alloc' [e] := by
  obtain ⟨heap, hrun⟩ := kfree_of_block hs hphase he
  have hlt : e < 2 ^ 32 := by
    obtain ⟨node, hnode, rfl⟩ := he
    have hbounds := hs.bounds hnode
    simp only [sizeofKMallocHeader] at *
    omega
  rcases kfree_spec hs hlt hrun with ⟨hok, -⟩ | ⟨-, node, hnode, rfl, hs', hsizes, -⟩
  · cases hok
  have hnodup := hs.inv.elim fun _ h => h.elim fun _ h => h.alloc_nodup
  refine ⟨_, _, hrun, hs', fun a => ?_, hsizes, fun a => ?_, rfl⟩
  · simp only [IsBlock, hnodup.mem_erase_iff, List.mem_singleton]
    constructor
    · rintro ⟨n, ⟨hne, hn⟩, rfl⟩
      exact ⟨⟨n, hn, rfl⟩, fun heq => hne (Nat.add_right_cancel heq)⟩
    · rintro ⟨⟨n, hn, rfl⟩, hne⟩
      exact ⟨n, ⟨fun heq => hne (by rw [heq]), hn⟩, rfl⟩
  · simp only [KState.release, List.mem_singleton]

theorem trans (h₁ : BlocksFreed s s₁ alloc alloc₁ [e]) (h₂ : BlocksFreed s₁ s' alloc₁ alloc' es) :
    BlocksFreed s s' alloc alloc' (e :: es) where
  heapOk := h₂.heapOk
  blocks a := by
    rw [h₂.blocks, h₁.blocks, List.mem_singleton, List.mem_cons, not_or, and_assoc]
  sizes node hnode := by
    obtain ⟨⟨n, hn, heq⟩, -⟩ := (h₂.blocks (node + sizeofKMallocHeader)).1 ⟨node, hnode, rfl⟩
    obtain rfl := Nat.add_right_cancel heq
    exact (h₂.sizes node hnode).trans (h₁.sizes node hn)
  objs a := by
    rw [h₂.objs, h₁.objs]
    by_cases ha : a ∈ es <;> simp [ha]
  rest := by
    rw [h₂.rest, h₁.rest]

end BlocksFreed

namespace EventMemory

variable {m m' : EventMemory} {fuel : Nat} {links links' : Links EventNode}

/-! ## The queue -/

/-- The words of a node of the queue thread the events `es` in order. -/
def Queues (links : Links EventNode) (es : List Nat) : Prop :=
  Ring links .eventsQueueHead (es.map .eventQueueNode)

/-- An event that is pushed goes to the end of the queue. -/
theorem enqueueEvent_queues (h : Queues links es) (he : e ∉ es) :
    ∃ links', enqueueEvent links e = .ok links' ∧ Queues links' (es ++ [e]) := by
  have hnot : EventNode.eventQueueNode e ∉ EventNode.eventsQueueHead :: es.map .eventQueueNode := by
    simpa using he
  have hinit : Queues (links.listInit (.eventQueueNode e)) es := by
    refine Ring.frame h fun x hx => ?_
    have hne : x ≠ .eventQueueNode e := fun heq => hnot (heq ▸ hx)
    simp [Links.SameAt, Links.listInit, Links.setNext, Links.setPrev, hne]
  have hring : Ring (links.listInit (.eventQueueNode e)) .eventsQueueHead
      (es.map .eventQueueNode ++ []) := by
    rw [List.append_nil]
    exact hinit
  obtain ⟨links', hrun, hring', -⟩ := hring.listAddBefore rfl (by rwa [List.append_nil])
  exact ⟨links', hrun, by rw [Queues, List.map_append]; exact hring'⟩

/-- Distinct events that are pushed one after another queue in that order. -/
theorem pushedEvents_queues (hes : es.Nodup) :
    ∃ links', pushedEvents links es = .ok links' ∧ Queues links' es := by
  have hpush : ∀ es₁ links₁, Queues links₁ es₁ → (es₁ ++ es).Nodup →
      ∃ links', es.foldlM enqueueEvent links₁ = .ok links' ∧ Queues links' (es₁ ++ es) := by
    clear hes
    induction es with
    | nil => exact fun es₁ links₁ h _ => ⟨links₁, rfl, by rwa [List.append_nil]⟩
    | cons e es ih =>
      intro es₁ links₁ h hnodup
      rw [List.append_cons] at hnodup ⊢
      have he : e ∉ es₁ := fun hmem => List.disjoint_of_nodup_append
        (List.nodup_append.1 hnodup).1 hmem (List.mem_singleton.2 rfl)
      obtain ⟨links₂, hrun, h₂⟩ := enqueueEvent_queues h he
      obtain ⟨links', hrest, h'⟩ := ih _ links₂ h₂ hnodup
      exact ⟨links', by rw [List.foldlM_cons, hrun]; exact hrest, h'⟩
  exact hpush [] _ (Ring.listInit _ _) hes

/-! ## The clean-up -/

/-- The clean-up leaves the words of the queue alone, frees the events `es` once each and in order,
and nothing else, as the walk over the list of events does. -/
structure CleanedUp (m m' : EventMemory) (alloc es : List Nat) : Prop where
  freed : m'.freed = m.freed ++ es
  blocks : ∃ alloc', BlocksFreed m.kernel m'.kernel alloc alloc' es
  links : m'.links = m.links
  walk : freeEvents es m.kernel = .ok ((), m'.kernel)

/-- The link to the first of the events `es` at the end of a queue, or to its head. -/
def nextNode (es : List Nat) : Option EventNode :=
  (es.map EventNode.eventQueueNode ++ [EventNode.eventsQueueHead]).head?

/-- The accesses that the turns of the loop make. -/
def turns (es : List Nat) : List EventAccess :=
  es.flatMap fun e => [.frees e, .readsNext (.eventQueueNode e)]

theorem log_apply (m : EventMemory) (a : EventAccess) :
    log a m = .ok ((), { m with accesses := m.accesses ++ [a] }) := rfl

/-- The loop from any node of the queue on. -/
theorem freeEventNodesFrom_spec (hs : HeapOk m.kernel alloc)
    (hphase : m.kernel.phase.check .kmallocReady = true) (hqueue : Queues m.links (es₁ ++ es))
    (hblocks : ∀ e ∈ es, IsBlock alloc e) (hfuel : es.length < fuel) :
    ∃ m', freeEventNodesFrom fuel (nextNode es) m = .ok ((), m') ∧
      CleanedUp m m' alloc es ∧ m'.accesses = m.accesses ++ turns es := by
  induction es generalizing m alloc fuel es₁ with
  | nil =>
    obtain ⟨fuel, rfl⟩ := Nat.exists_eq_succ_of_ne_zero (Nat.ne_of_gt hfuel)
    refine ⟨m, rfl, ⟨by simp, ⟨alloc, .nil hs⟩, rfl, rfl⟩, by simp [turns]⟩
  | cons e es ih =>
    obtain ⟨fuel, rfl⟩ := Nat.exists_eq_succ_of_ne_zero (Nat.ne_of_gt (Nat.zero_lt_of_lt hfuel))
    have he := hblocks e List.mem_cons_self
    obtain ⟨alloc₁, s₁, hfree, hfreed⟩ := BlocksFreed.kfree hs hphase he
    have hne : e ≠ 0 := by
      obtain ⟨node, -, rfl⟩ := he
      simp only [sizeofKMallocHeader]
      omega
    have hring : Ring m.links .eventsQueueHead
        (es₁.map .eventQueueNode ++ .eventQueueNode e :: es.map .eventQueueNode) := by
      simpa [Queues] using hqueue
    have hnotMem : e ∉ es := by
      have hnodup := hring.nodup
      simp only [List.nodup_cons, List.nodup_append, List.mem_map] at hnodup
      exact fun hmem => hnodup.2.2.1.1 ⟨e, hmem, rfl⟩
    let m₁ : EventMemory :=
      { m with
        kernel := s₁
        accesses := m.accesses ++ [.frees e] ++ [.readsNext (.eventQueueNode e)] }
    have hheap₁ : HeapOk m₁.kernel alloc₁ := hfreed.heapOk
    have hphase₁ : m₁.kernel.phase.check .kmallocReady = true := by
      show s₁.phase.check .kmallocReady = true
      rw [hfreed.rest]
      exact hphase
    have hqueue₁ : Queues m₁.links ((es₁ ++ [e]) ++ es) := by rwa [← List.append_cons]
    have hblocks₁ : ∀ e' ∈ es, IsBlock alloc₁ e' := fun e' he' =>
      (hfreed.blocks e').2 ⟨hblocks e' (.tail _ he'), fun heq =>
        hnotMem (List.mem_singleton.1 heq ▸ he')⟩
    obtain ⟨m', hrun, hclean, haccesses⟩ := ih hheap₁ hphase₁ hqueue₁ hblocks₁
      (Nat.lt_of_succ_lt_succ hfuel)
    refine ⟨m', ?_, ?_, ?_⟩
    · have hk : onKernel (kAssert (e ≠ 0) "Event cannot be NULL") m = .ok ((), m) := by
        rw [onKernel, kAssert, if_pos hne]
        rfl
      have hf : onKernel (MeghaOS.kfree e) { m with accesses := m.accesses ++ [.frees e] } =
          .ok (true, { m with kernel := s₁, accesses := m.accesses ++ [.frees e] }) :=
        zoom_eq_ok.2 ⟨s₁, hfree, rfl⟩
      have hr : readNext (.eventQueueNode e)
          { m with kernel := s₁, accesses := m.accesses ++ [.frees e] } =
          .ok (nextNode es, m₁) := by
        rw [nextNode, ← hring.next_mem]
        rfl
      have hl : (lift (Links.deref (nextNode (e :: es))) : Exec EventMemory EventNode) m =
          .ok (.eventQueueNode e, m) := rfl
      rw [freeEventNodesFrom, bind_of_ok hl]
      dsimp only
      rw [bind_of_ok hk]
      rw [bind_of_ok (log_apply m _), bind_of_ok hf, bind_of_ok hr]
      exact hrun
    · obtain ⟨alloc', hblocks'⟩ := hclean.blocks
      refine ⟨?_, ⟨alloc', hfreed.trans hblocks'⟩, hclean.links, ?_⟩
      · rw [hclean.freed, List.append_cons]
        simp only [m₁, EventMemory.freed, List.filterMap_append]
        exact congrArg (· ++ es) (List.append_nil _)
      · rw [freeEvents, bind_of_ok hfree]
        exact hclean.walk
    · rw [haccesses, List.append_assoc, List.append_assoc]
      rfl

/-- The clean-up of a queue ends after a turn for each event. It frees each event exactly once and
nothing else, and it reads no event that it freed if and only if the queue is empty. -/
theorem freeEventNodes_clean_iff (hs : HeapOk m.kernel alloc)
    (hphase : m.kernel.phase.check .kmallocReady = true) (hqueue : Queues m.links es)
    (hblocks : ∀ e ∈ es, IsBlock alloc e) (haccesses : m.accesses = []) (hfuel : es.length < fuel) :
    ∃ m', freeEventNodes fuel m = .ok ((), m') ∧ CleanedUp m m' alloc es ∧
      (¬ m'.UsesFreed ↔ es = []) := by
  let m₁ : EventMemory := { m with accesses := m.accesses ++ [.readsNext .eventsQueueHead] }
  have hheap₁ : HeapOk m₁.kernel alloc := hs
  have hqueue₁ : Queues m₁.links ([] ++ es) := hqueue
  obtain ⟨m', hrun, hclean, hlog⟩ := freeEventNodesFrom_spec hheap₁ hphase hqueue₁ hblocks hfuel
  have hhead : readNext .eventsQueueHead m = .ok (nextNode es, m₁) := by
    rw [nextNode, ← Ring.next_head hqueue]
    rfl
  refine ⟨m', by rw [freeEventNodes, bind_of_ok hhead]; exact hrun, ⟨?_, hclean.blocks,
    hclean.links, hclean.walk⟩, ?_⟩
  · rw [hclean.freed, EventMemory.freed, List.filterMap_append]
    exact congrArg (· ++ es) (List.append_nil _)
  · rw [UsesFreed, hlog]
    simp only [m₁, haccesses, List.nil_append, List.singleton_append]
    cases es with
    | nil => simp [turns]
    | cons e es =>
      refine iff_of_false (fun hclean => hclean ⟨e, .cons _ ?_⟩) (List.cons_ne_nil _ _)
      exact ((List.nil_sublist _).cons_cons _).cons_cons _

/-! ## A queue of one event -/

/-- The event of a small machine, and its address. -/
def oneEvent : KProcessEvent := ⟨.proccessYieldReq, 0⟩

abbrev oneEventAddr : Nat := 0xC0047020

/-- The words of a queue of that event. -/
def oneEventLinks : Links EventNode where
  next
    | .eventsQueueHead => some (.eventQueueNode oneEventAddr)
    | .eventQueueNode _ => some .eventsQueueHead
  prev
    | .eventsQueueHead => some (.eventQueueNode oneEventAddr)
    | .eventQueueNode _ => some .eventsQueueHead

/-- The kernel of a small machine after it made the event. -/
def oneEventKernel : KState := (kmallocObj (.event oneEvent)).finalState smallMachineReady

def oneEventMemory : EventMemory where
  kernel := oneEventKernel
  links := oneEventLinks
  accesses := []

theorem oneEventLinks_queues : Queues oneEventLinks [oneEventAddr] where
  chain := by simp [Links.Linked, oneEventLinks]
  nodup := by simp

set_option maxRecDepth 100000 in
theorem oneEvent_run : kmallocObj (.event oneEvent) smallMachineReady =
    .ok (oneEventAddr, oneEventKernel) :=
  eq_ok_of_value (by decide +kernel)

set_option maxRecDepth 100000 in
/-- The only event of the queue is read once it is freed. -/
theorem freeEventNodes_uses_freed : Queues oneEventMemory.links [oneEventAddr] ∧
    ∃ m', freeEventNodes 2 oneEventMemory = .ok ((), m') ∧ m'.UsesFreed := by
  refine ⟨oneEventLinks_queues, _, eq_ok_finalState (by decide +kernel), oneEventAddr, ?_⟩
  have hlog : ((freeEventNodes 2).finalState oneEventMemory).accesses =
      [.readsNext .eventsQueueHead, .frees oneEventAddr,
          .readsNext (.eventQueueNode oneEventAddr)] := by
    decide +kernel
  rw [hlog]
  exact List.sublist_cons_self _ _

/-! ## A queue of two events -/

/-- The event behind it, and its address. -/
def secondEvent : KProcessEvent := ⟨.proccessChildKilled, 0⟩

abbrev secondEventAddr : Nat := 0xC0047054

/-- The words of a queue of the two events. -/
def twoEventsLinks : Links EventNode where
  next
    | .eventsQueueHead => some (.eventQueueNode oneEventAddr)
    | .eventQueueNode a =>
      if a = oneEventAddr then some (.eventQueueNode secondEventAddr) else some .eventsQueueHead
  prev
    | .eventsQueueHead => some (.eventQueueNode secondEventAddr)
    | .eventQueueNode a =>
      if a = oneEventAddr then some .eventsQueueHead else some (.eventQueueNode oneEventAddr)

/-- The kernel of the small machine after it made both. -/
def twoEventsKernel : KState := (kmallocObj (.event secondEvent)).finalState oneEventKernel

def twoEventsMemory : EventMemory where
  kernel := twoEventsKernel
  links := twoEventsLinks
  accesses := []

theorem twoEventsLinks_queues : Queues twoEventsLinks [oneEventAddr, secondEventAddr] where
  chain := by simp [Links.Linked, twoEventsLinks]
  nodup := by simp

set_option maxRecDepth 100000 in
theorem secondEvent_run : kmallocObj (.event secondEvent) oneEventKernel =
    .ok (secondEventAddr, twoEventsKernel) :=
  eq_ok_of_value (by decide +kernel)

/-- The clean-up of the queue of two events frees both, and reads what it freed. -/
theorem freeEventNodes_clean_two : ∃ alloc m', freeEventNodes 3 twoEventsMemory = .ok ((), m') ∧
    CleanedUp twoEventsMemory m' alloc [oneEventAddr, secondEventAddr] ∧
    (¬ m'.UsesFreed ↔ [oneEventAddr, secondEventAddr] = []) := by
  have hready := (booted_live smallMachineReady_booted).procs.ready
  obtain ⟨alloc, hs⟩ := hready.heapOk
  obtain ⟨alloc₁, hs₁, hfirst, -, hphase₁⟩ := hs.newBlock oneEvent_run (by decide)
  obtain ⟨alloc₂, hs₂, hsecond, hkept, hphase₂⟩ := hs₁.newBlock secondEvent_run (by decide)
  have hkernel : twoEventsMemory.kernel = twoEventsKernel := by rw [twoEventsMemory]
  rw [← hkernel] at hs₂ hphase₂
  have hcheck : twoEventsMemory.kernel.phase.check .kmallocReady = true := by
    rw [hphase₂, hphase₁]
    exact hready.phase
  have hblocks : ∀ e ∈ [oneEventAddr, secondEventAddr], IsBlock alloc₂ e := by
    intro e he
    rcases List.mem_pair.1 he with rfl | rfl
    · exact hkept _ hfirst
    · exact hsecond
  exact ⟨alloc₂, freeEventNodes_clean_iff hs₂ hcheck twoEventsLinks_queues hblocks rfl (by decide)⟩

end EventMemory

end MeghaOS
