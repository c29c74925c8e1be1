import MeghaOS.Process

/-!
# The events queue of a process, word by word (`x86/process.c`, `intrusive_list.h`)

`freeEvents` walks the queue of a killed process as a list. Here the queue is the link words of its
nodes, as `list_for_each` reads them, and every access of a node is logged. `kfree` writes the
headers of sections alone, so the words of a node outlive its release.
-/

namespace MeghaOS

open Exec

/-- The nodes of an events queue: its head, in the record of the process, and the node in each
event. -/
inductive EventNode
  | eventsQueueHead
  | eventQueueNode (e : Nat)
  deriving DecidableEq

/-- What the clean-up does to the memory of the queue. -/
inductive EventAccess
  /-- The word `next` of a node is read. -/
  | readsNext (node : EventNode)
  /-- An event is given to `kfree`. -/
  | frees (e : Nat)
  deriving DecidableEq

/-- The kernel with the words of one events queue, and the accesses made so far. -/
structure EventMemory where
  kernel : KState
  links : Links EventNode
  accesses : List EventAccess

namespace EventMemory

/-- Run a program of the rest of the kernel. -/
def onKernel {α : Type} (x : K α) : Exec EventMemory α :=
  zoom (·.kernel) (fun kernel m => { m with kernel }) x

/-- Log an access. -/
def log (a : EventAccess) : Exec EventMemory Unit :=
  modify fun m => { m with accesses := m.accesses ++ [a] }

/-- `node->next`. -/
def readNext (node : EventNode) : Exec EventMemory (Option EventNode) := do
  log (.readsNext node)
  return (← get).links.next node

/-- `enqueue` of the node of a new event, as `kprocess_pushEvent` calls it. -/
def enqueueEvent (links : Links EventNode) (e : Nat) : Except Halt (Links EventNode) :=
  (links.listInit (.eventQueueNode e)).listAddBefore .eventsQueueHead (.eventQueueNode e)

/-- The words of a queue that the events were pushed to in order. -/
def pushedEvents (links : Links EventNode) (es : List Nat) : Except Halt (Links EventNode) :=
  es.foldlM enqueueEvent (links.listInit .eventsQueueHead)

/-- The loop over the events queue in `kprocess_kill_process`, at the node that `link` leads to,
with at most `fuel` turns. -/
def freeEventNodesFrom : Nat → Option EventNode → Exec EventMemory Unit
  | 0, _ => halt .hang
  | fuel + 1, link => do
    match ← lift (Links.deref link) with
    | .eventsQueueHead => return
    | .eventQueueNode e =>
      onKernel (kAssert (e ≠ 0) "Event cannot be NULL")
      log (.frees e)
      let _ ← onKernel (kfree e)
      freeEventNodesFrom fuel (← readNext (.eventQueueNode e))

/-- The clean-up of the events queue in `kprocess_kill_process`. -/
def freeEventNodes (fuel : Nat) : Exec EventMemory Unit := do
  freeEventNodesFrom fuel (← readNext .eventsQueueHead)

/-- The events given to `kfree`, in order. -/
def freed (m : EventMemory) : List Nat :=
  m.accesses.filterMap fun a => match a with
    | .frees e => some e
    | .readsNext _ => none

/-- The node of an event was read after the event was given to `kfree`. -/
def UsesFreed (m : EventMemory) : Prop :=
  ∃ e, [.frees e, .readsNext (.eventQueueNode e)].Sublist m.accesses

end EventMemory

end MeghaOS
