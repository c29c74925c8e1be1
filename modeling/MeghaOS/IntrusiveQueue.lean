import MeghaOS.Lib.Rings

/-!
# Intrusive queues (`intrusive_list.h`, `intrusive_queue.h`)

A queue is a list that is used at its two ends. Its functions are those of the list, applied to the
head and its neighbours. `ListOp` is a call of a function of either header that makes or changes a
list, and the loops that the headers define visit the nodes of one.
-/

namespace MeghaOS

namespace Links

variable {ι : Type} [DecidableEq ι]

/-- `enqueue`. -/
def enqueue (l : Links ι) (head item : ι) : Except Halt (Links ι) := l.listAddBefore head item

/-- `dequeue`; the result is the node, or `NULL`. -/
def dequeue (l : Links ι) (head : ι) : Except Halt (Option ι × Links ι) :=
  if l.next head = some head then return (none, l)
  else do
    let node := l.next head
    let l ← l.listRemove (← deref (l.next head))
    return (node, l)

/-- `queue_remove`. -/
def queueRemove (l : Links ι) (node : ι) : Except Halt (Links ι) := l.listRemove node

/-- `enqueue_front`. -/
def enqueueFront (l : Links ι) (head item : ι) : Except Halt (Links ι) := l.listAddAfter head item

/-- `dequeue_back`; the result is the node, or `NULL`. -/
def dequeueBack (l : Links ι) (head : ι) : Except Halt (Option ι × Links ι) :=
  if l.prev head = some head then return (none, l)
  else do
    let node := l.prev head
    let l ← l.listRemove (← deref (l.prev head))
    return (node, l)

/-- The nodes that `list_for_each` visits, in less than so many turns. -/
def listForEach (l : Links ι) (turns : Nat) (head : ι) : Except Halt (List ι) :=
  ringWalk l.next head turns (l.next head)

/-- The nodes that `queue_for_each` visits. -/
def queueForEach (l : Links ι) (turns : Nat) (head : ι) : Except Halt (List ι) :=
  ringWalk l.next head turns (l.next head)

/-- The nodes that `queue_for_each_backward` visits. -/
def queueForEachBackward (l : Links ι) (turns : Nat) (head : ι) : Except Halt (List ι) :=
  ringWalk l.prev head turns (l.prev head)

end Links

/-- A call that makes or changes a list. -/
inductive ListOp (ι : Type)
  | listInit (node : ι)
  | listAddBefore (node item : ι)
  | listAddAfter (node item : ι)
  | listRemove (item : ι)
  | enqueue (head item : ι)
  | dequeue (head : ι)
  | enqueueFront (head item : ι)
  | dequeueBack (head : ι)
  | queueRemove (node : ι)

/-- Make the call; the result is the node it returns, if any, and the links. -/
def ListOp.exec {ι : Type} [DecidableEq ι] (l : Links ι) :
    ListOp ι → Except Halt (Option ι × Links ι)
  | .listInit node => return (none, l.listInit node)
  | .listAddBefore node item => return (none, ← l.listAddBefore node item)
  | .listAddAfter node item => return (none, ← l.listAddAfter node item)
  | .listRemove item => return (none, ← l.listRemove item)
  | .enqueue head item => return (none, ← l.enqueue head item)
  | .dequeue head => l.dequeue head
  | .enqueueFront head item => return (none, ← l.enqueueFront head item)
  | .dequeueBack head => l.dequeueBack head
  | .queueRemove node => return (none, ← l.queueRemove node)

end MeghaOS
