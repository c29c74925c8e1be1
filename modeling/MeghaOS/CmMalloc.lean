import MeghaOS.Kmalloc

/-!
# The heap of a process (`cm/malloc.c`)

The allocator of the App library is that of the kernel on another buffer: `CM_MallocHeader` has the
fields of `KMallocHeader`, `CM_MALLOC_MEM_SIZE_BYTES` is `ARCH_MEM_LEN_BYTES_KMALLOC`, and the
static functions of the two files are the same, so that the programs of the kernel heap stand for
both. A failed `cm_assert` ends the process without a message.
-/

namespace MeghaOS

open Exec

/-- The values of `CMErrors` that the allocator stores. -/
inductive CMErrors
  | libraryErrorsStart | cmErrInvalidInput | cmErrOutOfHeapMem
  deriving DecidableEq, Repr

/-- The static data of `malloc.c` with the headers in its buffer, and `cm_error_num`. -/
structure CmHeap where
  heap : KHeap
  cmErrorNum : CMErrors

/-- What `cm_panic` does. -/
def cmProcessAbort : Halt := .panic "CM_ABORT_EXIT_CODE"

/-- Run one of the shared functions; its assertions are `cm_assert` here. -/
def onCmHeap {α : Type} (x : Exec KHeap α) : Exec CmHeap α := fun s =>
  match x s.heap with
  | .ok (a, heap) => .ok (a, { s with heap })
  | .error (.panic _) => .error cmProcessAbort
  | .error e => .error e

/-- `CM_RETURN_ERROR`. -/
def cmReturnError {α : Type} (errno : CMErrors) (rval : α) : Exec CmHeap α := do
  modify fun s => { s with cmErrorNum := errno }
  return rval

/-- `cm_malloc_init`, where `cm_process_get_datamem_start` returns `buffer`. -/
def cmMallocInit (buffer : Nat) : Exec CmHeap Unit := onCmHeap (heapInit buffer)

/-- `cm_malloc`. -/
def cmMalloc (bytes : Nat) : Exec CmHeap Nat := do
  if bytes = 0 then cmReturnError .cmErrInvalidInput 0
  else
    match ← onCmHeap (findFreeNode bytes) with
    | none => cmReturnError .cmErrOutOfHeapMem 0
    | some node =>
      onCmHeap (sSplitFreeNode bytes node)
      return u32 (node + sizeofKMallocHeader)

/-- `cm_free`. -/
def cmFree (addr : Nat) : Exec CmHeap Bool := do
  if ← onCmHeap (heapFree addr) then return true
  else halt cmProcessAbort

end MeghaOS
