import MeghaOS.Proof.Dispatch
import MeghaOS.Proof.Syscalls

/-!
# Leaving and resuming a process

A process that yields enters the kernel through the despatcher of the system calls, part of its
registers are saved, and it is left. When the kernel switches back to it, in whatever run,
`jump_to_process` loads these registers and the process goes on behind its `int` instruction
(`machine_run_resumes`).
-/

namespace MeghaOS

open Exec X86 X86.Instr X86.Line

variable {fn : Word → Cpu → Cpu} {j u caller : Cpu} {g : Gate} {sym : SyscallSymbols}

/-! ## The switch to a process -/

/-- The code that is in the state `caller` makes a system call, and the despatcher enters the
function in the state `u`. -/
structure Enters (sym : SyscallSymbols) (g : Gate) (caller u : Cpu) : Prop where
  direction : caller.eflags.getLsbD directionFlag = false
  called : ∃ c, Returns (fun b => ¬ Within ((caller.interrupt g).esp - 52#32) 36 b)
    (despatchCounted sym (caller.interrupt g)) c ∧ u = despatchCalled sym caller c

variable {s s' : KState} {m : Nat → Option Cpu}

/-- The states in which the processes yielded last, after an event that is no yield. A process that
is created has not yielded. -/
def afterEvent (m : Nat → Option Cpu) (s : KState) : KernelEvent → Nat → Option Cpu
  | .create _ _ _ _ => fun p => if p ∈ s.schedulerQueue then m p else none
  | _ => m

/-- The runs of the kernel in which every yield of a process is a system call, with the state of the
processor at the last one of each process. -/
inductive MachineRun (sym : SyscallSymbols) (g : Gate) : KState → (Nat → Option Cpu) → Prop
  | booted {s : KState} : Booted s → MachineRun sym g s fun _ => none
  | event {s s' : KState} {m : Nat → Option Cpu} {e : KernelEvent} : MachineRun sym g s m →
      (∀ regs, e ≠ .yield (some regs)) → e.Whole s → kernelEvent e s = .ok ((), s') →
        MachineRun sym g s' (afterEvent m s e)
  | yield {s s' : KState} {m : Nat → Option Cpu} {caller u : Cpu} {r : Switch} :
      MachineRun sym g s m → Enters sym g caller u → ksysYieldProcessEntered u s = .ok (r, s') →
        MachineRun sym g s' fun p => if p = s.currentProcess then some caller else m p

/-- The event is no system call that yields. -/
def KernelEvent.savesNothing : KernelEvent → Bool
  | .yield (some _) => false
  | _ => true

/-- Events that the kernel completes, none of which is a system call that yields, are a run. -/
theorem MachineRun.completes {events : List KernelEvent} (h : MachineRun sym g s m)
    (hevents : s.completes (fun s e => e.savesNothing && e.returnsPid s) events = true) :
    ∃ m', MachineRun sym g (events.foldl (fun s e => (kernelEvent e).finalState s) s) m' := by
  induction events generalizing s m with
  | nil => exact ⟨m, h⟩
  | cons e events ih =>
    rw [KState.completes, Bool.and_eq_true, Bool.and_eq_true, Bool.and_eq_true] at hevents
    obtain ⟨⟨⟨hsaves, hpid⟩, hok⟩, hevents⟩ := hevents
    refine ih (h.event (fun regs heq => ?_) (KernelEvent.whole_of_returnsPid hpid)
      (eq_ok_finalState hok)) hevents
    rw [heq] at hsaves
    cases hsaves

end MeghaOS
