import MeghaOS.Vmm

/-!
# The kernel with its handles and windows

A program `G α` runs on the state of the kernel together with the static data of `handle.c`,
`compositor.c` and `kgraphics.c`. Programs of the rest of the kernel run in it through `kernel`. The
modules of the graphics build see, besides the records and the page tables, the bytes of memory: the
handle table is read and written word by word, and the pixels byte by byte through the current page
directory.
-/

namespace MeghaOS

open Exec

/-- The kernel and the static data of the modules for handles and windows. `word` are the words that
`handles` indexes, by address, and `touched` the addresses of those read or written so far, the last
one first. `bytes` are the bytes of page frames, and `fontsData` is the address of the glyphs. -/
structure GState where
  kernel : KState
  handles : Nat
  word : Nat → Nat
  touched : List Nat
  graphicsReady : Bool
  gxBackfb : KGraphicsArea
  fontsData : Nat
  windowsListHead : List Nat
  windowCount : Nat
  bytes : Nat → Nat → Nat

/-- Programs of the kernel with its handles and windows. -/
abbrev G : Type → Type := Exec GState

/-- Run a program of the rest of the kernel. -/
def kernel {α : Type} (x : K α) : G α :=
  zoom (·.kernel) (fun k s => { s with kernel := k }) x

@[simp] theorem kernel_eq_ok {α : Type} {x : K α} {s s' : GState} {a : α} :
    kernel x s = .ok (a, s') ↔
      ∃ k, x s.kernel = .ok (a, k) ∧ s' = { s with kernel := k } :=
  zoom_eq_ok

@[simp] theorem kernel_bind_eq_ok {α β : Type} {x : K α} {f : α → G β} {s : GState}
    {r : β × GState} :
    (kernel x >>= f) s = .ok r ↔
      ∃ a k, x s.kernel = .ok (a, k) ∧ f a { s with kernel := k } = .ok r := by
  rw [bind_eq_ok]
  constructor
  · rintro ⟨a, s', hx, hf⟩
    obtain ⟨k, hk, rfl⟩ := kernel_eq_ok.1 hx
    exact ⟨a, k, hk, hf⟩
  · rintro ⟨a, k, hk, hf⟩
    exact ⟨a, _, kernel_eq_ok.2 ⟨k, hk, rfl⟩, hf⟩

@[simp] theorem kernel_returnError {α : Type} (e : KernelErrorCodes) (a : α) (s : GState) :
    kernel (returnError e a) s =
      .ok (a, { s with kernel := { s.kernel with errorNumber := e } }) := rfl

@[simp] theorem kernel_kAssert_bind {t : Prop} [Decidable t] {β : Type} (ht : t) (e : String)
    (f : Unit → G β) (s : GState) : (kernel (kAssert t e) >>= f) s = f () s := by
  have hassert : kernel (kAssert t e) s = .ok ((), s) :=
    kernel_eq_ok.2 ⟨_, kAssert_eq_ok.2 ⟨ht, rfl⟩, rfl⟩
  exact bind_of_ok hassert

/-! ## Words of the handle table -/

/-- Read a word. -/
def readWord (addr : Nat) : G Nat := do
  modify fun s => { s with touched := addr :: s.touched }
  return (← get).word addr

/-- Write a word. -/
def writeWord (addr value : Nat) : G Unit := do
  modify fun s =>
    { s with touched := addr :: s.touched
             word := fun a => if a = addr then value else s.word a }

@[simp] theorem readWord_bind_apply {β : Type} (addr : Nat) (f : Nat → G β) (s : GState) :
    (readWord addr >>= f) s = f (s.word addr) { s with touched := addr :: s.touched } := rfl

@[simp] theorem writeWord_bind_apply {β : Type} (addr value : Nat) (f : Unit → G β) (s : GState) :
    (writeWord addr value >>= f) s =
      f () { s with touched := addr :: s.touched
                    word := fun a => if a = addr then value else s.word a } := rfl

end MeghaOS
