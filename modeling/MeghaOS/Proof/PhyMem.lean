import MeghaOS.PhyMem
import MeghaOS.Proof.Create
import MeghaOS.Proof.Memory
import MeghaOS.Proof.PageWalk
import MeghaOS.Proof.Reentry
import MeghaOS.Proof.Slots

/-!
# What a copy into physical memory leaves there

`k_memcpyToPhyMem` copies through a window of one page, the external temporary mapping. The page
after the window is not mapped, and no fault is served while the window is open (`touch_open_none`),
so a copy that begins inside the first page and does not end there stops the kernel. Any other copy
makes the moves of `pageMoves` in their order, and `copyAll_eq_iff` says which of them arrive.
-/

namespace MeghaOS

open Exec KState

variable {s s' : KState} {va pa o f n : Nat}

/-! ## Faults while the window is open -/

/-- An address is not mapped when the walk leads nowhere. -/
theorem walk_eq_none_iff : s.walk va = none ↔ isMapped s va = false := by
  unfold walk isMapped
  dsimp only
  by_cases hpde : (s.entry s.cr3 (pdeIndex va)).present = true
  · rw [if_pos hpde, hpde, Bool.true_and]
    by_cases hpte : (s.entry (s.entry s.cr3 (pdeIndex va)).pageFrame (pteIndex va)).present = true
    · rw [if_pos hpte, hpte]
      exact iff_of_false (fun h => by cases h) (fun h => by cases h)
    · rw [if_neg hpte]
      exact iff_of_true rfl (Bool.eq_false_of_not_eq_true hpte)
  · rw [if_neg hpde, Bool.eq_false_of_not_eq_true hpde]
    exact iff_of_true rfl rfl

/-- A page that is there is read without a fault. -/
theorem touch_of_walk (h : s.walk va = some pa) : touch va s = .ok ((), s) := by
  refine touch_of_mapped (Bool.eq_true_of_not_eq_false fun hnone => ?_)
  rw [walk_eq_none_iff.2 hnone] at h
  cases h

/-- A second opening of the external mapping does not return, but for a wrong address. -/
theorem kpgTemporaryMap_open {pd : PageDirectory} (hext : s.tempExt ≠ none)
    (h : kpgTemporaryMap pa s = .ok (pd, s')) : pd = .null := by
  rcases ite_eq_ok.1 h with ⟨-, h⟩ | ⟨-, h⟩
  · exact (returnError_eq_ok.1 h).1
  · rw [get_bind_apply, if_pos (Option.isSome_iff_ne_none.2 hext)] at h
    cases h

/-- No page is committed while the external mapping is open. -/
theorem kvmmCommitPage_open_false {c : Nat} (hext : s.tempExt ≠ none) :
    kvmmCommitPage c va s ≠ .ok (true, s') := by
  intro h
  obtain ⟨found, s₁, hfind, h⟩ := bind_eq_ok.1 h
  have hext₁ : s₁.tempExt ≠ none := by
    rw [(findVas_fixes _ _ _ _ _ hfind : s₁.tempExt = s.tempExt)]
    exact hext
  cases found with
  | none => cases (returnError_eq_ok.1 h).1
  | some a =>
    obtain ⟨vas, -, h⟩ := getVas_bind_eq_ok.1 h
    rcases ite_eq_ok.1 h with ⟨-, h⟩ | ⟨-, h⟩
    · cases (returnError_eq_ok.1 h).1
    rcases ite_eq_ok.1 h with ⟨-, h⟩ | ⟨-, h⟩
    · cases (returnError_eq_ok.1 h).1
    obtain ⟨⟨done, out⟩, s₂, hcommit, h⟩ := bind_eq_ok.1 h
    cases h
    obtain ⟨pages, s₃, hpages, hcommit⟩ := bind_eq_ok.1 hcommit
    have hext₃ : s₃.tempExt ≠ none := by
      have hslots := congrArg Prod.snd (pagesToCommit_slots _ _ _ _ _ _ hpages)
      exact fun h => hext₁ (hslots.symm.trans h)
    cases pages with
    | none => cases hcommit
    | some lPaStart =>
      obtain ⟨v, -, hcommit⟩ := getVmm_bind_eq_ok.1 hcommit
      obtain ⟨pd, s₄, hmap, hcommit⟩ := bind_eq_ok.1 hcommit
      obtain rfl := kpgTemporaryMap_open hext₃ hmap
      obtain ⟨ok, s₅, hnull, -⟩ := bind_eq_ok.1 hcommit
      obtain ⟨b, s₆, hone, -⟩ := bind_eq_ok.1 hnull
      exact absurd rfl (kAssert_bind_eq_ok.1 hone).1

/-- No page directory is brought up to date while the external mapping is open. -/
theorem kpgSetupPageDirectory_open {pd flags kernelPD : Nat} {found : Option Nat}
    (hext : s.tempExt ≠ none)
    (hcopy : bitIsSet flags pgNewpdFlagCopyKernelPages = true) :
    kpgSetupPageDirectory pd flags (some kernelPD) s = .ok (found, s') → found = none := by
  intro h
  obtain ⟨opened, s₁, hopen, h⟩ := bind_eq_ok.1 h
  cases opened with
  | none =>
    cases h
    rfl
  | some opened =>
    dsimp only at h
    rw [when_true hcopy] at h
    obtain ⟨_, s₂, hcopied, -⟩ := bind_eq_ok.1 h
    have hext₁ : s₁.tempExt ≠ none := by
      rw [openPd_ext _ _ _ _ _ hopen]
      exact hext
    obtain ⟨lKernelPD, s₃, hmap, hcopied⟩ := bind_eq_ok.1 hcopied
    obtain rfl := kpgTemporaryMap_open hext₁ hmap
    obtain ⟨k, s₄, hframe, -⟩ := bind_eq_ok.1 hcopied
    cases hframe

/-- `kprocess_sync_pd` does nothing while a page directory is open. -/
theorem kprocessSyncPD_open (hext : s.tempExt ≠ none) (h : kprocessSyncPD s = .ok ((), s')) :
    s' = s := by
  rw [kprocessSyncPD, get_bind_apply] at h
  rcases ite_eq_ok.1 h with ⟨-, h⟩ | ⟨-, h⟩
  · rw [get_bind_apply] at h
    obtain ⟨kernelPD, s₁, hget, h⟩ := bind_eq_ok.1 h
    obtain ⟨k, -, hget⟩ := getVmm_bind_eq_ok.1 hget
    cases hget
    rw [get_bind_apply] at h
    cases hqueue : s.schedulerQueue with
    | nil =>
      rw [hqueue] at h
      cases h
      rfl
    | cons p rest =>
      rw [hqueue, syncQueue] at h
      obtain ⟨q, -, h⟩ := getProc_bind_eq_ok.1 h
      replace h := follow_bind_eq_ok.1 h
      obtain ⟨pd, s₂, hpd, h⟩ := bind_eq_ok.1 h
      obtain ⟨v, -, hpd⟩ := getVmm_bind_eq_ok.1 hpd
      cases hpd
      obtain ⟨found, s₃, hsetup, h⟩ := bind_eq_ok.1 h
      obtain rfl := kpgSetupPageDirectory_open hext (by decide) hsetup
      cases h
  · cases h
    rfl

/-- A fault that was handled while the external mapping is open has not changed what is mapped. -/
theorem pageFaultHandler_open {present : Bool} (hext : s.tempExt ≠ none)
    (h : pageFaultHandler va present s = .ok ((), s')) :
    s'.tempExt = s.tempExt ∧ ∀ a, s'.walk a = s.walk a := by
  have hcommit : ∀ {c : Nat} {r : KState}, r.tempExt ≠ none → commitFault c va present r ≠
      .ok ((), s') := by
    intro c r hr hrun
    rcases ite_eq_ok.1 hrun with ⟨-, hrun⟩ | ⟨-, hrun⟩
    · obtain ⟨done, s₁, hpage, hrun⟩ := bind_eq_ok.1 hrun
      cases done with
      | false => cases hrun
      | true => exact kvmmCommitPage_open_false hr hpage
    · cases hrun
  obtain ⟨context, s₁, hcontext, h⟩ := bind_eq_ok.1 h
  obtain rfl := kprocessGetCurrentContext_state hcontext
  rw [get_bind_apply] at h
  obtain ⟨inside, s₂, hcheck, h⟩ := bind_eq_ok.1 h
  obtain ⟨v, -, hcheck⟩ := getVmm_bind_eq_ok.1 hcheck
  cases hcheck
  rcases ite_eq_ok.1 h with ⟨-, h⟩ | ⟨-, h⟩
  · obtain ⟨dirty, s₃, hdirty, h⟩ := bind_eq_ok.1 h
    obtain ⟨w, -, hdirty⟩ := getVmm_bind_eq_ok.1 hdirty
    obtain ⟨_, s₄, hclear, hdirty⟩ := bind_eq_ok.1 hdirty
    obtain ⟨x, -, rfl⟩ := modifyVmm_eq_ok.1 hclear
    cases hdirty
    rcases ite_eq_ok.1 h with ⟨-, h⟩ | ⟨-, h⟩
    · rw [kprocessSyncPD_open (s := s.setObj s.context _) hext h]
      exact ⟨rfl, fun _ => rfl⟩
    · exact absurd h (hcommit hext)
  · exact absurd (follow_bind_eq_ok.1 h) (hcommit hext)

/-- No page becomes present while the external mapping is open. -/
theorem touchFrom_open_none (hext : s.tempExt ≠ none) (hva : s.walk va = none) (turns : Nat) :
    touchFrom va turns s ≠ .ok ((), s') := by
  induction turns generalizing s with
  | zero => exact fun h => by cases h
  | succ turns ih =>
    intro h
    rw [touchFrom, get_bind_apply, if_neg (by simp [walk_eq_none_iff.1 hva])] at h
    obtain ⟨_, s₁, hfault, h⟩ := bind_eq_ok.1 h
    obtain ⟨hext₁, hwalk₁⟩ := pageFaultHandler_open hext hfault
    exact ih (hext₁ ▸ hext) ((hwalk₁ va).trans hva) h

/-- An access that faults does not return while the slot is in use. -/
theorem touch_open_none (hext : s.tempExt ≠ none) (hva : s.walk va = none) :
    touch va s ≠ .ok ((), s') :=
  touchFrom_open_none hext hva 5

/-! ## The window -/

/-- The current page directory has the kernel's page table, which holds the temporary mappings, and
both of them are closed. -/
structure WindowReady (s : KState) : Prop where
  present : (s.entry s.cr3 kernelPdeIndex).present = true
  frame : (s.entry s.cr3 kernelPdeIndex).pageFrame = kernelPageTableFrame
  ext : s.tempExt = none
  int : s.tempInt = none

/-- An entry that is present while the external mapping is closed is another one. -/
theorem entry_withExt_of_present {d i : Nat} (hext : s.tempExt = none)
    (hp : (s.entry d i).present = true)
    (x : Option Nat) : (s.withExt x).entry d i = s.entry d i := by
  have hslot : ¬ (d = kernelPageTableFrame ∧ i = temporaryPteIndexExtern) := by
    intro hslot
    rw [entry, if_pos hslot, hext] at hp
    cases hp
  rw [entry, if_neg hslot, entry, if_neg hslot]
  rfl

/-- What is mapped while the window is closed is mapped while it is open. -/
theorem walk_withExt (hext : s.tempExt = none) (h : s.walk va = some pa) (x : Option Nat) :
    (s.withExt x).walk va = some pa := by
  unfold walk at h ⊢
  dsimp only at h ⊢
  by_cases hpde : (s.entry s.cr3 (pdeIndex va)).present = true
  · rw [if_pos hpde] at h
    by_cases hpte : (s.entry (s.entry s.cr3 (pdeIndex va)).pageFrame (pteIndex va)).present = true
    · rw [show (s.withExt x).cr3 = s.cr3 from rfl, entry_withExt_of_present hext hpde,
        entry_withExt_of_present hext hpte, if_pos hpde]
      exact h
    · rw [if_neg hpte] at h
      cases h
  · rw [if_neg hpde] at h
    cases h

namespace WindowReady

/-- The entry of the kernel's window is the same, whatever the slot holds. -/
theorem pde (hw : WindowReady s) (x : Option Nat) :
    (s.withExt x).entry (s.withExt x).cr3 kernelPdeIndex = s.entry s.cr3 kernelPdeIndex :=
  entry_withExt_of_present hw.ext hw.present x

/-- An address in the window leads to the page that it shows. -/
theorem walk_window (hw : WindowReady s) (f : Nat) (hlow : memStartPagingExtTempMap ≤ va)
    (hhigh : va < memStartPagingExtTempMap + 4096) :
    (s.withExt (some f)).walk va = some (f * 4096 + (va - memStartPagingExtTempMap)) := by
  simp only [memStartPagingExtTempMap] at hlow hhigh ⊢
  have hpde : pdeIndex va = kernelPdeIndex := by
    simp only [pdeIndex, kernelPdeIndex]
    omega
  have hpte : pteIndex va = temporaryPteIndexExtern := by
    simp only [pteIndex, temporaryPteIndexExtern]
    omega
  have hoff : pageOffset va = va - 0xC03FE000 := by
    simp only [pageOffset]
    omega
  have hslot : (s.withExt (some f)).entry kernelPageTableFrame temporaryPteIndexExtern =
      tempEntry (some f) := rfl
  unfold walk
  dsimp only
  rw [hpde, hpte, hoff, hw.pde, if_pos hw.present, hw.frame, hslot]
  rfl

/-- The page after the window is not mapped. -/
theorem walk_next (hw : WindowReady s) (f : Nat) (hlow : memStartPagingExtTempMap + 4096 ≤ va)
    (hhigh : va < memStartPagingExtTempMap + 8192) : (s.withExt (some f)).walk va = none := by
  simp only [memStartPagingExtTempMap] at hlow hhigh
  have hpde : pdeIndex va = kernelPdeIndex := by
    simp only [pdeIndex, kernelPdeIndex]
    omega
  have hpte : pteIndex va = temporaryPteIndexInternal := by
    simp only [pteIndex, temporaryPteIndexInternal]
    omega
  have hslot : (s.withExt (some f)).entry kernelPageTableFrame temporaryPteIndexInternal =
      tempEntry s.tempInt := rfl
  unfold walk
  dsimp only
  rw [hpde, hpte, hw.pde, if_pos hw.present, hw.frame, hslot, hw.int]
  rfl

end WindowReady

namespace Machine

variable {m m' : Machine} {b : Memory} {dest destOffset src srcOffset : Nat}

/-! ## Accesses -/

/-- An access to a mapped address goes to its page frame. -/
theorem access_eq (h : m.kernel.walk va = some pa) : access va m = .ok (pa, m) := by
  have htouch : onKernel (touch va) m = .ok ((), m) :=
    zoom_eq_ok.2 ⟨m.kernel, touch_of_walk h, rfl⟩
  rw [access, bind_of_ok htouch, get_bind_apply, h]
  rfl

/-- So does a load. -/
theorem load_eq (h : m.kernel.walk va = some pa) : load va m = .ok (m.bytes pa, m) :=
  bind_of_ok (access_eq h)

/-- And so does a store. -/
theorem store_eq (h : m.kernel.walk va = some pa) (b : UInt8) :
    store va b m = .ok ((), { m with bytes := Function.update m.bytes pa b }) :=
  bind_of_ok (access_eq h)

/-- An access to a page that is not there does not return while the window is open. -/
theorem access_open_none (hext : m.kernel.tempExt ≠ none) (hva : m.kernel.walk va = none) :
    access va m ≠ .ok (pa, m') := by
  intro h
  obtain ⟨_, m₁, htouch, -⟩ := bind_eq_ok.1 h
  obtain ⟨k, htouch, -⟩ := zoom_eq_ok.1 htouch
  exact touch_open_none hext hva htouch

/-- Copies of mapped bytes to mapped places are made. -/
theorem transfer_mapped (k : KState) (target origin : Nat → Nat) (moves : List (Nat × Nat))
    (htarget : ∀ p ∈ moves, k.walk p.1 = some (target p.1))
    (horigin : ∀ p ∈ moves, k.walk p.2 = some (origin p.2)) (b : Memory) :
    transfer load store moves ⟨k, b⟩ =
      .ok ((), ⟨k, copyAll b (moves.map fun p => (target p.1, origin p.2))⟩) := by
  induction moves generalizing b with
  | nil => rfl
  | cons move rest ih =>
    have hload : load move.2 ⟨k, b⟩ = .ok (b (origin move.2), ⟨k, b⟩) :=
      load_eq (horigin move (.head _))
    have hstore : store move.1 (b (origin move.2)) ⟨k, b⟩ =
        .ok ((), ⟨k, Function.update b (target move.1) (b (origin move.2))⟩) :=
      store_eq (htarget move (.head _)) _
    rw [transfer, bind_of_ok hload, bind_of_ok hstore, List.map_cons, copyAll]
    exact ih (fun p hp => htarget p (.tail _ hp)) (fun p hp => horigin p (.tail _ hp)) _

/-! ## One page -/

/-- The physical address behind an address that is mapped. -/
def behind (s : KState) (va : Nat) : Nat := (s.walk va).getD 0

/-- The moves through the window are those of the page frame. -/
theorem downwards_map_window {w d : Nat} (g : Nat → Nat) (src n : Nat) (hd : d = f * 4096) :
    (downwards (w + o) src n).map (fun p => (f * 4096 + (p.1 - w), g p.2)) =
      (downwards (d + o) src n).map fun p => (p.1, g p.2) := by
  subst hd
  induction n with
  | zero => rfl
  | succ n ih =>
    have hshift : f * 4096 + (w + o + n - w) = f * 4096 + o + n := by omega
    rw [downwards, downwards, List.map_cons, List.map_cons, ih, hshift]

/-- The copies of a range through a page, with the sources as physical addresses. -/
def moved (s : KState) (moves : List (Nat × Nat)) : List (Nat × Nat) :=
  moves.map fun p => (p.1, behind s p.2)

/-- Bytes are moved one after the other. -/
theorem moved_append (s : KState) (xs ys : List (Nat × Nat)) :
    moved s (xs ++ ys) = moved s xs ++ moved s ys :=
  List.map_append

/-- The bytes of the source are mapped. -/
def Committed (s : KState) (src n : Nat) : Prop := ∀ i < n, ∃ pa, s.walk (src + i) = some pa

/-- A committed address leads to its page frame. -/
theorem Committed.behind {src n i : Nat} (h : Committed s src n) (hi : i < n) :
    s.walk (src + i) = some (behind s (src + i)) := by
  obtain ⟨pa, hpa⟩ := h i hi
  rw [Machine.behind, hpa]
  rfl

/-- The kernel opens the window. -/
theorem onKernel_map (hw : WindowReady s) (hal : dest % pageFrameSizeBytes = 0) (b : Memory) :
    onKernel (kpgTemporaryMap dest) ⟨s, b⟩ =
      .ok (.temp, ⟨s.withExt (some (physicalToPageframe dest)), b⟩) := by
  have hrun := kpgTemporaryMap_bind (f := pure) hal hw.ext
  rw [bind_pure] at hrun
  exact zoom_eq_ok.2 ⟨_, hrun, rfl⟩

/-- `kpg_temporaryUnmap` closes the window. -/
theorem onKernel_unmap (hw : WindowReady s) (f : Nat) (b : Memory) :
    onKernel kpgTemporaryUnmap ⟨s.withExt (some f), b⟩ = .ok ((), ⟨s, b⟩) := by
  have hrun := kpgTemporaryUnmap_bind (f := pure) hw.ext f
  rw [bind_pure] at hrun
  exact zoom_eq_ok.2 ⟨_, hrun, rfl⟩

/-- A copy inside one page. -/
theorem memcpyToPage_run (hw : WindowReady s) (hal : dest % pageFrameSizeBytes = 0)
    (hdest : dest < 2 ^ 32)
    (ho : o < 4096) (hin : o + n ≤ 4096) (hsrc : src + n ≤ 2 ^ 32) (hc : Committed s src n)
    (b : Memory) :
    memcpyToPage dest o src n ⟨s, b⟩ =
      .ok ((), ⟨s, copyAll b (moved s (downwards (dest + o) src n))⟩) := by
  have hframe : dest = physicalToPageframe dest * 4096 := by
    simp only [pageFrameSizeBytes] at hal
    rw [physicalToPageframe_eq]
    omega
  have hva : u32 (memStartPagingExtTempMap + o) = memStartPagingExtTempMap + o :=
    Nat.mod_eq_of_lt (by simp only [memStartPagingExtTempMap]; omega)
  have hend : memStartPagingExtTempMap + o + n ≤ 2 ^ 32 := by
    simp only [memStartPagingExtTempMap]
    omega
  have hcopy : memcpyBody load store (memStartPagingExtTempMap + o) src n
      ⟨s.withExt (some (physicalToPageframe dest)), b⟩ =
      .ok (memStartPagingExtTempMap + o, ⟨s.withExt (some (physicalToPageframe dest)),
        copyAll b (moved s (downwards (dest + o) src n))⟩) := by
    rw [memcpyBody, memcpyDown_eq load store hend hsrc]
    have htransfer := transfer_mapped (s.withExt (some (physicalToPageframe dest)))
      (fun va => physicalToPageframe dest * 4096 + (va - memStartPagingExtTempMap)) (behind s)
      (downwards (memStartPagingExtTempMap + o) src n) (fun p hp => ?_) (fun p hp => ?_) b
    · rw [bind_of_ok htransfer, downwards_map_window (behind s) src n hframe]
      rfl
    · obtain ⟨i, hi, rfl⟩ := mem_downwards.1 hp
      exact hw.walk_window _ (by omega) (by omega)
    · obtain ⟨i, hi, rfl⟩ := mem_downwards.1 hp
      exact walk_withExt hw.ext (hc.behind hi) _
  rw [memcpyToPage, bind_of_ok (onKernel_map hw hal b)]
  dsimp only [pointer]
  rw [hva, bind_of_ok hcopy]
  exact onKernel_unmap hw _ _

/-- A copy that leaves the page after its first bytes does not return. -/
theorem memcpyToPage_leaves (hw : WindowReady s) (hal : dest % pageFrameSizeBytes = 0)
    (ho : o < 4096) (hout : 4096 < o + n) (hn : n ≤ 4096) (hsrc : src + n ≤ 2 ^ 32)
    (hc : Committed s src n)
    (b : Memory) : memcpyToPage dest o src n ⟨s, b⟩ ≠ .ok ((), m') := by
  intro h
  have hva : u32 (memStartPagingExtTempMap + o) = memStartPagingExtTempMap + o :=
    Nat.mod_eq_of_lt (by simp only [memStartPagingExtTempMap]; omega)
  have hend : memStartPagingExtTempMap + o + n ≤ 2 ^ 32 := by
    simp only [memStartPagingExtTempMap]
    omega
  rw [memcpyToPage, bind_of_ok (onKernel_map hw hal b)] at h
  dsimp only [pointer] at h
  rw [hva] at h
  obtain ⟨_, m₁, hcopy, -⟩ := bind_eq_ok.1 h
  rw [memcpyBody, memcpyDown_eq load store hend hsrc] at hcopy
  obtain ⟨_, m₂, htransfer, -⟩ := bind_eq_ok.1 hcopy
  obtain ⟨k, rfl⟩ : ∃ k, n = k + 1 := ⟨n - 1, by omega⟩
  -- the last byte is copied first, and its place is behind the window
  have hread : Machine.load (src + k) ⟨s.withExt (some (physicalToPageframe dest)), b⟩ =
      .ok (b (behind s (src + k)), ⟨s.withExt (some (physicalToPageframe dest)), b⟩) :=
    load_eq (walk_withExt hw.ext (hc.behind (Nat.lt_succ_self k)) _)
  rw [downwards, transfer, bind_of_ok hread] at htransfer
  obtain ⟨_, m₃, hstore, -⟩ := bind_eq_ok.1 htransfer
  obtain ⟨pa, m₄, haccess, -⟩ := bind_eq_ok.1 hstore
  refine access_open_none (m := ⟨s.withExt (some (physicalToPageframe dest)), b⟩)
    (fun hnone => by cases hnone) ?_ haccess
  exact hw.walk_next _ (by omega) (by omega)

/-! ## All pages -/

/-- The copies of `k_memcpyToPhyMem`, in the order it makes them: page by page upwards, and each
page downwards. -/
def pageMoves (r : Nat) : Nat → Nat → Nat → List (Nat × Nat)
  | 0, dest, src => downwards dest src r
  | q + 1, dest, src => downwards dest src 4096 ++ pageMoves r q (dest + 4096) (src + 4096)

variable {q r : Nat}

/-- The moves of whole and part pages are those of the range. -/
theorem mem_pageMoves {p : Nat × Nat} :
    p ∈ pageMoves r q dest src ↔ ∃ i < q * 4096 + r, p = (dest + i, src + i) := by
  induction q generalizing dest src with
  | zero =>
    rw [pageMoves, mem_downwards, Nat.zero_mul, Nat.zero_add]
  | succ q ih =>
    rw [pageMoves, List.mem_append, mem_downwards, ih]
    constructor
    · rintro (⟨i, hi, rfl⟩ | ⟨i, hi, rfl⟩)
      · exact ⟨i, by omega, rfl⟩
      · exact ⟨4096 + i, by omega, by rw [Nat.add_assoc, Nat.add_assoc]⟩
    · rintro ⟨i, hi, rfl⟩
      by_cases hpage : i < 4096
      · exact .inl ⟨i, hpage, rfl⟩
      · obtain ⟨k, rfl⟩ := Nat.exists_eq_add_of_le (Nat.not_lt.1 hpage)
        exact .inr ⟨k, by omega, by rw [Nat.add_assoc, Nat.add_assoc]⟩

/-- Their destinations are the range's. -/
theorem mem_pageMoves_dest {a : Nat} :
    a ∈ (pageMoves r q dest src).map Prod.fst ↔ dest ≤ a ∧ a < dest + (q * 4096 + r) := by
  rw [List.mem_map]
  constructor
  · rintro ⟨p, hp, rfl⟩
    obtain ⟨i, hi, rfl⟩ := mem_pageMoves.1 hp
    exact ⟨Nat.le_add_right _ _, Nat.add_lt_add_left hi _⟩
  · rintro ⟨hle, hlt⟩
    exact ⟨(dest + (a - dest), src + (a - dest)), mem_pageMoves.2 ⟨a - dest, by omega, rfl⟩,
      Nat.add_sub_cancel' hle⟩

/-- No byte is written twice. -/
theorem pageMoves_nodup : ((pageMoves r q dest src).map Prod.fst).Nodup := by
  induction q generalizing dest src with
  | zero => exact downwards_nodup
  | succ q ih =>
    rw [pageMoves, List.map_append, List.nodup_append]
    refine ⟨downwards_nodup, ih, fun a ha b hb heq => ?_⟩
    have hfirst := mem_downwards_dest.1 ha
    have hlater := mem_pageMoves_dest.1 hb
    omega

/-- Byte `j` of a copy is copied before byte `i`. -/
def CopiedBefore (j i : Nat) : Prop := j / 4096 < i / 4096 ∨ j / 4096 = i / 4096 ∧ i < j

/-- Their order: a later page after an earlier one, and within a page downwards. -/
theorem pairwise_pageMoves {R : Nat × Nat → Nat × Nat → Prop} (hr : r < 4096) :
    (pageMoves r q dest src).Pairwise R ↔
      ∀ j < q * 4096 + r, ∀ i < q * 4096 + r, CopiedBefore j i →
        R (dest + j, src + j) (dest + i, src + i) := by
  induction q generalizing dest src with
  | zero =>
    rw [pageMoves, pairwise_downwards, Nat.zero_mul, Nat.zero_add]
    constructor
    · intro h j hj i hi hbefore
      simp only [CopiedBefore] at hbefore
      exact h j hj i (by omega)
    · exact fun h j hj i hi => h j hj i (by omega) (.inr ⟨by omega, hi⟩)
  | succ q ih =>
    rw [pageMoves, List.pairwise_append, pairwise_downwards, ih]
    constructor
    · rintro ⟨hfirst, hlater, hcross⟩ j hj i hi hbefore
      simp only [CopiedBefore] at hbefore hlater
      by_cases hjpage : j < 4096
      · by_cases hipage : i < 4096
        · exact hfirst j hjpage i (by omega)
        · have hdest : dest + i = dest + 4096 + (i - 4096) := by omega
          have hsrc : src + i = src + 4096 + (i - 4096) := by omega
          rw [hdest, hsrc]
          exact hcross _ (mem_downwards.2 ⟨j, hjpage, rfl⟩) _
            (mem_pageMoves.2 ⟨i - 4096, by omega, rfl⟩)
      · have hstep := hlater (j - 4096) (by omega) (i - 4096) (by omega) (by omega)
        rwa [show dest + 4096 + (j - 4096) = dest + j by omega,
          show src + 4096 + (j - 4096) = src + j by omega,
          show dest + 4096 + (i - 4096) = dest + i by omega,
          show src + 4096 + (i - 4096) = src + i by omega] at hstep
    · intro h
      refine ⟨fun j hj i hi => h j (by omega) i (by omega) (.inr ⟨by omega, hi⟩),
        fun j hj i hi hbefore => ?_,
        fun p hp p' hp' => ?_⟩
      · simp only [CopiedBefore] at hbefore
        have hstep := h (4096 + j) (by omega) (4096 + i) (by omega)
          (by simp only [CopiedBefore]; omega)
        rwa [← Nat.add_assoc, ← Nat.add_assoc, ← Nat.add_assoc, ← Nat.add_assoc] at hstep
      · obtain ⟨j, hj, rfl⟩ := mem_downwards.1 hp
        obtain ⟨i, hi, rfl⟩ := mem_pageMoves.1 hp'
        have hstep := h j (by omega) (4096 + i) (by omega) (.inl (by omega))
        rwa [← Nat.add_assoc, ← Nat.add_assoc] at hstep

/-- All pages from the start of one on. -/
theorem memcpyPages_run (hw : WindowReady s) (hr : r < 4096) (hal : dest % pageFrameSizeBytes = 0)
    (hdest : dest + (q * 4096 + r) ≤ 2 ^ 32) (hsrc : src + (q * 4096 + r) ≤ 2 ^ 32)
    (hc : Committed s src (q * 4096 + r)) (b : Memory) :
    (memcpyPages q (u32 dest) (u32 src) 0 >>= fun rest => memcpyToPage rest.1 rest.2.2 rest.2.1 r)
      ⟨s, b⟩ =
      .ok ((), ⟨s, copyAll b (moved s (pageMoves r q dest src))⟩) := by
  have hal' : u32 dest % pageFrameSizeBytes = 0 := by
    simp only [u32, pageFrameSizeBytes] at hal ⊢
    omega
  have hlt : u32 dest < 2 ^ 32 := Nat.mod_lt _ (by decide)
  induction q generalizing dest src b with
  | zero =>
    rw [memcpyPages, pure_bind, pageMoves]
    dsimp only
    rw [Nat.zero_mul, Nat.zero_add] at hdest hsrc hc
    rcases Nat.eq_zero_or_pos r with rfl | hpos
    · exact memcpyToPage_run hw hal' hlt (by decide) (by decide)
        (Nat.le_of_lt (Nat.mod_lt _ (by decide)))
        (fun i hi => absurd hi (Nat.not_lt_zero i)) b
    · have hdest' : u32 dest = dest := Nat.mod_eq_of_lt (by omega)
      have hsrc' : u32 src = src := Nat.mod_eq_of_lt (by omega)
      rw [hdest', hsrc']
      exact memcpyToPage_run hw hal (by omega) (by decide) (by omega) hsrc hc b
  | succ q ih =>
    have hdest' : u32 dest = dest := Nat.mod_eq_of_lt (by omega)
    have hsrc' : u32 src = src := Nat.mod_eq_of_lt (by omega)
    have hfirst := memcpyToPage_run hw hal (by omega) (by decide) (Nat.le_refl _)
      (by omega : src + 4096 ≤ 2 ^ 32) (fun i hi => hc i (by omega)) b
    have hal₂ : (dest + 4096) % pageFrameSizeBytes = 0 := by
      simp only [pageFrameSizeBytes] at hal ⊢
      omega
    have hal₂' : u32 (dest + 4096) % pageFrameSizeBytes = 0 := by
      simp only [u32, pageFrameSizeBytes] at hal ⊢
      omega
    have hc₂ : Committed s (src + 4096) (q * 4096 + r) := fun i hi => by
      rw [Nat.add_assoc]
      exact hc (4096 + i) (by omega)
    rw [memcpyPages, bind_assoc, hdest', hsrc', bind_of_ok hfirst, pageMoves, moved_append,
      copyAll_append]
    exact ih hal₂ (by omega) (by omega) hc₂ _ hal₂' (Nat.mod_lt _ (by decide))

/-- The bytes of the source are in physical memory, and no other byte has changed. -/
structure PhyCopied (m m' : Machine) (dest src n : Nat) : Prop where
  copied : ∀ i < n, ∃ pa, m.kernel.walk (src + i) = some pa ∧ m'.bytes (dest + i) = m.bytes pa
  others : ∀ a, a < dest ∨ dest + n ≤ a → m'.bytes a = m.bytes a

/-- `k_memcpyToPhyMem` returns after such a copy. -/
def CopiesToPhyMem (m : Machine) (dest src destOffset srcOffset n : Nat) : Prop :=
  ∃ m', kMemcpyToPhyMem dest src destOffset srcOffset n m = .ok ((), m') ∧
    PhyCopied m m' (dest + destOffset) (src + srcOffset) n

/-- The copy does not leave the page that it begins in, or begins at the start of one. -/
def StaysInWindow (destOffset n : Nat) : Prop := destOffset = 0 ∨ destOffset + n ≤ 4096

/-- The body of `k_memcpyToPhyMem` after its check. -/
theorem kMemcpyToPhyMem_eq (hphase : s.phase.check .vmmReady = true) (b : Memory) :
    kMemcpyToPhyMem dest src destOffset srcOffset n ⟨s, b⟩ =
      (memcpyPages (n / 4096) dest (u32 (src + srcOffset)) destOffset >>= fun rest =>
        memcpyToPage rest.1 rest.2.2 rest.2.1 (n % 4096)) ⟨s, b⟩ := by
  have hvalid : onKernel (kernelPhaseValidate .vmmReady) ⟨s, b⟩ = .ok ((), ⟨s, b⟩) :=
    zoom_eq_ok.2 ⟨s, kernelPhaseValidate_eq_ok.2 ⟨hphase, rfl⟩, rfl⟩
  exact bind_of_ok hvalid

/-- A copy that stays in the window returns, and has made its moves. -/
theorem kMemcpyToPhyMem_run (hw : WindowReady s) (hphase : s.phase.check .vmmReady = true)
    (hal : dest % pageFrameSizeBytes = 0) (hlt : dest < 2 ^ 32) (ho : destOffset < 4096)
    (hin : StaysInWindow destOffset n) (hdest : dest + destOffset + n ≤ 2 ^ 32)
    (hsrc : src + srcOffset + n ≤ 2 ^ 32) (hc : Committed s (src + srcOffset) n) (b : Memory) :
    kMemcpyToPhyMem dest src destOffset srcOffset n ⟨s, b⟩ = .ok ((), ⟨s, copyAll b (moved s
      (pageMoves (n % 4096) (n / 4096) (dest + destOffset) (src + srcOffset)))⟩) := by
  have hsplit : n / 4096 * 4096 + n % 4096 = n := by omega
  rw [kMemcpyToPhyMem_eq hphase]
  by_cases hzero : destOffset = 0
  · subst hzero
    have hrun := memcpyPages_run (q := n / 4096) hw (Nat.mod_lt n (by decide)) hal (by omega)
      (by omega : src + srcOffset + _ ≤ 2 ^ 32) (by rwa [hsplit]) b
    rwa [show u32 dest = dest from Nat.mod_eq_of_lt hlt] at hrun
  · have hone : n / 4096 = 0 ∧ n % 4096 = n := by
      have := hin.resolve_left hzero
      omega
    rw [hone.1, hone.2, memcpyPages, pure_bind, pageMoves]
    dsimp only
    rcases Nat.eq_zero_or_pos n with rfl | hpos
    · exact memcpyToPage_run hw hal hlt ho (by omega) (Nat.le_of_lt (Nat.mod_lt _ (by decide)))
        (fun i hi => absurd hi (Nat.not_lt_zero i)) b
    · rw [show u32 (src + srcOffset) = src + srcOffset from Nat.mod_eq_of_lt (by omega)]
      exact memcpyToPage_run hw hal hlt ho (hin.resolve_left hzero) hsrc hc b

/-- A copy that leaves the window does not return. -/
theorem kMemcpyToPhyMem_leaves (hw : WindowReady s) (hphase : s.phase.check .vmmReady = true)
    (hal : dest % pageFrameSizeBytes = 0) (ho : destOffset < 4096)
    (hout : ¬ StaysInWindow destOffset n)
    (hsrc : src + srcOffset + n ≤ 2 ^ 32) (hc : Committed s (src + srcOffset) n) (b : Memory) :
    kMemcpyToPhyMem dest src destOffset srcOffset n ⟨s, b⟩ ≠ .ok ((), m') := by
  intro h
  obtain ⟨hpos, hout⟩ := not_or.1 hout
  rw [kMemcpyToPhyMem_eq hphase, show u32 (src + srcOffset) = src + srcOffset from
    Nat.mod_eq_of_lt (by omega)] at h
  by_cases hpages : n / 4096 = 0
  · have hone : n % 4096 = n := by omega
    rw [hpages, hone, memcpyPages, pure_bind] at h
    exact memcpyToPage_leaves hw hal ho (by omega) (by omega) hsrc hc b h
  · obtain ⟨q, hq⟩ := Nat.exists_eq_succ_of_ne_zero hpages
    rw [hq, memcpyPages, bind_assoc] at h
    obtain ⟨_, m₁, hfirst, -⟩ := bind_eq_ok.1 h
    exact memcpyToPage_leaves (n := 4096) hw hal ho (by omega) (Nat.le_refl _) (by omega)
      (fun i hi => hc i (by omega)) b hfirst

/-- `k_memcpyToPhyMem` copies if and only if the copy stays in the window, and whatever it writes
over a source byte that it has still to read is the byte that is there. -/
theorem kMemcpyToPhyMem_copies_iff (m : Machine) (hw : WindowReady m.kernel)
    (hphase : m.kernel.phase.check .vmmReady = true) (hal : dest % pageFrameSizeBytes = 0)
    (hlt : dest < 2 ^ 32) (ho : destOffset < 4096) (hdest : dest + destOffset + n ≤ 2 ^ 32)
    (hsrc : src + srcOffset + n ≤ 2 ^ 32) (hc : Committed m.kernel (src + srcOffset) n) :
    CopiesToPhyMem m dest src destOffset srcOffset n ↔
      StaysInWindow destOffset n ∧
        ∀ j < n, ∀ i < n, CopiedBefore j i →
          m.kernel.walk (src + srcOffset + i) = some (dest + destOffset + j) →
          ∀ pa, m.kernel.walk (src + srcOffset + j) = some pa →
            m.bytes pa = m.bytes (dest + destOffset + j) := by
  by_cases hin : StaysInWindow destOffset n
  · have hsplit : n / 4096 * 4096 + n % 4096 = n := by omega
    have hrun := kMemcpyToPhyMem_run hw hphase hal hlt ho hin hdest hsrc hc m.bytes
    have hmem {p : Nat × Nat} : p ∈ pageMoves (n % 4096) (n / 4096) (dest + destOffset)
      (src + srcOffset) ↔
        ∃ i < n, p = (dest + destOffset + i, src + srcOffset + i) := by rw [mem_pageMoves, hsplit]
    have hfst : (moved m.kernel (pageMoves (n % 4096) (n / 4096) (dest + destOffset)
        (src + srcOffset))).map Prod.fst =
          (pageMoves (n % 4096) (n / 4096) (dest + destOffset) (src + srcOffset)).map Prod.fst := by
      rw [moved, List.map_map]
      rfl
    have hall : CopiesToPhyMem m dest src destOffset srcOffset n ↔
        ∀ p ∈ moved m.kernel (pageMoves (n % 4096) (n / 4096) (dest + destOffset)
          (src + srcOffset)),
          copyAll m.bytes (moved m.kernel (pageMoves (n % 4096) (n / 4096) (dest + destOffset)
            (src + srcOffset))) p.1 = m.bytes p.2 := by
      constructor
      · rintro ⟨m', hrun', hcopied, -⟩ p hp
        cases hrun.symm.trans hrun'
        obtain ⟨p', hp', rfl⟩ := List.mem_map.1 hp
        obtain ⟨i, hi, rfl⟩ := hmem.1 hp'
        obtain ⟨pa, hpa, hbyte⟩ := hcopied i hi
        exact hbyte.trans (congrArg m.bytes (Option.some.inj (hpa.symm.trans (hc.behind hi))))
      · intro hcopied
        refine ⟨_, hrun, fun i hi => ⟨_, hc.behind hi, ?_⟩, fun a ha => copyAll_of_notMem
          fun hdests => ?_⟩
        · exact hcopied _ (List.mem_map.2 ⟨_, hmem.2 ⟨i, hi, rfl⟩, rfl⟩)
        · rw [hfst, mem_pageMoves_dest, hsplit] at hdests
          omega
    rw [hall, copyAll_eq_iff (hfst ▸ pageMoves_nodup), moved, List.pairwise_map,
      pairwise_pageMoves (Nat.mod_lt n (by decide)), hsplit, and_iff_right hin]
    refine forall₂_congr fun j hj => forall₂_congr fun i hi => imp_congr_right fun _ => ?_
    rw [hc.behind hi]
    constructor
    · intro h heq pa hpa
      have hbyte := h (Option.some.inj heq).symm
      dsimp only at hbyte
      rw [hc.behind hj] at hpa
      rw [← Option.some.inj hpa, hbyte, Option.some.inj heq]
    · intro h heq
      have heq : dest + destOffset + j = behind m.kernel (src + srcOffset + i) := heq
      exact (h (congrArg some heq.symm) _ (hc.behind hj)).trans (congrArg m.bytes heq)
  · refine iff_of_false ?_ fun h => hin h.1
    rintro ⟨m', hrun, -⟩
    exact kMemcpyToPhyMem_leaves hw hphase hal ho hin hsrc hc m.bytes hrun

/-- A kernel whose current page directory, at frame `0x23`, has the kernel's page table, and one
page at 4 MB, which is frame `0x41`. Every byte of memory is the low byte of its address. -/
def onePage : Machine where
  kernel :=
    { KState.static [⟨0, 0x50000, mmTypeFree⟩] 0x23 fun f i =>
        if f = 0x23 ∧ i = 768 then ⟨true, true, false, false, false, 0x24⟩
        else if f = 0x23 ∧ i = 1 then ⟨true, true, false, false, false, 0x40⟩
        else if f = 0x40 ∧ i = 0 then ⟨true, true, false, false, false, 0x41⟩
        else Entry.zero with
      phase := .vmmReady }
  bytes a := .ofNat a

/-- The window of this kernel is ready. -/
theorem onePage_windowReady : WindowReady onePage.kernel where
  present := by decide
  frame := by decide
  ext := rfl
  int := rfl

/-- Its source is mapped. -/
theorem onePage_walk {i : Nat} (hi : i < 4096) :
    onePage.kernel.walk (0x400000 + i) = some (0x41000 + i) := by
  have hpde : pdeIndex (0x400000 + i) = 1 := by
    rw [pdeIndex]
    omega
  have hpte : pteIndex (0x400000 + i) = 0 := by
    rw [pteIndex]
    omega
  have hoff : pageOffset (0x400000 + i) = i := by
    rw [pageOffset]
    omega
  unfold walk
  rw [hpde, hpte, hoff]
  rfl

/-- Sixteen bytes of the page go to an offset of another one. -/
theorem kMemcpyToPhyMem_copies_onePage : CopiesToPhyMem onePage 0x43000 0x400000 4080 0 16 := by
  refine (kMemcpyToPhyMem_copies_iff onePage onePage_windowReady (by decide) (by decide) (by decide)
    (by decide) (by decide) (by decide) fun i hi => ⟨_, onePage_walk (by omega)⟩).2
      ⟨.inr (by decide), ?_⟩
  intro j hj i hi _ heq
  rw [Nat.add_zero, onePage_walk (by omega)] at heq
  have heq := Option.some.inj heq
  omega

/-- They do not go to an offset from which they do not fit in the page. -/
theorem kMemcpyToPhyMem_leaves_onePage :
    ¬ ∀ (m : Machine) (dest src destOffset srcOffset n : Nat), WindowReady m.kernel →
      m.kernel.phase.check .vmmReady = true → dest % pageFrameSizeBytes = 0 → dest < 2 ^ 32 →
      destOffset < 4096 → dest + destOffset + n ≤ 2 ^ 32 → src + srcOffset + n ≤ 2 ^ 32 →
      Committed m.kernel (src + srcOffset) n → CopiesToPhyMem m dest src destOffset
        srcOffset n := by
  intro h
  have hc : Committed onePage.kernel (0x400000 + 0) 16 := fun i hi => ⟨_, onePage_walk (by omega)⟩
  obtain ⟨m', hrun, -⟩ := h onePage 0x43000 0x400000 4090 0 16 onePage_windowReady
    (by decide) (by decide)
    (by decide) (by decide) (by decide) (by decide) hc
  exact kMemcpyToPhyMem_leaves onePage_windowReady (by decide) (by decide) (by decide)
    (by unfold StaysInWindow; decide) (by decide) hc onePage.bytes hrun

end Machine

end MeghaOS
