import MeghaOS.Handle
import MeghaOS.Proof.Boot

/-!
# Handles over whole runs

`HandleRun P s live` says that the calls made since `khandle_init`, all of which satisfy `P`, led to
the state `s`, and that `live` are the handles that are live by the results of these calls.
`HandleCall.Meets` is what a call owes its caller in terms of `live`. A call with a negative handle
does not meet it, because `getObjectPtr` compares the handle with the upper bound only
(`negative_handle_escapes`); when no call is made with a negative handle, every call meets it
(`handle_run_meets`).
-/

namespace MeghaOS

open Exec

variable {s s' : GState} {live : Int → Option Nat} {h : Int} {obj : Nat}

/-! ## Calls and their results -/

/-- A call of the module. -/
inductive HandleCall
  | create (obj : Nat)
  | free (h : Int)
  | get (h : Int)

/-- What a call returns. -/
inductive HandleResult
  | handle (h : Int)
  | freed (b : Bool)
  | object (obj : Nat)
  deriving DecidableEq

/-- Make a call. -/
def HandleCall.exec : HandleCall → G HandleResult
  | create obj => do return .handle (← khandleCreateHandle obj)
  | free h => do return .freed (← khandleFreeHandle h)
  | get h => do return .object (← khandleGetObject h)

/-- The arguments of a call are of their C types. -/
def HandleCall.Typed : HandleCall → Prop
  | create obj => obj < 2 ^ 32
  | free h | get h => -2 ^ 31 ≤ h ∧ h < 2 ^ 31

/-- The handle a call is made with is not negative. -/
def HandleCall.NonNegative : HandleCall → Prop
  | create _ => True
  | free h | get h => 0 ≤ h

/-- The live handles after a call with this result. -/
def liveAfter (live : Int → Option Nat) : HandleCall → HandleResult → Int → Option Nat
  | .create obj, .handle h => if h = invalidHandle then live else Function.update live h (some obj)
  | .free h, .freed true => Function.update live h none
  | _, _ => live

/-- The address of a word of the table. -/
def InTable (handles addr : Nat) : Prop :=
  handles ≤ addr ∧ addr < handles + handlesArrayItemCount * 4

/-- A call fails with this error, and leaves the table as it was. -/
def FailsWith (e : KernelErrorCodes) (s s' : GState) : Prop :=
  s'.kernel.errorNumber = e ∧ ∀ a, InTable s.handles a → s'.word a = s.word a

/-- Every slot of the table is used. -/
def TableFull (live : Int → Option Nat) : Prop :=
  ∀ i : Nat, i < handlesArrayItemCount → live i ≠ none

/-- What a call owes its caller when `live` are the live handles: `create` returns a handle that is
not live, unless the object is `NULL` or every slot is used; the other calls find the object of
a live handle, and fail on any other value. No word outside the table is read or written. -/
def HandleCall.Meets (live : Int → Option Nat) (s s' : GState) (call : HandleCall)
    (r : HandleResult) : Prop :=
  (∃ accessed, s'.touched = accessed ++ s.touched ∧ ∀ a ∈ accessed, InTable s.handles a) ∧
  (∀ a, ¬ InTable s.handles a → s'.word a = s.word a) ∧
  match call, r with
  | .create obj, .handle h =>
    if obj = 0 then h = invalidHandle ∧ FailsWith .errInvalidArgument s s'
    else
      (TableFull live ∧ h = invalidHandle ∧ FailsWith .errOutOfMem s s') ∨
        (¬ TableFull live ∧ 0 ≤ h ∧ h < handlesArrayItemCount ∧ live h = none)
  | .free h, .freed b =>
    if live h = none then b = false ∧ FailsWith .errInvalidHandle s s' else b = true
  | .get h, .object obj =>
    if live h = none then obj = 0 ∧ FailsWith .errInvalidHandle s s'
    else live h = some obj ∧ ∀ a, s'.word a = s.word a
  | _, _ => False

/-! ## Runs -/

/-- `khandle_init` returned, called as `kernel_main` does, after `ksalloc_init`. -/
def HandlesReady (s : GState) : Prop :=
  ∃ k s₀, ksallocInit k = .ok ((), s₀.kernel) ∧ khandleInitTable s₀ = .ok ((), s)

/-- The rest of the kernel ran: the table, and what was read and written through it, stay. -/
def TableKept (s s' : GState) : Prop :=
  s'.handles = s.handles ∧ s'.touched = s.touched ∧
    ∀ a, InTable s.handles a → s'.word a = s.word a

/-- The runs since `khandle_init` whose calls satisfy `P`, with the handles that are live. -/
inductive HandleRun (P : HandleCall → Prop) : GState → (Int → Option Nat) → Prop
  | start {s : GState} : HandlesReady s → HandleRun P s fun _ => none
  | call {s s' : GState} {live : Int → Option Nat} {call : HandleCall} {r : HandleResult} :
      HandleRun P s live → call.Typed → P call → call.exec s = .ok (r, s') →
        HandleRun P s' (liveAfter live call r)
  | other {s s' : GState} {live : Int → Option Nat} :
      HandleRun P s live → TableKept s s' → HandleRun P s' live

/-! ## The invariant -/

/-- The slots of the table hold the objects of the live handles, and `NULL` elsewhere. -/
structure HandleInv (s : GState) (live : Int → Option Nat) : Prop where
  base : s.handles ≠ 0
  fits : s.handles + handlesArrayItemCount * 4 ≤ 2 ^ 32
  slot : ∀ i : Nat, i < handlesArrayItemCount → s.word (s.handles + 4 * i) = (live i).getD 0
  range : ∀ h obj, live h = some obj → 0 ≤ h ∧ h < handlesArrayItemCount ∧ obj ≠ 0

namespace HandleInv

/-- The slot of a handle that is not negative is where the table says. -/
theorem slotAddr_eq (hi : HandleInv s live) {i : Nat} (hlt : i < handlesArrayItemCount) :
    slotAddr s.handles i = s.handles + 4 * i := by
  have hfits := hi.fits
  simp only [slotAddr, handlesArrayItemCount] at *
  omega

theorem inTable (hi : HandleInv s live) {i : Nat} (hlt : i < handlesArrayItemCount) :
    InTable s.handles (slotAddr s.handles i) := by
  rw [hi.slotAddr_eq hlt]
  simp only [InTable, handlesArrayItemCount] at *
  omega

/-- A slot holds `NULL` if and only if its handle is not live. -/
theorem slot_eq_zero (hi : HandleInv s live) {i : Nat} (hlt : i < handlesArrayItemCount) :
    s.word (slotAddr s.handles i) = 0 ↔ live i = none := by
  rw [hi.slotAddr_eq hlt, hi.slot i hlt]
  cases hl : live i with
  | none => simp
  | some obj => simpa using (hi.range _ _ hl).2.2

/-- The invariant is about the table alone. -/
theorem congr (hi : HandleInv s live) (hbase : s'.handles = s.handles)
    (hword : ∀ a, InTable s.handles a → s'.word a = s.word a) : HandleInv s' live := by
  refine ⟨hbase ▸ hi.base, hbase ▸ hi.fits, fun i hlt => ?_, hi.range⟩
  rw [hbase, hword _ (hi.slotAddr_eq hlt ▸ hi.inTable hlt), hi.slot i hlt]

/-- Writing an object, or `NULL`, into a slot. -/
theorem write (hi : HandleInv s live) {i : Nat} (hlt : i < handlesArrayItemCount)
    {new : Option Nat} (hnew : new ≠ some 0) {touched : List Nat} {k : KState} :
    HandleInv { s with
      touched, kernel := k
      word := fun a => if a = slotAddr s.handles i then new.getD 0 else s.word a }
      (Function.update live i new) where
  base := hi.base
  fits := hi.fits
  slot j hj := by
    by_cases hij : j = i
    · subst hij
      simp [hi.slotAddr_eq hlt]
    · have hne : s.handles + 4 * j ≠ s.handles + 4 * i := by omega
      have hne' : (j : Int) ≠ i := by omega
      simp only [hi.slotAddr_eq hlt, hne, if_false, Function.update_of_ne hne']
      exact hi.slot j hj
  range h obj hobj := by
    by_cases hih : h = i
    · subst hih
      rw [Function.update_self] at hobj
      subst hobj
      exact ⟨by omega, by exact_mod_cast hlt, by simpa using hnew⟩
    · rw [Function.update_of_ne hih] at hobj
      exact hi.range h obj hobj

end HandleInv

/-- `khandle_init` clears the table. -/
theorem HandlesReady.inv (hs : HandlesReady s) : HandleInv s fun _ => none := by
  obtain ⟨k, s₀, hsalloc, hinit⟩ := hs
  have hnext : s₀.kernel.sallocNext = memStartSalloc := by
    rw [ksallocInit, modify_bind_apply, kernelPhaseSet_eq_ok] at hsalloc
    rw [hsalloc.2]
  obtain ⟨_, k₁, hvalid, hinit⟩ := kernel_bind_eq_ok.1 hinit
  obtain ⟨-, rfl⟩ := kernelPhaseValidate_eq_ok.1 hvalid
  obtain ⟨handles, k₂, hcall, hinit⟩ := kernel_bind_eq_ok.1 hinit
  rw [kscalloc_eq_ksalloc] at hcall
  rcases ksalloc_spec (Nat.le_of_eq hnext.symm)
    (by simp [hnext]) hcall with ⟨rfl, -⟩ | ⟨hhandles, -⟩
  · obtain ⟨_, hinit, _⟩ := kernel_eq_ok.1 hinit
    cases hinit
  rw [hnext] at hhandles
  subst hhandles
  rw [if_neg (by decide)] at hinit
  cases hinit
  exact {
    base := show memStartSalloc ≠ 0 by decide
    fits := show memStartSalloc + handlesArrayItemCount * 4 ≤ 2 ^ 32 by decide
    slot := fun i hi => by
      have hin : memStartSalloc ≤ memStartSalloc + 4 * i ∧
          memStartSalloc + 4 * i < memStartSalloc + handlesArrayItemCount * 4 := by omega
      exact if_pos hin
    range := fun h obj hobj => by cases hobj }

/-! ## What the functions do -/

/-- `getObjectPtr` with a handle that is not negative. -/
theorem getObjectPtr_spec (hi : HandleInv s live) (hpos : 0 ≤ h) :
    (live h = none ∧ ∃ accessed, (∀ a ∈ accessed, InTable s.handles a) ∧
      getObjectPtr h s = .ok (none, { s with
        touched := accessed ++ s.touched
        kernel := { s.kernel with errorNumber := .errInvalidHandle } })) ∨
    ∃ obj, live h = some obj ∧ getObjectPtr h s =
      .ok (some (slotAddr s.handles h),
        { s with touched := slotAddr s.handles h :: s.touched }) := by
  obtain ⟨i, rfl⟩ := Int.eq_ofNat_of_zero_le hpos
  rw [getObjectPtr, get_bind_apply, kernel_kAssert_bind hi.base]
  by_cases hge : (i : Int) ≥ handlesArrayItemCount
  · have hnone : live i = none := by
      by_contra hne
      obtain ⟨obj, hobj⟩ := Option.ne_none_iff_exists'.1 hne
      exact absurd (hi.range _ _ hobj).2.1 (by omega)
    rw [if_pos hge]
    exact .inl ⟨hnone, [], by simp, rfl⟩
  · have hlt : i < handlesArrayItemCount := by omega
    have hzero := hi.slot_eq_zero hlt
    rw [if_neg hge, readWord_bind_apply]
    cases hl : live i with
    | none =>
      rw [if_pos (hzero.2 hl)]
      exact .inl ⟨rfl, [slotAddr s.handles i], by simpa using hi.inTable hlt, rfl⟩
    | some obj =>
      rw [if_neg (by rw [hzero, hl]; simp)]
      exact .inr ⟨obj, rfl, rfl⟩

/-- The loop of `khandle_createHandle` takes the first free slot. -/
theorem createHandleFrom_spec (hi : HandleInv s live) (obj : Nat) :
    ∀ n i, i + n = handlesArrayItemCount → (∀ j : Nat, j < i → live j ≠ none) →
      ∃ accessed, (∀ a ∈ accessed, InTable s.handles a) ∧
        ((TableFull live ∧
          createHandleFrom obj n i s = .ok (invalidHandle, { s with
            touched := accessed ++ s.touched
            kernel := { s.kernel with errorNumber := .errOutOfMem } })) ∨
        ∃ j : Nat, j < handlesArrayItemCount ∧ live j = none ∧
          createHandleFrom obj n i s = .ok ((j : Int), { s with
            touched := accessed ++ s.touched
            word := fun a => if a = slotAddr s.handles j then obj else s.word a })) := by
  intro n
  induction n generalizing s with
  | zero =>
    intro i hsum hused
    exact ⟨[], by simp, .inl ⟨fun j hj => hused j (by omega), rfl⟩⟩
  | succ n ih =>
    intro i hsum hused
    have hlt : i < handlesArrayItemCount := by omega
    have hin := hi.inTable hlt
    rw [createHandleFrom, get_bind_apply, readWord_bind_apply]
    cases hl : live i with
    | none =>
      rw [if_pos ((hi.slot_eq_zero hlt).2 hl), writeWord_bind_apply]
      refine ⟨[slotAddr s.handles i, slotAddr s.handles i], ?_, .inr ⟨i, hlt, hl, rfl⟩⟩
      simpa using hin
    | some o =>
      rw [if_neg (by rw [hi.slot_eq_zero hlt, hl]; simp)]
      have hi' : HandleInv { s with touched := slotAddr s.handles i :: s.touched } live :=
        hi.congr rfl fun _ _ => rfl
      obtain ⟨accessed, hacc, hcase⟩ := ih hi' (i + 1) (by omega) fun j hj => by
        rcases Nat.lt_succ_iff_lt_or_eq.1 hj with hj | rfl
        · exact hused j hj
        · simp [hl]
      refine ⟨accessed ++ [slotAddr s.handles i], ?_, by simpa using hcase⟩
      intro a ha
      rcases List.mem_append.1 ha with ha | ha
      · exact hacc a ha
      · simpa [List.mem_singleton.1 ha] using hin

/-- The slot a handle that is not negative leads to lies in the table when the handle is live. -/
theorem HandleInv.exists_slot (hi : HandleInv s live) (hlive : live h = some obj) :
    ∃ i : Nat, h = i ∧ i < handlesArrayItemCount := by
  obtain ⟨h0, h1, -⟩ := hi.range h obj hlive
  exact ⟨h.toNat, by omega, by omega⟩

/-! ## Every call meets its contract -/

/-- A call with a handle or an object that meets its contract and keeps the invariant. -/
def HandleCall.Fine (live : Int → Option Nat) (s : GState) (call : HandleCall) : Prop :=
  ∃ r s', call.exec s = .ok (r, s') ∧ call.Meets live s s' r ∧ HandleInv s' (liveAfter live call r)

theorem HandleInv.create (hi : HandleInv s live) : (HandleCall.create obj).Fine live s := by
  have hcall : khandleCreateHandle obj s =
      (if obj = 0 then kernel (returnError .errInvalidArgument invalidHandle)
       else createHandleFrom obj handlesArrayItemCount 0) s := by
    rw [khandleCreateHandle, get_bind_apply, kernel_kAssert_bind hi.base]
  by_cases hobj : obj = 0
  · rw [if_pos hobj, kernel_returnError] at hcall
    refine ⟨_, _, bind_of_ok hcall, ⟨⟨[], rfl, by simp⟩, fun _ _ => rfl, ?_⟩, ?_⟩
    · exact (if_pos hobj).mpr ⟨rfl, rfl, fun _ _ => rfl⟩
    · exact hi.congr rfl fun _ _ => rfl
  rw [if_neg hobj] at hcall
  obtain ⟨accessed, hacc, ⟨hfull, hrun⟩ | ⟨j, hj, hfree, hrun⟩⟩ :=
    createHandleFrom_spec hi obj handlesArrayItemCount 0 rfl fun j hj => by omega
  · refine ⟨_, _, bind_of_ok (hcall.trans hrun), ⟨⟨accessed, rfl, hacc⟩, fun _ _ => rfl, ?_⟩, ?_⟩
    · exact (if_neg hobj).mpr (.inl ⟨hfull, rfl, rfl, fun _ _ => rfl⟩)
    · exact hi.congr rfl fun _ _ => rfl
  · refine ⟨_, _, bind_of_ok (hcall.trans hrun), ⟨⟨accessed, rfl, hacc⟩, ?_, ?_⟩, ?_⟩
    · intro a ha
      refine if_neg ?_
      rintro rfl
      exact ha (hi.inTable hj)
    · have hnotfull : ¬ TableFull live := fun hfull => hfull j hj hfree
      exact (if_neg hobj).mpr (.inr ⟨hnotfull, by omega, by omega, hfree⟩)
    · have hne : (j : Int) ≠ invalidHandle := by
        simp only [invalidHandle]
        omega
      rw [liveAfter, if_neg hne]
      have hnew : some obj ≠ some 0 := by simpa using hobj
      exact hi.write hj hnew

theorem HandleInv.free (hi : HandleInv s live) (hpos : 0 ≤ h) :
    (HandleCall.free h).Fine live s := by
  rcases getObjectPtr_spec hi hpos with ⟨hnone, accessed, hacc, hrun⟩ | ⟨obj, hlive, hrun⟩
  · have hcall : khandleFreeHandle h s = .ok (false, _) := bind_of_ok hrun
    refine ⟨_, _, bind_of_ok hcall, ⟨⟨accessed, rfl, hacc⟩, fun _ _ => rfl, ?_⟩, ?_⟩
    · exact (if_pos hnone).mpr ⟨rfl, rfl, fun _ _ => rfl⟩
    · exact hi.congr rfl fun _ _ => rfl
  · obtain ⟨i, rfl, hlt⟩ := hi.exists_slot hlive
    have hcall : khandleFreeHandle i s = .ok (true, _) := bind_of_ok hrun
    have hin := hi.inTable hlt
    have hsome : live i ≠ none := by simp [hlive]
    refine ⟨_, _, bind_of_ok hcall,
      ⟨⟨[slotAddr s.handles i, slotAddr s.handles i], rfl, ?_⟩, ?_, ?_⟩,
      ?_⟩
    · simpa using hin
    · intro a ha
      refine if_neg ?_
      rintro rfl
      exact ha hin
    · exact (if_neg hsome).mpr rfl
    · have hnew : (none : Option Nat) ≠ some 0 := by simp
      exact hi.write hlt hnew

theorem HandleInv.get (hi : HandleInv s live) (hpos : 0 ≤ h) : (HandleCall.get h).Fine live s := by
  rcases getObjectPtr_spec hi hpos with ⟨hnone, accessed, hacc, hrun⟩ | ⟨obj, hlive, hrun⟩
  · have hcall : khandleGetObject h s = .ok (0, _) := bind_of_ok hrun
    refine ⟨_, _, bind_of_ok hcall, ⟨⟨accessed, rfl, hacc⟩, fun _ _ => rfl, ?_⟩, ?_⟩
    · exact (if_pos hnone).mpr ⟨rfl, rfl, fun _ _ => rfl⟩
    · exact hi.congr rfl fun _ _ => rfl
  · obtain ⟨i, rfl, hlt⟩ := hi.exists_slot hlive
    have hcall : khandleGetObject i s = .ok (s.word (slotAddr s.handles i), _) := bind_of_ok hrun
    have hword : s.word (slotAddr s.handles i) = obj := by
      rw [hi.slotAddr_eq hlt, hi.slot i hlt, hlive]
      rfl
    have hsome : live i ≠ none := by simp [hlive]
    refine ⟨_, _, bind_of_ok hcall, ⟨⟨[slotAddr s.handles i, slotAddr s.handles i], rfl, ?_⟩,
      fun _ _ => rfl, ?_⟩, ?_⟩
    · simpa using hi.inTable hlt
    · exact (if_neg hsome).mpr ⟨hword.symm ▸ hlive, fun _ => rfl⟩
    · exact hi.congr rfl fun _ _ => rfl

/-- A call that is not made with a negative handle. -/
theorem HandleInv.fine (hi : HandleInv s live) {call : HandleCall} (hc : call.NonNegative) :
    call.Fine live s := by
  cases call with
  | create obj => exact hi.create
  | free h => exact hi.free hc
  | get h => exact hi.get hc

/-! ## Runs meet their contract -/

/-- The invariant holds at the end of every run without negative handles. -/
theorem HandleRun.inv (hr : HandleRun HandleCall.NonNegative s live) : HandleInv s live := by
  induction hr with
  | start hs => exact hs.inv
  | call _ _ hc hexec ih =>
    obtain ⟨r, s', hexec', -, hinv⟩ := ih.fine hc
    obtain ⟨rfl, rfl⟩ := Prod.mk.inj (Except.ok.inj (hexec.symm.trans hexec'))
    exact hinv
  | other _ hk ih => exact ih.congr hk.1 hk.2.2

/-- After every run without negative handles, every call that is not made with a negative handle
returns and meets its contract. -/
theorem handle_run_meets (hr : HandleRun HandleCall.NonNegative s live) {call : HandleCall}
    (_ht : call.Typed) (hc : call.NonNegative) :
    ∃ r s', call.exec s = .ok (r, s') ∧ call.Meets live s s' r := by
  obtain ⟨r, s', hexec, hmeets, -⟩ := hr.inv.fine hc
  exact ⟨r, s', hexec, hmeets⟩

/-- A kernel that manages no memory yet, before `ksalloc_init`. -/
def pmmJustReady : KState := { KState.static [] 0 fun _ _ => .zero with phase := .pmmReady }

/-- The same kernel after `ksalloc_init`; its memory holds 7 in every word. -/
def sallocJustReady : GState where
  kernel := ksallocInit.finalState pmmJustReady
  handles := 0
  word := fun _ => 7
  touched := []
  graphicsReady := false
  gxBackfb := ⟨0, 0, 0, 0, 0, 0⟩
  fontsData := 0
  windowsListHead := []
  windowCount := 0
  bytes := fun _ _ => 0

/-- The same kernel after `khandle_init`. -/
def handlesJustReady : GState := khandleInitTable.finalState sallocJustReady

theorem handlesJustReady_ready : HandlesReady handlesJustReady :=
  ⟨pmmJustReady, sallocJustReady, eq_ok_finalState (by decide +kernel),
    eq_ok_finalState (by decide +kernel)⟩

/-- Two handles are made. -/
def firstHandle : GState := (HandleCall.create 0xC0050000).exec.finalState handlesJustReady

def twoHandles : GState := (HandleCall.create 0xC0060000).exec.finalState firstHandle

/-- The first of them is freed. -/
def oneHandle : GState := (HandleCall.free 0).exec.finalState twoHandles

/-- The live handles after each of these calls. -/
def firstLive : Int → Option Nat := liveAfter (fun _ => none) (.create 0xC0050000) (.handle 0)

def bothLive : Int → Option Nat := liveAfter firstLive (.create 0xC0060000) (.handle 1)

def secondLive : Int → Option Nat := liveAfter bothLive (.free 0) (.freed true)

/-- The next handle that is made is the one that was freed. -/
theorem handle_run_meets_afterFree : HandleRun HandleCall.NonNegative oneHandle secondLive ∧
    secondLive 0 = none ∧ secondLive 1 = some 0xC0060000 ∧
    ∃ s', (HandleCall.create 0xC0070000).exec oneHandle = .ok (.handle 0, s') ∧
      (HandleCall.create 0xC0070000).Meets secondLive oneHandle s' (.handle 0) := by
  have h₁ : HandleRun HandleCall.NonNegative firstHandle firstLive :=
    (HandleRun.start handlesJustReady_ready).call (show 0xC0050000 < 2 ^ 32 by decide) trivial
      (eq_ok_of_value (by decide +kernel))
  have h₂ : HandleRun HandleCall.NonNegative twoHandles bothLive :=
    h₁.call (show 0xC0060000 < 2 ^ 32 by decide) trivial (eq_ok_of_value (by decide +kernel))
  have h₃ : HandleRun HandleCall.NonNegative oneHandle secondLive :=
    h₂.call ⟨by decide, by decide⟩ (Int.le_refl 0) (eq_ok_of_value (by decide +kernel))
  have htyped : (HandleCall.create 0xC0070000).Typed := show 0xC0070000 < 2 ^ 32 by decide
  obtain ⟨r, s', hexec, hmeets⟩ := handle_run_meets h₃ htyped trivial
  have hresult : ((HandleCall.create 0xC0070000).exec oneHandle).map Prod.fst =
      .ok (.handle 0) := by decide +kernel
  rw [hexec] at hresult
  obtain rfl : r = .handle 0 := Except.ok.inj hresult
  exact ⟨h₃, by decide, by decide, s', hexec, hmeets⟩

/-- `khandle_getObject (-1)` returns the word before the table. -/
theorem negative_handle_escapes :
    ¬ ∀ s live, HandleRun (fun _ => True) s live → ∀ call : HandleCall, call.Typed →
      ∃ r s', call.exec s = .ok (r, s') ∧ call.Meets live s s' r := by
  intro hall
  have hrun : HandleRun (fun _ => True) handlesJustReady fun _ => none :=
    .start handlesJustReady_ready
  obtain ⟨r, s', hexec, -, -, hmeets⟩ := hall _ _ hrun (.get (-1)) ⟨by decide, by decide⟩
  have hresult : ((HandleCall.get (-1)).exec handlesJustReady).map Prod.fst = .ok (.object 7) := by
    decide +kernel
  rw [hexec] at hresult
  obtain rfl : r = .object 7 := Except.ok.inj hresult
  exact absurd hmeets.1 (by decide)

end MeghaOS
