import Mathlib.Data.List.Basic
import Mathlib.Data.List.Nodup

/-!
# Families

A family is a set of members, each of which names its parent and lists its children. Members may be
marked as leaves, which have no children. `Family` says that the two directions agree; the
operations are those of intrusive lists: a member is taken out, put in, or moved from one list to
another.
-/

namespace MeghaOS

/-- What a member says of its relatives: its parent, the owner of the list it is in, its children,
and whether it may have any. -/
structure Kin (α : Type) where
  parent : Option α
  listedBy : Option α
  children : List α
  isLeaf : Bool

section

variable {α : Type} {kin kin' : α → Kin α} {L : List α} {p q r c : α}

/-- A member without a parent. -/
def IsRoot (kin : α → Kin α) (p : α) : Prop := (kin p).parent = none ∧ (kin p).listedBy = none

/-- A member in the list of its parent. -/
structure IsChild (kin : α → Kin α) (p q : α) : Prop where
  ne : p ≠ q
  parent : (kin p).parent = some q
  listedBy : (kin p).listedBy = some q
  mem : p ∈ (kin q).children

/-- The members of `L` agree about who is whose child, and one of them at most has no parent. -/
structure Family (kin : α → Kin α) (L : List α) : Prop where
  nodup : L.Nodup
  parent : ∀ p ∈ L, IsRoot kin p ∧ (kin p).isLeaf = false ∨ ∃ q ∈ L, IsChild kin p q
  childrenNodup : ∀ q ∈ L, (kin q).children.Nodup
  children : ∀ q ∈ L, ∀ p ∈ (kin q).children, p ∈ L ∧ (kin p).parent = some q
  leaf : ∀ p ∈ L, (kin p).isLeaf = true → (kin p).children = []
  root : ∀ p ∈ L, ∀ q ∈ L, IsRoot kin p → IsRoot kin q → p = q

namespace Family

theorem nil : Family kin [] where
  nodup := .nil
  parent _ h := by cases h
  childrenNodup _ h := by cases h
  children _ h := by cases h
  leaf _ h := by cases h
  root _ h := by cases h

/-- The family depends on its members alone. -/
theorem congr (h : Family kin L) (hk : ∀ p ∈ L, kin' p = kin p) : Family kin' L where
  nodup := h.nodup
  parent p hp := by
    rcases h.parent p hp with hroot | ⟨q, hq, hne, hparent, hlist, hmem⟩
    · left
      rwa [IsRoot, hk p hp]
    · refine .inr ⟨q, hq, hne, ?_, ?_, ?_⟩
      · rw [hk p hp, hparent]
      · rw [hk p hp, hlist]
      · rwa [hk q hq]
  childrenNodup q hq := by
    rw [hk q hq]
    exact h.childrenNodup q hq
  children q hq p hp := by
    rw [hk q hq] at hp
    obtain ⟨hmem, hparent⟩ := h.children q hq p hp
    exact ⟨hmem, by rw [hk p hmem, hparent]⟩
  leaf p hp hleaf := by
    rw [hk p hp] at hleaf ⊢
    exact h.leaf p hp hleaf
  root p hp q hq hrp hrq := by
    rw [IsRoot, hk p hp] at hrp
    rw [IsRoot, hk q hq] at hrq
    exact h.root p hp q hq hrp hrq

/-- The first member. -/
theorem singleton (hroot : IsRoot kin p) (hleaf : (kin p).isLeaf = false)
    (hchildren : (kin p).children = []) : Family kin [p] where
  nodup := List.nodup_singleton p
  parent q hq := by
    rw [List.mem_singleton.1 hq]
    exact .inl ⟨hroot, hleaf⟩
  childrenNodup q hq := by
    rw [List.mem_singleton.1 hq, hchildren]
    exact .nil
  children q hq c hc := by
    rw [List.mem_singleton.1 hq, hchildren] at hc
    cases hc
  leaf q hq _ := by rw [List.mem_singleton.1 hq, hchildren]
  root q hq r hr _ _ := (List.mem_singleton.1 hq).trans (List.mem_singleton.1 hr).symm

/-- A member with a parent is its child. -/
theorem isChild (h : Family kin L) (hp : p ∈ L) (hne : (kin p).parent ≠ none) :
    ∃ q ∈ L, IsChild kin p q := by
  rcases h.parent p hp with ⟨hroot, -⟩ | hchild
  · exact absurd hroot.1 hne
  · exact hchild

/-- A parent is no leaf. -/
theorem parent_not_leaf (h : Family kin L) (hq : q ∈ L) (hmem : p ∈ (kin q).children) :
    (kin q).isLeaf = false := by
  rw [Bool.eq_false_iff]
  intro hleaf
  rw [h.leaf q hq hleaf] at hmem
  cases hmem

/-- Whoever is listed by a member is its child. -/
theorem isChild_of_mem (h : Family kin L) (hq : q ∈ L) (hp : p ∈ (kin q).children) :
    IsChild kin p q := by
  obtain ⟨hmem, hparent⟩ := h.children q hq p hp
  obtain ⟨q', -, hchild⟩ := h.isChild hmem (by simp [hparent])
  obtain rfl : q' = q := Option.some.inj (hchild.parent.symm.trans hparent)
  exact hchild

/-- A child is listed by no other member than its parent. -/
theorem notMem_children (h : Family kin L) (hchild : IsChild kin p q) (hr : r ∈ L) (hne : r ≠ q) :
    p ∉ (kin r).children := fun hmem => by
  have hparent := (h.children r hr p hmem).2
  rw [hchild.parent] at hparent
  exact hne (Option.some.inj hparent).symm

variable [DecidableEq α]

/-- A member without children is taken out. -/
theorem unlink (h : Family kin L) (hchild : IsChild kin p q) (hleaf : (kin p).children = [])
    (hk : ∀ r ∈ L, r ≠ p → kin' r =
      if r = q then { kin q with children := (kin q).children.erase p } else kin r) :
    Family kin' (L.erase p) := by
  have hsub : ∀ {r}, r ∈ L.erase p → r ∈ L ∧ r ≠ p := fun hr =>
    ⟨List.mem_of_mem_erase hr, (h.nodup.mem_erase_iff.1 hr).1⟩
  have hmem : ∀ {r}, r ∈ L → r ≠ p → r ∈ L.erase p := fun hr hne =>
    h.nodup.mem_erase_iff.2 ⟨hne, hr⟩
  -- all that changes is the list of the parent
  have hsame : ∀ r ∈ L, r ≠ p → kin' r = { kin r with children := (kin r).children.erase p } := by
    intro r hr hrp
    rw [hk r hr hrp]
    split_ifs with hrq
    · rw [hrq]
    · rw [List.erase_of_not_mem (h.notMem_children hchild hr hrq)]
  refine
    { nodup := h.nodup.erase p
      parent := fun r hr => ?_
      childrenNodup := fun r hr => ?_
      children := fun r hr c hc => ?_
      leaf := fun r hr hthread => ?_
      root := fun r hr r' hr' h₁ h₂ => ?_ }
  · obtain ⟨hrL, hrp⟩ := hsub hr
    rcases h.parent r hrL with hroot | ⟨t, ht, hne, hparent, hlist, hin⟩
    · left
      rwa [IsRoot, hsame r hrL hrp]
    · have htp : t ≠ p := by
        rintro rfl
        rw [hleaf] at hin
        cases hin
      refine .inr ⟨t, hmem ht htp, hne, ?_, ?_, ?_⟩
      · rw [hsame r hrL hrp, hparent]
      · rw [hsame r hrL hrp, hlist]
      · rw [hsame t ht htp]
        exact (List.mem_erase_of_ne hrp).2 hin
  · obtain ⟨hrL, hrp⟩ := hsub hr
    rw [hsame r hrL hrp]
    exact (h.childrenNodup r hrL).erase p
  · obtain ⟨hrL, hrp⟩ := hsub hr
    rw [hsame r hrL hrp] at hc
    obtain ⟨hcp, hcr⟩ := (h.childrenNodup r hrL).mem_erase_iff.1 hc
    obtain ⟨hcL, hcparent⟩ := h.children r hrL c hcr
    exact ⟨hmem hcL hcp, by rw [hsame c hcL hcp, hcparent]⟩
  · obtain ⟨hrL, hrp⟩ := hsub hr
    rw [hsame r hrL hrp] at hthread ⊢
    rw [h.leaf r hrL hthread]
    rfl
  · obtain ⟨hrL, hrp⟩ := hsub hr
    obtain ⟨hrL', hrp'⟩ := hsub hr'
    rw [IsRoot, hsame r hrL hrp] at h₁
    rw [IsRoot, hsame r' hrL' hrp'] at h₂
    exact h.root r hrL r' hrL' h₁ h₂

/-- A new member becomes the last child of a member that is no leaf. -/
theorem link (h : Family kin L) (hp : p ∉ L) (hq : q ∈ L) (hqleaf : (kin q).isLeaf = false)
    (hparent : (kin' p).parent = some q) (hlist : (kin' p).listedBy = some q)
    (hchildren : (kin' p).children = [])
    (hk : ∀ r ∈ L, kin' r =
      if r = q then { kin q with children := (kin q).children ++ [p] } else kin r) :
    Family kin' (p :: L) := by
  have hrelated : ∀ r ∈ L, (kin' r).parent = (kin r).parent ∧
      (kin' r).listedBy = (kin r).listedBy ∧ (kin' r).isLeaf = (kin r).isLeaf := fun r hr => by
    rw [hk r hr]
    split_ifs with hrq
    · rw [hrq]
      exact ⟨rfl, rfl, rfl⟩
    · exact ⟨rfl, rfl, rfl⟩
  have hlists : ∀ r ∈ L, (kin' r).children =
      if r = q then (kin r).children ++ [p] else (kin r).children := fun r hr => by
    rw [hk r hr]
    split_ifs with hrq
    · rw [hrq]
    · rfl
  have hnew : ∀ r ∈ L, p ∉ (kin r).children := fun r hr hmem => hp (h.children r hr p hmem).1
  have hroot : ∀ r ∈ p :: L, IsRoot kin' r → r ∈ L ∧ IsRoot kin r := fun r hr hr' => by
    rcases List.mem_cons.1 hr with rfl | hrL
    · rw [IsRoot, hparent] at hr'
      cases hr'.1
    · obtain ⟨h₁, h₂, -⟩ := hrelated r hrL
      exact ⟨hrL, h₁ ▸ hr'.1, h₂ ▸ hr'.2⟩
  refine
    { nodup := List.nodup_cons.2 ⟨hp, h.nodup⟩
      parent := fun r hr => ?_
      childrenNodup := fun r hr => ?_
      children := fun r hr c hc => ?_
      leaf := fun r hr ht => ?_
      root := fun r hr r' hr' h₁ h₂ => h.root r (hroot r hr h₁).1 r' (hroot r' hr' h₂).1
        (hroot r hr h₁).2 (hroot r' hr' h₂).2 }
  · rcases List.mem_cons.1 hr with rfl | hrL
    · refine .inr ⟨q, .tail _ hq, fun heq => hp (heq ▸ hq), hparent, hlist, ?_⟩
      rw [hlists q hq, if_pos rfl]
      exact List.mem_append_right _ (List.mem_singleton.2 rfl)
    · obtain ⟨h₁, h₂, h₃⟩ := hrelated r hrL
      rcases h.parent r hrL with hroot | ⟨t, ht, hne, hparent, hlist, hin⟩
      · left
        rwa [IsRoot, h₁, h₂, h₃]
      · refine .inr ⟨t, .tail _ ht, hne, h₁.trans hparent, h₂.trans hlist, ?_⟩
        rw [hlists t ht]
        split_ifs
        · exact List.mem_append_left _ hin
        · exact hin
  · rcases List.mem_cons.1 hr with rfl | hrL
    · rw [hchildren]
      exact .nil
    · rw [hlists r hrL]
      split_ifs
      · exact (h.childrenNodup r hrL).append (List.nodup_singleton p)
          (List.disjoint_singleton.2 (hnew r hrL))
      · exact h.childrenNodup r hrL
  · rcases List.mem_cons.1 hr with rfl | hrL
    · rw [hchildren] at hc
      cases hc
    · have hold : c ∈ (kin r).children → c ∈ p :: L ∧ (kin' c).parent = some r := fun hc => by
        obtain ⟨hcL, hcparent⟩ := h.children r hrL c hc
        exact ⟨.tail _ hcL, (hrelated c hcL).1.trans hcparent⟩
      rw [hlists r hrL] at hc
      split_ifs at hc with hrq
      · rcases List.mem_append.1 hc with hc | hc
        · exact hold hc
        · rw [List.mem_singleton.1 hc, hrq]
          exact ⟨List.mem_cons_self, hparent⟩
      · exact hold hc
  · rcases List.mem_cons.1 hr with rfl | hrL
    · exact hchildren
    · rw [(hrelated r hrL).2.2] at ht
      have hrq : r ≠ q := by
        rintro rfl
        rw [hqleaf] at ht
        cases ht
      rw [hlists r hrL, if_neg hrq]
      exact h.leaf r hrL ht

/-- A child is moved to the list of another member that is no leaf. -/
theorem adopt (h : Family kin L) (hc : c ∈ L) (hq : q ∈ L) (hne : c ≠ q)
    (hqleaf : (kin q).isLeaf = false)
    (hk : ∀ r ∈ L, kin' r =
      { kin r with
        parent := if r = c then some q else (kin r).parent
        listedBy := if r = c then some q else (kin r).listedBy
        children := if r = q then (kin r).children.erase c ++ [c] else (kin r).children.erase c }) :
    Family kin' L := by
  have hlists : ∀ r ∈ L, (kin' r).children =
      if r = q then (kin r).children.erase c ++ [c] else (kin r).children.erase c := fun r hr => by
    rw [hk r hr]
  have hnew : ∀ r ∈ L, c ∉ (kin r).children.erase c := fun r hr =>
    (h.childrenNodup r hr).not_mem_erase
  have hroot : ∀ r ∈ L, IsRoot kin' r → IsRoot kin r := fun r hr hr' => by
    rw [IsRoot, hk r hr] at hr'
    by_cases hrc : r = c
    · rw [if_pos hrc] at hr'
      cases hr'.1
    · rwa [if_neg hrc, if_neg hrc] at hr'
  refine
    { nodup := h.nodup
      parent := fun r hr => ?_
      childrenNodup := fun r hr => ?_
      children := fun r hr d hd => ?_
      leaf := fun r hr ht => ?_
      root := fun r hr r' hr' h₁ h₂ => h.root r hr r' hr' (hroot r hr h₁) (hroot r' hr' h₂) }
  · by_cases hrc : r = c
    · subst hrc
      refine .inr ⟨q, hq, hne, ?_, ?_, ?_⟩
      · rw [hk r hr]
        exact if_pos rfl
      · rw [hk r hr]
        exact if_pos rfl
      · rw [hlists q hq, if_pos rfl]
        exact List.mem_append_right _ (List.mem_singleton.2 rfl)
    · rcases h.parent r hr with hroot | ⟨t, ht, hne, hparent, hlist, hin⟩
      · left
        simpa only [IsRoot, hk r hr, if_neg hrc] using hroot
      · refine .inr ⟨t, ht, hne, ?_, ?_, ?_⟩
        · rw [hk r hr]
          simpa only [if_neg hrc] using hparent
        · rw [hk r hr]
          simpa only [if_neg hrc] using hlist
        · have hkept := (List.mem_erase_of_ne hrc).2 hin
          rw [hlists t ht]
          split_ifs
          · exact List.mem_append_left _ hkept
          · exact hkept
  · rw [hlists r hr]
    split_ifs
    · exact ((h.childrenNodup r hr).erase c).append (List.nodup_singleton c)
        (List.disjoint_singleton.2 (hnew r hr))
    · exact (h.childrenNodup r hr).erase c
  · have hold : d ∈ (kin r).children.erase c → d ∈ L ∧ (kin' d).parent = some r := fun hd => by
      obtain ⟨hdc, hdr⟩ := (h.childrenNodup r hr).mem_erase_iff.1 hd
      obtain ⟨hdL, hparent⟩ := h.children r hr d hdr
      refine ⟨hdL, ?_⟩
      rw [hk d hdL]
      simpa only [if_neg hdc] using hparent
    rw [hlists r hr] at hd
    split_ifs at hd with hrq
    · rcases List.mem_append.1 hd with hd | hd
      · exact hold hd
      · rw [List.mem_singleton.1 hd, hrq]
        refine ⟨hc, ?_⟩
        rw [hk c hc]
        exact if_pos rfl
    · exact hold hd
  · have ht' : (kin r).isLeaf = true := by
      rw [hk r hr] at ht
      exact ht
    have hrq : r ≠ q := by
      rintro rfl
      rw [hqleaf] at ht'
      cases ht'
    rw [hlists r hr, if_neg hrq, h.leaf r hr ht']
    rfl

end Family

end

end MeghaOS
