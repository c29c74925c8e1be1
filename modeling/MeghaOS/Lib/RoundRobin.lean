import Mathlib.Data.List.Chain
import Mathlib.Data.List.Nodup
import Mathlib.Data.List.Perm.Basic

/-!
# Taking turns

The members of a queue take turns. A turn passes over the members at the head of the queue that have
the key of the member whose turn was last, takes the next one, and moves all of them to the end of
the queue. A round, in which everybody has one turn, goes through exactly if neighbours in the queue
have different keys (`InTurn`).
-/

namespace MeghaOS

section

variable {α κ : Type} {key : α → κ} {k : κ} {l l' m ys : List α} {a b q : α}

/-- The members `ys` have their turns one after the other. The queue is `l` before and `l'` after
them, and `k` is the key of the member whose turn was last. -/
inductive Turns (key : α → κ) : κ → List α → List α → List α → Prop
  | done (k : κ) (l : List α) : Turns key k l [] l
  | turn {k : κ} {pre post ys l' : List α} {q : α} : (∀ x ∈ pre, key x = k) → key q ≠ k →
      Turns key (key q) (post ++ pre ++ [q]) ys l' → Turns key k (pre ++ q :: post) (q :: ys) l'

/-- A turn leaves the same members in the queue. -/
theorem turn_perm (pre post : List α) (q : α) : (post ++ pre ++ [q]).Perm (pre ++ q :: post) := by
  refine (List.perm_append_singleton q (post ++ pre)).trans ?_
  exact (List.Perm.cons q List.perm_append_comm).trans List.perm_middle.symm

/-- The member that has the next turn is the only one behind members with the key that has another
one. -/
theorem turn_unique {pre pre' post post' : List α} {q' : α}
    (heq : pre ++ q :: post = pre' ++ q' :: post')
    (hpre : ∀ x ∈ pre, key x = k) (hq : key q ≠ k) (hpre' : ∀ x ∈ pre', key x = k)
    (hq' : key q' ≠ k) :
    pre = pre' ∧ q = q' ∧ post = post' := by
  induction pre generalizing pre' with
  | nil =>
    cases pre' with
    | nil =>
      obtain ⟨rfl, rfl⟩ := List.cons.inj heq
      exact ⟨rfl, rfl, rfl⟩
    | cons x pre' =>
      obtain ⟨rfl, -⟩ := List.cons.inj heq
      exact absurd (hpre' q (.head _)) hq
  | cons x pre ih =>
    cases pre' with
    | nil =>
      obtain ⟨rfl, -⟩ := List.cons.inj heq
      exact absurd (hpre x (.head _)) hq'
    | cons x' pre' =>
      obtain ⟨rfl, htail⟩ := List.cons.inj heq
      obtain ⟨rfl, rfl, rfl⟩ := ih htail (fun y hy => hpre y (.tail _ hy)) fun y hy =>
        hpre' y (.tail _ hy)
      exact ⟨rfl, rfl, rfl⟩

/-- Only members of the queue have turns. -/
theorem Turns.mem (h : Turns key k l ys l') (ha : a ∈ ys) : a ∈ l := by
  induction h with
  | done k l => cases ha
  | turn _ _ _ ih =>
    rcases List.mem_cons.1 ha with rfl | ha
    · exact List.mem_append_right _ (.head _)
    · exact (turn_perm _ _ _).mem_iff.1 (ih ha)

/-- A turn of the head of the queue. -/
theorem Turns.head {post : List α} (hq : key q ≠ k) (h : Turns key (key q) (post ++ [q]) ys l') :
    Turns key k (q :: post) (q :: ys) l' := by
  refine .turn (fun _ hx => absurd hx List.not_mem_nil) hq ?_
  rwa [List.append_nil]

/-- A turn of the member behind the head, which is passed over. -/
theorem Turns.second {post : List α} (ha : key a = k) (hq : key q ≠ k)
    (h : Turns key (key q) (post ++ [a] ++ [q]) ys l') : Turns key k (a :: q :: post)
    (q :: ys) l' :=
  have hpre : ∀ x ∈ [a], key x = k := fun _ hx => List.mem_singleton.1 hx ▸ ha
  Turns.turn hpre hq h

/-- Everybody in the queue has a turn before anybody has two: neighbours have different keys, also
the last and the first one if the first one is passed over at first. -/
structure InTurn (key : α → κ) (k : κ) (l : List α) : Prop where
  neighbours : l.IsChain fun x y => key x ≠ key y
  wrap : ∀ x ∈ l.head?, key x = k → ∀ y ∈ l.getLast?, key y ≠ key x

/-- Neighbours with different keys have their turns in the order of the queue. -/
theorem turns_append (h : l.IsChain fun x y => key x ≠ key y) (hk : ∀ x ∈ l.head?, key x ≠ k)
    (m : List α) : Turns key k (l ++ m) l (m ++ l) := by
  induction l generalizing k m with
  | nil =>
    rw [List.nil_append, List.append_nil]
    exact .done k m
  | cons q l ih =>
    obtain ⟨hhead, htail⟩ := List.isChain_cons.1 h
    have hrest := ih htail (fun x hx => (hhead x hx).symm) (m ++ [q])
    rw [← List.append_assoc, List.append_assoc m, List.singleton_append] at hrest
    exact .head (hk q rfl) hrest

/-- A round goes through when it is in turn. -/
theorem InTurn.round (h : InTurn key k l) (hl : 2 ≤ l.length) :
    ∃ ys, ys.Perm l ∧ ∃ l', Turns key k l ys l' := by
  match l, hl with
  | x :: y :: rest, _ =>
    by_cases hx : key x = k
    · -- the first one is passed over and has its turn last
      obtain ⟨hhead, htail⟩ := List.isChain_cons.1 h.neighbours
      have hxy : key x ≠ key y := hhead y rfl
      have hlast : ∀ z ∈ (y :: rest).getLast?, key z ≠ key x := fun z hz => by
        refine h.wrap x rfl hx z ?_
        rwa [List.getLast?_cons_cons]
      have hchain : (rest ++ [x]).IsChain fun x y => key x ≠ key y := by
        refine List.isChain_append.2 ⟨htail.tail, List.isChain_singleton x, fun z hz w hw => ?_⟩
        cases hw
        refine hlast z ?_
        cases rest with
        | nil => cases hz
        | cons r rest => rwa [List.getLast?_cons_cons]
      have hround := turns_append hchain (k := key y) (fun z hz => ?_) [y]
      · refine ⟨y :: (rest ++ [x]), ?_, _, .second hx (hx ▸ hxy.symm) hround⟩
        exact (List.Perm.cons y (List.perm_append_singleton x rest)).trans (List.Perm.swap x y rest)
      · cases rest with
        | nil =>
          cases hz
          exact hxy
        | cons r rest =>
          cases hz
          exact ((List.isChain_cons.1 htail).1 z rfl).symm
    · have hround := turns_append h.neighbours (k := k) (fun z hz => by cases hz; exact hx) []
      rw [List.append_nil] at hround
      exact ⟨_, .refl _, _, hround⟩

/-- A member with a neighbour before it that has the same key. -/
inductive Behind (key : α → κ) (k : κ) (b : α) : List α → Prop
  | inside (u v : List α) {a : α} : key a = key b → Behind key k b (u ++ a :: b :: v)
  | wrapped (v : List α) {a : α} : key a = key b → k = key b → Behind key k b (b :: v ++ [a])

/-- Such a member is passed over whenever it is at the head of the queue. -/
theorem Behind.turn {pre post : List α} (h : Behind key k b l) (hl : l.Nodup)
    (hl' : l = pre ++ q :: post)
    (hpre : ∀ x ∈ pre, key x = k) (hq : key q ≠ k) :
    b ≠ q ∧ Behind key (key q) b (post ++ pre ++ [q]) := by
  -- it is not the next one, as this one has another key
  have hnext : ∀ {u v : List α} {a : α}, key a = key b → l = u ++ a :: b :: v → a ∈ pre → b ≠ q :=
    fun hab _ ha heq => hq (heq ▸ hab.symm.trans (hpre _ ha))
  cases h with
  | inside u v hab =>
    rename_i a
    rcases List.append_eq_append_iff.1 hl' with ⟨w, rfl, hw⟩ | ⟨w, rfl, hw⟩
    · cases w with
      | nil =>
        -- the next one is the neighbour
        obtain ⟨rfl, rfl⟩ := List.cons.inj (hw : a :: b :: v = q :: post)
        refine ⟨fun heq => ?_, ?_⟩
        · rw [heq] at hl
          exact (List.nodup_cons.1 hl.of_append_right).1 (.head _)
        · rw [List.append_nil, List.append_assoc]
          have hwrapped : Behind key (key a) b (b :: (v ++ u) ++ [a]) := .wrapped (v ++ u) hab hab
          rwa [List.cons_append, List.append_assoc] at hwrapped
      | cons a' w =>
        obtain ⟨rfl, hw₁⟩ := List.cons.inj (hw : a :: b :: v = a' :: (w ++ q :: post))
        refine ⟨hnext hab rfl (List.mem_append_right _ (.head _)), ?_⟩
        cases w with
        | nil =>
          obtain ⟨rfl, -⟩ := List.cons.inj (hw₁ : b :: v = q :: post)
          exact absurd (hab.symm.trans (hpre a (List.mem_append_right _ (.head _)))) hq
        | cons b' w =>
          obtain ⟨rfl, -⟩ := List.cons.inj (hw₁ : b :: v = b' :: (w ++ q :: post))
          have hinside : Behind key (key q) b ((post ++ u) ++ a :: b :: (w ++ [q])) :=
            .inside _ _ hab
          simpa only [List.append_assoc, List.cons_append] using hinside
    · cases w with
      | nil =>
        obtain ⟨rfl, rfl⟩ := List.cons.inj (hw : q :: post = a :: b :: v)
        rw [List.append_nil] at hl
        refine ⟨fun heq => ?_, ?_⟩
        · rw [heq] at hl
          exact (List.nodup_cons.1 hl.of_append_right).1 (.head _)
        · have hwrapped : Behind key (key q) b (b :: (v ++ pre) ++ [q]) :=
            .wrapped (v ++ pre) hab hab
          simpa only [List.append_assoc, List.cons_append] using hwrapped
      | cons q' w =>
        -- the next one comes before both
        obtain ⟨rfl, rfl⟩ := List.cons.inj (hw : q :: post = q' :: (w ++ a :: b :: v))
        refine ⟨fun heq => ?_, ?_⟩
        · rw [List.append_assoc, heq] at hl
          have hnodup : (q :: (w ++ a :: q :: v)).Nodup := hl.of_append_right
          exact (List.nodup_cons.1 hnodup).1 (List.mem_append_right _ (.tail _ (.head _)))
        · have hinside : Behind key (key q) b (w ++ a :: b :: (v ++ pre ++ [q])) := .inside _ _ hab
          have hform : w ++ a :: b :: v ++ pre ++ [q] = w ++ a :: b :: (v ++ pre ++ [q]) := by
            simp only [List.append_assoc, List.cons_append]
          exact hform ▸ hinside
  | wrapped v hab hk =>
    rename_i a
    have hbq : b ≠ q := fun heq => hq (heq ▸ hk.symm)
    refine ⟨hbq, ?_⟩
    cases pre with
    | nil =>
      obtain ⟨rfl, -⟩ := List.cons.inj (hl' : b :: (v ++ [a]) = q :: post)
      exact absurd rfl hbq
    | cons b' pre =>
      obtain ⟨rfl, hv⟩ := List.cons.inj (hl' : b :: (v ++ [a]) = b' :: (pre ++ q :: post))
      -- the last one is not the next one, as it has the key
      rcases List.eq_nil_or_concat post with rfl | ⟨post, a', rfl⟩
      · have hlast : a = q := List.append_singleton_inj.1 hv |>.2
        exact absurd (hlast ▸ hab.trans hk.symm) hq
      · have hv' : v ++ [a] = pre ++ q :: post ++ [a'] := by
          rw [List.concat_eq_append] at hv
          rw [List.append_assoc, List.cons_append]
          exact hv
        have hlast : a = a' := List.append_singleton_inj.1 hv' |>.2
        have hinside : Behind key (key q) b (post ++ a :: b :: (pre ++ [q])) := .inside _ _ hab
        rw [hlast] at hinside
        simpa only [List.concat_eq_append, List.append_assoc, List.cons_append, List.nil_append]
          using hinside

/-- Such a member never has a turn. -/
theorem Behind.notMem (h : Behind key k b l) (hl : l.Nodup) (hturns : Turns key k l ys l') :
    b ∉ ys := by
  induction hturns with
  | done k l => exact List.not_mem_nil
  | turn hpre hq _ ih =>
    obtain ⟨hbq, hbehind⟩ := h.turn hl rfl hpre hq
    rw [List.mem_cons, not_or]
    exact ⟨hbq, ih hbehind ((turn_perm _ _ _).nodup_iff.2 hl)⟩

/-- If everybody has a turn, the round is in turn. -/
theorem InTurn.of_turns (hl : l.Nodup) (htwo : 2 ≤ l.length) (hturns : Turns key k l ys l')
    (hall : ∀ x ∈ l, x ∈ ys) : InTurn key k l where
  neighbours := by
    refine List.isChain_iff_forall_rel_of_append_cons_cons.2 fun a b u v hsplit hab => ?_
    have hbehind : Behind key k b l := hsplit ▸ .inside u v hab
    exact hbehind.notMem hl hturns (hall b (by simp [hsplit]))
  wrap x hx hxk y hy hyx := by
    cases l with
    | nil => cases hx
    | cons b rest =>
      cases hx
      rcases List.eq_nil_or_concat rest with rfl | ⟨v, a, rfl⟩
      · simp at htwo
      · have hlast : y = a := by
          rw [List.concat_eq_append, ← List.cons_append, List.getLast?_concat] at hy
          exact (Option.some.inj hy).symm
        have hbehind : Behind key k x (x :: v.concat a) := by
          rw [List.concat_eq_append, ← List.cons_append]
          exact .wrapped v (hlast ▸ hyx) hxk.symm
        exact hbehind.notMem hl hturns (hall x (.head _))

end

end MeghaOS
