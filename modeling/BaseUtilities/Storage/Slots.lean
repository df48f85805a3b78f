import Mathlib.Data.List.Nodup

/-!
# Tables of slots

A fixed table is searched from the front and changed in one slot at a time.  What holds between the
slots of a table is a relation on pairs, which a change keeps where the new slot bears it to the others.
-/

namespace Storage

variable {τ : Type*} {R : τ → τ → Prop}

theorem pairwise_replace {pre post : List τ} {a b : τ} (h : (pre ++ a :: post).Pairwise R)
    (hpre : ∀ y ∈ pre, R y b) (hpost : ∀ y ∈ post, R b y) : (pre ++ b :: post).Pairwise R := by
  rw [List.pairwise_append, List.pairwise_cons] at h ⊢
  obtain ⟨h₁, ⟨_, h₂⟩, h₃⟩ := h
  refine ⟨h₁, ⟨hpost, h₂⟩, ?_⟩
  intro y hy z hz
  rcases List.mem_cons.mp hz with rfl | hz
  · exact hpre y hy
  · exact h₃ y hy z (List.mem_cons_of_mem _ hz)

theorem pairwise_set {l : List τ} {x : τ} (h : l.Pairwise R) (hx : ∀ y ∈ l, R y x ∧ R x y) (k : Nat) :
    (l.set k x).Pairwise R := by
  rcases Nat.lt_or_ge k l.length with hk | hk
  · have hsplit : l = l.take k ++ l[k] :: l.drop (k + 1) := by
      rw [List.getElem_cons_drop, List.take_append_drop]
    rw [List.set_eq_take_append_cons_drop, if_pos hk]
    rw [hsplit] at h
    refine pairwise_replace h ?_ ?_
    · intro y hy
      exact (hx y (List.mem_of_mem_take hy)).1
    · intro y hy
      exact (hx y (List.mem_of_mem_drop hy)).2
  · rwa [List.set_eq_of_length_le hk]

/-- Where more than one slot counts, one other than `a` does. -/
theorem exists_other {l : List τ} (hl : l.Nodup) {p : τ → Bool} (hcount : 1 < l.countP p) (a : τ) :
    ∃ b ∈ l, b ≠ a ∧ p b = true := by
  by_contra hnone
  have hsame : ∀ b ∈ l.filter p, b = a := by
    intro b hb
    obtain ⟨hmem, hp⟩ := List.mem_filter.mp hb
    by_contra hne
    exact hnone ⟨b, hmem, hne, hp⟩
  have hnodup := hl.filter p
  rw [List.eq_replicate_of_mem hsame, List.nodup_replicate, ← List.countP_eq_length_filter] at hnodup
  omega

theorem one_lt_countP {l : List τ} {p : τ → Bool} {a b : τ} (ha : a ∈ l) (hb : b ∈ l) (hne : a ≠ b)
    (hpa : p a = true) (hpb : p b = true) : 1 < l.countP p := by
  rw [List.countP_eq_length_filter]
  have ha' : a ∈ l.filter p := List.mem_filter.mpr ⟨ha, hpa⟩
  have hb' : b ∈ l.filter p := List.mem_filter.mpr ⟨hb, hpb⟩
  cases hl : l.filter p with
  | nil =>
    rw [hl] at ha'
    cases ha'
  | cons x rest =>
    cases rest with
    | nil =>
      rw [hl, List.mem_singleton] at ha' hb'
      exact absurd (ha'.trans hb'.symm) hne
    | cons y rest =>
      rw [List.length_cons, List.length_cons]
      omega

end Storage
