import BaseUtilities.FlashDb.Iterations

/-!
# FlashDB: entries and their addresses

Where the entries of the sectors are, and what becomes of that when an entry is added behind the others,
when its status changes and when a sector is erased.
-/

open Effects Mem Kv Storage

namespace FlashDb

variable {G : Geometry} {w : Flash G} {A : Nat → Sector} {i : Nat} {db db' : Kvdb}

/-! ## Entries and addresses -/

theorem entries_split {pre pre' post post' : List Entry} {e e' : Entry}
    (h : pre ++ e :: post = pre' ++ e' :: post') (hused : used pre = used pre') :
    pre = pre' ∧ e = e' ∧ post = post' := by
  induction pre generalizing pre' with
  | nil =>
    cases pre' with
    | nil => exact ⟨rfl, List.cons.inj h⟩
    | cons d pre' =>
      have hge := d.size_ge
      have hkv : KV_HDR_DATA_SIZE = 24 := rfl
      rw [used_nil, used_cons] at hused
      omega
  | cons d pre ih =>
    cases pre' with
    | nil =>
      have hge := d.size_ge
      have hkv : KV_HDR_DATA_SIZE = 24 := rfl
      rw [used_nil, used_cons] at hused
      omega
    | cons d' pre' =>
      obtain ⟨rfl, htail⟩ := List.cons.inj h
      rw [used_cons, used_cons] at hused
      obtain ⟨rfl, heq⟩ := ih htail (by omega)
      exact ⟨rfl, heq⟩

/-- There is one entry at an address, in one place. -/
theorem Stored.place_unique (h : Stored w A) {j : Nat} (hi : i < G.count) (hj : j < G.count)
    {pre post pre' post' : List Entry} {e e' : Entry} (hentries : (A i).entries = pre ++ e :: post)
    (hentries' : (A j).entries = pre' ++ e' :: post')
    (haddr : G.addr i (SECTOR_HDR_DATA_SIZE + used pre) = G.addr j (SECTOR_HDR_DATA_SIZE + used pre')) :
    i = j ∧ pre = pre' ∧ e = e' ∧ post = post' := by
  have hroom := h.entry_room hi hentries
  have hroom' := h.entry_room hj hentries'
  obtain ⟨rfl, hoff⟩ := Geometry.addr_inj (by omega) (by omega) haddr
  exact ⟨rfl, entries_split (hentries.symm.trans hentries') (by omega)⟩

theorem Stored.at_unique (h : Stored w A) {a : Nat} {e e' : Entry} (he : At G A a e) (he' : At G A a e') :
    e = e' := by
  obtain ⟨i, hi, pre, post, hentries, rfl⟩ := he
  obtain ⟨j, hj, pre', post', hentries', haddr⟩ := he'
  exact (h.place_unique hi hj hentries hentries' haddr).2.2.1

/-- The entry at an address of the sector `i`. -/
def AtIn (G : Geometry) (S : Sector) (i a : Nat) (e : Entry) : Prop :=
  ∃ pre post, S.entries = pre ++ e :: post ∧ a = G.addr i (SECTOR_HDR_DATA_SIZE + used pre)

/-! ## Changes of a sector -/

theorem atIn_append {S : Sector} {d : DirtyStatus} {a : Nat} {e e' : Entry} :
    AtIn G ⟨d, S.entries ++ [e]⟩ i a e' ↔ AtIn G S i a e' ∨ a = G.addr i S.stop ∧ e' = e := by
  constructor
  · rintro ⟨pre, post, hentries, rfl⟩
    rcases List.eq_nil_or_concat' post with rfl | ⟨post, l, rfl⟩
    · obtain ⟨rfl, heq⟩ := List.append_inj' hentries rfl
      exact .inr ⟨rfl, (List.cons.inj heq).1.symm⟩
    · refine .inl ⟨pre, post, ?_, rfl⟩
      have hsplit : S.entries ++ [e] = (pre ++ e' :: post) ++ [l] := by
        rw [List.append_assoc]
        exact hentries
      exact (List.append_inj' hsplit rfl).1
  · rintro (⟨pre, post, hentries, rfl⟩ | ⟨rfl, rfl⟩)
    · exact ⟨pre, post ++ [e], by rw [hentries, List.append_assoc]; rfl, rfl⟩
    · exact ⟨S.entries, [], rfl, rfl⟩

theorem at_append {d : DirtyStatus} {a : Nat} {e x : Entry} (hi : i < G.count) :
    At G (Function.update A i ⟨d, (A i).entries ++ [e]⟩) a x ↔
      At G A a x ∨ a = G.addr i (A i).stop ∧ x = e := by
  constructor
  · rintro ⟨j, hj, hat⟩
    by_cases hji : j = i
    · subst hji
      rw [Function.update_self] at hat
      rcases atIn_append.mp hat with hat | heq
      · exact .inl ⟨j, hj, hat⟩
      · exact .inr heq
    · rw [Function.update_of_ne hji] at hat
      exact .inl ⟨j, hj, hat⟩
  · rintro (⟨j, hj, hat⟩ | heq)
    · refine ⟨j, hj, ?_⟩
      by_cases hji : j = i
      · subst hji
        rw [Function.update_self]
        exact atIn_append.mpr (.inl hat)
      · rwa [Function.update_of_ne hji]
    · refine ⟨i, hi, ?_⟩
      rw [Function.update_self]
      exact atIn_append.mpr (.inr heq)

/-- An entry is replaced by one of its size. -/
theorem Stored.at_replace (h : Stored w A) (hi : i < G.count) {pre post : List Entry} {e e₁ : Entry}
    (hentries : (A i).entries = pre ++ e :: post) (hsize : e₁.size = e.size) {d : DirtyStatus} {a : Nat}
    {e' : Entry} :
    At G (Function.update A i ⟨d, pre ++ e₁ :: post⟩) a e' ↔
      At G A a e' ∧ a ≠ G.addr i (SECTOR_HDR_DATA_SIZE + used pre) ∨
        a = G.addr i (SECTOR_HDR_DATA_SIZE + used pre) ∧ e' = e₁ := by
  have hplace : ∀ j < G.count, ∀ pre' e' post', (A j).entries = pre' ++ e' :: post' →
      G.addr j (SECTOR_HDR_DATA_SIZE + used pre') = G.addr i (SECTOR_HDR_DATA_SIZE + used pre) →
        j = i ∧ pre' = pre := by
    intro j hj pre' e' post' hentries' haddr
    obtain ⟨rfl, rfl, _⟩ := h.place_unique hj hi hentries' hentries haddr
    exact ⟨rfl, rfl⟩
  constructor
  · rintro ⟨j, hj, pre', post', hentries', rfl⟩
    by_cases hji : j = i
    · subst hji
      rw [Function.update_self] at hentries'
      dsimp only at hentries'
      -- The place is in front of the entry that is replaced, there, or behind it.
      rcases List.append_eq_append_iff.mp hentries' with ⟨mid, rfl, hmid⟩ | ⟨mid, rfl, hmid⟩
      · cases mid with
        | nil =>
          obtain ⟨rfl, rfl⟩ := List.cons.inj hmid
          exact .inr ⟨by rw [List.append_nil], rfl⟩
        | cons x mid =>
          obtain ⟨rfl, rfl⟩ := List.cons.inj hmid
          refine .inl ⟨⟨j, hj, pre ++ e :: mid, post', by rw [hentries, List.append_assoc]; rfl, ?_⟩, ?_⟩
          · rw [used_append, used_append, used_cons, used_cons, hsize]
          · intro haddr
            have hge := e₁.size_ge
            have hkv : KV_HDR_DATA_SIZE = 24 := rfl
            simp only [Geometry.addr, used_append, used_cons] at haddr
            omega
      · cases mid with
        | nil =>
          obtain ⟨rfl, rfl⟩ := List.cons.inj hmid
          exact .inr ⟨by rw [List.append_nil], rfl⟩
        | cons x mid =>
          obtain ⟨rfl, rfl⟩ := List.cons.inj hmid
          refine .inl ⟨⟨j, hj, pre', mid ++ e :: post, by rw [hentries, List.append_assoc]; rfl, rfl⟩, ?_⟩
          intro haddr
          have hge := e'.size_ge
          have hkv : KV_HDR_DATA_SIZE = 24 := rfl
          simp only [Geometry.addr, used_append, used_cons] at haddr
          omega
    · rw [Function.update_of_ne hji] at hentries'
      exact .inl ⟨⟨j, hj, pre', post', hentries', rfl⟩, fun haddr => hji (hplace j hj _ _ _ hentries' haddr).1⟩
  · rintro (⟨⟨j, hj, pre', post', hentries', rfl⟩, hne⟩ | ⟨rfl, rfl⟩)
    · by_cases hji : j = i
      · subst hji
        rw [hentries] at hentries'
        refine ⟨j, hj, ?_⟩
        rw [Function.update_self]
        rcases List.append_eq_append_iff.mp hentries' with ⟨mid, rfl, hmid⟩ | ⟨mid, rfl, hmid⟩
        · cases mid with
          | nil => exact absurd (by rw [List.append_nil]) hne
          | cons x mid =>
            obtain ⟨rfl, rfl⟩ := List.cons.inj hmid
            refine ⟨pre ++ e₁ :: mid, post', by simp, ?_⟩
            rw [used_append, used_append, used_cons, used_cons, hsize]
        · cases mid with
          | nil => exact absurd (by rw [List.append_nil]) hne
          | cons x mid =>
            obtain ⟨rfl, rfl⟩ := List.cons.inj hmid
            exact ⟨pre', mid ++ e₁ :: post, by simp, rfl⟩
      · refine ⟨j, hj, pre', post', ?_, rfl⟩
        rwa [Function.update_of_ne hji]
    · refine ⟨i, hi, pre, post, ?_, rfl⟩
      rw [Function.update_self]

/-- A sector is erased. -/
theorem at_wipe {d : DirtyStatus} {a : Nat} {e : Entry} :
    At G (Function.update A i ⟨d, []⟩) a e ↔ ∃ j < G.count, j ≠ i ∧ AtIn G (A j) j a e := by
  constructor
  · rintro ⟨j, hj, pre, post, hentries, rfl⟩
    by_cases hji : j = i
    · subst hji
      rw [Function.update_self] at hentries
      exact absurd hentries (by simp)
    · rw [Function.update_of_ne hji] at hentries
      exact ⟨j, hj, hji, pre, post, hentries, rfl⟩
  · rintro ⟨j, hj, hji, pre, post, hentries, rfl⟩
    refine ⟨j, hj, pre, post, ?_, rfl⟩
    rwa [Function.update_of_ne hji]

/-- Only the mark of a sector changes. -/
theorem at_mark {d : DirtyStatus} {a : Nat} {e : Entry} :
    At G (Function.update A i ⟨d, (A i).entries⟩) a e ↔ At G A a e := by
  have hentries : ∀ j, (Function.update A i ⟨d, (A i).entries⟩ j).entries = (A j).entries := by
    intro j
    by_cases hji : j = i
    · subst hji
      rw [Function.update_self]
    · rw [Function.update_of_ne hji]
  simp only [At, hentries]

end FlashDb
