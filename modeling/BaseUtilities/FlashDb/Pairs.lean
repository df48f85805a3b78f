import BaseUtilities.FlashDb.Allocation

/-!
# FlashDB: the pairs of a database

What the map that a database stands for becomes when a node is added, deleted, or deleted for another one.
-/

open Effects Mem Kv Storage

namespace FlashDb

variable {G : Geometry} {w w' : Flash G} {A : Nat → Sector} {i j : Nat} {pre post post' : List Entry}
  {e e' : Entry} {K : Name → Prop}

/-- Nothing is where a sector ends. -/
theorem Stored.not_at_stop (h : Stored w A) (hi : i < G.count) (e : Entry) :
    ¬ At G A (G.addr i (A i).stop) e := by
  rintro ⟨j, hj, pre, post, hentries, haddr⟩
  have hroom := h.entry_room hj hentries
  have hge := e.size_ge
  have hkv : KV_HDR_DATA_SIZE = 24 := rfl
  obtain ⟨rfl, hstop⟩ := Geometry.addr_inj (h.wf i hi).stop_lt (by omega) haddr
  rw [Sector.stop, hentries, used_append, used_cons] at hstop
  omega

theorem deletion_self {f : Fate} :
    deletion A i pre e post f i = ⟨soiled (A i).dirty, pre ++ e.withFate f :: post⟩ :=
  Function.update_self _ _ _

theorem deletion_other {f : Fate} (hji : j ≠ i) :
    deletion A i pre e post f j = A j :=
  Function.update_of_ne hji _ _

/-- The marks tell where nodes have been deleted. -/
def Marked (G : Geometry) (A : Nat → Sector) : Prop :=
  ∀ i < G.count, (A i).dirty = .clean → ∀ e ∈ (A i).entries, e.fate = .write

theorem Marked.update (h : Marked G A) {S : Sector} (hS : S.dirty = .clean → ∀ e ∈ S.entries, e.fate = .write) :
    Marked G (Function.update A i S) := by
  intro j hj
  by_cases hji : j = i
  · subst hji
    rw [Function.update_self]
    exact hS
  · rw [Function.update_of_ne hji]
    exact h j hj

theorem soiled_ne_clean (d : DirtyStatus) : soiled d ≠ .clean := by
  cases d <;> decide

/-! ## A node that is deleted -/

theorem live_deletion (h : Stored w A) (hi : i < G.count)
    (hentries : (A i).entries = pre ++ e :: post) {f : Fate} (hf : f ≠ .write) (a : Nat) (k : Name) (v : Bytes) :
    Live G (deletion A i pre e post f) a k v ↔
      Live G A a k v ∧ a ≠ G.addr i (SECTOR_HDR_DATA_SIZE + used pre) := by
  constructor
  · rintro ⟨e', hat, hwrite, hname, hvalue⟩
    rcases (at_deletion h hi hentries).mp hat with ⟨hat, hne⟩ | ⟨_, rfl⟩
    · exact ⟨⟨e', hat, hwrite, hname, hvalue⟩, hne⟩
    · exact absurd hwrite hf
  · rintro ⟨⟨e', hat, hwrite, hname, hvalue⟩, hne⟩
    exact ⟨e', (at_deletion h hi hentries).mpr (.inl ⟨hat, hne⟩), hwrite, hname, hvalue⟩

theorem NamedIn.deletion (hK : NamedIn G A K) (h : Stored w A) (hi : i < G.count)
    (hentries : (A i).entries = pre ++ e :: post) (hname : K e.name) (f : Fate) :
    NamedIn G (deletion A i pre e post f) K := by
  intro a e' hat hfate
  rcases (at_deletion h hi hentries).mp hat with ⟨hat, _⟩ | ⟨_, rfl⟩
  · exact hK a e' hat hfate
  · exact hname

theorem Settled.deletion (hsettled : Settled G A) (h : Stored w A) (hi : i < G.count)
    (hentries : (A i).entries = pre ++ e :: post) :
    Settled G (deletion A i pre e post .deleted) := by
  intro a e' hat
  rcases (at_deletion h hi hentries).mp hat with ⟨hat, _⟩ | ⟨_, rfl⟩
  · exact hsettled a e' hat
  · exact Fate.noConfusion

theorem Marked.deletion (h : Marked G A) (pre : List Entry) (e : Entry) (post : List Entry) (f : Fate) :
    Marked G (deletion A i pre e post f) :=
  h.update fun hclean => absurd hclean (soiled_ne_clean _)

/-! ## A node that is added -/

theorem live_addition (hi : i < G.count) (hfate : e.fate = .write) (a : Nat) (k : Name) (v : Bytes) :
    Live G (addition A i e) a k v ↔
      Live G A a k v ∨ a = G.addr i (A i).stop ∧ k = e.name ∧ v = e.value := by
  constructor
  · rintro ⟨e', hat, hwrite, rfl, rfl⟩
    rcases (at_append hi).mp hat with hat | ⟨rfl, rfl⟩
    · exact .inl ⟨e', hat, hwrite, rfl, rfl⟩
    · exact .inr ⟨rfl, rfl, rfl⟩
  · rintro (⟨e', hat, hwrite, hname, hvalue⟩ | ⟨rfl, rfl, rfl⟩)
    · exact ⟨e', (at_append hi).mpr (.inl hat), hwrite, hname, hvalue⟩
    · exact ⟨e, (at_append hi).mpr (.inr ⟨rfl, rfl⟩), hfate, rfl, rfl⟩

theorem NamedIn.addition (hK : NamedIn G A K) (hi : i < G.count) (hname : K e.name) :
    NamedIn G (addition A i e) K := by
  intro a e' hat hfate
  rcases (at_append hi).mp hat with hat | ⟨_, rfl⟩
  · exact hK a e' hat hfate
  · exact hname

theorem Settled.addition (hsettled : Settled G A) (hi : i < G.count) (hfate : e.fate ≠ .preDelete) :
    Settled G (addition A i e) := by
  intro a e' hat
  rcases (at_append hi).mp hat with hat | ⟨_, rfl⟩
  · exact hsettled a e' hat
  · exact hfate

theorem Marked.addition (h : Marked G A) (hfate : e.fate = .write) : Marked G (addition A i e) := by
  intro j hj hclean x hx
  by_cases hji : j = i
  · subst hji
    rw [addition_self] at hclean hx
    rcases List.mem_append.mp hx with hx | hx
    · exact h j hj hclean x hx
    · rw [List.mem_singleton.mp hx]
      exact hfate
  · rw [addition_other _ hji] at hclean hx
    exact h j hj hclean x hx

/-! ## A node that gives way to another one -/

/-- The sectors after the node `e` of the sector `j` has been deleted for the new node `e'` of the sector `i`.
In between the old node is neither in use nor deleted. -/
def succession (A : Nat → Sector) (i : Nat) (e' : Entry) (j : Nat) (pre : List Entry) (e : Entry)
    (post post' : List Entry) : Nat → Sector :=
  deletion (addition (deletion A j pre e post .preDelete) i e') j pre (e.withFate .preDelete) post' .deleted

theorem deletion_stop (hentries : (A j).entries = pre ++ e :: post) (f : Fate) (i : Nat) :
    (deletion A j pre e post f i).stop = (A i).stop := by
  by_cases hij : i = j
  · subst hij
    rw [deletion_self]
    exact Sector.refated_stop hentries
  · rw [deletion_other hij]

theorem marked_succession (hfate : e'.fate = .write) (hmarks : Marked G A) :
    Marked G (succession A i e' j pre e post post') :=
  ((hmarks.deletion pre e post .preDelete).addition hfate).deletion pre _ post' .deleted

section Succession

variable (h : Stored w A) (h' : Stored w' (addition (deletion A j pre e post .preDelete) i e'))
  (hi : i < G.count) (hj : j < G.count) (hentries : (A j).entries = pre ++ e :: post)
  (hentries' : (addition (deletion A j pre e post .preDelete) i e' j).entries =
    pre ++ e.withFate .preDelete :: post')
  (hfate : e'.fate = .write)

include h h' hi hj hentries hentries' hfate

theorem at_succession (a : Nat) (x : Entry) : At G (succession A i e' j pre e post post') a x ↔
    At G A a x ∧ a ≠ G.addr j (SECTOR_HDR_DATA_SIZE + used pre) ∨ a = G.addr i (A i).stop ∧ x = e' ∨
      a = G.addr j (SECTOR_HDR_DATA_SIZE + used pre) ∧ x = e.withFate .deleted := by
  have hstop := deletion_stop hentries .preDelete i
  have hlast := at_append (A := deletion A j pre e post .preDelete) (d := (deletion A j pre e post .preDelete i).dirty)
    (a := a) (e := e') (x := x) hi
  rw [hstop] at hlast
  rw [succession, at_deletion h' hj hentries']
  show At G (addition _ i e') a x ∧ _ ∨ _ ↔ _
  rw [addition, hlast, at_deletion h hj hentries]
  constructor
  · rintro (⟨(hat | ⟨rfl, rfl⟩) | hnew, hne⟩ | hold)
    · exact .inl hat
    · exact absurd rfl hne
    · exact .inr (.inl hnew)
    · exact .inr (.inr hold)
  · rintro (hat | ⟨rfl, rfl⟩ | hold)
    · exact .inl ⟨.inl (.inl hat), hat.2⟩
    · refine .inl ⟨.inr ⟨rfl, rfl⟩, fun heq => ?_⟩
      exact h.not_at_stop hi e (heq ▸ ⟨j, hj, pre, post, hentries, rfl⟩)
    · exact .inr hold

theorem live_succession (a : Nat) (k : Name) (v : Bytes) : Live G (succession A i e' j pre e post post') a k v ↔
    Live G A a k v ∧ a ≠ G.addr j (SECTOR_HDR_DATA_SIZE + used pre) ∨
      a = G.addr i (A i).stop ∧ k = e'.name ∧ v = e'.value := by
  have hiff := at_succession h h' hi hj hentries hentries' hfate a
  constructor
  · rintro ⟨x, hat, hwrite, rfl, rfl⟩
    rcases (hiff x).mp hat with ⟨hat, hne⟩ | ⟨rfl, rfl⟩ | ⟨_, rfl⟩
    · exact .inl ⟨⟨x, hat, hwrite, rfl, rfl⟩, hne⟩
    · exact .inr ⟨rfl, rfl, rfl⟩
    · cases hwrite
  · rintro (⟨⟨x, hat, hwrite, hname, hvalue⟩, hne⟩ | ⟨rfl, rfl, rfl⟩)
    · exact ⟨x, (hiff x).mpr (.inl ⟨hat, hne⟩), hwrite, hname, hvalue⟩
    · exact ⟨e', (hiff e').mpr (.inr (.inl ⟨rfl, rfl⟩)), hfate, rfl, rfl⟩

theorem settled_succession (hsettled : Settled G A) : Settled G (succession A i e' j pre e post post') := by
  intro a x hat
  rcases (at_succession h h' hi hj hentries hentries' hfate a x).mp hat with ⟨hat, _⟩ | ⟨_, rfl⟩ | ⟨_, rfl⟩
  · exact hsettled a x hat
  · rw [hfate]
    exact Fate.noConfusion
  · exact Fate.noConfusion

theorem namedIn_succession (hnamed : NamedIn G A K) (hname : K e'.name) :
    NamedIn G (succession A i e' j pre e post post') K := by
  intro a x hat hx
  rcases (at_succession h h' hi hj hentries hentries' hfate a x).mp hat with ⟨hat, _⟩ | ⟨_, rfl⟩ | ⟨_, rfl⟩
  · exact hnamed a x hat hx
  · exact hname
  · exact absurd rfl hx

end Succession

end FlashDb
