import Mathlib.Logic.Function.Basic

/-!
# What a table of cells stands for

A store keeps the values of its keys in cells, at most one of which is live for a key.  `Stands` relates
which cells are live to the map that the store stands for; the rules say what to remove or to add a live
cell does to the map.
-/

namespace Storage

variable {ι κ ν : Type*}

/-- `Stands live m`: the live cells hold the pairs of `m`, each in one place. -/
structure Stands (live : ι → κ → ν → Prop) (m : κ → Option ν) : Prop where
  mem : ∀ k v, m k = some v ↔ ∃ x, live x k v
  unique : ∀ x y k v v', live x k v → live y k v' → x = y
  single : ∀ x k k' v v', live x k v → live x k' v' → k = k'

variable {live live' : ι → κ → ν → Prop} {m : κ → Option ν}

namespace Stands

theorem congr (h : Stands live m) (hlive : ∀ x k v, live' x k v ↔ live x k v) : Stands live' m := by
  have heq : live' = live := funext fun x => funext fun k => funext fun v => propext (hlive x k v)
  rwa [heq]

theorem lookup {x : ι} {k : κ} {v : ν} (h : Stands live m) (hx : live x k v) : m k = some v :=
  (h.mem k v).mpr ⟨x, hx⟩

theorem absent {k : κ} (h : Stands live m) (hk : m k = none) (x : ι) (v : ν) : ¬ live x k v := by
  intro hx
  rw [h.lookup hx] at hk
  cases hk

theorem lookup_none {k : κ} (h : Stands live m) (hk : ∀ x v, ¬ live x k v) : m k = none := by
  cases hm : m k with
  | none => rfl
  | some v =>
    obtain ⟨x, hx⟩ := (h.mem k v).mp hm
    exact absurd hx (hk x v)

variable [DecidableEq κ]

/-- A live cell is no longer live: its key is gone. -/
theorem remove {x : ι} {k : κ} {v : ν} (h : Stands live m) (hx : live x k v)
    (hlive : ∀ y k' v', live' y k' v' ↔ live y k' v' ∧ y ≠ x) :
    Stands live' (Function.update m k none) where
  mem k' v' := by
    by_cases hk : k' = k
    · subst hk
      rw [Function.update_self]
      constructor
      · intro hnone
        cases hnone
      · rintro ⟨y, hy⟩
        obtain ⟨hy, hne⟩ := (hlive _ _ _).mp hy
        exact absurd (h.unique y x k' v' v hy hx) hne
    · rw [Function.update_of_ne hk, h.mem]
      constructor
      · rintro ⟨y, hy⟩
        refine ⟨y, (hlive _ _ _).mpr ⟨hy, ?_⟩⟩
        rintro rfl
        exact hk (h.single y k' k v' v hy hx)
      · rintro ⟨y, hy⟩
        exact ⟨y, ((hlive _ _ _).mp hy).1⟩
  unique y z k' v₁ v₂ hy hz := h.unique y z k' v₁ v₂ ((hlive _ _ _).mp hy).1 ((hlive _ _ _).mp hz).1
  single y k₁ k₂ v₁ v₂ hy hz := h.single y k₁ k₂ v₁ v₂ ((hlive _ _ _).mp hy).1 ((hlive _ _ _).mp hz).1

/-- A cell becomes live for a key that is not in the map. -/
theorem insert {x : ι} {k : κ} {v : ν} (h : Stands live m) (hk : m k = none) (hx : ∀ k v, ¬ live x k v)
    (hlive : ∀ y k' v', live' y k' v' ↔ live y k' v' ∨ y = x ∧ k' = k ∧ v' = v) :
    Stands live' (Function.update m k (some v)) where
  mem k' v' := by
    by_cases hkk : k' = k
    · subst hkk
      rw [Function.update_self]
      constructor
      · intro hsome
        exact ⟨x, (hlive _ _ _).mpr (.inr ⟨rfl, rfl, (Option.some.inj hsome).symm⟩)⟩
      · rintro ⟨y, hy⟩
        rcases (hlive _ _ _).mp hy with hy | ⟨_, _, rfl⟩
        · exact absurd hy (h.absent hk y v')
        · rfl
    · rw [Function.update_of_ne hkk, h.mem]
      constructor
      · rintro ⟨y, hy⟩
        exact ⟨y, (hlive _ _ _).mpr (.inl hy)⟩
      · rintro ⟨y, hy⟩
        rcases (hlive _ _ _).mp hy with hy | ⟨_, heq, _⟩
        · exact ⟨y, hy⟩
        · exact absurd heq hkk
  unique y z k' v₁ v₂ hy hz := by
    rcases (hlive _ _ _).mp hy with hy | ⟨rfl, rfl, rfl⟩ <;> rcases (hlive _ _ _).mp hz with hz | ⟨rfl, hz, rfl⟩
    · exact h.unique y z k' v₁ v₂ hy hz
    · exact absurd (hz ▸ hy) (h.absent hk y v₁)
    · exact absurd hz (h.absent hk z v₂)
    · rfl
  single y k₁ k₂ v₁ v₂ hy hz := by
    rcases (hlive _ _ _).mp hy with hy | ⟨rfl, rfl, rfl⟩ <;> rcases (hlive _ _ _).mp hz with hz | ⟨hyx, hz, rfl⟩
    · exact h.single y k₁ k₂ v₁ v₂ hy hz
    · exact absurd (hyx ▸ hy) (hx k₁ v₁)
    · exact absurd hz (hx k₂ v₂)
    · exact hz.symm

/-- A live cell gives way to another one of its key. -/
theorem replace {x x' : ι} {k : κ} {v v' : ν} (h : Stands live m) (hx : live x k v)
    (hx' : ∀ k v, ¬ live x' k v)
    (hlive : ∀ y k₁ v₁, live' y k₁ v₁ ↔ live y k₁ v₁ ∧ y ≠ x ∨ y = x' ∧ k₁ = k ∧ v₁ = v') :
    Stands live' (Function.update m k (some v')) := by
  have hremoved : Stands (fun y k₁ v₁ => live y k₁ v₁ ∧ y ≠ x) (Function.update m k none) :=
    h.remove hx fun _ _ _ => Iff.rfl
  have hinserted := hremoved.insert (Function.update_self _ _ _) (fun k₁ v₁ hy => hx' k₁ v₁ hy.1) hlive
  rwa [Function.update_idem] at hinserted

/-- A live cell gives way to another one of its key and value. -/
theorem move {x x' : ι} {k : κ} {v : ν} (h : Stands live m) (hx : live x k v) (hx' : ∀ k v, ¬ live x' k v)
    (hlive : ∀ y k₁ v₁, live' y k₁ v₁ ↔ live y k₁ v₁ ∧ y ≠ x ∨ y = x' ∧ k₁ = k ∧ v₁ = v) :
    Stands live' m := by
  have hreplaced := h.replace hx hx' hlive
  rwa [← h.lookup hx, Function.update_eq_self] at hreplaced

end Stands

end Storage
