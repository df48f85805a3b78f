import Mathlib.Logic.Function.Basic

/-!
# Owners

Owners of which each holds at most one resource, as objects do that can be moved.  `Owned` says that
nothing is held twice and that what is held is what is open.  It is kept when a resource is acquired,
released or moved from one owner to another.
-/

namespace Effects

variable {A H R : Type}

/-- What the objects that exist hold. -/
def holdings (held : H → Option R) (s : A → Option H) (a : A) : Option R := (s a).bind held

theorem holdings_update [DecidableEq A] (held : H → Option R) (s : A → Option H) (a : A)
    (self : Option H) : holdings held (Function.update s a self) =
      Function.update (holdings held s) a (self.bind held) := by
  funext b
  by_cases hba : b = a
  · subst hba
    rw [holdings, Function.update_self, Function.update_self]
  · rw [holdings, Function.update_of_ne hba, Function.update_of_ne hba, holdings]

/-- Each resource is held once, and the resources that are held are the ones that are open. -/
structure Owned (held : A → Option R) (opened : R → Prop) : Prop where
  sole : ∀ {a b r}, held a = some r → held b = some r → a = b
  held_iff : ∀ r, opened r ↔ ∃ a, held a = some r

namespace Owned

variable {held : A → Option R} {opened opened' : R → Prop} {a b : A} {r : R}

theorem opened_of_held (h : Owned held opened) (ha : held a = some r) : opened r :=
  (h.held_iff r).mpr ⟨a, ha⟩

theorem not_held (h : Owned held opened) (hr : ¬opened r) (a : A) : held a ≠ some r :=
  fun ha => hr (h.opened_of_held ha)

/-- Where there are no owners left, nothing is open. -/
theorem not_opened (h : Owned held opened) (hnone : ∀ a, held a = none) (r : R) : ¬opened r := by
  intro hr
  obtain ⟨a, ha⟩ := (h.held_iff r).mp hr
  rw [hnone a] at ha
  cases ha

theorem congr (h : Owned held opened) (hopened : ∀ r, opened' r ↔ opened r) : Owned held opened' :=
  ⟨h.sole, fun r => (hopened r).trans (h.held_iff r)⟩

theorem empty : Owned (fun _ : A => (none : Option R)) fun _ => False := by
  constructor
  · intro a b r ha
    cases ha
  · intro r
    constructor
    · exact False.elim
    · rintro ⟨a, ha⟩
      cases ha

variable [DecidableEq A]

/-- An owner without a resource comes to hold a new one. -/
theorem acquire (h : Owned held opened) (ha : held a = none) (hr : ¬opened r) :
    Owned (Function.update held a (some r)) fun r' => r' = r ∨ opened r' := by
  -- Only `a` changes hands, so what everyone else holds is read off the old map.
  have hother : ∀ b r', b ≠ a → (Function.update held a (some r) b = some r' ↔ held b = some r') :=
    fun b r' hb => by rw [Function.update_of_ne hb]
  refine ⟨fun {b c r'} hb hc => ?_, fun r' => ⟨?_, ?_⟩⟩
  -- Two holders of one resource: were one of them `a`, the other would have held `r` before it was open.
  · by_cases hba : b = a
    · by_cases hca : c = a
      · exact hba.trans hca.symm
      · subst hba
        rw [Function.update_self] at hb
        exact absurd ((hother c r' hca).mp hc) (Option.some.inj hb ▸ h.not_held hr c)
    · by_cases hca : c = a
      · subst hca
        rw [Function.update_self] at hc
        exact absurd ((hother b r' hba).mp hb) (Option.some.inj hc ▸ h.not_held hr b)
      · exact h.sole ((hother b r' hba).mp hb) ((hother c r' hca).mp hc)
  · rintro (rfl | hr')
    · exact ⟨a, Function.update_self a (some r') held⟩
    · obtain ⟨b, hb⟩ := (h.held_iff r').mp hr'
      have hba : b ≠ a := by
        rintro rfl
        rw [ha] at hb
        cases hb
      exact ⟨b, (hother b r' hba).mpr hb⟩
  · rintro ⟨b, hb⟩
    by_cases hba : b = a
    · subst hba
      rw [Function.update_self] at hb
      exact .inl (Option.some.inj hb).symm
    · exact .inr (h.opened_of_held ((hother b r' hba).mp hb))

/-- An owner gives up what it holds. -/
theorem release (h : Owned held opened) (ha : held a = some r) :
    Owned (Function.update held a none) fun r' => r' ≠ r ∧ opened r' := by
  have hother : ∀ b r', Function.update held a none b = some r' ↔ b ≠ a ∧ held b = some r' := by
    intro b r'
    by_cases hba : b = a
    · subst hba
      rw [Function.update_self]
      constructor
      · intro h
        cases h
      · exact fun h => absurd rfl h.1
    · rw [Function.update_of_ne hba]
      exact ⟨fun h => ⟨hba, h⟩, fun h => h.2⟩
  refine ⟨fun hb hc => h.sole ((hother _ _).mp hb).2 ((hother _ _).mp hc).2, fun r' => ⟨?_, ?_⟩⟩
  · rintro ⟨hne, hr'⟩
    obtain ⟨b, hb⟩ := (h.held_iff r').mp hr'
    refine ⟨b, (hother b r').mpr ⟨?_, hb⟩⟩
    rintro rfl
    exact hne (Option.some.inj (hb.symm.trans ha))
  · rintro ⟨b, hb⟩
    obtain ⟨hba, hb⟩ := (hother b r').mp hb
    refine ⟨?_, h.opened_of_held hb⟩
    rintro rfl
    exact hba (h.sole hb ha)

/-- An owner without a resource takes over what another one holds. -/
theorem move (h : Owned held opened) (hab : a ≠ b) (ha : held a = none) :
    Owned (Function.update (Function.update held b none) a (held b)) opened := by
  cases hb : held b with
  | none =>
    rw [← hb, Function.update_eq_self, hb, ← ha, Function.update_eq_self]
    exact h
  | some r =>
    have hreleased := h.release hb
    have hmoved := hreleased.acquire (a := a) (r := r) ((Function.update_of_ne hab none held).trans ha)
      fun h => h.1 rfl
    refine hmoved.congr fun r' => ⟨fun hr' => ?_, ?_⟩
    · by_cases hrr : r' = r
      · exact .inl hrr
      · exact .inr ⟨hrr, hr'⟩
    · rintro (rfl | ⟨-, hr'⟩)
      · exact h.opened_of_held hb
      · exact hr'

/-- An object without a resource takes over that of another object. -/
theorem takeOver {holds : H → Option R} {s : A → Option H} {other self' other' : H}
    (h : Owned (Function.update (holdings holds s) a none) opened) (hab : a ≠ b) (hb : s b = some other)
    (hself : holds self' = holds other) (hother : holds other' = none) :
    Owned (holdings holds (Function.update (Function.update s b (some other')) a (some self'))) opened := by
  have hheld : Function.update (holdings holds s) a none b = holds other := by
    rw [Function.update_of_ne hab.symm, holdings, hb, Option.bind_some]
  have hmoved := h.move hab (Function.update_self a none (holdings holds s))
  rw [hheld, Function.update_comm hab, Function.update_idem] at hmoved
  rw [holdings_update, holdings_update, Option.bind_some, Option.bind_some, hself, hother]
  exact hmoved

end Owned

end Effects
