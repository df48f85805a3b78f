import BaseUtilities.Effects.Runs

/-!
# Programs that return

`Total E ok p Q w` says that `p` is safe wherever it is stopped, that it has a run that returns, and
that whatever it returns meets `Q`.  Where the environment is a function that is total correctness.
The rules take a program apart as those of `wp` do; a loop needs a measure beside its invariant.
-/

namespace Effects

variable {Op : Type} {Res : Op → Type} {W α β σ : Type}

structure Total (E : Env Op Res W) (ok : Stop Op → W → Prop) (p : Prog Op Res α) (Q : α → W → Prop)
    (w : W) : Prop where
  safe : wp E ok p Q w
  returns : ∃ a w', Exec E p w (.returned a) w'

variable {E : Env Op Res W} {ok : Stop Op → W → Prop} {Q : α → W → Prop} {w : W}

theorem Total.mono {p : Prog Op Res α} {Q' : α → W → Prop} (h : Total E ok p Q w)
    (hQ : ∀ a w, Q a w → Q' a w) : Total E ok p Q' w :=
  ⟨h.safe.mono hQ, h.returns⟩

theorem Total.ret {a : α} (h : Q a w) : Total E ok (.ret a) Q w := ⟨wp_ret.mpr h, a, w, .ret⟩

theorem Total.bind {p : Prog Op Res α} {f : α → Prog Op Res β} {R : β → W → Prop}
    (h : Total E ok p Q w) (hf : ∀ a w, Q a w → Total E ok (f a) R w) : Total E ok (p >>= f) R w := by
  refine ⟨h.safe.bind fun a w hQ => (hf a w hQ).safe, ?_⟩
  obtain ⟨a, w₁, hp⟩ := h.returns
  obtain ⟨b, w₂, hb⟩ := (hf a w₁ (h.safe.returned hp)).returns
  exact ⟨b, w₂, hp.bind hb⟩

/-- A call that has an answer, in front of a program. -/
theorem Total.ask {op : Op} {f : Res op → Prog Op Res β} {R : β → W → Prop} (hask : ok (.asking op) w)
    (hanswer : ∃ r w', E w op r w') (h : ∀ r w', E w op r w' → Total E ok (f r) R w') :
    Total E ok (Prog.perform op >>= f) R w := by
  refine ⟨wp_ask hask fun r w' hr => (h r w' hr).safe, ?_⟩
  obtain ⟨r, w₁, hr⟩ := hanswer
  obtain ⟨b, w₂, hb⟩ := (h r w₁ hr).returns
  exact ⟨b, w₂, .call hr hb⟩

/-- A call of an environment that is a function. -/
theorem Total.answer {g : W → (op : Op) → Option (Res op × W)} {op : Op} {r : Res op} {w' : W}
    {f : Res op → Prog Op Res β} {R : β → W → Prop} (hask : ok (.asking op) w)
    (hg : g w op = some (r, w')) (h : Total (answering g) ok (f r) R w') :
    Total (answering g) ok (Prog.perform op >>= f) R w := by
  refine Total.ask hask ⟨r, w', hg⟩ fun r₁ w₁ hr => ?_
  obtain ⟨rfl, rfl⟩ := Prod.mk.inj (Option.some.inj (hg.symm.trans hr))
  exact h

/-- The invariant rule, with a measure that every pass makes smaller. -/
theorem Total.forever {s : σ} {body : σ → Prog Op Res (Iter σ α)} (I : σ → W → Prop)
    (μ : σ → W → Nat) (hinit : I s w)
    (hbody : ∀ s w, I s w → Total E ok (body s)
      (Iter.post (fun s' w' => I s' w' ∧ μ s' w' < μ s w) Q) w) :
    Total E ok (Prog.forever s body) Q w := by
  constructor
  · refine wp_forever I hinit fun s w hI => ?_
    refine (hbody s w hI).safe.mono fun i w' hpost => ?_
    cases i with
    | next s' => exact hpost.1
    | done a => exact hpost
  · -- On the measure: a pass leaves the loop or comes to a smaller one.
    induction hn : μ s w using Nat.strongRecOn generalizing s w with
    | _ n ih =>
      obtain ⟨i, w₁, hpass⟩ := (hbody s w hinit).returns
      have hpost := (hbody s w hinit).safe.returned hpass
      cases i with
      | done a => exact ⟨a, w₁, .loop_done hpass .ret⟩
      | next s' =>
        obtain ⟨a, w₂, hrest⟩ := ih _ (hn ▸ hpost.2) hpost.1 rfl
        exact ⟨a, w₂, .loop_next hpass hrest⟩

/-- In an environment that is a function a program yields what it returns. -/
theorem Total.yields (hE : Deterministic E) {p : Prog Op Res α} (h : Total E ok p Q w) :
    ∃ a w', Yields E p w a w' ∧ Q a w' := by
  obtain ⟨a, w', hexec⟩ := h.returns
  exact ⟨a, w', hE.yields hexec, h.safe.returned hexec⟩

end Effects
