import BaseUtilities.Effects.Trace

/-!
# Sessions

A session is a state that operations change one after another, each of them a program.  `Reaches`
says what a session can come to in an environment, and `Session.sound` is the induction over it: an
invariant that every operation keeps holds between all operations, and every operation is safe
wherever it is stopped.
-/

namespace Effects

variable {Op I S W : Type} {Res : Op → Type}

/-- Operations `I` on a state `S`; `may` says which of them a caller uses in a state of the session
and of the environment. -/
structure Session (Op : Type) (Res : Op → Type) (I S W : Type) where
  run : I → S → Prog Op Res S
  may : S → W → I → Prop

namespace Session

/-- `X.Reaches E s w s' w'`: operations, each run to its end, take `s` and `w` to `s'` and `w'`. -/
inductive Reaches (X : Session Op Res I S W) (E : Env Op Res W) (s : S) (w : W) : S → W → Prop where
  | start : Reaches X E s w s w
  | step {s₁ w₁ s₂ w₂} (i : I) : Reaches X E s w s₁ w₁ → X.may s₁ w₁ i →
      Exec E (X.run i s₁) w₁ (.returned s₂) w₂ → Reaches X E s w s₂ w₂

/-- Operations one after another, each as `permits` allows in the state that it is used in. -/
def runAll (X : Session Op Res I S W) (permits : S → I → Bool) : List I → S → Prog Op Res S
  | [], s => .ret s
  | i :: is, s => if permits s i then X.run i s >>= X.runAll permits is else .fault

theorem Reaches.runAll {X : Session Op Res I S W} {E : Env Op Res W} {permits : S → I → Bool}
    (hmay : ∀ s w i, permits s i = true → X.may s w i) {is : List I} {s s₁ s' : S} {w w₁ w' : W}
    (h : X.Reaches E s w s₁ w₁)
    (hexec : Exec E (X.runAll permits is s₁) w₁ (.returned s') w') : X.Reaches E s w s' w' := by
  induction is generalizing s₁ w₁ with
  | nil =>
    obtain ⟨heq, rfl⟩ := hexec
    cases heq
    exact h
  | cons i is ih =>
    rw [Session.runAll] at hexec
    split at hexec
    · next hpermits =>
      obtain ⟨o, w₂, hi, hrest⟩ := exec_bind.mp hexec
      cases o with
      | returned s₂ => exact ih (h.step i (hmay _ _ i hpermits) hi) hrest
      | stopped stop => cases hrest.1
    · cases hexec.1

/-- Whatever the session comes to, `Q` holds between operations and `ok` wherever an operation has
stopped. -/
def Sound (X : Session Op Res I S W) (E : Env Op Res W) (ok : Stop Op → W → Prop)
    (Q : S → W → Prop) (s : S) (w : W) : Prop :=
  ∀ s' w', X.Reaches E s w s' w' →
    Q s' w' ∧ ∀ i, X.may s' w' i → wp E ok (X.run i s') (fun _ _ => True) w'

variable {X : Session Op Res I S W} {E : Env Op Res W} {ok : Stop Op → W → Prop} {Q : S → W → Prop}

/-- What every operation keeps holds of all that a session reaches. -/
theorem Reaches.invariant {s s' : S} {w w' : W} (h : X.Reaches E s w s' w') (Inv : S → W → Prop)
    (hinit : Inv s w) (hrun : ∀ s w i, Inv s w → X.may s w i → wp E ok (X.run i s) Inv w) :
    Inv s' w' := by
  induction h with
  | start => exact hinit
  | step i _ hmay hexec ih => exact (hrun _ _ i ih hmay).returned hexec

theorem sound {s : S} {w : W} (Inv : S → W → Prop) (hinit : Inv s w)
    (hrun : ∀ s w i, Inv s w → X.may s w i → wp E ok (X.run i s) Inv w)
    (hQ : ∀ s w, Inv s w → Q s w) : X.Sound E ok Q s w := by
  intro s' w' h
  have hinv := h.invariant Inv hinit hrun
  exact ⟨hQ s' w' hinv, fun i hmay => (hrun s' w' i hinv hmay).mono fun _ _ _ => trivial⟩

end Session

/-! ## Steps -/

/-- `Leads step may s s'`: steps that are allowed where they are taken lead from `s` to `s'`. -/
inductive Leads {L : Type} (step : S → L → S → Prop) (may : S → L → Prop) (s : S) : S → Prop where
  | start : Leads step may s s
  | step {s₁ l s₂} : Leads step may s s₁ → may s₁ l → step s₁ l s₂ → Leads step may s s₂

/-- What every step keeps holds wherever steps lead. -/
theorem Leads.invariant {L : Type} {step : S → L → S → Prop} {may : S → L → Prop} {s s' : S}
    (h : Leads step may s s') (Inv : S → Prop) (hinit : Inv s)
    (hstep : ∀ s l s', Inv s → may s l → step s l s' → Inv s') : Inv s' := by
  induction h with
  | start => exact hinit
  | step _ hmay htaken ih => exact hstep _ _ _ ih hmay htaken

end Effects
