import BaseUtilities.Effects.Logic

/-!
# Total correctness

Where an environment has at most one answer to a call, one run that returns is all that there is to
know of a program: no other run returns, and none ends in undefined behaviour.  `Yields` says so, and
its rules build the run of a program from runs of its parts.
-/

namespace Effects

variable {Op : Type} {Res : Op → Type} {W α β σ : Type}

/-- A call has at most one answer. -/
def Deterministic (E : Env Op Res W) : Prop :=
  ∀ w op r w₁ r' w₂, E w op r w₁ → E w op r' w₂ → r = r' ∧ w₁ = w₂

/-- `p` returns `a` and leaves the environment in `w'`: it has this run, no run returns anything else,
and none ends in undefined behaviour. -/
structure Yields (E : Env Op Res W) (p : Prog Op Res α) (w : W) (a : α) (w' : W) : Prop where
  run : Exec E p w (.returned a) w'
  only : wp E (fun stop _ => stop ≠ .fault) p (fun b w => b = a ∧ w = w') w

variable {E : Env Op Res W} {ok : Stop Op → W → Prop} {w w' : W}

/-- A loop whose passes are known from the runs of its body. -/
theorem Iterates.wp_loop {s : σ} {body : σ → Prog Op Res (Iter σ β)} {k : β → Prog Op Res α} {b : β}
    {Q : α → W → Prop} (hit : Iterates (fun s => Exec E (body s)) s w (.returned b) w')
    (hbody : ∀ s w i w₁, Exec E (body s) w (.returned i) w₁ →
      wp E ok (body s) (fun i' w' => i' = i ∧ w' = w₁) w)
    (hk : wp E ok (k b) Q w') : wp E ok (.loop s body k) Q w := by
  generalize hout : Outcome.returned b = out at hit
  induction hit with
  | stopped h => cases hout
  | @done s w b' w₁ h =>
    obtain rfl : b = b' := Outcome.returned.inj hout
    refine wp_loop_unfold.mpr ((hbody _ _ _ _ h).mono ?_)
    intro i w' heq
    rw [heq.1, heq.2]
    exact hk
  | next h _ ih =>
    refine wp_loop_unfold.mpr ((hbody _ _ _ _ h).mono ?_)
    intro i w' heq
    rw [heq.1, heq.2]
    exact ih hk hout

/-- A run that returns is the only one. -/
theorem Deterministic.only (hE : Deterministic E) {p : Prog Op Res α} {a : α}
    (h : Exec E p w (.returned a) w') :
    wp E (fun stop _ => stop ≠ .fault) p (fun b w => b = a ∧ w = w') w := by
  induction p generalizing w w' with
  | ret b =>
    obtain ⟨heq, rfl⟩ := h
    exact wp_ret.mpr ⟨(Outcome.returned.inj heq).symm, rfl⟩
  | fault => cases h.1
  | call op k ih =>
    rcases h with ⟨hstop, -⟩ | ⟨r, w₁, hr, hk⟩
    · cases hstop
    · refine wp_call.mpr ⟨nofun, fun r' w₂ hr' => ?_⟩
      obtain ⟨rfl, rfl⟩ := hE _ _ _ _ _ _ hr hr'
      exact ih r hk
  | loop s body k ihb ih =>
    obtain ⟨o, w₁, hit, hand⟩ := h
    cases o with
    | stopped stop => cases hand.1
    | returned b => exact hit.wp_loop (fun s w i w₁ hi => ihb s hi) (ih b hand)

theorem Deterministic.yields (hE : Deterministic E) {p : Prog Op Res α} {a : α}
    (h : Exec E p w (.returned a) w') : Yields E p w a w' :=
  ⟨h, hE.only h⟩

/-- `p` returns, and what it returns meets `Q`. -/
def Returns (E : Env Op Res W) (p : Prog Op Res α) (Q : α → W → Prop) (w : W) : Prop :=
  ∃ a w', Yields E p w a w' ∧ Q a w'

/-- What a program returns is what one of its runs returns. -/
theorem Deterministic.returns_iff (hE : Deterministic E) {p : Prog Op Res α} {a : α}
    {Q : α → W → Prop} (h : Exec E p w (.returned a) w') : Returns E p Q w ↔ Q a w' := by
  constructor
  · rintro ⟨b, w₁, hyields, hQ⟩
    obtain ⟨rfl, rfl⟩ := hyields.only.returned h
    exact hQ
  · intro hQ
    exact ⟨a, w', hE.yields h, hQ⟩

/-- The environment that answers as `f` says, and not at all where it has no answer. -/
def answering (f : W → (op : Op) → Option (Res op × W)) : Env Op Res W :=
  fun w op r w' => f w op = some (r, w')

theorem answering_deterministic (f : W → (op : Op) → Option (Res op × W)) :
    Deterministic (answering f) := by
  intro w op r w₁ r' w₂ h h'
  have heq : (r, w₁) = (r', w₂) := Option.some.inj (h.symm.trans h')
  exact Prod.mk.inj heq

/-- A call in an environment that is a function. -/
theorem exec_perform {f : W → (op : Op) → Option (Res op × W)} {op : Op} {r : Res op}
    (h : f w op = some (r, w')) : Exec (answering f) (Prog.perform op) w (.returned r) w' :=
  .call h .ret

/-- An environment that can answer as another one does has its runs. -/
theorem Exec.follow {V : Type} {F : Env Op Res V} {R : W → V → Prop} {p : Prog Op Res α}
    {out : Outcome Op α} {v : V}
    (hEF : ∀ w v op r w', R w v → E w op r w' → ∃ v', F v op r v' ∧ R w' v') (h : Exec E p w out w')
    (hR : R w v) : ∃ v', Exec F p v out v' ∧ R w' v' := by
  -- On the program, as `Exec` is; the relation is the only thing carried over.
  induction p generalizing w w' v with
  | ret a =>
    obtain ⟨rfl, rfl⟩ := h
    exact ⟨v, ⟨rfl, rfl⟩, hR⟩
  | fault =>
    obtain ⟨rfl, rfl⟩ := h
    exact ⟨v, ⟨rfl, rfl⟩, hR⟩
  | call op k ih =>
    rcases h with ⟨rfl, rfl⟩ | ⟨r, w₁, hr, hk⟩
    · exact ⟨v, .inl ⟨rfl, rfl⟩, hR⟩
    · obtain ⟨v₁, hr', hR'⟩ := hEF _ _ _ _ _ hR hr
      obtain ⟨v', hk', hend⟩ := ih r hk hR'
      exact ⟨v', .call hr' hk', hend⟩
  | loop s body k ihb ih =>
    obtain ⟨o, w₁, hit, hand⟩ := h
    -- The iterations are followed by their own induction, each with the hypothesis of the body.
    have key : ∃ v₁, Iterates (fun s => Exec F (body s)) s v o v₁ ∧ R w₁ v₁ := by
      clear hand
      induction hit generalizing v with
      | stopped hb =>
        obtain ⟨v₁, hb', hR'⟩ := ihb _ hb hR
        exact ⟨v₁, .stopped hb', hR'⟩
      | done hb =>
        obtain ⟨v₁, hb', hR'⟩ := ihb _ hb hR
        exact ⟨v₁, .done hb', hR'⟩
      | next hb _ ihit =>
        obtain ⟨v₁, hb', hR'⟩ := ihb _ hb hR
        obtain ⟨v₂, hit', hend⟩ := ihit hR'
        exact ⟨v₂, .next hb' hit', hend⟩
    obtain ⟨v₁, hit', hR'⟩ := key
    cases o with
    | returned b =>
      obtain ⟨v', hk', hend⟩ := ih b hand hR'
      exact ⟨v', ⟨_, v₁, hit', hk'⟩, hend⟩
    | stopped stop =>
      obtain ⟨rfl, rfl⟩ := hand
      exact ⟨v₁, ⟨_, v₁, hit', rfl, rfl⟩, hR'⟩

/-- A refined program runs where the abstract one does. -/
theorem Bisim.run {R : α → β → Prop} {p : Prog Op Res α} {q : Prog Op Res β} {b : β} (h : Bisim R p q)
    (hq : Exec E q w (.returned b) w') : ∃ a, R a b ∧ Exec E p w (.returned a) w' := by
  have hself : wp E (fun _ _ => True) p (fun a v => Exec E p w (.returned a) v) w := by
    intro out v hout
    cases out with
    | returned a => exact hout
    | stopped stop => trivial
  exact (h.back.wp hself).returned hq

/-! ## Programs that come to an end -/

/-- `p` has a run that comes to an end, as it is neither kept in a loop nor left without an answer. -/
def Ends (E : Env Op Res W) (p : Prog Op Res α) (w : W) : Prop :=
  ∃ out w', Exec E p w out w' ∧ ∀ op, out ≠ .stopped (.asking op)

theorem Ends.ret {a : α} : Ends E (.ret a) w := ⟨_, _, Exec.ret, fun _ => nofun⟩

theorem Ends.ofOption {o : Option α} : Ends E (Prog.ofOption o) w := by
  cases o with
  | none => exact ⟨_, _, ⟨rfl, rfl⟩, fun _ => nofun⟩
  | some a => exact .ret

/-- A program in front of others, all of which come to an end. -/
theorem Ends.bind {p : Prog Op Res α} {f : α → Prog Op Res β} (hp : Ends E p w)
    (hf : ∀ a w', Ends E (f a) w') : Ends E (p >>= f) w := by
  obtain ⟨out, w₁, hexec, hout⟩ := hp
  cases out with
  | returned a =>
    obtain ⟨out', w', hexec', hout'⟩ := hf a w₁
    exact ⟨out', w', hexec.bind hexec', hout'⟩
  | stopped stop =>
    refine ⟨.stopped stop, w₁, exec_bind.mpr ⟨_, _, hexec, rfl, rfl⟩, fun op heq => ?_⟩
    cases heq
    exact hout op rfl

/-- A call that has an answer. -/
theorem Ends.perform {op : Op} {r : Res op} (hr : E w op r w') : Ends E (Prog.perform op) w :=
  ⟨_, _, Exec.call hr .ret, fun _ => nofun⟩

/-- A program that comes to an end where it is known what it returns. -/
theorem Ends.returned {p : Prog Op Res α} {Q : α → W → Prop} (h : Ends E p w) (hp : wp E ok p Q w)
    (hok : ∀ w, ¬ok .fault w) : ∃ a w', Exec E p w (.returned a) w' ∧ Q a w' := by
  obtain ⟨out, w', hexec, hout⟩ := h
  cases out with
  | returned a => exact ⟨a, w', hexec, hp.returned hexec⟩
  | stopped stop =>
    cases stop with
    | asking op => exact absurd rfl (hout op)
    | fault => exact absurd (hp.stopped hexec) (hok w')

theorem Deterministic.returns (hE : Deterministic E) {p : Prog Op Res α} {Q : α → W → Prop}
    (h : Ends E p w) (hp : wp E ok p Q w) (hok : ∀ w, ¬ok .fault w) : Returns E p Q w := by
  obtain ⟨a, w', hexec, hQ⟩ := h.returned hp hok
  exact ⟨a, w', hE.yields hexec, hQ⟩

end Effects
