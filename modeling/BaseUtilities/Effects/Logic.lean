import BaseUtilities.Effects.Program

/-!
# Preconditions

`wp E ok p Q w` says that every run of `p` from `w` in the environment `E` meets `Q` where it
returns and `ok` wherever it has stopped: at every call about to be made, and at undefined behaviour.
The rules below take a program apart; `wp_loop` is the rule for an invariant, and `Sim` relates two
programs over different data so that a result about the abstract one is a result about the other.
-/

namespace Effects

variable {Op : Type} {Res : Op → Type} {W α β γ σ τ : Type}

/-- What an outcome has to satisfy. -/
def Outcome.Meets (ok : Stop Op → W → Prop) (Q : α → W → Prop) : Outcome Op α → W → Prop
  | .returned a, w => Q a w
  | .stopped s, w => ok s w

def wp (E : Env Op Res W) (ok : Stop Op → W → Prop) (p : Prog Op Res α) (Q : α → W → Prop)
    (w : W) : Prop :=
  ∀ out w', Exec E p w out w' → out.Meets ok Q w'

variable {E : Env Op Res W} {ok : Stop Op → W → Prop} {Q Q' : α → W → Prop} {w : W}

theorem wp.returned {p : Prog Op Res α} {a : α} {w' : W} (h : wp E ok p Q w)
    (hp : Exec E p w (.returned a) w') : Q a w' :=
  h _ _ hp

theorem wp.stopped {p : Prog Op Res α} {s : Stop Op} {w' : W} (h : wp E ok p Q w)
    (hp : Exec E p w (.stopped s) w') : ok s w' :=
  h _ _ hp

theorem wp.mono {p : Prog Op Res α} (h : wp E ok p Q w) (hQ : ∀ a w, Q a w → Q' a w) :
    wp E ok p Q' w := by
  intro out w' hp
  have h' := h out w' hp
  cases out with
  | returned a => exact hQ a w' h'
  | stopped s => exact h'

theorem wp.weaken {ok' : Stop Op → W → Prop} {p : Prog Op Res α} (h : wp E ok p Q w)
    (hok : ∀ s w, ok s w → ok' s w) : wp E ok' p Q w := by
  intro out w' hp
  have h' := h out w' hp
  cases out with
  | returned a => exact h'
  | stopped s => exact hok s w' h'

theorem wp.and {p : Prog Op Res α} (h : wp E ok p Q w) (h' : wp E ok p Q' w) :
    wp E ok p (fun a w => Q a w ∧ Q' a w) w := by
  intro out w' hp
  have h₁ := h out w' hp
  have h₂ := h' out w' hp
  cases out with
  | returned a => exact ⟨h₁, h₂⟩
  | stopped s => exact h₁

/-- What is known of the runs that return, beside a proof that every stop is safe. -/
theorem wp.and_returned {p : Prog Op Res α} (h : wp E ok p Q w) (h' : wp E (fun _ _ => True) p Q' w) :
    wp E ok p (fun a w => Q a w ∧ Q' a w) w :=
  h.and fun out w' hp => by
    cases out with
    | returned a => exact h' _ _ hp
    | stopped s => exact h _ _ hp

/-- Nothing is asked of the runs. -/
theorem wp_trivial (p : Prog Op Res α) (w : W) : wp E (fun _ _ => True) p (fun _ _ => True) w := by
  intro out w' _
  cases out with
  | returned a => trivial
  | stopped s => trivial

@[simp] theorem wp_ret {a : α} : wp E ok (.ret a) Q w ↔ Q a w := by
  constructor
  · intro h
    exact h _ _ ⟨rfl, rfl⟩
  · rintro h _ _ ⟨rfl, rfl⟩
    exact h

@[simp] theorem wp_fault : wp E ok (.fault : Prog Op Res α) Q w ↔ ok .fault w := by
  constructor
  · intro h
    exact h _ _ ⟨rfl, rfl⟩
  · rintro h _ _ ⟨rfl, rfl⟩
    exact h

@[simp] theorem wp_call {op : Op} {k : Res op → Prog Op Res α} :
    wp E ok (.call op k) Q w ↔ ok (.asking op) w ∧ ∀ r w', E w op r w' → wp E ok (k r) Q w' := by
  constructor
  · intro h
    refine ⟨h _ _ (.inl ⟨rfl, rfl⟩), fun r w₁ hr out w' hk => ?_⟩
    exact h out w' (.inr ⟨r, w₁, hr, hk⟩)
  · rintro ⟨hask, hk⟩ out w' (⟨rfl, rfl⟩ | ⟨r, w₁, hr, hrun⟩)
    · exact hask
    · exact hk r w₁ hr out w' hrun

@[simp] theorem wp_perform {op : Op} {Q : Res op → W → Prop} :
    wp E ok (Prog.perform op) Q w ↔ ok (.asking op) w ∧ ∀ r w', E w op r w' → Q r w' := by
  simp only [Prog.perform, wp_call, wp_ret]

theorem wp_bind {p : Prog Op Res α} {f : α → Prog Op Res β} {Q : β → W → Prop} :
    wp E ok (p >>= f) Q w ↔ wp E ok p (fun a w => wp E ok (f a) Q w) w := by
  constructor
  · intro h out w' hp
    cases out with
    | returned a => exact fun out' w'' hf => h out' w'' (hp.bind hf)
    | stopped s => exact h (.stopped s) w' (exec_bind.mpr ⟨_, _, hp, rfl, rfl⟩)
  · intro h out w' hpf
    obtain ⟨o, w₁, hp, hand⟩ := exec_bind.mp hpf
    have ho := h o w₁ hp
    cases o with
    | returned a => exact ho out w' hand
    | stopped s =>
      obtain ⟨rfl, rfl⟩ := hand
      exact ho

@[simp] theorem wp_ite {c : Prop} [Decidable c] {p q : Prog Op Res α} :
    wp E ok (if c then p else q) Q w ↔ (c → wp E ok p Q w) ∧ (¬ c → wp E ok q Q w) := by
  split <;> simp_all

@[simp] theorem wp_ofOption {o : Option α} :
    wp E ok (Prog.ofOption o) Q w ↔ (o = none → ok .fault w) ∧ ∀ a, o = some a → Q a w := by
  cases o <;> simp

/-- A call in front of a program. -/
theorem wp_ask {op : Op} {f : Res op → Prog Op Res β} {Q : β → W → Prop} (hask : ok (.asking op) w)
    (h : ∀ r w', E w op r w' → wp E ok (f r) Q w') : wp E ok (Prog.perform op >>= f) Q w :=
  wp_bind.mpr (wp_perform.mpr ⟨hask, h⟩)

/-- A call in front of a program, with one of its answers. -/
theorem wp_answer {op : Op} {f : Res op → Prog Op Res β} {Q : β → W → Prop} {r : Res op} {w' : W}
    (h : wp E ok (Prog.perform op >>= f) Q w) (hr : E w op r w') : wp E ok (f r) Q w' :=
  (wp_call.mp h).2 r w' hr

/-- The sequencing rule read with the specification of the first part. -/
theorem wp.bind {p : Prog Op Res α} {f : α → Prog Op Res β} {R : β → W → Prop}
    (h : wp E ok p Q w) (hf : ∀ a w, Q a w → wp E ok (f a) R w) : wp E ok (p >>= f) R w :=
  wp_bind.mpr (h.mono hf)

/-! ## Loops -/

/-- The demand on the end of a loop body: where a loop goes round again `I` holds, where it is left
the rest of the program is safe. -/
def Iter.post (I : σ → W → Prop) (R : β → W → Prop) : Iter σ β → W → Prop
  | .next s, w => I s w
  | .done b, w => R b w

@[simp] theorem Iter.post_next {I : σ → W → Prop} {R : β → W → Prop} {s : σ} :
    (Iter.next s).post I R w = I s w := rfl

@[simp] theorem Iter.post_done {I : σ → W → Prop} {R : β → W → Prop} {b : β} :
    (Iter.done b).post I R w = R b w := rfl

/-- The invariant rule. -/
theorem wp_loop {s : σ} {body : σ → Prog Op Res (Iter σ β)} {k : β → Prog Op Res α}
    (I : σ → W → Prop) (hinit : I s w)
    (hbody : ∀ s w, I s w → wp E ok (body s) (Iter.post I fun b w => wp E ok (k b) Q w) w) :
    wp E ok (.loop s body k) Q w := by
  rintro out w' ⟨o, w₁, hit, hand⟩
  have key : o.Meets ok (fun b w => wp E ok (k b) Q w) w₁ := by
    clear hand
    induction hit with
    | stopped h => exact hbody _ _ hinit _ _ h
    | done h => exact hbody _ _ hinit _ _ h
    | next h _ ih => exact ih (hbody _ _ hinit _ _ h)
  cases o with
  | returned b => exact key out w' hand
  | stopped s =>
    obtain ⟨rfl, rfl⟩ := hand
    exact key

theorem wp_forever {s : σ} {body : σ → Prog Op Res (Iter σ α)} (I : σ → W → Prop) (hinit : I s w)
    (hbody : ∀ s w, I s w → wp E ok (body s) (Iter.post I Q) w) :
    wp E ok (Prog.forever s body) Q w :=
  wp_loop I hinit fun s w h => by simpa only [wp_ret] using hbody s w h

/-- A loop is its body followed, where that goes round again, by the loop. -/
theorem wp_loop_unfold {s : σ} {body : σ → Prog Op Res (Iter σ β)} {k : β → Prog Op Res α} :
    wp E ok (.loop s body k) Q w ↔
      wp E ok (body s) (Iter.post (fun s w => wp E ok (.loop s body k) Q w)
        fun b w => wp E ok (k b) Q w) w := by
  constructor
  · intro h out w₁ hb
    match out with
    | .returned (.next s') => exact fun out w' hl => h out w' (.loop_next hb hl)
    | .returned (.done b) => exact fun out w' hk => h out w' (.loop_done hb hk)
    | .stopped stop => exact h _ _ (.loop_stopped hb)
  · rintro h out w' ⟨o, w₁, hit, hand⟩
    cases hit with
    | stopped hb =>
      obtain ⟨rfl, rfl⟩ := hand
      exact h _ _ hb
    | done hb => exact h _ _ hb out w' hand
    | next hb hit => exact h _ _ hb out w' ⟨o, w₁, hit, hand⟩

/-- `Heads E body s w s' w'`: passes through a loop lead from its head at `s` and `w` to its head at
`s'` and `w'`. -/
inductive Heads (E : Env Op Res W) (body : σ → Prog Op Res (Iter σ β)) (s : σ) (w : W) : σ → W → Prop where
  | start : Heads E body s w s w
  | next {s₁ w₁ s₂ w₂} : Heads E body s w s₁ w₁ → Exec E (body s₁) w₁ (.returned (.next s₂)) w₂ →
      Heads E body s w s₂ w₂

/-- What every pass keeps holds at all heads. -/
theorem Heads.invariant {body : σ → Prog Op Res (Iter σ β)} {s s' : σ} {w w' : W} (I : σ → W → Prop)
    {R : β → W → Prop} (h : Heads E body s w s' w') (hinit : I s w)
    (hbody : ∀ s w, I s w → wp E ok (body s) (Iter.post I R) w) : I s' w' := by
  induction h with
  | start => exact hinit
  | next _ hexec ih => exact (hbody _ _ ih).returned hexec

/-! ## Kept predicates -/

/-- `op` may be called wherever `J` holds, and `J` holds after it. -/
structure Keeps (E : Env Op Res W) (ok : Stop Op → W → Prop) (J : W → Prop) (op : Op) : Prop where
  asks : ∀ w, J w → ok (.asking op) w
  keeps : ∀ w r w', J w → E w op r w' → J w'

theorem Keeps.perform {J : W → Prop} {op : Op} {Q : Res op → W → Prop} (h : Keeps E ok J op)
    (hJ : J w) (hQ : ∀ r w', J w' → E w op r w' → Q r w') : wp E ok (Prog.perform op) Q w :=
  wp_perform.mpr ⟨h.asks w hJ, fun r w' hr => hQ r w' (h.keeps w r w' hJ hr) hr⟩

theorem Keeps.bind {J : W → Prop} {op : Op} {f : Res op → Prog Op Res β} {Q : β → W → Prop}
    (h : Keeps E ok J op) (hJ : J w)
    (hf : ∀ r w', J w' → E w op r w' → wp E ok (f r) Q w') :
    wp E ok (Prog.perform op >>= f) Q w :=
  wp_bind.mpr (h.perform hJ hf)

/-! ## Data refinement -/

/-- `Sim R p q`: in every environment `p` does what `q` does, and returns a value that `R` relates to
the one that `q` returns. -/
def Sim (R : α → β → Prop) (p : Prog Op Res α) (q : Prog Op Res β) : Prop :=
  ∀ (W : Type) (E : Env Op Res W) (ok : Stop Op → W → Prop) (Q : β → W → Prop) (w : W),
    wp E ok q Q w → wp E ok p (fun a w => ∃ b, R a b ∧ Q b w) w

theorem Sim.wp {R : α → β → Prop} {p : Prog Op Res α} {q : Prog Op Res β} {P : β → W → Prop}
    (h : Sim R p q) (hq : wp E ok q P w) : wp E ok p (fun a w => ∃ b, R a b ∧ P b w) w :=
  h W E ok P w hq

theorem sim_refl {R : α → α → Prop} (hR : ∀ a, R a a) (p : Prog Op Res α) : Sim R p p := by
  intro W E ok Q w hQ
  exact hQ.mono fun a _ h => ⟨a, hR a, h⟩

theorem sim_ret {R : α → β → Prop} {a : α} {b : β} (h : R a b) :
    Sim R (.ret a : Prog Op Res α) (.ret b) := by
  intro W E ok Q w hQ
  rw [wp_ret] at hQ ⊢
  exact ⟨b, h, hQ⟩

theorem sim_fault {R : α → β → Prop} : Sim R (.fault : Prog Op Res α) (.fault : Prog Op Res β) := by
  intro W E ok Q w hQ
  rw [wp_fault] at hQ ⊢
  exact hQ

theorem sim_call {R : α → β → Prop} {op : Op} {k : Res op → Prog Op Res α}
    {l : Res op → Prog Op Res β} (h : ∀ r, Sim R (k r) (l r)) : Sim R (.call op k) (.call op l) := by
  intro W E ok Q w hQ
  rw [wp_call] at hQ ⊢
  exact ⟨hQ.1, fun r w' hr => h r W E ok Q w' (hQ.2 r w' hr)⟩

theorem sim_bind {α' β' : Type} {R : α → β → Prop} {R' : α' → β' → Prop} {p : Prog Op Res α}
    {q : Prog Op Res β} {f : α → Prog Op Res α'} {g : β → Prog Op Res β'} (h : Sim R p q)
    (hf : ∀ a b, R a b → Sim R' (f a) (g b)) : Sim R' (p >>= f) (q >>= g) := by
  intro W E ok Q w hQ
  rw [wp_bind] at hQ
  refine (h W E ok _ w hQ).bind fun a w' => ?_
  rintro ⟨b, hab, hg⟩
  exact hf a b hab W E ok Q w' hg

/-- Two loop bodies that go round, or leave, together. -/
inductive Iter.Rel (S : σ → τ → Prop) (R : α → β → Prop) : Iter σ α → Iter τ β → Prop where
  | next {s t} : S s t → Iter.Rel S R (.next s) (.next t)
  | done {a b} : R a b → Iter.Rel S R (.done a) (.done b)

theorem sim_forever {S : σ → τ → Prop} {R : α → β → Prop} {s : σ} {t : τ}
    {body : σ → Prog Op Res (Iter σ α)} {body' : τ → Prog Op Res (Iter τ β)} (hst : S s t)
    (h : ∀ s t, S s t → Sim (Iter.Rel S R) (body s) (body' t)) :
    Sim R (Prog.forever s body) (Prog.forever t body') := by
  intro W E ok Q w hQ
  refine wp_forever (fun s w => ∃ t, S s t ∧ wp E ok (Prog.forever t body') Q w)
    ⟨t, hst, hQ⟩ ?_
  rintro s w ⟨t, hst, hQ⟩
  have hbody := wp_loop_unfold.mp hQ
  refine (h s t hst W E ok _ w hbody).mono ?_
  rintro _ w' ⟨_, (hs | hr), hpost⟩
  · exact ⟨_, hs, hpost⟩
  · exact ⟨_, hr, wp_ret.mp hpost⟩

/-- `Bisim R p q`: the two programs make the same calls and return related values. -/
structure Bisim (R : α → β → Prop) (p : Prog Op Res α) (q : Prog Op Res β) : Prop where
  forth : Sim R p q
  back : Sim (fun b a => R a b) q p

theorem bisim_refl {R : α → α → Prop} (hR : ∀ a, R a a) (p : Prog Op Res α) : Bisim R p p :=
  ⟨sim_refl hR p, sim_refl (R := fun b a => R a b) hR p⟩

theorem bisim_ret {R : α → β → Prop} {a : α} {b : β} (h : R a b) :
    Bisim R (.ret a : Prog Op Res α) (.ret b) :=
  ⟨sim_ret h, sim_ret h⟩

theorem bisim_fault {R : α → β → Prop} :
    Bisim R (.fault : Prog Op Res α) (.fault : Prog Op Res β) :=
  ⟨sim_fault, sim_fault⟩

theorem bisim_call {R : α → β → Prop} {op : Op} {k : Res op → Prog Op Res α}
    {l : Res op → Prog Op Res β} (h : ∀ r, Bisim R (k r) (l r)) :
    Bisim R (.call op k) (.call op l) :=
  ⟨sim_call fun r => (h r).forth, sim_call fun r => (h r).back⟩

theorem bisim_bind {α' β' : Type} {R : α → β → Prop} {R' : α' → β' → Prop} {p : Prog Op Res α}
    {q : Prog Op Res β} {f : α → Prog Op Res α'} {g : β → Prog Op Res β'} (h : Bisim R p q)
    (hf : ∀ a b, R a b → Bisim R' (f a) (g b)) : Bisim R' (p >>= f) (q >>= g) :=
  ⟨sim_bind h.forth fun a b hab => (hf a b hab).forth, sim_bind h.back fun b a hab => (hf a b hab).back⟩

theorem Iter.Rel.flip {S : σ → τ → Prop} {R : α → β → Prop} {i : Iter τ β} {j : Iter σ α}
    (h : Iter.Rel S R j i) : Iter.Rel (fun t s => S s t) (fun b a => R a b) i j := by
  cases h with
  | next h => exact .next h
  | done h => exact .done h

theorem Sim.imp {R R' : α → β → Prop} {p : Prog Op Res α} {q : Prog Op Res β} (h : Sim R p q)
    (hR : ∀ a b, R a b → R' a b) : Sim R' p q := by
  intro W E ok Q w hQ
  refine (h W E ok Q w hQ).mono ?_
  rintro a _ ⟨b, hab, hb⟩
  exact ⟨b, hR a b hab, hb⟩

theorem bisim_forever {S : σ → τ → Prop} {R : α → β → Prop} {s : σ} {t : τ}
    {body : σ → Prog Op Res (Iter σ α)} {body' : τ → Prog Op Res (Iter τ β)} (hst : S s t)
    (h : ∀ s t, S s t → Bisim (Iter.Rel S R) (body s) (body' t)) :
    Bisim R (Prog.forever s body) (Prog.forever t body') :=
  ⟨sim_forever hst fun s t hst => (h s t hst).forth,
    sim_forever (S := fun t s => S s t) hst fun t s hst => (h s t hst).back.imp fun _ _ => Iter.Rel.flip⟩

/-! ## What the calls of a program keep -/

/-- What every call that a program makes keeps holds in the end. -/
theorem wp.keep {E : Env Op Res W} {ok : Stop Op → W → Prop} {I : W → Prop}
    (hI : ∀ w op r w', ok (.asking op) w → I w → E w op r w' → I w') {p : Prog Op Res α}
    {Q : α → W → Prop} {w : W} (h : wp E ok p Q w) (hw : I w) :
    wp E ok p (fun a w => Q a w ∧ I w) w := by
  induction p generalizing w with
  | ret a => exact wp_ret.mpr ⟨wp_ret.mp h, hw⟩
  | fault => exact wp_fault.mpr (wp_fault.mp h)
  | call op k ih =>
    obtain ⟨hask, hk⟩ := wp_call.mp h
    exact wp_call.mpr ⟨hask, fun r w' hr => ih r (hk r w' hr) (hI w op r w' hask hw hr)⟩
  | loop s body k ihb ih =>
    refine wp_loop (fun s w => wp E ok (.loop s body k) Q w ∧ I w) ⟨h, hw⟩ ?_
    rintro s w ⟨hloop, hw⟩
    refine (ihb s (wp_loop_unfold.mp hloop) hw).mono ?_
    rintro i w' ⟨hpost, hw'⟩
    cases i with
    | next s' => exact ⟨hpost, hw'⟩
    | done b => exact ih b hpost hw'

end Effects
