import BaseUtilities.Effects.Logic

/-!
# Traces

The calls of a run with their answers, in order.  `watching` is the environment that answers as it is
allowed to and keeps a record of the answers, and `Prog.replay` runs a program on a given trace, so
that a concrete run can be computed and then placed in any environment that allows its events.
-/

namespace Effects

variable {Op : Type} {Res : Op → Type} {W α β σ : Type}

/-- A call with its answer. -/
abbrev Event (Op : Type) (Res : Op → Type) := Σ op : Op, Res op

abbrev Trace (Op : Type) (Res : Op → Type) := List (Event Op Res)

/-- The environment that allows some events in a state and goes on as `after` says. -/
def watching (allows : W → Event Op Res → Prop) (after : W → Event Op Res → W) : Env Op Res W :=
  fun w op r w' => allows w ⟨op, r⟩ ∧ w' = after w ⟨op, r⟩

/-- The environment that answers anything and keeps a record. -/
def recording : Env Op Res (Trace Op Res) := watching (fun _ _ => True) fun t e => t ++ [e]

/-- `Path E w es w'`: the environment `E` goes from `w` to `w'` through the events `es`. -/
inductive Path (E : Env Op Res W) : W → Trace Op Res → W → Prop where
  | nil {w} : Path E w [] w
  | cons {w op r w₁ es w'} : E w op r w₁ → Path E w₁ es w' → Path E w (⟨op, r⟩ :: es) w'

theorem Path.append {E : Env Op Res W} {w w₁ w' : W} {es fs : Trace Op Res} (h : Path E w es w₁)
    (h' : Path E w₁ fs w') : Path E w (es ++ fs) w' := by
  induction h with
  | nil => exact h'
  | cons he _ ih => exact .cons he (ih h')

theorem Path.of_append {E : Env Op Res W} {w w' : W} {es fs : Trace Op Res}
    (h : Path E w (es ++ fs) w') : ∃ w₁, Path E w es w₁ ∧ Path E w₁ fs w' := by
  induction es generalizing w with
  | nil => exact ⟨w, .nil, h⟩
  | cons e es ih =>
    cases h with
    | cons he h =>
      obtain ⟨w₁, h₁, h₂⟩ := ih h
      exact ⟨w₁, .cons he h₁, h₂⟩

/-- Every event of a trace is allowed after the ones before it. -/
def Allowed (allows : W → Event Op Res → Prop) (after : W → Event Op Res → W) :
    W → Trace Op Res → Prop
  | _, [] => True
  | w, e :: es => allows w e ∧ Allowed allows after (after w e) es

instance Allowed.decidable {allows : W → Event Op Res → Prop} {after : W → Event Op Res → W}
    [h : ∀ w e, Decidable (allows w e)] : ∀ w es, Decidable (Allowed allows after w es)
  | _, [] => .isTrue trivial
  | w, e :: es => @instDecidableAnd _ _ (h w e) (Allowed.decidable (after w e) es)

theorem path_watching {allows : W → Event Op Res → Prop} {after : W → Event Op Res → W} {w : W}
    {es : Trace Op Res} (h : Allowed allows after w es) :
    Path (watching allows after) w es (es.foldl after w) := by
  induction es generalizing w with
  | nil => exact .nil
  | cons e es ih => exact .cons ⟨h.1, rfl⟩ (ih h.2)

/-! ## Replaying a trace -/

/-- At most `fuel` passes through a loop whose body is replayed by `step`. -/
def replayLoop (step : σ → Trace Op Res → Option (Outcome Op (Iter σ β) × Trace Op Res)) :
    Nat → σ → Trace Op Res → Option (Outcome Op β × Trace Op Res)
  | 0, _, _ => none
  | fuel + 1, s, tape =>
    match step s tape with
    | none => none
    | some (.returned (.next s'), rest) => replayLoop step fuel s' rest
    | some (.returned (.done b), rest) => some (.returned b, rest)
    | some (.stopped stop, rest) => some (.stopped stop, rest)

/-- Run a program on the answers of a trace.  The result is `none` when the program calls something
else than the trace answers, or a loop goes round more than `fuel` times. -/
def Prog.replay [DecidableEq Op] (fuel : Nat) :
    {α : Type} → Prog Op Res α → Trace Op Res → Option (Outcome Op α × Trace Op Res)
  | _, .ret a, tape => some (.returned a, tape)
  | _, .fault, tape => some (.stopped .fault, tape)
  | _, .call op k, tape =>
    match tape with
    | [] => some (.stopped (.asking op), [])
    | ⟨op', r⟩ :: rest => if h : op' = op then (k (h ▸ r)).replay fuel rest else none
  | _, .loop s body k, tape =>
    match replayLoop (fun s => (body s).replay fuel) fuel s tape with
    | none => none
    | some (.returned b, rest) => (k b).replay fuel rest
    | some (.stopped stop, rest) => some (.stopped stop, rest)

theorem replayLoop_sound {E : Env Op Res W} {body : σ → Prog Op Res (Iter σ β)}
    {step : σ → Trace Op Res → Option (Outcome Op (Iter σ β) × Trace Op Res)}
    (hstep : ∀ s tape out rest, step s tape = some (out, rest) →
      ∃ used, tape = used ++ rest ∧ ∀ w w', Path E w used w' → Exec E (body s) w out w')
    {fuel : Nat} {s : σ} {tape : Trace Op Res} {out : Outcome Op β} {rest : Trace Op Res}
    (h : replayLoop step fuel s tape = some (out, rest)) :
    ∃ used, tape = used ++ rest ∧
      ∀ w w', Path E w used w' → Iterates (fun s => Exec E (body s)) s w out w' := by
  -- The fuel bounds the iterations replayed, not the calls of one of them.
  induction fuel generalizing s tape with
  | zero => simp [replayLoop] at h
  | succ fuel ih =>
    rw [replayLoop] at h
    split at h
    · cases h
    · next s' mid heq =>
      obtain ⟨used, rfl, hused⟩ := hstep _ _ _ _ heq
      obtain ⟨used', rfl, hused'⟩ := ih h
      refine ⟨used ++ used', by rw [List.append_assoc], fun w w' hp => ?_⟩
      obtain ⟨w₁, h₁, h₂⟩ := hp.of_append
      exact .next (hused _ _ h₁) (hused' _ _ h₂)
    · next b mid heq =>
      cases h
      obtain ⟨used, rfl, hused⟩ := hstep _ _ _ _ heq
      exact ⟨used, rfl, fun w w' hp => .done (hused _ _ hp)⟩
    · next stop mid heq =>
      cases h
      obtain ⟨used, rfl, hused⟩ := hstep _ _ _ _ heq
      exact ⟨used, rfl, fun w w' hp => .stopped (hused _ _ hp)⟩

/-- What a replay computes is a run in every environment that allows the events it used. -/
theorem Prog.replay_sound [DecidableEq Op] {E : Env Op Res W} {fuel : Nat} {p : Prog Op Res α}
    {tape rest : Trace Op Res} {out : Outcome Op α} (h : p.replay fuel tape = some (out, rest)) :
    ∃ used, tape = used ++ rest ∧ ∀ w w', Path E w used w' → Exec E p w out w' := by
  -- A replay takes a prefix `used` of the tape off; the program runs on that prefix wherever it leads.
  induction p generalizing tape rest with
  | ret a =>
    cases h
    refine ⟨[], rfl, fun w w' hp => ?_⟩
    cases hp
    exact ⟨rfl, rfl⟩
  | fault =>
    cases h
    refine ⟨[], rfl, fun w w' hp => ?_⟩
    cases hp
    exact ⟨rfl, rfl⟩
  | call op k ih =>
    rw [Prog.replay.eq_def] at h
    match tape with
    -- An empty tape: the program stands at its call, which is a run that stopped there.
    | [] =>
      cases h
      refine ⟨[], rfl, fun w w' hp => ?_⟩
      cases hp
      exact .inl ⟨rfl, rfl⟩
    | ⟨op', r⟩ :: tape =>
      simp only at h
      split at h
      · next hop =>
        subst hop
        obtain ⟨used, rfl, hused⟩ := ih r h
        refine ⟨⟨op', r⟩ :: used, rfl, fun w w' hp => ?_⟩
        cases hp with
        | cons he hp => exact .call he (hused _ _ hp)
      · cases h
  | loop s body k ihb ih =>
    rw [Prog.replay] at h
    split at h
    · cases h
    · next b mid heq =>
      obtain ⟨used, rfl, hused⟩ := replayLoop_sound (fun s _ _ _ hs => ihb s hs) heq
      obtain ⟨used', rfl, hused'⟩ := ih b h
      refine ⟨used ++ used', by rw [List.append_assoc], fun w w' hp => ?_⟩
      obtain ⟨w₁, h₁, h₂⟩ := hp.of_append
      exact ⟨_, _, hused _ _ h₁, hused' _ _ h₂⟩
    · next stop mid heq =>
      cases h
      obtain ⟨used, rfl, hused⟩ := replayLoop_sound (fun s _ _ _ hs => ihb s hs) heq
      exact ⟨used, rfl, fun w w' hp => ⟨_, _, hused _ _ hp, rfl, rfl⟩⟩

/-- A replay that uses up its trace. -/
theorem Prog.replay_exec [DecidableEq Op] {E : Env Op Res W} {fuel : Nat} {p : Prog Op Res α}
    {tape : Trace Op Res} {out : Outcome Op α} {w w' : W} (h : p.replay fuel tape = some (out, []))
    (hp : Path E w tape w') : Exec E p w out w' := by
  obtain ⟨used, rfl, hused⟩ := Prog.replay_sound h
  exact hused w w' (by simpa using hp)

/-- A property of how a replay ends, on a trace that it uses up. -/
def Prog.replays [DecidableEq Op] (fuel : Nat) (p : Prog Op Res α) (tape : Trace Op Res)
    (P : Outcome Op α → Bool) : Bool :=
  match p.replay fuel tape with
  | some (out, []) => P out
  | _ => false

theorem Prog.replays_exec [DecidableEq Op] {E : Env Op Res W} {fuel : Nat} {p : Prog Op Res α}
    {tape : Trace Op Res} {P : Outcome Op α → Bool} {w w' : W} (h : p.replays fuel tape P = true)
    (hp : Path E w tape w') : ∃ out, Exec E p w out w' ∧ P out = true := by
  rw [Prog.replays] at h
  split at h
  · next out heq => exact ⟨out, Prog.replay_exec heq hp, h⟩
  · cases h

/-- A property of the value that a replay returns. -/
def Outcome.returns (P : α → Bool) : Outcome Op α → Bool
  | .returned a => P a
  | .stopped _ => false

/-- A property of the call that a replay stops at. -/
def Outcome.asks (P : Op → Bool) : Outcome Op α → Bool
  | .returned _ => false
  | .stopped .fault => false
  | .stopped (.asking op) => P op

theorem Prog.replays_returned [DecidableEq Op] {E : Env Op Res W} {fuel : Nat} {p : Prog Op Res α}
    {tape : Trace Op Res} {P : α → Bool} {w w' : W} (h : p.replays fuel tape (Outcome.returns P) = true)
    (hp : Path E w tape w') : ∃ a, Exec E p w (.returned a) w' ∧ P a = true := by
  obtain ⟨out, hexec, hout⟩ := Prog.replays_exec h hp
  cases out with
  | returned a => exact ⟨a, hexec, hout⟩
  | stopped stop => cases hout

theorem Prog.replays_asking [DecidableEq Op] {E : Env Op Res W} {fuel : Nat} {p : Prog Op Res α}
    {tape : Trace Op Res} {P : Op → Bool} {w w' : W} (h : p.replays fuel tape (Outcome.asks P) = true)
    (hp : Path E w tape w') : ∃ op, Exec E p w (.stopped (.asking op)) w' ∧ P op = true := by
  obtain ⟨out, hexec, hout⟩ := Prog.replays_exec h hp
  cases out with
  | returned a => cases hout
  | stopped stop =>
    cases stop with
    | asking op => exact ⟨op, hexec, hout⟩
    | fault => cases hout

end Effects
