import BaseUtilities.Effects.Tasks

/-!
# Flow charts

Tasks that may lose the processor at every call.  A chart names the points of a program and says which
call is made at each of them and what follows on its answer.  Where the tasks follow a chart, what
turns come to is known from the points alone: `Chart.sound` is the induction with one case for each
point.
-/

namespace Effects

variable {Op : Type} {Res : Op → Type} {W α β σ A P : Type}

/-- `Asks p op k`: the program `p` calls `op` first, and goes on as `k` says. -/
inductive Asks : Prog Op Res α → (op : Op) → (Res op → Prog Op Res α) → Prop where
  | call {op : Op} {k : Res op → Prog Op Res α} : Asks (.call op k) op k
  | loop {σ β : Type} {s : σ} {body : σ → Prog Op Res (Iter σ β)} {k : β → Prog Op Res α} {op : Op}
      {k' : Res op → Prog Op Res α} : Asks (body s >>= Iter.onward body k) op k' →
      Asks (.loop s body k) op k'

/-- A program has one call that is next. -/
theorem asks_unique {p : Prog Op Res α} {op op' : Op} {k : Res op → Prog Op Res α}
    {k' : Res op' → Prog Op Res α} (h : Asks p op k) (h' : Asks p op' k') : op = op' := by
  induction h with
  | call =>
    cases h'
    rfl
  | loop _ ih =>
    cases h' with
    | loop h' => exact ih h'

/-- A turn where every call yields. -/
theorem turn_asks {E : Env Op Res W} {ok : Stop Op → W → Prop} {yields : Op → W → Prop}
    {Q : α → W → Prop} {Y : Prog Op Res α → W → Prop} {p : Prog Op Res α} {op : Op}
    {k : Res op → Prog Op Res α} {w : W} (hyields : ∀ op w, yields op w) (h : Asks p op k)
    (hasks : ok (.asking op) w) (hk : ∀ r w', E w op r w' → Y (k r) w') :
    turn E ok yields p Q Y w := by
  induction h with
  | call => exact turn_call hasks fun r w' hr => ⟨fun _ => hk r w' hr, fun hno => absurd (hyields _ _) hno⟩
  | loop _ ih => exact turn_loop (ih hasks hk)

/-- The points of a program, and the call at each of them with what follows; a program without a call
is at its end. -/
structure Chart (Op : Type) (Res : Op → Type) (P : Type) where
  program : P → Prog Op Res Unit
  step : P → Option (Σ op : Op, Res op → P)

namespace Chart

/-- The chart says what the programs do. -/
def Correct (C : Chart Op Res P) : Prop :=
  ∀ p, match C.step p with
    | none => C.program p = .ret ()
    | some ⟨op, next⟩ => Asks (C.program p) op fun r => C.program (next r)

/-- The programs of the tasks at given points. -/
def programs (C : Chart Op Res P) (points : A → P) (a : A) : Prog Op Res Unit := C.program (points a)

variable [DecidableEq A] {C : Chart Op Res P} {T : Tasks Op Res A W} {ok : Stop Op → W → Prop}
  {J : (A → P) → W → Prop} {points : A → P} {w : W}

theorem programs_update (C : Chart Op Res P) (points : A → P) (a : A) (p : P) :
    Function.update (C.programs points) a (C.program p) = C.programs (Function.update points a p) := by
  funext b
  by_cases hba : b = a
  · subst hba
    rw [programs, Function.update_self, Function.update_self]
  · rw [programs, Function.update_of_ne hba, Function.update_of_ne hba, programs]

/-- What the call at a point has to keep. -/
def Kept (C : Chart Op Res P) (T : Tasks Op Res A W) (ok : Stop Op → W → Prop) (J : (A → P) → W → Prop)
    (a : A) (points : A → P) (w : W) : Prop :=
  match C.step (points a) with
  | none => J points (T.enter a w)
  | some ⟨op, next⟩ => ok (.asking op) (T.enter a w) ∧
    ∀ r w', T.env (T.enter a w) op r w' → J (Function.update points a (next r)) w'

theorem kept_turn (hcorrect : C.Correct) (hyields : ∀ op w, T.yields op w) {a : A}
    (h : C.Kept T ok J a points w) :
    T.Kept ok (fun ps w => ∃ points, ps = C.programs points ∧ J points w) a (C.programs points) w := by
  have hpoint := hcorrect (points a)
  rw [Chart.Kept] at h
  split at hpoint
  · next hstep =>
    rw [hstep] at h
    have hret : C.programs points a = .ret () := hpoint
    rw [Tasks.Kept, hret]
    refine turn_ret ⟨points, ?_, h⟩
    rw [← hret, Function.update_eq_self]
  · next op next hstep =>
    rw [hstep] at h
    refine turn_asks hyields hpoint h.1 fun r w' hr => ?_
    exact ⟨_, programs_update C points a (next r), h.2 r w' hr⟩

/-- What the call at every point keeps holds of all that turns come to. -/
theorem sound (hcorrect : C.Correct) (hyields : ∀ op w, T.yields op w)
    {Q : (A → Prog Op Res Unit) → W → Prop} (J : (A → P) → W → Prop) (hinit : J points w)
    (hkept : ∀ points w a, J points w → T.ready a w → C.Kept T ok J a points w)
    (hQ : ∀ points w, J points w → Q (C.programs points) w) : T.Sound ok Q (C.programs points) w := by
  refine Tasks.sound (fun ps w => ∃ points, ps = C.programs points ∧ J points w) ⟨points, rfl, hinit⟩ ?_ ?_
  · rintro _ w a ⟨points, rfl, h⟩ hready
    exact kept_turn hcorrect hyields (hkept points w a h hready)
  · rintro _ w ⟨points, rfl, h⟩
    exact hQ points w h

/-! ## Runs -/

theorem turn_yields {E : Env Op Res W} {yields : Op → W → Prop} {p : Prog Op Res α} {op : Op}
    {k : Res op → Prog Op Res α} {w w' : W} {r : Res op} (h : Asks p op k) (hr : E w op r w')
    (hy : yields op w') : Turn E yields p w (.yielded (k r)) w' := by
  induction h with
  | call => exact .yield hr hy
  | loop _ ih => exact .loop (ih hr hy)

theorem turn_stops {E : Env Op Res W} {yields : Op → W → Prop} {p : Prog Op Res α} {op : Op}
    {k : Res op → Prog Op Res α} {w : W} (h : Asks p op k) :
    Turn E yields p w (.stopped (.asking op)) w := by
  induction h with
  | call => exact .asking
  | loop _ ih => exact .loop ih

/-- Run tasks on their answers, each at its point. -/
def replay [DecidableEq Op] (C : Chart Op Res P) (allows : W → Event Op Res → Prop)
    [∀ w e, Decidable (allows w e)] (after : W → Event Op Res → W) (points : A → P) (w : W) :
    List (A × Event Op Res) → Option ((A → P) × W)
  | [] => some (points, w)
  | (a, ⟨op, r⟩) :: tape =>
    match C.step (points a) with
    | none => none
    | some ⟨op', next⟩ =>
      if h : op = op' then
        if allows w ⟨op, r⟩ then
          replay C allows after (Function.update points a (next (h ▸ r))) (after w ⟨op, r⟩) tape
        else none
      else none

/-- What a replay computes is reached, where nothing keeps the tasks from running. -/
theorem replay_reaches [DecidableEq Op] {allows : W → Event Op Res → Prop}
    [∀ w e, Decidable (allows w e)] {after : W → Event Op Res → W} (hcorrect : C.Correct)
    (henv : T.env = watching allows after) (hyields : ∀ op w, T.yields op w)
    (henter : ∀ a w, T.enter a w = w) (hready : ∀ a w, T.ready a w)
    {ps : A → Prog Op Res Unit} {w₀ : W} {tape : List (A × Event Op Res)} {points' : A → P} {w' : W}
    (hreach : T.Reaches ps w₀ (C.programs points) w)
    (h : C.replay allows after points w tape = some (points', w')) :
    T.Reaches ps w₀ (C.programs points') w' := by
  induction tape generalizing points w with
  | nil =>
    cases h
    exact hreach
  | cons event tape ih =>
    obtain ⟨a, op, r⟩ := event
    rw [replay] at h
    have hpoint := hcorrect (points a)
    split at h
    · cases h
    · next op' next hstep =>
      rw [hstep] at hpoint
      split at h
      · next hop =>
        subst hop
        split at h
        · next hallows =>
          -- Taking the turn leaves the world alone (`henter`), so the call is made in the world of the
          -- replay and ends in the one it computes.
          have hr : T.env (T.enter a w) op r (after w ⟨op, r⟩) := by
            rw [henv, henter]
            exact ⟨hallows, rfl⟩
          -- Every call hands the processor on (`hyields`): the turn ends exactly here, at the next point.
          have hturn := hreach.yielded a (hready a w) (turn_yields hpoint hr (hyields _ _))
          rw [programs_update] at hturn
          exact ih hturn h
        · cases h
      · cases h

/-- A property of where a replay ends. -/
def replays [DecidableEq Op] (C : Chart Op Res P) (allows : W → Event Op Res → Prop)
    [∀ w e, Decidable (allows w e)] (after : W → Event Op Res → W) (points : A → P) (w : W)
    (tape : List (A × Event Op Res)) (Q : (A → P) → W → Bool) : Bool :=
  match C.replay allows after points w tape with
  | some (points', w') => Q points' w'
  | none => false

theorem replays_reaches [DecidableEq Op] {allows : W → Event Op Res → Prop}
    [∀ w e, Decidable (allows w e)] {after : W → Event Op Res → W} (hcorrect : C.Correct)
    (henv : T.env = watching allows after) (hyields : ∀ op w, T.yields op w)
    (henter : ∀ a w, T.enter a w = w) (hready : ∀ a w, T.ready a w)
    {tape : List (A × Event Op Res)} {Q : (A → P) → W → Bool}
    (h : C.replays allows after points w tape Q = true) :
    ∃ points' w', T.Reaches (C.programs points) w (C.programs points') w' ∧ Q points' w' = true := by
  rw [replays] at h
  split at h
  · next points' w' hreplay =>
    exact ⟨points', w', replay_reaches hcorrect henv hyields henter hready .start hreplay, h⟩
  · cases h

end Chart

end Effects
