import BaseUtilities.Effects.Trace
import Mathlib.Logic.Function.Basic

/-!
# Tasks

Programs that share a processor and a world.  A task runs until a call after which it yields; `Turn`
is such a stretch of its program, and `turn` its precondition.  `Tasks.Reaches` says what turns in any
order can come to, and `Tasks.sound` is the induction over them.
-/

namespace Effects

variable {Op : Type} {Res : Op → Type} {W α β σ : Type}

/-- The end of a turn: the task is done, or it goes on with another program, or it has stopped on its
way. -/
inductive Pause (Op : Type) (Res : Op → Type) (α : Type) where
  | finished (a : α)
  | yielded (p : Prog Op Res α)
  | stopped (s : Stop Op)

/-- What a loop goes on with after a pass through its body. -/
def Iter.onward (body : σ → Prog Op Res (Iter σ β)) (k : β → Prog Op Res α) : Iter σ β → Prog Op Res α
  | .next s => .loop s body k
  | .done b => k b

/-- `Turn E yields p w o w'`: the task `p` has the processor and the world is in the state `w`. -/
inductive Turn (E : Env Op Res W) (yields : Op → W → Prop) :
    Prog Op Res α → W → Pause Op Res α → W → Prop where
  | ret {a w} : Turn E yields (.ret a) w (.finished a) w
  | fault {w} : Turn E yields .fault w (.stopped .fault) w
  | asking {op k w} : Turn E yields (.call op k) w (.stopped (.asking op)) w
  | yield {op k w r w'} : E w op r w' → yields op w' → Turn E yields (.call op k) w (.yielded (k r)) w'
  | call {op k w r w₁ o w'} : E w op r w₁ → ¬yields op w₁ → Turn E yields (k r) w₁ o w' →
      Turn E yields (.call op k) w o w'
  | loop {σ β : Type} {s : σ} {body : σ → Prog Op Res (Iter σ β)} {k w o w'} :
      Turn E yields (body s >>= Iter.onward body k) w o w' → Turn E yields (.loop s body k) w o w'

/-- What the end of a turn has to satisfy. -/
def Pause.Meets (ok : Stop Op → W → Prop) (Q : α → W → Prop) (Y : Prog Op Res α → W → Prop) :
    Pause Op Res α → W → Prop
  | .finished a, w => Q a w
  | .yielded p, w => Y p w
  | .stopped s, w => ok s w

/-- Every turn of `p` from `w` meets `Q` where the task is done, `Y` where it yields, and `ok` on its
way. -/
def turn (E : Env Op Res W) (ok : Stop Op → W → Prop) (yields : Op → W → Prop) (p : Prog Op Res α)
    (Q : α → W → Prop) (Y : Prog Op Res α → W → Prop) (w : W) : Prop :=
  ∀ o w', Turn E yields p w o w' → o.Meets ok Q Y w'

section

variable {E : Env Op Res W} {ok : Stop Op → W → Prop} {yields : Op → W → Prop} {Q : α → W → Prop}
  {Y : Prog Op Res α → W → Prop} {w : W}

theorem turn_mono {Q' : α → W → Prop} {Y' : Prog Op Res α → W → Prop} {p : Prog Op Res α}
    (h : turn E ok yields p Q Y w) (hQ : ∀ a w, Q a w → Q' a w) (hY : ∀ p w, Y p w → Y' p w) :
    turn E ok yields p Q' Y' w := by
  intro o w' hturn
  have hmeets := h o w' hturn
  cases o with
  | finished a => exact hQ a w' hmeets
  | yielded q => exact hY q w' hmeets
  | stopped s => exact hmeets

theorem turn_ret {a : α} (h : Q a w) : turn E ok yields (.ret a) Q Y w := by
  rintro _ _ ⟨⟩
  exact h

theorem turn_call {op : Op} {k : Res op → Prog Op Res α} (hasks : ok (.asking op) w)
    (hk : ∀ r w', E w op r w' →
      (yields op w' → Y (k r) w') ∧ (¬yields op w' → turn E ok yields (k r) Q Y w')) :
    turn E ok yields (.call op k) Q Y w := by
  intro o w' h
  cases h with
  | asking => exact hasks
  | yield hr hy => exact (hk _ _ hr).1 hy
  | call hr hn h => exact (hk _ _ hr).2 hn _ _ h

theorem turn_loop {s : σ} {body : σ → Prog Op Res (Iter σ β)} {k : β → Prog Op Res α}
    (h : turn E ok yields (body s >>= Iter.onward body k) Q Y w) :
    turn E ok yields (.loop s body k) Q Y w := by
  intro o w' hturn
  cases hturn with
  | loop hturn => exact h _ _ hturn

theorem onward_bind (body : σ → Prog Op Res (Iter σ β)) {γ : Type} (k : β → Prog Op Res γ)
    (f : γ → Prog Op Res α) (i : Iter σ β) :
    Iter.onward body k i >>= f = Iter.onward body (fun b => k b >>= f) i := by
  cases i <;> rfl

theorem turn_bind_ret {b : β} {f : β → Prog Op Res α} {Z : Prog Op Res β → W → Prop}
    (h : turn E ok yields (.ret b) (fun b w => turn E ok yields (f b) Q Y w) Z w) {q : Prog Op Res α}
    (hq : Prog.ret b >>= f = q) {o : Pause Op Res α} {w' : W} (hturn : Turn E yields q w o w') :
    o.Meets ok Q Y w' := by
  subst hq
  exact h _ _ .ret _ _ hturn

/-- The sequencing rule. -/
theorem turn_bind {p : Prog Op Res β} {f : β → Prog Op Res α}
    (h : turn E ok yields p (fun b w => turn E ok yields (f b) Q Y w) (fun q w => Y (q >>= f) w) w) :
    turn E ok yields (p >>= f) Q Y w := by
  intro o w' hturn
  generalize hq : p >>= f = q at hturn
  -- On the turn of `p >>= f`, whose first step is one of `p` unless `p` has already returned.
  induction hturn generalizing p with
  | ret =>
    cases p with
    | ret b => exact turn_bind_ret h hq .ret
    | _ => cases hq
  | fault =>
    cases p with
    | ret b => exact turn_bind_ret h hq .fault
    | fault => exact h _ _ .fault
    | _ => cases hq
  | asking =>
    cases p with
    | ret b => exact turn_bind_ret h hq .asking
    | call op k =>
      cases hq
      exact h _ _ .asking
    | _ => cases hq
  | yield hr hy =>
    cases p with
    | ret b => exact turn_bind_ret h hq (.yield hr hy)
    | call op k =>
      cases hq
      exact h _ _ (.yield hr hy)
    | _ => cases hq
  | call hr hn hturn ih =>
    cases p with
    | ret b => exact turn_bind_ret h hq (.call hr hn hturn)
    | call op k =>
      cases hq
      exact ih (fun o w' hk => h o w' (.call hr hn hk)) rfl
    | _ => cases hq
  | loop hturn ih =>
    cases p with
    | ret b => exact turn_bind_ret h hq (.loop hturn)
    | loop s body k =>
      cases hq
      refine ih (fun o w' hk => h o w' (.loop hk)) ?_
      -- One unrolling of a loop puts the rest of the loop behind the body, so `f` is moved past both.
      rw [Prog.bind_bind]
      exact congrArg (_ >>= ·) (funext fun i => onward_bind _ k f i)
    | _ => cases hq

end

/-! ## Tasks that take turns -/

/-- Tasks `A` over one world.  `enter a` is the world when `a` gets the processor, and `ready a` says
that it may. -/
structure Tasks (Op : Type) (Res : Op → Type) (A W : Type) where
  env : Env Op Res W
  yields : Op → W → Prop
  enter : A → W → W
  ready : A → W → Prop

namespace Tasks

variable {A : Type} [DecidableEq A] {T : Tasks Op Res A W} {ok : Stop Op → W → Prop}
  {Inv : (A → Prog Op Res Unit) → W → Prop} {ps ps' : A → Prog Op Res Unit} {w w' : W}

/-- `T.Reaches ps w ps' w'`: turns lead from the programs `ps` to `ps'`. -/
inductive Reaches (T : Tasks Op Res A W) (ps : A → Prog Op Res Unit) (w : W) :
    (A → Prog Op Res Unit) → W → Prop where
  | start : Reaches T ps w ps w
  | yielded {ps₁ w₁ p w₂} (a : A) : Reaches T ps w ps₁ w₁ → T.ready a w₁ →
      Turn T.env T.yields (ps₁ a) (T.enter a w₁) (.yielded p) w₂ →
      Reaches T ps w (Function.update ps₁ a p) w₂
  | finished {ps₁ w₁ w₂} (a : A) : Reaches T ps w ps₁ w₁ → T.ready a w₁ →
      Turn T.env T.yields (ps₁ a) (T.enter a w₁) (.finished ()) w₂ →
      Reaches T ps w (Function.update ps₁ a (.ret ())) w₂

/-- Whatever turns come to, `Q` holds between two turns and `ok` wherever a turn has stopped. -/
def Sound (T : Tasks Op Res A W) (ok : Stop Op → W → Prop) (Q : (A → Prog Op Res Unit) → W → Prop)
    (ps : A → Prog Op Res Unit) (w : W) : Prop :=
  ∀ ps' w', T.Reaches ps w ps' w' → Q ps' w' ∧
    ∀ a stop w₂, T.ready a w' → Turn T.env T.yields (ps' a) (T.enter a w') (.stopped stop) w₂ →
      ok stop w₂

/-- `Inv` is kept by a turn of `a`. -/
def Kept (T : Tasks Op Res A W) (ok : Stop Op → W → Prop) (Inv : (A → Prog Op Res Unit) → W → Prop)
    (a : A) (ps : A → Prog Op Res Unit) (w : W) : Prop :=
  turn T.env ok T.yields (ps a) (fun _ w' => Inv (Function.update ps a (.ret ())) w')
    (fun p w' => Inv (Function.update ps a p) w') (T.enter a w)

theorem Reaches.invariant (h : T.Reaches ps w ps' w') (hinit : Inv ps w)
    (hturn : ∀ ps w a, Inv ps w → T.ready a w → T.Kept ok Inv a ps w) : Inv ps' w' := by
  induction h with
  | start => exact hinit
  | yielded a _ hready ht ih => exact hturn _ _ a ih hready _ _ ht
  | finished a _ hready ht ih => exact hturn _ _ a ih hready _ _ ht

/-- What every turn keeps holds of all that turns come to. -/
theorem sound {Q : (A → Prog Op Res Unit) → W → Prop} (Inv : (A → Prog Op Res Unit) → W → Prop)
    (hinit : Inv ps w) (hturn : ∀ ps w a, Inv ps w → T.ready a w → T.Kept ok Inv a ps w)
    (hQ : ∀ ps w, Inv ps w → Q ps w) : T.Sound ok Q ps w := by
  intro ps' w' h
  have hinv := h.invariant hinit hturn
  exact ⟨hQ _ _ hinv, fun a stop w₂ hready ht => hturn _ _ a hinv hready _ _ ht⟩

end Tasks

end Effects
