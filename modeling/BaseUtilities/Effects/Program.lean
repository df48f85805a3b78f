import Mathlib.Logic.Basic

/-!
# Programs that call their environment

A program is the tree of the calls it makes: it returns, it calls an operation and continues with
the answer, it runs into undefined behaviour, or it loops.  What the calls answer is left to an
environment, a transition relation on a state of its own.  `Exec` runs a program in an environment
and also relates every *partial* run, stopped at a call that is about to be made, so that safety
statements cover runs that never return.
-/

namespace Effects

/-- The end of one pass through a loop body: go round again, or leave the loop. -/
inductive Iter (σ β : Type) where
  | next (s : σ)
  | done (b : β)
  deriving DecidableEq, Repr

/-- A program over the operations `Op`, whose answers have the types `Res`. -/
inductive Prog (Op : Type) (Res : Op → Type) : Type → Type 1 where
  | ret {α : Type} (a : α) : Prog Op Res α
  | call {α : Type} (op : Op) (k : Res op → Prog Op Res α) : Prog Op Res α
  /-- Undefined behaviour. -/
  | fault {α : Type} : Prog Op Res α
  | loop {σ β α : Type} (s : σ) (body : σ → Prog Op Res (Iter σ β)) (k : β → Prog Op Res α) :
      Prog Op Res α

/-- A point at which a run can stop without having returned. -/
inductive Stop (Op : Type) where
  | asking (op : Op)
  | fault
  deriving DecidableEq, Repr

inductive Outcome (Op α : Type) where
  | returned (a : α)
  | stopped (s : Stop Op)
  deriving DecidableEq, Repr

/-- An environment answers an operation and changes its own state. -/
abbrev Env (Op : Type) (Res : Op → Type) (W : Type) := W → (op : Op) → Res op → W → Prop

variable {Op : Type} {Res : Op → Type} {W α β γ σ : Type}

namespace Prog

def bind : Prog Op Res α → (α → Prog Op Res β) → Prog Op Res β
  | ret a, f => f a
  | call op k, f => call op fun r => bind (k r) f
  | fault, _ => fault
  | loop s body k, f => loop s body fun b => bind (k b) f

instance : Monad (Prog Op Res) where
  pure := ret
  bind := bind

/-- Call one operation and return its answer. -/
def perform (op : Op) : Prog Op Res (Res op) := call op ret

/-- `while (1)`: run the body until it leaves the loop. -/
def forever (s : σ) (body : σ → Prog Op Res (Iter σ β)) : Prog Op Res β := loop s body ret

/-- A value that is undefined behaviour to compute when it is missing. -/
def ofOption : Option α → Prog Op Res α
  | some a => ret a
  | none => fault

@[simp] theorem ofOption_some (a : α) : (ofOption (some a) : Prog Op Res α) = ret a := rfl
@[simp] theorem ofOption_none : (ofOption none : Prog Op Res α) = fault := rfl
@[simp] theorem pure_eq (a : α) : (pure a : Prog Op Res α) = ret a := rfl
@[simp] theorem ret_bind (a : α) (f : α → Prog Op Res β) : ret a >>= f = f a := rfl
@[simp] theorem fault_bind (f : α → Prog Op Res β) : (fault >>= f) = fault := rfl
@[simp] theorem call_bind (op : Op) (k : Res op → Prog Op Res α) (f : α → Prog Op Res β) :
    call op k >>= f = call op fun r => k r >>= f := rfl
@[simp] theorem perform_bind (op : Op) (f : Res op → Prog Op Res β) :
    perform op >>= f = call op f := rfl

theorem bind_ret (p : Prog Op Res α) : p >>= ret = p := by
  induction p with
  | ret a => rfl
  | fault => rfl
  | call op k ih => exact congrArg (call op) (funext ih)
  | loop s body k _ ih => exact congrArg (loop s body) (funext ih)

theorem bind_bind (p : Prog Op Res α) (f : α → Prog Op Res β) (g : β → Prog Op Res γ) :
    p >>= f >>= g = p >>= fun a => f a >>= g := by
  induction p with
  | ret a => rfl
  | fault => rfl
  | call op k ih => exact congrArg (call op) (funext fun r => ih r f)
  | loop s body k _ ih => exact congrArg (loop s body) (funext fun b => ih b f)

instance : LawfulMonad (Prog Op Res) :=
  LawfulMonad.mk' (Prog Op Res) bind_ret (fun _ _ => rfl) bind_bind

end Prog

/-- Passes through a loop body until a run of it leaves the loop or stops. -/
inductive Iterates (R : σ → W → Outcome Op (Iter σ β) → W → Prop) :
    σ → W → Outcome Op β → W → Prop where
  | stopped {s w stop w'} : R s w (.stopped stop) w' → Iterates R s w (.stopped stop) w'
  | done {s w b w'} : R s w (.returned (.done b)) w' → Iterates R s w (.returned b) w'
  | next {s s' w w₁ out w'} : R s w (.returned (.next s')) w₁ → Iterates R s' w₁ out w' →
      Iterates R s w out w'

/-- What follows an outcome: a value is handed on, a stopped run stays stopped. -/
def Outcome.andThen (K : β → W → Outcome Op α → W → Prop) :
    Outcome Op β → W → Outcome Op α → W → Prop
  | .returned b, w, out, w' => K b w out w'
  | .stopped s, w, out, w' => out = .stopped s ∧ w' = w

/-- `Exec E p w out w'`: started in the state `w` of the environment `E`, the program `p` has a run
with outcome `out` that leaves the environment in `w'`. -/
def Exec (E : Env Op Res W) : {α : Type} → Prog Op Res α → W → Outcome Op α → W → Prop
  | _, .ret a, w, out, w' => out = .returned a ∧ w' = w
  | _, .fault, w, out, w' => out = .stopped .fault ∧ w' = w
  | _, .call op k, w, out, w' =>
      (out = .stopped (.asking op) ∧ w' = w) ∨ ∃ r w₁, E w op r w₁ ∧ Exec E (k r) w₁ out w'
  | _, .loop s body k, w, out, w' =>
      ∃ o w₁, Iterates (fun s => Exec E (body s)) s w o w₁ ∧
        o.andThen (fun b => Exec E (k b)) w₁ out w'

theorem Outcome.andThen_assoc {K : β → W → Outcome Op α → W → Prop}
    {L : α → W → Outcome Op γ → W → Prop} {o : Outcome Op β} {w : W} {out : Outcome Op γ} {w' : W} :
    (∃ o₁ w₁, o.andThen K w o₁ w₁ ∧ o₁.andThen L w₁ out w') ↔
      o.andThen (fun b w out w' => ∃ o₁ w₁, K b w o₁ w₁ ∧ o₁.andThen L w₁ out w') w out w' := by
  cases o with
  | returned b => rfl
  | stopped s =>
    constructor
    · rintro ⟨_, _, ⟨rfl, rfl⟩, h⟩
      exact h
    · intro h
      exact ⟨_, _, ⟨rfl, rfl⟩, h⟩

variable {E : Env Op Res W} {w w' : W}

/-- A run of a sequence is a run of its first part followed, if that returns, by one of the rest. -/
theorem exec_bind {p : Prog Op Res α} {f : α → Prog Op Res β} {out : Outcome Op β} :
    Exec E (p >>= f) w out w' ↔
      ∃ o w₁, Exec E p w o w₁ ∧ o.andThen (fun a => Exec E (f a)) w₁ out w' := by
  -- On the first program: a stopped run ends inside of `p`, a returned one goes on into `f`.
  induction p generalizing w with
  | ret a =>
    constructor
    · intro h
      exact ⟨_, _, ⟨rfl, rfl⟩, h⟩
    · rintro ⟨_, _, ⟨rfl, rfl⟩, h⟩
      exact h
  | fault =>
    constructor
    · intro h
      exact ⟨_, _, ⟨rfl, rfl⟩, h⟩
    · rintro ⟨_, _, ⟨rfl, rfl⟩, h⟩
      exact h
  | call op k ih =>
    constructor
    · rintro (⟨rfl, rfl⟩ | ⟨r, w₁, hr, h⟩)
      · exact ⟨_, _, .inl ⟨rfl, rfl⟩, rfl, rfl⟩
      · obtain ⟨o, w₂, ho, h⟩ := (ih r).mp h
        exact ⟨o, w₂, .inr ⟨r, w₁, hr, ho⟩, h⟩
    · rintro ⟨o, w₂, ⟨rfl, rfl⟩ | ⟨r, w₁, hr, ho⟩, h⟩
      · exact .inl h
      · exact .inr ⟨r, w₁, hr, (ih r).mpr ⟨o, w₂, ho, h⟩⟩
  | loop s body k _ ih =>
    -- The loop itself is not split, so it is enough to move `f` past what follows the loop.
    have hk : ∀ b w, Exec E (k b >>= f) w out w' ↔
        ∃ o w₁, Exec E (k b) w o w₁ ∧ o.andThen (fun a => Exec E (f a)) w₁ out w' :=
      fun b _ => ih b
    have hand : ∀ (o : Outcome Op _) w₁,
        o.andThen (fun b => Exec E (k b >>= f)) w₁ out w' ↔
          ∃ o₁ w₂, o.andThen (fun b => Exec E (k b)) w₁ o₁ w₂ ∧
            o₁.andThen (fun a => Exec E (f a)) w₂ out w' := by
      intro o w₁
      rw [Outcome.andThen_assoc]
      cases o with
      | returned b => exact hk b w₁
      | stopped s => rfl
    constructor
    · rintro ⟨o, w₁, hit, h⟩
      obtain ⟨o₁, w₂, h₁, h₂⟩ := (hand o w₁).mp h
      exact ⟨o₁, w₂, ⟨o, w₁, hit, h₁⟩, h₂⟩
    · rintro ⟨o₁, w₂, ⟨o, w₁, hit, h₁⟩, h₂⟩
      exact ⟨o, w₁, hit, (hand o w₁).mpr ⟨o₁, w₂, h₁, h₂⟩⟩

/-- Two returning runs in sequence. -/
theorem Exec.bind {p : Prog Op Res α} {f : α → Prog Op Res β} {out : Outcome Op β} {a : α} {w₁ : W}
    (hp : Exec E p w (.returned a) w₁) (hf : Exec E (f a) w₁ out w') :
    Exec E (p >>= f) w out w' :=
  exec_bind.mpr ⟨_, _, hp, hf⟩

theorem Exec.ret {a : α} : Exec E (.ret a) w (.returned a) w := ⟨rfl, rfl⟩

theorem Exec.call {op : Op} {k : Res op → Prog Op Res α} {out : Outcome Op α} {r : Res op} {w₁ : W}
    (hr : E w op r w₁) (hk : Exec E (k r) w₁ out w') : Exec E (.call op k) w out w' :=
  .inr ⟨r, w₁, hr, hk⟩

/-- One more pass through a loop in front of a run of it. -/
theorem Exec.loop_next {s s' : σ} {body : σ → Prog Op Res (Iter σ β)} {k : β → Prog Op Res α}
    {out : Outcome Op α} {w₁ : W} (hb : Exec E (body s) w (.returned (.next s')) w₁)
    (hl : Exec E (.loop s' body k) w₁ out w') : Exec E (.loop s body k) w out w' := by
  obtain ⟨o, w₂, hit, h⟩ := hl
  exact ⟨o, w₂, .next hb hit, h⟩

theorem Exec.loop_done {s : σ} {body : σ → Prog Op Res (Iter σ β)} {k : β → Prog Op Res α}
    {b : β} {out : Outcome Op α} {w₁ : W} (hb : Exec E (body s) w (.returned (.done b)) w₁)
    (hk : Exec E (k b) w₁ out w') : Exec E (.loop s body k) w out w' :=
  ⟨_, _, .done hb, hk⟩

theorem Exec.loop_stopped {s : σ} {body : σ → Prog Op Res (Iter σ β)} {k : β → Prog Op Res α}
    {stop : Stop Op} (hb : Exec E (body s) w (.stopped stop) w') :
    Exec E (.loop s body k) w (.stopped stop) w' :=
  ⟨_, _, .stopped hb, rfl, rfl⟩

end Effects
