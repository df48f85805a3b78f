import BaseUtilities.Effects.Trace
import Mathlib.Logic.Relation

/-!
# Interrupts

An environment in which other things happen before it answers a call: any number of steps of a relation
on its state.  What these steps keep holds at every answer.
-/

open Relation

namespace Effects

variable {Op : Type} {Res : Op → Type} {W α β : Type}

/-- Steps of `I` before each answer of `E`. -/
def interrupted (I : W → W → Prop) (E : Env Op Res W) : Env Op Res W :=
  fun w op r w' => ∃ w₁, ReflTransGen I w w₁ ∧ E w₁ op r w'

/-- What every interrupt keeps, any number of them keep. -/
theorem kept_interrupts {I : W → W → Prop} {J : W → Prop} {w w' : W} (hJ : ∀ w w', J w → I w w' → J w')
    (hw : J w) (h : ReflTransGen I w w') : J w' := by
  induction h with
  | refl => exact hw
  | tail _ hstep ih => exact hJ _ _ ih hstep

/-- A call in front of a program, with what the interrupts keep. -/
theorem wp_interrupted {I : W → W → Prop} {E : Env Op Res W} {ok : Stop Op → W → Prop} {J : W → Prop}
    {op : Op} {f : Res op → Prog Op Res β} {Q : β → W → Prop} {w : W}
    (hJ : ∀ w w', J w → I w w' → J w') (hask : ok (.asking op) w) (hw : J w)
    (h : ∀ w₁ r w', J w₁ → E w₁ op r w' → wp (interrupted I E) ok (f r) Q w') :
    wp (interrupted I E) ok (Prog.perform op >>= f) Q w :=
  wp_ask hask fun r w' hr => by
    obtain ⟨w₁, hsteps, hr⟩ := hr
    exact h w₁ r w' (kept_interrupts hJ hw hsteps) hr

/-- Nothing needs to happen in between. -/
theorem Path.interrupted {I : W → W → Prop} {E : Env Op Res W} {w w' : W} {es : Trace Op Res}
    (h : Path E w es w') : Path (interrupted I E) w es w' := by
  induction h with
  | nil => exact .nil
  | cons he _ ih => exact .cons ⟨_, .refl, he⟩ ih

end Effects
