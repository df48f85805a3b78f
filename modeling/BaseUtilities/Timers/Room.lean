import BaseUtilities.Timers.Points

/-!
# Room in the queue

The callback of `delay_exec` posts to the queue that its own task empties.  It is never blocked there
where the callback starts with a place free and every command that is posted meanwhile, by another
task or by the user's callback, leaves one free; without that it may be.
-/

open Effects

namespace Timers

/-- The callback of a `delay_exec` does not wait for space in the queue, neither for its deletion nor
in the code of the user. -/
def NotBlocked : Stop Op → World → Prop
  | .asking (.xTimerDelete _ .forever), w => w.Space
  | .asking (.post .forever), w => w.busy = true → w.Space
  | _, _ => True

/-- The callback of a `delay_exec` starts where there is space in the queue, and what is posted while
it runs does not take the last place. -/
def Roomy (w : World) : TimerEvent → Prop
  | ⟨.work, .expired _⟩ => w.Space
  | ⟨.xTimerStart _, true⟩ => w.busy = true → w.queue.length + 1 < w.length
  | ⟨.xTimerDelete _ .zero, true⟩ => w.busy = true → w.queue.length + 1 < w.length
  | ⟨.post _, true⟩ => w.busy = true → w.queue.length + 1 < w.length
  | _ => True

/-! ## What a call does to the queue -/

/-- While the callback runs, there is space. -/
def World.Ready (w : World) : Prop := w.busy = true → w.Space

section

variable {w : World} {op : Op} {r : Op.Res op}

theorem ready_push {command : Command} (h : w.busy = true → w.queue.length + 1 < w.length) :
    (w.push command).Ready := by
  intro hbusy
  rw [World.Space, World.push, List.length_append]
  exact h hbusy

theorem process_queue (w : World) (command : Command) :
    (w.process command).queue = w.queue ∧ (w.process command).length = w.length ∧
      (w.process command).busy = w.busy := by
  cases command with
  | start timer => exact ⟨rfl, rfl, rfl⟩
  | delete timer => exact ⟨rfl, rfl, rfl⟩
  | other => exact ⟨rfl, rfl, rfl⟩

/-- The oldest command is taken from the queue and processed. -/
theorem after_command {command : Command} {queue : List Command} (hqueue : w.queue = command :: queue) :
    w.after ⟨.work, .command⟩ = World.process { w with queue := queue } command := by
  unfold World.after
  dsimp only
  rw [hqueue]

theorem Roomy.ready (hallows : w.Allows ⟨op, r⟩) (hroomy : Roomy w ⟨op, r⟩) (h : w.Ready) :
    (w.after ⟨op, r⟩).Ready := by
  -- Only calls that put a command into the queue could take the last place, and `Roomy` forbids that
  -- while a callback runs.
  cases op with
  | xTimerCreate period ctx =>
    cases r with
    | none => exact h
    | some timer => exact h
  | xTimerStart timer =>
    cases r with
    | false => exact h
    | true => exact ready_push hroomy
  | xTimerDelete timer ticks =>
    cases ticks with
    | zero =>
      cases r with
      | false => exact h
      | true => exact ready_push hroomy
    -- The last call of the callback; the service task is free afterwards.
    | forever => exact fun hbusy => nomatch hbusy
  | post ticks =>
    cases r with
    | false => exact h
    | true => exact ready_push hroomy
  | work =>
    cases r with
    -- The service task takes a command, which only makes space.
    | command =>
      obtain ⟨command, queue, hqueue⟩ := List.exists_cons_of_ne_nil hallows
      obtain ⟨hqueue', hlength, hbusy'⟩ := process_queue { w with queue := queue } command
      rw [after_command hqueue]
      intro hbusy
      have hspace := h (hbusy'.symm.trans hbusy)
      rw [World.Space, hqueue, List.length_cons] at hspace
      rw [World.Space, hqueue', hlength]
      exact Nat.lt_of_succ_lt hspace
    | expired timer => exact fun _ => hroomy
    | otherExpired => exact h
  | _ => exact h

/-- Only the end of the callback changes that it runs. -/
theorem after_busy (hallows : w.Allows ⟨op, r⟩) (hop : ∀ timer, op ≠ .xTimerDelete timer .forever)
    (h : w.busy = true) : (w.after ⟨op, r⟩).busy = true := by
  -- The callback is over with its last call, the delete command, and with no other.
  cases op with
  | xTimerCreate period ctx =>
    cases r with
    | none => exact h
    | some timer => exact h
  | xTimerStart timer =>
    cases r with
    | false => exact h
    | true => exact h
  | xTimerDelete timer ticks =>
    cases ticks with
    | zero =>
      cases r with
      | false => exact h
      | true => exact h
    | forever => exact absurd rfl (hop timer)
  | post ticks =>
    cases r with
    | false => exact h
    | true => exact h
  | work =>
    cases r with
    | command =>
      obtain ⟨command, queue, hqueue⟩ := List.exists_cons_of_ne_nil hallows
      rw [after_command hqueue, (process_queue { w with queue := queue } command).2.2]
      exact h
    | expired timer => rfl
    | otherExpired => exact h
  | _ => exact h

end

/-! ## Where the tasks are -/

/-- A task other than the timer service task. -/
def Point.Client : Point → Prop
  | .finished => True
  | .user .client _ => True
  | _ => False

/-- The timer service task in the callback of a `delay_exec`. -/
def Point.InCallback : Point → Prop
  | .user (.callback _ _) _ => True
  | .gettingId _ => True
  | .reading _ _ => True
  | .entering _ _ => True
  | .leaving _ _ => True
  | .freeing _ _ => True
  | .deleting _ => True
  | _ => False

section

variable {toTicks : UInt32 → UInt32} {p : Point} {op : Op} {next : Op.Res op → Point}

/-- Code outside of the header goes on, or ends as its host says, and does not wait for a deletion. -/
theorem inner_next (toTicks : UInt32 → UInt32) (host : Host) (inner : Inner) :
    (∀ r, (inner.step toTicks host).2 r = host.after ∨
      ∃ inner', (inner.step toTicks host).2 r = .user host inner') ∧
      ∀ timer, (inner.step toTicks host).1 ≠ .xTimerDelete timer .forever := by
  cases inner with
  | choosing =>
    refine ⟨fun move => ?_, fun _ => nofun⟩
    cases move with
    | delay_exec callback delay_ms => exact .inr ⟨_, rfl⟩
    | post ticks => exact .inr ⟨_, rfl⟩
    | finish => exact .inl rfl
  | creating ctx delay_ms =>
    refine ⟨fun timer => ?_, fun _ => nofun⟩
    cases timer with
    | none => exact .inr ⟨_, rfl⟩
    | some timer => exact .inr ⟨_, rfl⟩
  | starting ctx timer =>
    refine ⟨fun started => ?_, fun _ => nofun⟩
    cases started with
    | false => exact .inr ⟨_, rfl⟩
    | true => exact .inr ⟨_, rfl⟩
  | withdrawing ctx timer => exact ⟨fun _ => .inr ⟨_, rfl⟩, fun _ => nofun⟩
  | _ => exact ⟨fun _ => .inr ⟨_, rfl⟩, fun _ => nofun⟩

theorem client_next (h : p.Client) (hstep : p.step toTicks = some ⟨op, next⟩) :
    (∀ r, (next r).Client) ∧ ∀ timer, op ≠ .xTimerDelete timer .forever := by
  cases p with
  | finished => cases hstep
  | user host inner =>
    cases host with
    | client =>
      have hinner : inner.step toTicks .client = ⟨op, next⟩ := Option.some.inj hstep
      obtain ⟨hnext, hop⟩ := inner_next toTicks .client inner
      rw [hinner] at hnext hop
      dsimp only at hnext hop
      refine ⟨fun r => ?_, hop⟩
      rcases hnext r with hafter | ⟨inner', huser⟩
      · rw [hafter]
        trivial
      · rw [huser]
        trivial
    | _ => cases h
  | _ => cases h

/-- The callback is begun by the expiry of its timer, and asks for its deletion at its end. -/
theorem callback_next (hstep : p.step toTicks = some ⟨op, next⟩) (r : Op.Res op)
    (h : (next r).InCallback) :
    (p.InCallback ∧ ∀ timer, op ≠ .xTimerDelete timer .forever) ∨
      ∃ timer, (⟨op, r⟩ : TimerEvent) = ⟨.work, .expired timer⟩ := by
  cases p with
  | finished => cases hstep
  | user host inner =>
    have hinner : inner.step toTicks host = ⟨op, next⟩ := Option.some.inj hstep
    obtain ⟨hnext, hop⟩ := inner_next toTicks host inner
    rw [hinner] at hnext hop
    dsimp only at hnext hop
    -- Code that a client or another timer runs does not lead into the callback of `delay_exec`.
    cases host with
    | callback ctx timer => exact .inl ⟨trivial, hop⟩
    | client =>
      rcases hnext r with hafter | ⟨inner', huser⟩
      · rw [hafter] at h
        exact h.elim
      · rw [huser] at h
        exact h.elim
    | other =>
      rcases hnext r with hafter | ⟨inner', huser⟩
      · rw [hafter] at h
        exact h.elim
      · rw [huser] at h
        exact h.elim
  | working =>
    cases hstep
    cases r with
    | command => cases h
    | expired timer => exact .inr ⟨timer, rfl⟩
    | otherExpired => cases h
  | deleting timer =>
    cases hstep
    cases h
  | _ =>
    cases hstep
    exact .inl ⟨trivial, fun _ => nofun⟩

theorem deletes_inCallback {timer : Nat} {next : Op.Res (.xTimerDelete timer .forever) → Point}
    (hstep : p.step toTicks = some ⟨.xTimerDelete timer .forever, next⟩) : p.InCallback := by
  cases p with
  | finished => cases hstep
  | user host inner =>
    have hinner : inner.step toTicks host = ⟨.xTimerDelete timer .forever, next⟩ := Option.some.inj hstep
    exact absurd (congrArg Sigma.fst hinner) ((inner_next toTicks host inner).2 timer)
  | deleting timer => trivial
  | _ => cases hstep

end

/-- The invariant: other tasks run no callbacks, and while a callback runs there is space. -/
structure KeepsRoom (points : Option Nat → Point) (w : World) : Prop where
  clients : ∀ a, (points (some a)).Client
  busy : (points none).InCallback → w.busy = true
  ready : w.Ready

section

variable {toTicks : UInt32 → UInt32} {points : Option Nat → Point} {w : World}

theorem KeepsRoom.kept {may : World → TimerEvent → Prop} (hmay : ∀ w e, may w e → Roomy w e)
    (h : KeepsRoom points w) (a : Option Nat) :
    (chart toTicks).Kept (tasks may) NotBlocked KeepsRoom a points w := by
  rw [Chart.Kept]
  split
  · exact h
  · next op next hstep =>
    constructor
    · cases op with
      -- Two calls wait for the queue: the last one of the callback, and a post from inside of it.
      | xTimerDelete timer ticks =>
        cases ticks with
        | zero => trivial
        | forever =>
          cases a with
          | some a => exact absurd rfl ((client_next (h.clients a) hstep).2 timer)
          | none => exact h.ready (h.busy (deletes_inCallback hstep))
      | post ticks =>
        cases ticks with
        | zero => trivial
        | forever => exact h.ready
      | _ => trivial
    · rintro r w' ⟨⟨hallows, hroomy⟩, rfl⟩
      have hready := (hmay _ _ hroomy).ready hallows h.ready
      -- A client does not end the callback; the service task does, or begins it.
      cases a with
      | some a =>
        obtain ⟨hnext, hop⟩ := client_next (h.clients a) hstep
        refine ⟨fun b => ?_, fun hcallback => after_busy hallows hop (h.busy hcallback), hready⟩
        by_cases hba : some b = some a
        · rw [hba, Function.update_self]
          exact hnext r
        · rw [Function.update_of_ne hba]
          exact h.clients b
      | none =>
        refine ⟨fun b => h.clients b, fun hcallback => ?_, hready⟩
        rw [Function.update_self] at hcallback
        rcases callback_next hstep r hcallback with ⟨hin, hop⟩ | ⟨timer, hexpired⟩
        · exact after_busy hallows hop (h.busy hin)
        · cases hexpired
          rfl

end

theorem KeepsRoom.idle (length : Nat) : KeepsRoom starts (idle length) :=
  ⟨fun _ => trivial, fun hcallback => hcallback.elim, fun hbusy => nomatch hbusy⟩

/-- Where the queue keeps room for it, the callback of a `delay_exec` never waits for its own task. -/
theorem never_blocked (toTicks : UInt32 → UInt32) (length : Nat) :
    (tasks Roomy).Sound NotBlocked (fun _ _ => True) (programs toTicks) (idle length) := by
  rw [← programs_starts]
  exact Chart.sound chart_correct (fun _ _ => trivial) KeepsRoom (KeepsRoom.idle length)
    (fun _ _ a h _ => h.kept (fun _ _ hroomy => hroomy) a) fun _ _ _ => trivial

/-- A queue of one command: while the callback runs, another task posts. -/
def fullQueue : List (Option Nat × TimerEvent) :=
  [(some 0, ⟨.move, .delay_exec true 5⟩), (some 0, ⟨.newContext true, (0 : Nat)⟩),
    (some 0, ⟨.xTimerCreate 5 0, some 0⟩), (some 0, ⟨.xTimerStart 0, true⟩),
    (none, ⟨.work, .command⟩), (none, ⟨.work, .expired 0⟩), (none, ⟨.pvTimerGetTimerID 0, (0 : Nat)⟩),
    (none, ⟨.callback 0, true⟩), (none, ⟨.enter 0, ()⟩),
    (some 1, ⟨.move, .post .zero⟩), (some 1, ⟨.post .zero, true⟩),
    (none, ⟨.move, .finish⟩), (none, ⟨.leave 0, ()⟩), (none, ⟨.deleteContext 0, ()⟩)]

/-- The timer service task may wait for itself. -/
theorem not_never_blocked : ¬∀ (toTicks : UInt32 → UInt32) (length : Nat),
    free.Sound NotBlocked (fun _ _ => True) (programs toTicks) (idle length) := by
  intro h
  have hreplay : (chart id).replays (fun w e => World.Allows w e ∧ True) World.after starts (idle 1) fullQueue
      (fun points w => points none = .deleting 0 ∧ ¬w.Space) = true := by
    decide +kernel
  obtain ⟨points, w, hreach, hend⟩ := Chart.replays_reaches (T := free) chart_correct rfl (fun _ _ => trivial)
    (fun _ _ => rfl) (fun _ _ => trivial) hreplay
  obtain ⟨hpoint, hfull⟩ := of_decide_eq_true hend
  rw [programs_starts] at hreach
  have hstop : Turn free.env free.yields ((chart id).programs points none) w
      (.stopped (.asking (.xTimerDelete 0 .forever))) w := by
    have hcorrect : (chart id).Correct := chart_correct
    have hasks := hcorrect (points none)
    rw [hpoint] at hasks
    rw [Chart.programs, hpoint]
    exact Chart.turn_stops hasks
  exact hfull ((h id 1 _ _ hreach).2 none _ _ trivial hstop)

end Timers
