import BaseUtilities.Effects.Charts

/-!
# Delayed execution

The functions of `DelayExec.hpp` over software timers.  Timer commands go through one queue that only
the timer service task empties; that task also runs the callbacks of the timers that expire.  Its loop
and the code of the other tasks, which calls `delay_exec` and posts commands of its own, stand here
for what is not part of the header.

A timer is known by its ID, which is the context that it was created for.
-/

open Effects

namespace Timers

/-- A block time: none, or `portMAX_DELAY`. -/
inductive Ticks where
  | zero
  | forever
  deriving DecidableEq, Repr

/-- A timer command in the queue. -/
inductive Command where
  | start (timer : Nat)
  | delete (timer : Nat)
  /-- One of another user, for a timer of its own. -/
  | other
  deriving DecidableEq, Repr

/-- What the timer service task does next: a command from the queue, or the callback of a timer that
has expired. -/
inductive Work where
  | command
  | expired (timer : Nat)
  | otherExpired
  deriving DecidableEq, Repr

/-- What code outside of the header does next. -/
inductive Move where
  | delay_exec (callback : Bool) (delay_ms : UInt32)
  | post (ticks : Ticks)
  | finish
  deriving DecidableEq, Repr

inductive Op where
  /-- `new Context`, of a callable that may be empty. -/
  | newContext (callback : Bool)
  /-- `delete ctx` -/
  | deleteContext (ctx : Nat)
  | xTimerCreate (xTimerPeriodInTicks : UInt32) (ctx : Nat)
  /-- `xTimerStart` with block time 0. -/
  | xTimerStart (timer : Nat)
  | xTimerDelete (timer : Nat) (ticks : Ticks)
  | pvTimerGetTimerID (timer : Nat)
  /-- Whether `ctx->callback` holds a callable. -/
  | callback (ctx : Nat)
  /-- The call of `ctx->callback`, and its return. -/
  | enter (ctx : Nat)
  | leave (ctx : Nat)
  /-- The return of the `delay_exec` that made the context. -/
  | returned (ctx : Nat) (result : Bool)
  /-- A command of another user. -/
  | post (ticks : Ticks)
  | move
  | work
  deriving DecidableEq

abbrev Op.Res : Op → Type
  | .newContext _ => Nat
  | .xTimerCreate _ _ => Option Nat
  | .xTimerStart _ => Bool
  | .xTimerDelete _ _ => Bool
  | .pvTimerGetTimerID _ => Nat
  | .callback _ => Bool
  | .post _ => Bool
  | .move => Move
  | .work => Work
  | _ => Unit

abbrev Code (α : Type) := Prog Op Op.Res α

abbrev TimerEvent := Event Op Op.Res

namespace Sys

abbrev newContext (callback : Bool) : Code Nat := Prog.perform (Op.newContext callback)
abbrev deleteContext (ctx : Nat) : Code Unit := Prog.perform (Op.deleteContext ctx)
abbrev xTimerCreate (xTimerPeriodInTicks : UInt32) (ctx : Nat) : Code (Option Nat) :=
  Prog.perform (Op.xTimerCreate xTimerPeriodInTicks ctx)
abbrev xTimerStart (timer : Nat) : Code Bool := Prog.perform (Op.xTimerStart timer)
abbrev xTimerDelete (timer : Nat) (ticks : Ticks) : Code Bool :=
  Prog.perform (Op.xTimerDelete timer ticks)
abbrev pvTimerGetTimerID (timer : Nat) : Code Nat := Prog.perform (Op.pvTimerGetTimerID timer)
abbrev callback (ctx : Nat) : Code Bool := Prog.perform (Op.callback ctx)
abbrev enter (ctx : Nat) : Code Unit := Prog.perform (Op.enter ctx)
abbrev leave (ctx : Nat) : Code Unit := Prog.perform (Op.leave ctx)
abbrev returned (ctx : Nat) (result : Bool) : Code Unit := Prog.perform (Op.returned ctx result)
abbrev post (ticks : Ticks) : Code Bool := Prog.perform (Op.post ticks)
abbrev move : Code Move := Prog.perform Op.move
abbrev work : Code Work := Prog.perform Op.work

end Sys

section

-- `pdMS_TO_TICKS`, as the system is configured
variable (toTicks : UInt32 → UInt32)

/-- `delay_exec` -/
def delay_exec (callback : Bool) (delay_ms : UInt32) : Code Bool := do
  let ctx ← Sys.newContext callback
  let timer ← Sys.xTimerCreate (toTicks delay_ms) ctx
  match timer with
  | none =>
    Sys.deleteContext ctx
    Sys.returned ctx false
    return false
  | some timer =>
    let started ← Sys.xTimerStart timer
    if started then
      Sys.returned ctx true
      return true
    else
      let _ ← Sys.xTimerDelete timer .zero
      Sys.deleteContext ctx
      Sys.returned ctx false
      return false

/-- Code that calls `delay_exec` and posts commands as it likes. -/
def userCode : Code Unit := Prog.forever () fun _ => do
  let move ← Sys.move
  match move with
  | .delay_exec callback delay_ms =>
    let _ ← delay_exec toTicks callback delay_ms
    return .next ()
  | .post ticks =>
    let _ ← Sys.post ticks
    return .next ()
  | .finish => return .done ()

/-- `detail::delay_exec_timer_callback` -/
def delay_exec_timer_callback (xTimer : Nat) : Code Unit := do
  let ctx ← Sys.pvTimerGetTimerID xTimer
  let callback ← Sys.callback ctx
  if callback then
    Sys.enter ctx
    userCode toTicks
    Sys.leave ctx
  Sys.deleteContext ctx
  let _ ← Sys.xTimerDelete xTimer .forever
  return ()

/-- The timer service task. -/
def timerService : Code Unit := Prog.forever () fun _ => do
  let work ← Sys.work
  match work with
  | .command => return .next ()
  | .expired timer =>
    delay_exec_timer_callback toTicks timer
    return .next ()
  | .otherExpired =>
    userCode toTicks
    return .next ()

end

/-! ## The kernel -/

/-- What has happened to a context and to its timer. -/
structure Record where
  born : Bool
  /-- A timer has been created. -/
  timer : Bool
  /-- How often its callback has been called, and has returned. -/
  entered : Nat
  left : Nat
  /-- How often the context has been freed, and the timer deleted. -/
  freed : Nat
  deleted : Nat
  /-- What the `delay_exec` that made it has returned. -/
  result : Option Bool

def Record.unborn : Record := ⟨false, false, 0, 0, 0, 0, none⟩

/-- The queue, the oldest command first, and the timers that are active. -/
structure World where
  length : Nat
  queue : List Command
  active : List Nat
  records : Nat → Record
  /-- The timer service task runs the callback of a `delay_exec`. -/
  busy : Bool

namespace World

/-- There is space in the queue. -/
def Space (w : World) : Prop := w.queue.length < w.length

instance (w : World) : Decidable w.Space := inferInstanceAs (Decidable (_ < _))

def set (w : World) (ctx : Nat) (record : Record) : World :=
  { w with records := Function.update w.records ctx record }

def push (w : World) (command : Command) : World := { w with queue := w.queue ++ [command] }

/-- A command is processed.  A timer that is deleted is active no more. -/
def process (w : World) : Command → World
  | .start timer => { w with active := timer :: w.active }
  | .delete timer =>
    let record := w.records timer
    { w with active := w.active.filter (· ≠ timer) }.set timer
      { record with deleted := record.deleted + 1 }
  | .other => w

/-- The answers of the kernel: a command without a block time is refused exactly where the queue is
full, and one that may wait is only answered where it is not. -/
def Allows (w : World) : TimerEvent → Prop
  | ⟨.newContext _, ctx⟩ => (w.records ctx).born = false
  | ⟨.xTimerCreate _ ctx, timer⟩ => ∀ t ∈ timer, t = ctx
  | ⟨.xTimerStart _, started⟩ => started = true ↔ w.Space
  | ⟨.xTimerDelete _ .zero, posted⟩ => posted = true ↔ w.Space
  | ⟨.xTimerDelete _ .forever, posted⟩ => posted = true ∧ w.Space
  | ⟨.pvTimerGetTimerID timer, ctx⟩ => ctx = timer
  | ⟨.post .zero, posted⟩ => posted = true ↔ w.Space
  | ⟨.post .forever, posted⟩ => posted = true ∧ w.Space
  | ⟨.work, .command⟩ => w.queue ≠ []
  | ⟨.work, .expired timer⟩ => timer ∈ w.active
  | _ => True

instance (w : World) : ∀ e, Decidable (w.Allows e)
  | ⟨.newContext _, ctx⟩ => inferInstanceAs (Decidable ((w.records ctx).born = false))
  | ⟨.xTimerCreate _ ctx, timer⟩ => inferInstanceAs (Decidable (∀ t ∈ timer, t = ctx))
  | ⟨.xTimerStart _, started⟩ => inferInstanceAs (Decidable (started = true ↔ w.Space))
  | ⟨.xTimerDelete _ .zero, posted⟩ => inferInstanceAs (Decidable (posted = true ↔ w.Space))
  | ⟨.xTimerDelete _ .forever, posted⟩ => inferInstanceAs (Decidable (posted = true ∧ w.Space))
  | ⟨.pvTimerGetTimerID timer, ctx⟩ => Nat.decEq ctx timer
  | ⟨.post .zero, posted⟩ => inferInstanceAs (Decidable (posted = true ↔ w.Space))
  | ⟨.post .forever, posted⟩ => inferInstanceAs (Decidable (posted = true ∧ w.Space))
  | ⟨.work, .command⟩ => inferInstanceAs (Decidable (w.queue ≠ []))
  | ⟨.work, .expired timer⟩ => inferInstanceAs (Decidable (timer ∈ w.active))
  | ⟨.work, .otherExpired⟩ | ⟨.deleteContext _, _⟩ | ⟨.callback _, _⟩ | ⟨.enter _, _⟩ | ⟨.leave _, _⟩
  | ⟨.returned _ _, _⟩ | ⟨.move, _⟩ => .isTrue trivial

def after (w : World) : TimerEvent → World
  | ⟨.newContext _, ctx⟩ => w.set ctx { w.records ctx with born := true }
  | ⟨.deleteContext ctx, _⟩ => w.set ctx { w.records ctx with freed := (w.records ctx).freed + 1 }
  | ⟨.xTimerCreate _ ctx, some _⟩ => w.set ctx { w.records ctx with timer := true }
  | ⟨.xTimerStart timer, true⟩ => w.push (.start timer)
  | ⟨.xTimerDelete timer .zero, true⟩ => w.push (.delete timer)
  | ⟨.xTimerDelete timer .forever, _⟩ => { w with busy := false }.push (.delete timer)
  | ⟨.enter ctx, _⟩ => w.set ctx { w.records ctx with entered := (w.records ctx).entered + 1 }
  | ⟨.leave ctx, _⟩ => w.set ctx { w.records ctx with left := (w.records ctx).left + 1 }
  | ⟨.returned ctx result, _⟩ => w.set ctx { w.records ctx with result := some result }
  | ⟨.post _, true⟩ => w.push .other
  | ⟨.work, .command⟩ =>
    match w.queue with
    | [] => w
    | command :: queue => { w with queue := queue }.process command
  | ⟨.work, .expired timer⟩ => { w with active := w.active.erase timer, busy := true }
  | _ => w

end World

/-- The timer service task and the others, any of which may run after every call; `may` restricts
what they do. -/
def tasks (may : World → TimerEvent → Prop) : Tasks Op Op.Res (Option Nat) World where
  env := watching (fun w e => w.Allows e ∧ may w e) World.after
  yields _ _ := True
  enter _ w := w
  ready _ _ := True

/-- Tasks that do as they like. -/
def free : Tasks Op Op.Res (Option Nat) World := tasks fun _ _ => True

/-- The timer service task, and all the others. -/
def programs (toTicks : UInt32 → UInt32) : Option Nat → Code Unit
  | none => timerService toTicks
  | some _ => userCode toTicks

/-- Before any command. -/
def idle (length : Nat) : World where
  length := length
  queue := []
  active := []
  records _ := .unborn
  busy := false

end Timers
