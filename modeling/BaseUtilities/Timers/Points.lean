import BaseUtilities.Timers.DelayExec

/-!
# Where a task is

The points of the tasks at which they can lose the processor, which are all their calls, and the chart
of them.
-/

open Effects

namespace Timers

/-- A point of code outside of the header, inside of `delay_exec` where it calls that. -/
inductive Inner where
  | choosing
  | posting (ticks : Ticks)
  | newing (callback : Bool) (delay_ms : UInt32)
  | creating (ctx : Nat) (delay_ms : UInt32)
  | starting (ctx timer : Nat)
  | withdrawing (ctx timer : Nat)
  | freeing (ctx : Nat)
  | returning (ctx : Nat) (result : Bool)
  deriving DecidableEq

/-- Who runs that code: a task of its own, the callback of a `delay_exec`, or the callback of another
user's timer. -/
inductive Host where
  | client
  | callback (ctx timer : Nat)
  | other
  deriving DecidableEq

inductive Point where
  | finished
  | user (host : Host) (inner : Inner)
  | working
  | gettingId (timer : Nat)
  | reading (ctx timer : Nat)
  | entering (ctx timer : Nat)
  | leaving (ctx timer : Nat)
  | freeing (ctx timer : Nat)
  | deleting (timer : Nat)
  deriving DecidableEq

/-- The point after the code outside of the header. -/
def Host.after : Host → Point
  | .client => .finished
  | .callback ctx timer => .leaving ctx timer
  | .other => .working

section

variable (toTicks : UInt32 → UInt32)

def Inner.step (host : Host) : Inner → Σ op : Op, Op.Res op → Point
  | .choosing => ⟨.move, fun
    | .delay_exec callback delay_ms => .user host (.newing callback delay_ms)
    | .post ticks => .user host (.posting ticks)
    | .finish => host.after⟩
  | .posting ticks => ⟨.post ticks, fun _ => .user host .choosing⟩
  | .newing callback delay_ms => ⟨.newContext callback, fun ctx => .user host (.creating ctx delay_ms)⟩
  | .creating ctx delay_ms => ⟨.xTimerCreate (toTicks delay_ms) ctx, fun
    | none => .user host (.freeing ctx)
    | some timer => .user host (.starting ctx timer)⟩
  | .starting ctx timer => ⟨.xTimerStart timer, fun
    | true => .user host (.returning ctx true)
    | false => .user host (.withdrawing ctx timer)⟩
  | .withdrawing ctx timer => ⟨.xTimerDelete timer .zero, fun _ => .user host (.freeing ctx)⟩
  | .freeing ctx => ⟨.deleteContext ctx, fun _ => .user host (.returning ctx false)⟩
  | .returning ctx result => ⟨.returned ctx result, fun _ => .user host .choosing⟩

def Point.step : Point → Option (Σ op : Op, Op.Res op → Point)
  | .finished => none
  | .user host inner => some (inner.step toTicks host)
  | .working => some ⟨.work, fun
    | .command => .working
    | .expired timer => .gettingId timer
    | .otherExpired => .user .other .choosing⟩
  | .gettingId timer => some ⟨.pvTimerGetTimerID timer, fun ctx => .reading ctx timer⟩
  | .reading ctx timer => some ⟨.callback ctx, fun
    | true => .entering ctx timer
    | false => .freeing ctx timer⟩
  | .entering ctx timer => some ⟨.enter ctx, fun _ => .user (.callback ctx timer) .choosing⟩
  | .leaving ctx timer => some ⟨.leave ctx, fun _ => .freeing ctx timer⟩
  | .freeing ctx timer => some ⟨.deleteContext ctx, fun _ => .deleting timer⟩
  | .deleting timer => some ⟨.xTimerDelete timer .forever, fun _ => .working⟩

/-! ## The programs of the points -/

/-- What is left of `delay_exec` where it returns. -/
def returnOn (ctx : Nat) (result : Bool) : Code Bool := do
  Sys.returned ctx result
  return result

/-- Where the context is freed, because there is no timer or it did not start. -/
def freeOn (ctx : Nat) : Code Bool := do
  Sys.deleteContext ctx
  returnOn ctx false

def withdrawOn (ctx timer : Nat) : Code Bool := do
  let _ ← Sys.xTimerDelete timer .zero
  freeOn ctx

def startOn (ctx timer : Nat) : Code Bool := do
  let started ← Sys.xTimerStart timer
  if started then returnOn ctx true else withdrawOn ctx timer

def createOn (ctx : Nat) (delay_ms : UInt32) : Code Bool := do
  let timer ← Sys.xTimerCreate (toTicks delay_ms) ctx
  match timer with
  | none => freeOn ctx
  | some timer => startOn ctx timer

/-- What is left of the callback of a `delay_exec` where the context is freed. -/
def freeRunOn (ctx timer : Nat) : Code Unit := do
  Sys.deleteContext ctx
  let _ ← Sys.xTimerDelete timer .forever
  return ()

def leaveOn (ctx timer : Nat) : Code Unit := do
  Sys.leave ctx
  freeRunOn ctx timer

def enterOn (ctx timer : Nat) : Code Unit := do
  Sys.enter ctx
  userCode toTicks
  leaveOn ctx timer

def readOn (ctx timer : Nat) : Code Unit := do
  let callback ← Sys.callback ctx
  if callback then enterOn toTicks ctx timer else freeRunOn ctx timer

theorem delay_exec_timer_callback_eq (timer : Nat) :
    delay_exec_timer_callback toTicks timer =
      Sys.pvTimerGetTimerID timer >>= fun ctx => readOn toTicks ctx timer := by
  refine congrArg (Prog.call _) (funext fun ctx => congrArg (Prog.call _) (funext fun callback => ?_))
  cases callback with
  | false => rfl
  | true => rfl

/-- What the host goes on with after the code outside of the header. -/
def Host.onward : Host → Code Unit
  | .client => .ret ()
  | .callback ctx timer => do
    leaveOn ctx timer
    timerService toTicks
  | .other => timerService toTicks

/-- The code outside of the header, and the host after it. -/
def Host.code (host : Host) : Code Unit := do
  userCode toTicks
  host.onward toTicks

def Inner.program : Inner → Code Unit
  | .choosing => .ret ()
  | .posting ticks => do
    let _ ← Sys.post ticks
    return ()
  | .newing callback delay_ms => do
    let _ ← delay_exec toTicks callback delay_ms
    return ()
  | .creating ctx delay_ms => do
    let _ ← createOn toTicks ctx delay_ms
    return ()
  | .starting ctx timer => do
    let _ ← startOn ctx timer
    return ()
  | .withdrawing ctx timer => do
    let _ ← withdrawOn ctx timer
    return ()
  | .freeing ctx => do
    let _ ← freeOn ctx
    return ()
  | .returning ctx result => do
    let _ ← returnOn ctx result
    return ()

def Point.program : Point → Code Unit
  | .finished => .ret ()
  | .user host inner => do
    inner.program toTicks
    host.code toTicks
  | .working => timerService toTicks
  | .gettingId timer => do
    delay_exec_timer_callback toTicks timer
    timerService toTicks
  | .reading ctx timer => do
    readOn toTicks ctx timer
    timerService toTicks
  | .entering ctx timer => do
    enterOn toTicks ctx timer
    timerService toTicks
  | .leaving ctx timer => do
    leaveOn ctx timer
    timerService toTicks
  | .freeing ctx timer => do
    freeRunOn ctx timer
    timerService toTicks
  | .deleting timer => do
    let _ ← Sys.xTimerDelete timer .forever
    timerService toTicks

/-- The chart of the tasks. -/
def chart : Chart Op Op.Res Point := ⟨Point.program toTicks, Point.step toTicks⟩

variable {toTicks}

/-- A call in front, whose answers lead to known programs. -/
theorem asks_of_eq {op : Op} {k k' : Op.Res op → Code Unit} (h : ∀ r, k r = k' r) :
    Asks (Prog.call op k) op k' := by
  obtain rfl : k = k' := funext h
  exact .call

theorem asks_inner (host : Host) (inner : Inner) :
    Asks (Point.program toTicks (.user host inner)) (inner.step toTicks host).1
      fun r => Point.program toTicks ((inner.step toTicks host).2 r) := by
  -- One case for each point inside of `delay_exec`. A point's program is what is left of the code, so
  -- most cases hold by computation; where a call begins, the binds have to be regrouped.
  cases inner with
  | choosing =>
    refine .loop (asks_of_eq fun move => ?_)
    cases move with
    | delay_exec callback delay_ms =>
      show delay_exec toTicks callback delay_ms >>= _ >>= _ = delay_exec toTicks callback delay_ms >>= _ >>= _
      rw [Prog.bind_bind, Prog.bind_bind]
      rfl
    | post ticks => rfl
    -- What comes after depends on who runs the code.
    | finish =>
      cases host with
      | client => rfl
      | callback ctx timer => rfl
      | other => rfl
  | posting ticks => exact asks_of_eq fun _ => rfl
  | newing callback delay_ms => exact asks_of_eq fun _ => rfl
  | creating ctx delay_ms =>
    refine asks_of_eq fun timer => ?_
    cases timer with
    | none => rfl
    | some timer => rfl
  | starting ctx timer =>
    refine asks_of_eq fun started => ?_
    cases started with
    | false => rfl
    | true => rfl
  | withdrawing ctx timer => exact asks_of_eq fun _ => rfl
  | freeing ctx => exact asks_of_eq fun _ => rfl
  | returning ctx result => exact asks_of_eq fun _ => rfl

theorem chart_correct : (chart toTicks).Correct := by
  intro p
  -- One case for each point of the service task; the points of `delay_exec` are `asks_inner`.
  cases p with
  | finished => rfl
  | user host inner => exact asks_inner host inner
  | working =>
    refine .loop (asks_of_eq fun work => ?_)
    cases work with
    | command => rfl
    | expired timer =>
      show delay_exec_timer_callback toTicks timer >>= _ >>= _ = _
      rw [Prog.bind_bind]
      rfl
    | otherExpired =>
      show userCode toTicks >>= _ >>= _ = _
      rw [Prog.bind_bind]
      rfl
  | gettingId timer =>
    show Asks (delay_exec_timer_callback toTicks timer >>= _) _ _
    rw [delay_exec_timer_callback_eq]
    exact asks_of_eq fun _ => rfl
  | reading ctx timer =>
    refine asks_of_eq fun callback => ?_
    cases callback with
    | false => rfl
    | true => rfl
  | entering ctx timer =>
    refine asks_of_eq fun _ => ?_
    show userCode toTicks >>= _ >>= _ = _
    rw [Prog.bind_bind]
    rfl
  | leaving ctx timer => exact asks_of_eq fun _ => rfl
  | freeing ctx timer => exact asks_of_eq fun _ => rfl
  | deleting timer => exact asks_of_eq fun _ => rfl

/-- Where the tasks start. -/
def starts : Option Nat → Point
  | none => .working
  | some _ => .user .client .choosing

theorem programs_starts : (chart toTicks).programs starts = programs toTicks := by
  funext a
  cases a with
  | none => rfl
  | some a => exact Prog.bind_ret _

end

end Timers
