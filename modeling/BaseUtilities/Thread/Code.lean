import BaseUtilities.Effects.Tasks

/-!
# Threads

The class `Thread` of `Thread.hpp` over FreeRTOS tasks.  The members that a task and the owner of its
thread share are in `World`, beside the tasks of the kernel; reading and writing them are operations,
since a call that blocks lets the others change them.  What the body of a thread does is open: the
operation `move` chooses it.
-/

open Effects

namespace Thread

/-! ## FreeRTOS -/

/-- The states of `eTaskGetState`. -/
inductive TaskState where
  | running
  | ready
  | blocked
  | suspended
  | deleted
  deriving DecidableEq, Repr

/-- The parameters of a task; without a core it is not pinned. -/
structure Params where
  name : String
  stack_size : UInt32
  priority : Nat
  core : Option Nat
  deriving DecidableEq, Repr

/-- What the body of a thread does next. -/
inductive Move where
  | delay (ticks : UInt32)
  | stop (timeout_ms : UInt32)
  | finish
  deriving DecidableEq, Repr

/-- A call of the thread's owner. -/
inductive Call where
  | start (params : Option Params)
  | stop (timeout_ms : UInt32)
  | destroy
  deriving DecidableEq, Repr

/-- Accesses to the members of the thread, calls of the kernel, and choices. -/
inductive Op where
  | task
  | setTask (handle : Option Nat)
  | setShouldStop (b : Bool)
  | params
  | setParams (params : Params)
  | eTaskGetState (handle : Option Nat)
  | vTaskDelete (handle : Option Nat)
  /-- `vTaskDelete(nullptr)` at the end of `task_entry`. -/
  | exit
  | vTaskDelay (ticks : UInt32)
  | xTaskGetTickCount
  | xTaskCreate (params : Params)
  | xTaskCreatePinnedToCore (params : Params) (core : Nat)
  /-- The owner does something else. -/
  | idle
  | next
  | move
  deriving DecidableEq

/-- What an operation answers; a created task has a handle. -/
abbrev Op.Res : Op → Type
  | .task => Option Nat
  | .setTask _ => Unit
  | .setShouldStop _ => Unit
  | .params => Params
  | .setParams _ => Unit
  | .eTaskGetState _ => TaskState
  | .vTaskDelete _ => Unit
  | .exit => Unit
  | .vTaskDelay _ => Unit
  | .xTaskGetTickCount => UInt32
  | .xTaskCreate _ => Option Nat
  | .xTaskCreatePinnedToCore _ _ => Option Nat
  | .idle => Unit
  | .next => Call
  | .move => Move

abbrev Code (α : Type) := Prog Op Op.Res α

abbrev ThreadEvent := Event Op Op.Res

namespace Sys

abbrev task : Code (Option Nat) := Prog.perform Op.task
abbrev setTask (handle : Option Nat) : Code Unit := Prog.perform (Op.setTask handle)
abbrev setShouldStop (b : Bool) : Code Unit := Prog.perform (Op.setShouldStop b)
abbrev params : Code Params := Prog.perform Op.params
abbrev setParams (params : Params) : Code Unit := Prog.perform (Op.setParams params)
abbrev eTaskGetState (handle : Option Nat) : Code TaskState := Prog.perform (Op.eTaskGetState handle)
abbrev vTaskDelete (handle : Option Nat) : Code Unit := Prog.perform (Op.vTaskDelete handle)
abbrev exit : Code Unit := Prog.perform Op.exit
abbrev vTaskDelay (ticks : UInt32) : Code Unit := Prog.perform (Op.vTaskDelay ticks)
abbrev xTaskGetTickCount : Code UInt32 := Prog.perform Op.xTaskGetTickCount
abbrev xTaskCreate (params : Params) : Code (Option Nat) := Prog.perform (Op.xTaskCreate params)
abbrev xTaskCreatePinnedToCore (params : Params) (core : Nat) : Code (Option Nat) :=
  Prog.perform (Op.xTaskCreatePinnedToCore params core)
abbrev idle : Code Unit := Prog.perform Op.idle
abbrev next : Code Call := Prog.perform Op.next
abbrev move : Code Move := Prog.perform Op.move

end Sys

/-! ## `Thread` -/

-- `pdMS_TO_TICKS` of the kernel
variable (toTicks : UInt32 → UInt32)

/-- `stop`, the wait for the thread to end by itself. -/
def stopWait (start timeout_ms : UInt32) : Code Unit :=
  Prog.forever () fun _ => do
    let m_task ← Sys.task
    let state ← Sys.eTaskGetState m_task
    if state = .deleted then
      return .done ()
    else
      let now ← Sys.xTaskGetTickCount
      if now - start < toTicks timeout_ms then
        Sys.vTaskDelay 1
        return .next ()
      else
        return .done ()

/-- `stop`, the end: delete the task. -/
def stopDelete : Code Bool := do
  let m_task ← Sys.task
  Sys.vTaskDelete m_task
  Sys.setTask none
  return true

/-- `Thread::stop`: false when there is no task. -/
def stop (timeout_ms : UInt32) : Code Bool := do
  let m_task ← Sys.task
  if m_task = none then
    return false
  else
    Sys.setShouldStop true
    if timeout_ms > 0 then
      let start ← Sys.xTaskGetTickCount
      stopWait toTicks start timeout_ms
      stopDelete
    else
      stopDelete

/-- `Thread::start`, from the flag on. -/
def startTask : Code Bool := do
  Sys.setShouldStop false
  let params ← Sys.params
  match params.core with
  | none => return (← Sys.xTaskCreate params).isSome
  | some core => return (← Sys.xTaskCreatePinnedToCore params core).isSome

/-- `Thread::start`; the callback is a part of what the body does. -/
def start : Code Bool := do
  let m_task ← Sys.task
  if m_task ≠ none then
    let _ ← stop toTicks 0
    startTask
  else
    startTask

/-- `Thread::start` with parameters. -/
def startWith (params : Params) : Code Bool := do
  Sys.setParams params
  start toTicks

/-- One move of the body. -/
def runBody : Code (Iter Unit Unit) := do
  match ← Sys.move with
  | .delay ticks =>
    Sys.vTaskDelay ticks
    return .next ()
  | .stop timeout_ms =>
    let _ ← stop toTicks timeout_ms
    return .next ()
  | .finish => return .done ()

/-- `Thread::run` -/
def run : Code Unit := Prog.forever () fun _ => runBody toTicks

/-- `Thread::task_entry`: the program of a task. -/
def taskEntry : Code Unit := do
  run toTicks
  Sys.setTask none
  Sys.exit

/-- One call of the owner. -/
def ownerCall : Code (Iter Unit Unit) := do
  match ← Sys.next with
  | .start none =>
    let _ ← start toTicks
    return .next ()
  | .start (some params) =>
    let _ ← startWith toTicks params
    return .next ()
  | .stop timeout_ms =>
    let _ ← stop toTicks timeout_ms
    return .next ()
  | .destroy =>
    -- `~Thread`
    let _ ← stop toTicks 0
    return .done ()

/-- The owner makes calls up to the destructor. -/
def owner : Code Unit := Prog.forever () fun _ => do
  Sys.idle
  ownerCall toTicks

/-! ## The kernel -/

/-- The members of the thread, the tasks of the kernel, and the call that the owner is making. -/
structure World where
  m_task : Option Nat
  m_should_stop : Bool
  m_params : Params
  /-- The task with the processor; without one it is the owner. -/
  current : Option Nat
  created : List Nat
  deleted : List Nat
  ownerDeleted : Bool
  call : Option Call

namespace World

/-- A task that exists. -/
def Alive (w : World) (t : Nat) : Prop := t ∈ w.created ∧ t ∉ w.deleted

instance (w : World) (t : Nat) : Decidable (w.Alive t) := inferInstanceAs (Decidable (_ ∧ _))

/-- `vTaskDelete`; NULL is the task that calls it. -/
def delete (w : World) (handle : Option Nat) : World :=
  match handle.or w.current with
  | some t => { w with deleted := t :: w.deleted }
  | none => { w with ownerDeleted := true }

/-- `xTaskCreate` stores the handle of a new task in `m_task`. -/
def create (w : World) : Option Nat → World
  | some t => { w with m_task := some t, created := t :: w.created }
  | none => w

/-- The answers that the kernel and the members of the thread allow. -/
def Allows (w : World) : ThreadEvent → Prop
  | ⟨.task, m_task⟩ => m_task = w.m_task
  | ⟨.params, params⟩ => params = w.m_params
  | ⟨.eTaskGetState handle, state⟩ => ∀ t ∈ handle, w.Alive t → state ≠ .deleted
  | ⟨.xTaskCreate _, handle⟩ => ∀ t ∈ handle, t ∉ w.created
  | ⟨.xTaskCreatePinnedToCore _ _, handle⟩ => ∀ t ∈ handle, t ∉ w.created
  | _ => True

def after (w : World) : ThreadEvent → World
  | ⟨.setTask handle, _⟩ => { w with m_task := handle }
  | ⟨.setShouldStop b, _⟩ => { w with m_should_stop := b }
  | ⟨.setParams params, _⟩ => { w with m_params := params }
  | ⟨.vTaskDelete handle, _⟩ => w.delete handle
  | ⟨.exit, _⟩ => w.delete none
  | ⟨.xTaskCreate _, handle⟩ => w.create handle
  | ⟨.xTaskCreatePinnedToCore _ _, handle⟩ => w.create handle
  | ⟨.idle, _⟩ => { w with call := none }
  | ⟨.next, call⟩ => { w with call := some call }
  | _ => w

end World

/-- The calls after which another task gets the processor: the task waits, it has been deleted, or a
task has been created. -/
def Yields : Op → World → Prop
  | .vTaskDelay _, _ => True
  | .xTaskCreate _, _ => True
  | .xTaskCreatePinnedToCore _ _, _ => True
  | .idle, _ => True
  | .vTaskDelete _, w | .exit, w =>
    match w.current with
    | some t => t ∈ w.deleted
    | none => w.ownerDeleted = true
  | _, _ => False

/-- The owner, and the tasks by their handles; `may` restricts what they do. -/
def tasks (may : World → ThreadEvent → Prop) : Tasks Op Op.Res (Option Nat) World where
  env := watching (fun w e => w.Allows e ∧ may w e) World.after
  yields := Yields
  enter a w := { w with current := a }
  ready
    | some t, w => w.Alive t
    | none, w => w.ownerDeleted = false

/-- The owner is about to start, and every task that will be created. -/
def programs : Option Nat → Code Unit
  | none => owner toTicks
  | some _ => taskEntry toTicks

/-- A thread behind its constructor. -/
def constructed (params : Params) : World where
  m_task := none
  m_should_stop := false
  m_params := params
  current := none
  created := []
  deleted := []
  ownerDeleted := false
  call := none

end Thread
