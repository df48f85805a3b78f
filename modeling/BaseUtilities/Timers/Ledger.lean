import BaseUtilities.Timers.Room

/-!
# The ledger of delayed execution

What becomes of the context and of the timer of every call of `delay_exec`: each goes from the task
that made it through the queue and the list of active timers to the timer service task, and is given
up once, as long as the queue takes every deletion.
-/

open Effects

namespace Timers

/-- A deletion without a block time finds space in the queue, and the callbacks have room. -/
def Granted (w : World) (e : TimerEvent) : Prop :=
  Roomy w e ∧ match e with
    | ⟨.xTimerDelete _ .zero, _⟩ => w.Space
    | _ => True

/-- Nothing is freed or used after it has been freed, and the callback does not wait for its task. -/
def Proper : Stop Op → World → Prop
  | .asking (.deleteContext ctx), w => (w.records ctx).freed = 0
  | .asking (.callback ctx), w => (w.records ctx).freed = 0
  | .asking (.enter ctx), w => (w.records ctx).freed = 0 ∧ (w.records ctx).entered = 0
  | .asking op, w => NotBlocked (.asking op) w
  | .fault, _ => False

/-- The timer service task waits for work, and there is none. -/
def AtRest (ps : Option Nat → Code Unit) (w : World) : Prop :=
  (∃ k, Asks (ps none) .work k) ∧ w.queue = [] ∧ w.active = []

/-- What holds of every call of `delay_exec` at any time: where it has returned false, the callback is
never called, the context is freed, and a timer that was created is deleted or its deletion is in the
queue; nothing is done twice; a context is freed after the callback has returned; and where it has
returned true and the timers are at rest, the context is freed and the timer deleted. -/
structure Settled (ps : Option Nat → Code Unit) (w : World) : Prop where
  refused : ∀ ctx, (w.records ctx).result = some false → (w.records ctx).entered = 0 ∧
    (w.records ctx).freed = 1 ∧
    ((w.records ctx).timer = true → (w.records ctx).deleted = 1 ∨ .delete ctx ∈ w.queue)
  once : ∀ ctx, (w.records ctx).entered ≤ 1 ∧ (w.records ctx).freed ≤ 1 ∧ (w.records ctx).deleted ≤ 1
  behind : ∀ ctx, (w.records ctx).freed = 1 → (w.records ctx).left = (w.records ctx).entered
  done : AtRest ps w → ∀ ctx, (w.records ctx).result = some true →
    (w.records ctx).freed = 1 ∧ (w.records ctx).deleted = 1

/-! ## The account of a call -/

/-- How far a call of `delay_exec` is: in the hands of the task `a`, in the queue, active, in the hands
of the timer service task, or over. -/
inductive Phase where
  | unborn
  | made (a : Option Nat)
  | armed (a : Option Nat)
  | refused (a : Option Nat)
  | dropped (a : Option Nat)
  | failed
  | starting
  | active
  | fired
  | inside
  | ended
  | spent
  | gone
  deriving DecidableEq

/-- What is known of a context: its record, and how often it is in the queue and in the list. -/
structure View where
  record : Record
  starts : Nat
  deletes : Nat
  actives : Nat

def World.view (w : World) (ctx : Nat) : View where
  record := w.records ctx
  starts := w.queue.count (.start ctx)
  deletes := w.queue.count (.delete ctx)
  actives := w.active.count ctx

/-- What has been done in each phase. -/
inductive Account : Phase → View → Prop where
  | unborn : Account .unborn ⟨.unborn, 0, 0, 0⟩
  | made {a} : Account (.made a) ⟨⟨true, false, 0, 0, 0, 0, none⟩, 0, 0, 0⟩
  | armed {a} : Account (.armed a) ⟨⟨true, true, 0, 0, 0, 0, none⟩, 0, 0, 0⟩
  | refused {a} : Account (.refused a) ⟨⟨true, true, 0, 0, 0, 0, none⟩, 0, 0, 0⟩
  | dropped {a timer deletes deleted} (h : deletes + deleted = if timer then 1 else 0) :
      Account (.dropped a) ⟨⟨true, timer, 0, 0, 0, deleted, none⟩, 0, deletes, 0⟩
  | failed {timer deletes deleted result} (h : deletes + deleted = if timer then 1 else 0)
      (hresult : result ≠ some true) :
      Account .failed ⟨⟨true, timer, 0, 0, 1, deleted, result⟩, 0, deletes, 0⟩
  | starting {result} (hresult : result ≠ some false) :
      Account .starting ⟨⟨true, true, 0, 0, 0, 0, result⟩, 1, 0, 0⟩
  | active {result} (hresult : result ≠ some false) :
      Account .active ⟨⟨true, true, 0, 0, 0, 0, result⟩, 0, 0, 1⟩
  | fired {result} (hresult : result ≠ some false) :
      Account .fired ⟨⟨true, true, 0, 0, 0, 0, result⟩, 0, 0, 0⟩
  | inside {result} (hresult : result ≠ some false) :
      Account .inside ⟨⟨true, true, 1, 0, 0, 0, result⟩, 0, 0, 0⟩
  | ended {n result} (hn : n ≤ 1) (hresult : result ≠ some false) :
      Account .ended ⟨⟨true, true, n, n, 0, 0, result⟩, 0, 0, 0⟩
  | spent {n result} (hn : n ≤ 1) (hresult : result ≠ some false) :
      Account .spent ⟨⟨true, true, n, n, 1, 0, result⟩, 0, 0, 0⟩
  | gone {n deletes deleted result} (hn : n ≤ 1) (h : deletes + deleted = 1)
      (hresult : result ≠ some false) :
      Account .gone ⟨⟨true, true, n, n, 1, deleted, result⟩, 0, deletes, 0⟩

namespace Phase

/-- The task in whose hands the call is. -/
def owner : Phase → Option (Option Nat)
  | .made a | .armed a | .refused a | .dropped a => some a
  | .fired | .inside | .ended | .spent => some none
  | _ => none

/-- The timer has been started. -/
def Passed : Phase → Prop
  | .starting | .active | .fired | .inside | .ended | .spent | .gone => True
  | _ => False

/-- The timer service task has it. -/
def Serving : Phase → Prop
  | .fired | .inside | .ended | .spent => True
  | _ => False

/-- The task `a` takes a call from one phase to another. -/
structure Moves (a : Option Nat) (phase phase' : Phase) : Prop where
  owner : ∀ b, phase.owner = some b → b = a
  passed : phase.Passed → phase'.Passed
  failed : phase = .failed → phase' = .failed

end Phase

/-! ## What the tasks know -/

def Host.Knows (phase : Nat → Phase) : Host → Prop
  | .callback ctx timer => ctx = timer ∧ phase timer = .inside
  | _ => True

def Inner.Knows (a : Option Nat) (phase : Nat → Phase) : Inner → Prop
  | .creating ctx _ => phase ctx = .made a
  | .starting ctx timer => ctx = timer ∧ phase timer = .armed a
  | .withdrawing ctx timer => ctx = timer ∧ phase timer = .refused a
  | .freeing ctx => phase ctx = .dropped a
  | .returning ctx true => (phase ctx).Passed
  | .returning ctx false => phase ctx = .failed
  | _ => True

def Point.Knows (a : Option Nat) (phase : Nat → Phase) : Point → Prop
  | .user host inner => host.Knows phase ∧ inner.Knows a phase
  | .gettingId timer => phase timer = .fired
  | .reading ctx timer => ctx = timer ∧ phase timer = .fired
  | .entering ctx timer => ctx = timer ∧ phase timer = .fired
  | .leaving ctx timer => ctx = timer ∧ phase timer = .inside
  | .freeing ctx timer => ctx = timer ∧ phase timer = .ended
  | .deleting timer => phase timer = .spent
  | _ => True

/-- The timer service task is about to be done with a context. -/
def Point.Serves (ctx : Nat) : Point → Prop
  | .user (.callback _ timer) _ => timer = ctx
  | .gettingId timer => timer = ctx
  | .reading _ timer => timer = ctx
  | .entering _ timer => timer = ctx
  | .leaving _ timer => timer = ctx
  | .freeing _ timer => timer = ctx
  | .deleting timer => timer = ctx
  | _ => False

/-- The invariant, in the phases of all calls. -/
structure Ledger (phase : Nat → Phase) (points : Option Nat → Point) (w : World) : Prop where
  accounts : ∀ ctx, Account (phase ctx) (w.view ctx)
  knows : ∀ a, (points a).Knows a phase
  clients : ∀ a, (points (some a)).Client
  serves : ∀ ctx, (phase ctx).Serving → (points none).Serves ctx

/-! ## What a call does to the view of a context -/

section

variable {w : World} {ctx : Nat}

/-- A change that only one context sees. -/
theorem view_update {w' : World} {v : View} (h : w'.view ctx = v)
    (hothers : ∀ c, c ≠ ctx → w'.view c = w.view c) : w'.view = Function.update w.view ctx v := by
  funext c
  by_cases hc : c = ctx
  · rw [hc, Function.update_self, h]
  · rw [Function.update_of_ne hc, hothers c hc]

theorem view_set (record : Record) :
    (w.set ctx record).view = Function.update w.view ctx { w.view ctx with record := record } := by
  apply view_update
  · simp [World.view, World.set]
  · intro c hc
    simp [World.view, World.set, hc]

/-- A record that is changed, where the context is seen as `v`. -/
theorem view_record {v : View} (hv : w.view ctx = v) (f : Record → Record) :
    (w.set ctx (f (w.records ctx))).view = Function.update w.view ctx { v with record := f v.record } := by
  subst hv
  exact view_set _

theorem view_start (w : World) (ctx : Nat) : (w.push (.start ctx)).view =
    Function.update w.view ctx { w.view ctx with starts := (w.view ctx).starts + 1 } := by
  apply view_update
  · simp [World.view, World.push]
  · intro c hc
    simp [World.view, World.push, Ne.symm hc]

theorem view_delete (w : World) (ctx : Nat) : (w.push (.delete ctx)).view =
    Function.update w.view ctx { w.view ctx with deletes := (w.view ctx).deletes + 1 } := by
  apply view_update
  · simp [World.view, World.push]
  · intro c hc
    simp [World.view, World.push, Ne.symm hc]

theorem view_other : (w.push .other).view = w.view := by
  funext c
  simp [World.view, World.push]

/-- A timer that expires. -/
theorem view_expired (w : World) (ctx : Nat) : (w.after ⟨.work, .expired ctx⟩).view =
    Function.update w.view ctx { w.view ctx with actives := (w.view ctx).actives - 1 } := by
  apply view_update
  · show World.view { w with active := w.active.erase ctx, busy := true } ctx = _
    unfold World.view
    rw [List.count_erase_self]
  · intro c hc
    show World.view { w with active := w.active.erase ctx, busy := true } c = _
    unfold World.view
    rw [List.count_erase_of_ne hc]

theorem view_process_start {queue : List Command} (hqueue : w.queue = .start ctx :: queue) :
    (w.after ⟨.work, .command⟩).view = Function.update w.view ctx
      { w.view ctx with starts := (w.view ctx).starts - 1, actives := (w.view ctx).actives + 1 } := by
  rw [after_command hqueue]
  apply view_update
  · simp [World.view, World.process, hqueue]
  · intro c hc
    simp [World.view, World.process, hqueue, Ne.symm hc]

theorem view_process_delete {queue : List Command} (hqueue : w.queue = .delete ctx :: queue) :
    (w.after ⟨.work, .command⟩).view = Function.update w.view ctx
      ⟨{ w.records ctx with deleted := (w.records ctx).deleted + 1 }, (w.view ctx).starts,
        (w.view ctx).deletes - 1, 0⟩ := by
  rw [after_command hqueue]
  apply view_update
  · simp [World.view, World.process, World.set, hqueue, List.count_eq_zero]
  · intro c hc
    simp [World.view, World.process, World.set, hqueue, hc, Ne.symm hc]

theorem view_process_other {queue : List Command} (hqueue : w.queue = .other :: queue) :
    (w.after ⟨.work, .command⟩).view = w.view := by
  rw [after_command hqueue]
  funext c
  simp [World.view, World.process, hqueue]

end

/-! ## What a task does to the ledger -/

section

variable {phase : Nat → Phase} {points : Option Nat → Point} {w w' : World} {a b : Option Nat} {ctx : Nat}

/-- What is in the hands of another task stays as it is. -/
theorem Phase.Moves.owned {phase' known : Phase} (hmoves : (phase ctx).Moves a phase') {c : Nat}
    (hc : phase c = known) (howner : known.owner = some b) (hb : b ≠ a) :
    Function.update phase ctx phase' c = known := by
  by_cases hctx : c = ctx
  · subst hctx
    rw [hc] at hmoves
    exact absurd (hmoves.owner b howner) hb
  · rw [Function.update_of_ne hctx, hc]

theorem Phase.Moves.stays_passed {phase' : Phase} (hmoves : (phase ctx).Moves a phase') {c : Nat}
    (hc : (phase c).Passed) : (Function.update phase ctx phase' c).Passed := by
  by_cases hctx : c = ctx
  · subst hctx
    rw [Function.update_self]
    exact hmoves.passed hc
  · rw [Function.update_of_ne hctx]
    exact hc

theorem Phase.Moves.stays_failed {phase' : Phase} (hmoves : (phase ctx).Moves a phase') {c : Nat}
    (hc : phase c = .failed) : Function.update phase ctx phase' c = .failed := by
  by_cases hctx : c = ctx
  · subst hctx
    rw [Function.update_self]
    exact hmoves.failed hc
  · rw [Function.update_of_ne hctx, hc]

theorem Inner.Knows.move {inner : Inner} {phase' : Phase} (h : inner.Knows b phase) (hb : b ≠ a)
    (hmoves : (phase ctx).Moves a phase') : inner.Knows b (Function.update phase ctx phase') := by
  cases inner with
  | creating c delay_ms => exact hmoves.owned h rfl hb
  | starting c timer => exact ⟨h.1, hmoves.owned h.2 rfl hb⟩
  | withdrawing c timer => exact ⟨h.1, hmoves.owned h.2 rfl hb⟩
  | freeing c => exact hmoves.owned h rfl hb
  | returning c result =>
    cases result with
    | false => exact hmoves.stays_failed h
    | true => exact hmoves.stays_passed h
  | _ => trivial

/-- What a task knows is not changed by another one. -/
theorem Point.Knows.move {p : Point} {phase' : Phase} (h : p.Knows b phase) (hb : b ≠ a)
    (hclient : ∀ c, b = some c → p.Client) (hmoves : (phase ctx).Moves a phase') :
    p.Knows b (Function.update phase ctx phase') := by
  cases b with
  | some c =>
    have hp := hclient c rfl
    cases p with
    | user host inner =>
      cases host with
      | client => exact ⟨trivial, h.2.move hb hmoves⟩
      | _ => cases hp
    | finished => trivial
    | _ => cases hp
  | none =>
    cases p with
    | user host inner =>
      refine ⟨?_, h.2.move hb hmoves⟩
      cases host with
      | callback c timer => exact ⟨h.1.1, hmoves.owned h.1.2 rfl hb⟩
      | _ => trivial
    | gettingId timer => exact hmoves.owned h rfl hb
    | reading c timer => exact ⟨h.1, hmoves.owned h.2 rfl hb⟩
    | entering c timer => exact ⟨h.1, hmoves.owned h.2 rfl hb⟩
    | leaving c timer => exact ⟨h.1, hmoves.owned h.2 rfl hb⟩
    | freeing c timer => exact ⟨h.1, hmoves.owned h.2 rfl hb⟩
    | deleting timer => exact hmoves.owned h rfl hb
    | _ => trivial

/-- The other tasks stay at points of a client, whichever task has moved. -/
theorem Ledger.clients_update (h : Ledger phase points w) {p : Point}
    (hclient : ∀ c, a = some c → p.Client) (b : Nat) : (Function.update points a p (some b)).Client := by
  by_cases hba : some b = a
  · rw [hba, Function.update_self]
    exact hclient b hba.symm
  · rw [Function.update_of_ne hba]
    exact h.clients b

/-- The task `a` goes to the point `p`, and what it has done changes no phase. -/
theorem Ledger.stay (h : Ledger phase points w) {p : Point}
    (haccounts : ∀ c, Account (phase c) (w'.view c)) (hknows : p.Knows a phase)
    (hclient : ∀ c, a = some c → p.Client)
    (hserves : a = none → ∀ c, (phase c).Serving → p.Serves c) :
    Ledger phase (Function.update points a p) w' := by
  refine ⟨haccounts, fun b => ?_, h.clients_update hclient, fun c hc => ?_⟩
  · by_cases hba : b = a
    · rw [hba, Function.update_self]
      exact hknows
    · rw [Function.update_of_ne hba]
      exact h.knows b
  · by_cases ha : none = a
    · rw [ha, Function.update_self]
      exact hserves ha.symm c hc
    · rw [Function.update_of_ne ha]
      exact h.serves c hc

/-- The task `a` takes one call to another phase. -/
theorem Ledger.move (h : Ledger phase points w) {p : Point} {phase' : Phase} {v : View}
    (hmoves : (phase ctx).Moves a phase') (hview : w'.view = Function.update w.view ctx v)
    (haccount : Account phase' v) (hknows : p.Knows a (Function.update phase ctx phase'))
    (hclient : ∀ c, a = some c → p.Client)
    (hserves : a = none → ∀ c, (Function.update phase ctx phase' c).Serving → p.Serves c)
    (hnot : a ≠ none → ¬phase'.Serving) :
    Ledger (Function.update phase ctx phase') (Function.update points a p) w' := by
  -- Only the account of `ctx` changes.
  have haccounts : ∀ c, Account (Function.update phase ctx phase' c) (w'.view c) := by
    intro c
    rw [hview]
    by_cases hc : c = ctx
    · rw [hc, Function.update_self, Function.update_self]
      exact haccount
    · rw [Function.update_of_ne hc, Function.update_of_ne hc]
      exact h.accounts c
  refine ⟨haccounts, fun b => ?_, h.clients_update hclient, fun c hc => ?_⟩
  -- The task that moved knows the new phase; what the others know, they know of contexts of their own.
  · by_cases hba : b = a
    · rw [hba, Function.update_self]
      exact hknows
    · rw [Function.update_of_ne hba]
      refine (h.knows b).move hba (fun c hc => ?_) hmoves
      rw [hc]
      exact h.clients c
  · by_cases ha : none = a
    · rw [ha, Function.update_self]
      exact hserves ha.symm c hc
    · rw [Function.update_of_ne ha]
      apply h.serves c
      -- The service task serves what it served before, for a client does not put `ctx` into its hands.
      by_cases hctx : c = ctx
      · rw [hctx, Function.update_self] at hc
        exact absurd hc (hnot (Ne.symm ha))
      · rwa [Function.update_of_ne hctx] at hc

/-! ### Code outside of the header -/

theorem serves_user {host : Host} {inner inner' : Inner} {c : Nat} (h : (Point.user host inner).Serves c) :
    (Point.user host inner').Serves c := by
  cases host with
  | callback ctx timer => exact h
  | _ => cases h

theorem user_client {host : Host} {inner inner' : Inner} (h : (Point.user host inner).Client) :
    (Point.user host inner').Client := by
  cases host with
  | client => trivial
  | _ => cases h

theorem Ledger.client (h : Ledger phase points w) {p : Point} (hp : points a = p) {c : Nat}
    (hc : a = some c) : p.Client := by
  rw [← hp, hc]
  exact h.clients c

theorem Ledger.user_stay (h : Ledger phase points w) {host : Host} {inner inner' : Inner}
    (hp : points a = .user host inner) (haccounts : ∀ c, Account (phase c) (w'.view c))
    (hinner : inner'.Knows a phase) :
    Ledger phase (Function.update points a (.user host inner')) w' := by
  have hknows := h.knows a
  rw [hp] at hknows
  have hknows' : (Point.user host inner').Knows a phase := ⟨hknows.1, hinner⟩
  apply h.stay haccounts hknows'
  · intro c hc
    exact user_client (h.client hp hc)
  · intro ha c hc
    have hserves := h.serves c hc
    rw [← ha, hp] at hserves
    exact serves_user hserves

/-- A call that the task makes itself goes on. -/
theorem Ledger.user_move (h : Ledger phase points w) {host : Host} {inner inner' : Inner}
    {known : Phase} {v : View} (phase' : Phase) (hp : points a = .user host inner)
    (hphase : phase ctx = known)
    (hmoves : known.Moves a phase') (hview : w'.view = Function.update w.view ctx v)
    (haccount : Account phase' v) (hinner : inner'.Knows a (Function.update phase ctx phase'))
    (hinside : known ≠ .inside) (hnot : ¬phase'.Serving) :
    Ledger (Function.update phase ctx phase') (Function.update points a (.user host inner')) w' := by
  subst hphase
  have hknows := h.knows a
  rw [hp] at hknows
  -- A callback that runs such code is itself about another timer, which is still inside.
  have hhost : host.Knows (Function.update phase ctx phase') := by
    cases host with
    | callback c timer =>
      refine ⟨hknows.1.1, ?_⟩
      have htimer : timer ≠ ctx := fun heq => hinside (heq ▸ hknows.1.2)
      rw [Function.update_of_ne htimer]
      exact hknows.1.2
    | _ => trivial
  have hknows' : (Point.user host inner').Knows a (Function.update phase ctx phase') := ⟨hhost, hinner⟩
  -- Nothing else changes hands: the point stays with the same host.
  apply h.move hmoves hview haccount hknows'
  · intro c hc
    exact user_client (h.client hp hc)
  · intro ha c hc
    by_cases hctx : c = ctx
    · rw [hctx, Function.update_self] at hc
      exact absurd hc hnot
    · rw [Function.update_of_ne hctx] at hc
      have hserves := h.serves c hc
      rw [← ha, hp] at hserves
      exact serves_user hserves
  · exact fun _ => hnot

/-- The end of the code leads to what its host does next. -/
theorem Ledger.user_after (h : Ledger phase points w) {host : Host} {inner : Inner}
    (hp : points a = .user host inner) : Ledger phase (Function.update points a host.after) w := by
  have hknows := h.knows a
  rw [hp] at hknows
  apply h.stay h.accounts
  · cases host with
    | callback c timer => exact hknows.1
    | client => trivial
    | other => trivial
  · intro c hc
    have hclient := h.client hp hc
    cases host with
    | client => trivial
    | _ => cases hclient
  · intro ha c hc
    have hserves := h.serves c hc
    rw [← ha, hp] at hserves
    cases host with
    | callback c timer => exact hserves
    | _ => cases hserves

variable {toTicks : UInt32 → UInt32} {op : Op} {r : Op.Res op}

/-- A command of another user, taken by the queue or not. -/
theorem view_post {ticks : Ticks} {posted : Bool} : (w.after ⟨.post ticks, posted⟩).view = w.view := by
  cases posted with
  | false => rfl
  | true => exact view_other

/-- A result for a call that has been started. -/
theorem Account.returned_true {p : Phase} {v : View} (h : Account p v) (hp : p.Passed) :
    Account p { v with record := { v.record with result := some true } } := by
  cases h with
  | starting => exact .starting nofun
  | active => exact .active nofun
  | fired => exact .fired nofun
  | inside => exact .inside nofun
  | ended hn => exact .ended hn nofun
  | spent hn => exact .spent hn nofun
  | gone hn h => exact .gone hn h nofun
  | _ => cases hp

theorem Account.returned_false {v : View} (h : Account .failed v) :
    Account .failed { v with record := { v.record with result := some false } } := by
  cases h with
  | failed h => exact .failed h nofun

/-- The task in whose hands a call is takes it to another phase. -/
theorem Phase.Moves.own {known phase' : Phase} (howner : known.owner = some a)
    (hpassed : known.Passed → phase'.Passed) : known.Moves a phase' := by
  refine ⟨fun b hb => ?_, hpassed, fun hfailed => ?_⟩
  · rw [howner] at hb
    exact (Option.some.inj hb).symm
  · rw [hfailed] at howner
    cases howner

/-- The account of a call, with what is seen of it. -/
theorem Ledger.account (h : Ledger phase points w) (ctx : Nat) {known : Phase}
    (hphase : phase ctx = known) : ∃ v, w.view ctx = v ∧ Account known v :=
  ⟨_, rfl, hphase ▸ h.accounts ctx⟩

theorem Ledger.user_step (h : Ledger phase points w) {host : Host} {inner : Inner}
    (hp : points a = .user host inner) {next : Op.Res op → Point}
    (hstep : inner.step toTicks host = ⟨op, next⟩) (hallows : w.Allows ⟨op, r⟩)
    (hgranted : Granted w ⟨op, r⟩) :
    ∃ phase', Ledger phase' (Function.update points a (next r)) (w.after ⟨op, r⟩) := by
  have hknows := h.knows a
  rw [hp] at hknows
  have hinner := hknows.2
  -- One case for each point of `delay_exec`; the account of its context says which phase it is in.
  cases inner with
  | choosing =>
    cases hstep
    cases r with
    | delay_exec callback delay_ms => exact ⟨_, h.user_stay hp h.accounts trivial⟩
    | post ticks => exact ⟨_, h.user_stay hp h.accounts trivial⟩
    | finish => exact ⟨_, h.user_after hp⟩
  | posting ticks =>
    cases hstep
    refine ⟨_, h.user_stay hp (fun c => ?_) trivial⟩
    rw [view_post]
    exact h.accounts c
  | newing callback delay_ms =>
    cases hstep
    have hborn : (w.records r).born = false := hallows
    obtain ⟨v, hv, haccount⟩ := h.account r rfl
    generalize hphase : phase r = known at haccount
    have hrecord : w.records r = v.record := congrArg View.record hv
    rw [hrecord] at hborn
    -- A new context was not born before, which leaves one phase.
    cases haccount with
    | unborn =>
      exact ⟨_, h.user_move (.made a) hp hphase ⟨nofun, nofun, nofun⟩
        (view_record hv fun record => { record with born := true }) .made (Function.update_self ..)
        nofun nofun⟩
    | _ => cases hborn
  | creating ctx delay_ms =>
    cases hstep
    obtain ⟨v, hv, haccount⟩ := h.account ctx hinner
    cases haccount with
    | made =>
      -- `xTimerCreate` failed, or created the timer with the context as its ID.
      cases r with
      | none =>
        exact ⟨_, h.user_move (.dropped a) hp hinner (.own rfl nofun) (Function.update_eq_self ..).symm
          (hv ▸ .dropped rfl) (Function.update_self ..) nofun nofun⟩
      | some timer =>
        obtain rfl : timer = ctx := hallows timer rfl
        exact ⟨_, h.user_move (.armed a) hp hinner (.own rfl nofun)
          (view_record hv fun record => { record with timer := true }) .armed
          ⟨rfl, Function.update_self ..⟩ nofun nofun⟩
  | starting ctx timer =>
    cases hstep
    obtain ⟨rfl, hphase⟩ := hinner
    obtain ⟨v, hv, haccount⟩ := h.account ctx hphase
    cases haccount with
    | armed =>
      -- The queue was full, or it has taken the start command.
      cases r with
      | false =>
        exact ⟨_, h.user_move (.refused a) hp hphase (.own rfl nofun) (Function.update_eq_self ..).symm
          (hv ▸ .refused) ⟨rfl, Function.update_self ..⟩ nofun nofun⟩
      | true =>
        have hview := view_start w ctx
        rw [hv] at hview
        refine ⟨_, h.user_move .starting hp hphase (.own rfl nofun) hview (.starting nofun) ?_
          nofun nofun⟩
        show (Function.update phase ctx _ ctx).Passed
        rw [Function.update_self]
        trivial
  | withdrawing ctx timer =>
    cases hstep
    obtain ⟨rfl, hphase⟩ := hinner
    obtain ⟨v, hv, haccount⟩ := h.account ctx hphase
    cases haccount with
    -- By `Granted` the queue has space for the delete command, so the command is taken.
    | refused =>
      obtain rfl : r = true := hallows.mpr hgranted.2
      have hview := view_delete w ctx
      rw [hv] at hview
      exact ⟨_, h.user_move (.dropped a) hp hphase (.own rfl nofun) hview (.dropped rfl)
        (Function.update_self ..)
        nofun nofun⟩
  | freeing ctx =>
    cases hstep
    obtain ⟨v, hv, haccount⟩ := h.account ctx hinner
    cases haccount with
    | dropped hdeletes =>
      exact ⟨_, h.user_move .failed hp hinner (.own rfl nofun)
        (view_record hv fun record => { record with freed := record.freed + 1 })
        (.failed hdeletes nofun) (Function.update_self ..) nofun nofun⟩
  | returning ctx result =>
    cases hstep
    refine ⟨_, h.user_stay hp (fun c => ?_) trivial⟩
    have hview := view_record (Eq.refl (w.view ctx)) fun record => { record with result := some result }
    show Account (phase c) ((w.set ctx _).view c)
    rw [hview]
    by_cases hc : c = ctx
    -- The result is recorded; the phase has told it already.
    · rw [hc, Function.update_self]
      cases result with
      | false =>
        have hphase : phase ctx = .failed := hinner
        have haccount := h.accounts ctx
        rw [hphase] at haccount ⊢
        exact haccount.returned_false
      | true => exact (h.accounts ctx).returned_true hinner
    · rw [Function.update_of_ne hc]
      exact h.accounts c

/-! ### The timer service task -/

/-- The timer service task has served at most the call that it takes to another phase. -/
theorem Ledger.service_move (h : Ledger phase points w) {p p' : Point} {known : Phase} {v : View}
    (phase' : Phase) (hp : points none = p) (hphase : phase ctx = known) (hmoves : known.Moves none phase')
    (hview : w'.view = Function.update w.view ctx v) (haccount : Account phase' v)
    (hknows : p'.Knows none (Function.update phase ctx phase')) (hold : ∀ c, p.Serves c → c = ctx)
    (hnew : phase'.Serving → p'.Serves ctx) :
    Ledger (Function.update phase ctx phase') (Function.update points none p') w' := by
  subst hphase
  apply h.move hmoves hview haccount hknows
  · exact fun _ => nofun
  · intro _ c hc
    by_cases hctx : c = ctx
    · rw [hctx, Function.update_self] at hc
      rw [hctx]
      exact hnew hc
    · rw [Function.update_of_ne hctx] at hc
      have hserves := h.serves c hc
      rw [hp] at hserves
      exact absurd (hold c hserves) hctx
  · exact fun hne => absurd rfl hne

theorem Ledger.service_stay (h : Ledger phase points w) {p p' : Point} (hp : points none = p)
    (haccounts : ∀ c, Account (phase c) (w'.view c)) (hknows : p'.Knows none phase)
    (hserves : ∀ c, p.Serves c → p'.Serves c) :
    Ledger phase (Function.update points none p') w' := by
  apply h.stay haccounts hknows
  · exact fun _ => nofun
  · intro _ c hc
    apply hserves
    rw [← hp]
    exact h.serves c hc

theorem Ledger.command_step (h : Ledger phase points w) (hp : points none = .working)
    (hqueue : w.queue ≠ []) :
    ∃ phase', Ledger phase' (Function.update points none .working) (w.after ⟨.work, .command⟩) := by
  obtain ⟨command, queue, hqueue⟩ := List.exists_cons_of_ne_nil hqueue
  cases command with
  | start timer =>
    have hview := view_process_start hqueue
    have hcount : 0 < (w.view timer).starts := by
      show 0 < w.queue.count _
      rw [hqueue]
      exact List.count_pos_iff.mpr List.mem_cons_self
    obtain ⟨v, hv, haccount⟩ := h.account timer rfl
    generalize hphase : phase timer = known at haccount
    rw [hv] at hview hcount
    cases haccount with
    | starting hresult =>
      exact ⟨_, h.service_move .active hp hphase ⟨nofun, fun _ => trivial, nofun⟩ hview
        (.active hresult) trivial
        nofun nofun⟩
    | _ => cases hcount
  | delete timer =>
    have hview := view_process_delete hqueue
    have hcount : 0 < (w.view timer).deletes := by
      show 0 < w.queue.count _
      rw [hqueue]
      exact List.count_pos_iff.mpr List.mem_cons_self
    refine ⟨_, h.service_stay hp (fun c => ?_) trivial nofun⟩
    rw [hview]
    by_cases hc : c = timer
    · subst hc
      rw [Function.update_self]
      -- one deletion less in the queue, one more done
      obtain ⟨v, hv, haccount⟩ := h.account c rfl
      have hrecord : w.records c = v.record := congrArg View.record hv
      generalize phase c = known at haccount
      rw [hv] at hcount ⊢
      rw [hrecord]
      cases haccount with
      | dropped hdeletes => exact .dropped (by dsimp only at hcount ⊢; omega)
      | failed hdeletes hresult => exact .failed (by dsimp only at hcount ⊢; omega) hresult
      | gone hn hdeletes hresult => exact .gone hn (by dsimp only at hcount ⊢; omega) hresult
      | _ => cases hcount
    · rw [Function.update_of_ne hc]
      exact h.accounts c
  | other =>
    refine ⟨_, h.service_stay hp (fun c => ?_) trivial nofun⟩
    rw [view_process_other hqueue]
    exact h.accounts c

theorem Ledger.service_step (h : Ledger phase points w) {p : Point} (hp : points none = p)
    {next : Op.Res op → Point} (huser : ∀ host inner, p ≠ .user host inner)
    (hstep : p.step toTicks = some ⟨op, next⟩) (hallows : w.Allows ⟨op, r⟩) :
    ∃ phase', Ledger phase' (Function.update points none (next r)) (w.after ⟨op, r⟩) := by
  have hknows := h.knows none
  rw [hp] at hknows
  -- One case for each point of the service task and of the callback it calls.
  cases p with
  | finished => cases hstep
  | user host inner => exact absurd rfl (huser host inner)
  | working =>
    cases hstep
    cases r with
    | command => exact h.command_step hp hallows
    -- A timer that expires is active, which leaves one phase; from now on it is the callback's.
    | expired timer =>
      have hview := view_expired w timer
      have hcount : 0 < (w.view timer).actives := List.count_pos_iff.mpr hallows
      obtain ⟨v, hv, haccount⟩ := h.account timer rfl
      generalize hphase : phase timer = known at haccount
      rw [hv] at hview hcount
      cases haccount with
      | active hresult =>
        exact ⟨_, h.service_move .fired hp hphase ⟨nofun, fun _ => trivial, nofun⟩ hview (.fired hresult)
          (Function.update_self ..) nofun fun _ => rfl⟩
      | _ => cases hcount
    | otherExpired => exact ⟨_, h.service_stay hp h.accounts ⟨trivial, trivial⟩ nofun⟩
  | gettingId timer =>
    cases hstep
    obtain rfl : timer = r := Eq.symm hallows
    exact ⟨_, h.service_stay hp h.accounts ⟨rfl, hknows⟩ fun _ hc => hc⟩
  | reading ctx timer =>
    cases hstep
    obtain ⟨rfl, hphase⟩ := hknows
    -- A context without a function goes straight to its end.
    cases r with
    | true => exact ⟨_, h.service_stay hp h.accounts ⟨rfl, hphase⟩ fun _ hc => hc⟩
    | false =>
      obtain ⟨v, hv, haccount⟩ := h.account ctx hphase
      cases haccount with
      | fired hresult =>
        exact ⟨_, h.service_move .ended hp hphase (.own rfl fun _ => trivial)
          (Function.update_eq_self ..).symm
          (hv ▸ .ended (Nat.zero_le _) hresult) ⟨rfl, Function.update_self ..⟩ (fun _ hc => hc.symm)
          fun _ => rfl⟩
  | entering ctx timer =>
    cases hstep
    obtain ⟨rfl, hphase⟩ := hknows
    obtain ⟨v, hv, haccount⟩ := h.account ctx hphase
    cases haccount with
    | fired hresult =>
      exact ⟨_, h.service_move .inside hp hphase (.own rfl fun _ => trivial)
        (view_record hv fun record => { record with entered := record.entered + 1 }) (.inside hresult)
        ⟨⟨rfl, Function.update_self ..⟩, trivial⟩ (fun _ hc => hc.symm) fun _ => rfl⟩
  | leaving ctx timer =>
    cases hstep
    obtain ⟨rfl, hphase⟩ := hknows
    obtain ⟨v, hv, haccount⟩ := h.account ctx hphase
    cases haccount with
    | inside hresult =>
      exact ⟨_, h.service_move .ended hp hphase (.own rfl fun _ => trivial)
        (view_record hv fun record => { record with left := record.left + 1 })
        (.ended (Nat.le_refl _) hresult)
        ⟨rfl, Function.update_self ..⟩ (fun _ hc => hc.symm) fun _ => rfl⟩
  | freeing ctx timer =>
    cases hstep
    obtain ⟨rfl, hphase⟩ := hknows
    obtain ⟨v, hv, haccount⟩ := h.account ctx hphase
    cases haccount with
    | ended hn hresult =>
      exact ⟨_, h.service_move .spent hp hphase (.own rfl fun _ => trivial)
        (view_record hv fun record => { record with freed := record.freed + 1 }) (.spent hn hresult)
        (Function.update_self ..) (fun _ hc => hc.symm) fun _ => rfl⟩
  | deleting timer =>
    cases hstep
    obtain ⟨v, hv, haccount⟩ := h.account timer hknows
    cases haccount with
    | spent hn hresult =>
      -- The last call of the callback: the service task is free for other work from here on.
      have hview := view_delete { w with busy := false } timer
      rw [show World.view { w with busy := false } = w.view from rfl, hv] at hview
      exact ⟨_, h.service_move .gone hp hknows (.own rfl fun _ => trivial) hview
        (.gone hn rfl hresult) trivial
        (fun _ hc => hc.symm) nofun⟩

/-! ## The invariant -/

/-- The calls are accounted for, and the callbacks have room. -/
def Balanced (points : Option Nat → Point) (w : World) : Prop :=
  KeepsRoom points w ∧ ∃ phase, Ledger phase points w

theorem Ledger.proper (h : Ledger phase points w) {next : Op.Res op → Point}
    (hstep : (points a).step toTicks = some ⟨op, next⟩) (hfree : NotBlocked (.asking op) w) :
    Proper (.asking op) w := by
  have hknows := h.knows a
  generalize points a = p at hstep hknows
  -- Only three calls touch a context; at each its account shows that it has not been freed.
  cases p with
  | finished => cases hstep
  | user host inner =>
    cases inner with
    | freeing ctx =>
      cases hstep
      obtain ⟨v, hv, haccount⟩ := h.account ctx hknows.2
      show (w.view ctx).record.freed = 0
      rw [hv]
      cases haccount
      rfl
    | _ =>
      cases hstep
      exact hfree
  | reading ctx timer =>
    cases hstep
    obtain ⟨rfl, hphase⟩ := hknows
    obtain ⟨v, hv, haccount⟩ := h.account ctx hphase
    show (w.view ctx).record.freed = 0
    rw [hv]
    cases haccount
    rfl
  | entering ctx timer =>
    cases hstep
    obtain ⟨rfl, hphase⟩ := hknows
    obtain ⟨v, hv, haccount⟩ := h.account ctx hphase
    show (w.view ctx).record.freed = 0 ∧ (w.view ctx).record.entered = 0
    rw [hv]
    cases haccount
    exact ⟨rfl, rfl⟩
  | freeing ctx timer =>
    cases hstep
    obtain ⟨rfl, hphase⟩ := hknows
    obtain ⟨v, hv, haccount⟩ := h.account ctx hphase
    show (w.view ctx).record.freed = 0
    rw [hv]
    cases haccount
    rfl
  | _ =>
    cases hstep
    exact hfree

theorem Balanced.kept (h : Balanced points w) (a : Option Nat) :
    (chart toTicks).Kept (tasks Granted) Proper Balanced a points w := by
  obtain ⟨hroom, phase, hledger⟩ := h
  have hkept : (chart toTicks).Kept (tasks Granted) NotBlocked KeepsRoom a points w :=
    hroom.kept (fun _ _ hgranted => hgranted.1) a
  rw [Chart.Kept] at hkept ⊢
  split
  · next hstep =>
    exact ⟨hroom, phase, hledger⟩
  · next op next hstep =>
    rw [hstep] at hkept
    obtain ⟨hfree, hkept⟩ := hkept
    refine ⟨hledger.proper hstep hfree, fun r w' hr => ⟨hkept r w' hr, ?_⟩⟩
    obtain ⟨⟨hallows, hgranted⟩, rfl⟩ := hr
    have hpoint : (points a).step toTicks = some ⟨op, next⟩ := hstep
    generalize hp : points a = p at hpoint
    cases p with
    | finished => cases hpoint
    | user host inner => exact hledger.user_step hp (Option.some.inj hpoint) hallows hgranted
    | _ =>
      cases a with
      | some a => cases hledger.client hp rfl
      | none => exact hledger.service_step hp (fun _ _ heq => by cases heq) hpoint hallows

end

theorem Balanced.idle (length : Nat) : Balanced starts (idle length) := by
  refine ⟨KeepsRoom.idle length, fun _ => .unborn, fun _ => .unborn, fun a => ?_, fun _ => trivial,
    fun _ => nofun⟩
  cases a with
  | none => trivial
  | some a => exact ⟨trivial, trivial⟩

/-! ## What the header promises -/

section

variable {toTicks : UInt32 → UInt32} {phase : Nat → Phase} {points : Option Nat → Point} {w : World}

/-- The timer service task looks for work at one point. -/
theorem working_of_asks {p : Point} {k : Op.Res .work → Code Unit}
    (h : Asks ((chart toTicks).program p) .work k) : p = .working := by
  have hcorrect : (chart toTicks).Correct := chart_correct
  have hpoint := hcorrect p
  split at hpoint
  · rw [hpoint] at h
    cases h
  · next op next hstep =>
    have hop : Op.work = op := asks_unique h hpoint
    subst hop
    cases p with
    | working => rfl
    | user host inner => cases inner <;> cases hstep
    | _ => cases hstep

theorem Account.refused_spec {p : Phase} {v : View} (h : Account p v)
    (hresult : v.record.result = some false) :
    v.record.entered = 0 ∧ v.record.freed = 1 ∧
      (v.record.timer = true → v.deletes + v.record.deleted = 1) := by
  cases h with
  | failed hsum => exact ⟨rfl, rfl, fun htimer => hsum.trans (if_pos htimer)⟩
  | starting hnot => exact absurd hresult hnot
  | active hnot => exact absurd hresult hnot
  | fired hnot => exact absurd hresult hnot
  | inside hnot => exact absurd hresult hnot
  | ended _ hnot => exact absurd hresult hnot
  | spent _ hnot => exact absurd hresult hnot
  | gone _ _ hnot => exact absurd hresult hnot
  | _ => cases hresult

theorem sum_le_one {timer : Bool} {deletes deleted : Nat}
    (h : deletes + deleted = if timer then 1 else 0) : deleted ≤ 1 := by
  cases timer <;> simp at h <;> omega

theorem Account.once_spec {p : Phase} {v : View} (h : Account p v) :
    v.record.entered ≤ 1 ∧ v.record.freed ≤ 1 ∧ v.record.deleted ≤ 1 := by
  cases h with
  | dropped hsum => exact ⟨Nat.zero_le _, Nat.zero_le _, sum_le_one hsum⟩
  | failed hsum => exact ⟨Nat.zero_le _, Nat.le_refl _, sum_le_one hsum⟩
  | ended hn => exact ⟨hn, Nat.zero_le _, Nat.zero_le _⟩
  | spent hn => exact ⟨hn, Nat.le_refl _, Nat.zero_le _⟩
  | gone hn hsum => exact ⟨hn, Nat.le_refl _, by dsimp only; omega⟩
  | inside => exact ⟨Nat.le_refl _, Nat.zero_le _, Nat.zero_le _⟩
  | _ => exact ⟨Nat.zero_le _, Nat.zero_le _, Nat.zero_le _⟩

theorem Account.behind_spec {p : Phase} {v : View} (h : Account p v) (hfreed : v.record.freed = 1) :
    v.record.left = v.record.entered := by
  cases h with
  | inside => cases hfreed
  | _ => rfl

/-- A call that has returned true, where nothing is left to do for its timer. -/
theorem Account.done_spec {p : Phase} {v : View} (h : Account p v) (hresult : v.record.result = some true)
    (hserving : ¬p.Serving) (hstarts : v.starts = 0) (hdeletes : v.deletes = 0) (hactives : v.actives = 0) :
    v.record.freed = 1 ∧ v.record.deleted = 1 := by
  cases h with
  | failed _ hnot => exact absurd hresult hnot
  | starting => cases hstarts
  | active => cases hactives
  | gone hn hsum =>
    dsimp only at hdeletes ⊢
    exact ⟨rfl, by omega⟩
  | unborn => cases hresult
  | made => cases hresult
  | armed => cases hresult
  | refused => cases hresult
  | dropped => cases hresult
  | _ => exact absurd trivial hserving

theorem Ledger.settled (h : Ledger phase points w) : Settled ((chart toTicks).programs points) w where
  refused ctx hresult := by
    obtain ⟨hentered, hfreed, hsum⟩ := (h.accounts ctx).refused_spec hresult
    refine ⟨hentered, hfreed, fun htimer => ?_⟩
    -- There is one delete command for each refused timer, on its way or done.
    have hone : w.queue.count (.delete ctx) + (w.records ctx).deleted = 1 := hsum htimer
    by_cases hqueued : Command.delete ctx ∈ w.queue
    · exact .inr hqueued
    · rw [List.count_eq_zero.mpr hqueued] at hone
      exact .inl (by omega)
  once ctx := (h.accounts ctx).once_spec
  behind ctx := (h.accounts ctx).behind_spec
  done hrest ctx hresult := by
    -- At rest the service task waits for work, and neither the queue nor a timer has any.
    obtain ⟨⟨k, hasks⟩, hqueue, hactive⟩ := hrest
    have hworking : points none = .working := working_of_asks hasks
    apply (h.accounts ctx).done_spec hresult
    · intro hserving
      have hserves := h.serves ctx hserving
      rw [hworking] at hserves
      exact hserves
    · show w.queue.count _ = 0
      rw [hqueue]
      rfl
    · show w.queue.count _ = 0
      rw [hqueue]
      rfl
    · show w.active.count _ = 0
      rw [hactive]
      rfl

end

/-- Where the queue takes every deletion, each call of `delay_exec` is settled: in every run and for
every length of the queue. -/
theorem settled_of_granted (toTicks : UInt32 → UInt32) (length : Nat) :
    (tasks Granted).Sound Proper Settled (programs toTicks) (idle length) := by
  rw [← programs_starts]
  apply Chart.sound chart_correct (fun _ _ => trivial) Balanced (Balanced.idle length)
  · exact fun _ _ a h _ => h.kept a
  · rintro points w ⟨_, phase, hledger⟩
    exact hledger.settled

/-- A queue of one command, which another task has taken. -/
def noRoom : List (Option Nat × TimerEvent) :=
  [(some 1, ⟨.move, .post .zero⟩), (some 1, ⟨.post .zero, true⟩),
    (some 0, ⟨.move, .delay_exec true 5⟩), (some 0, ⟨.newContext true, (0 : Nat)⟩),
    (some 0, ⟨.xTimerCreate 5 0, some 0⟩), (some 0, ⟨.xTimerStart 0, false⟩),
    (some 0, ⟨.xTimerDelete 0 .zero, false⟩), (some 0, ⟨.deleteContext 0, ()⟩),
    (some 0, ⟨.returned 0 false, ()⟩)]

/-- The queue that has no room for the start may have none for the deletion, and the timer stays
allocated. -/
theorem refused_timer_stays : ¬∀ (toTicks : UInt32 → UInt32) (length : Nat),
    free.Sound Proper Settled (programs toTicks) (idle length) := by
  intro h
  have hreplay : (chart id).replays (fun w e => World.Allows w e ∧ True) World.after starts (idle 1) noRoom
      (fun _ w => (w.records 0).result = some false ∧ (w.records 0).timer = true ∧
        (w.records 0).deleted = 0 ∧ .delete 0 ∉ w.queue) = true := by
    decide +kernel
  obtain ⟨points, w, hreach, hend⟩ := Chart.replays_reaches (T := free) chart_correct rfl (fun _ _ => trivial)
    (fun _ _ => rfl) (fun _ _ => trivial) hreplay
  obtain ⟨hresult, htimer, hdeleted, hqueue⟩ := of_decide_eq_true hend
  rw [programs_starts] at hreach
  rcases ((h id 1 _ _ hreach).1.refused 0 hresult).2.2 htimer with hone | hmem
  · rw [hdeleted] at hone
    cases hone
  · exact hqueue hmem

end Timers
