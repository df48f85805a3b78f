import BaseUtilities.Thread.Code

/-!
# The life cycle of a thread

`m_task` is the handle of the one task that exists, and every task is deleted once, as long as the
thread does not end while its owner waits for that in `stop`, and the owner calls nothing after the
thread has stopped itself.
-/

open Effects

namespace Thread

/-- `stop` hands the kernel the handles of tasks that exist. -/
def Proper : Stop Op → World → Prop
  | .asking (.eTaskGetState handle), w => ∃ t ∈ handle, w.Alive t
  | .asking (.vTaskDelete handle), w => ∃ t ∈ handle, w.Alive t
  | _, _ => True

/-- Only tasks are deleted, each of them once, and all of them when the owner is done. -/
structure Managed (ps : Option Nat → Code Unit) (w : World) : Prop where
  once : w.deleted.Nodup
  created : ∀ t ∈ w.deleted, t ∈ w.created
  owner : w.ownerDeleted = false
  all : ps none = .ret () → ∀ t ∈ w.created, t ∈ w.deleted

/-- The owner is in `stop`; between two turns it waits there. -/
def World.Stopping (w : World) : Prop := ∃ timeout_ms, w.call = some (.stop timeout_ms)

/-- The thread does not end while its owner waits in `stop`, neither by itself nor by its own `stop`,
and the owner calls nothing after the thread has stopped itself. -/
def Timely (w : World) : ThreadEvent → Prop
  | ⟨.move, .finish⟩ => ¬w.Stopping
  | ⟨.vTaskDelete _, _⟩ => w.current.isSome → ¬w.Stopping
  | ⟨.next, _⟩ => ∀ t ∈ w.m_task, w.Alive t
  | _ => True

/-- Every turn of `p` in a timely world ends as `Q` and `Y` say. -/
abbrev turns {α : Type} (p : Code α) (Q : α → World → Prop) (Y : Code α → World → Prop) (w : World) :
    Prop :=
  turn (tasks Timely).env Proper Yields p Q Y w

section

variable {toTicks : UInt32 → UInt32} {α : Type} {Q : α → World → Prop} {Y : Code α → World → Prop}
  {w : World}

/-- A call after which the task keeps the processor. -/
theorem turn_on {op : Op} {f : Op.Res op → Code α} (hasks : Proper (.asking op) w)
    (hf : ∀ r, w.Allows ⟨op, r⟩ → Timely w ⟨op, r⟩ → ¬Yields op (w.after ⟨op, r⟩) ∧
      turns (f r) Q Y (w.after ⟨op, r⟩)) :
    turns (Prog.perform op >>= f) Q Y w := by
  refine turn_call hasks fun r w' hr => ?_
  obtain ⟨⟨hallows, htimely⟩, rfl⟩ := hr
  obtain ⟨hno, hf⟩ := hf r hallows htimely
  exact ⟨fun hy => absurd hy hno, fun _ => hf⟩

/-- A call after which it yields. -/
theorem turn_off {op : Op} {f : Op.Res op → Code α} (hasks : Proper (.asking op) w)
    (hf : ∀ r, w.Allows ⟨op, r⟩ → Timely w ⟨op, r⟩ →
      Yields op (w.after ⟨op, r⟩) ∧ Y (f r) (w.after ⟨op, r⟩)) :
    turns (Prog.perform op >>= f) Q Y w := by
  refine turn_call hasks fun r w' hr => ?_
  obtain ⟨⟨hallows, htimely⟩, rfl⟩ := hr
  obtain ⟨hyields, hf⟩ := hf r hallows htimely
  exact ⟨fun _ => hf, fun hno => absurd hyields hno⟩

/-- Whether a deletion ends the turn of the task `t`. -/
theorem yields_task {t : Nat} {op : Op} (hop : op = .exit ∨ ∃ handle, op = .vTaskDelete handle)
    (hcurrent : w.current = some t) : Yields op w ↔ t ∈ w.deleted := by
  rw [Yields.eq_def]
  rcases hop with rfl | ⟨handle, rfl⟩
  · dsimp only
    rw [hcurrent]
  · dsimp only
    rw [hcurrent]

/-- Whether it ends that of the owner. -/
theorem yields_owner {handle : Option Nat} (hcurrent : w.current = none) :
    Yields (.vTaskDelete handle) w ↔ w.ownerDeleted = true := by
  rw [Yields.eq_def]
  dsimp only
  rw [hcurrent]

/-- A task that deletes itself. -/
theorem after_exit {t : Nat} (hcurrent : w.current = some t) :
    w.after ⟨.exit, ()⟩ = { w with deleted := t :: w.deleted } := by
  show w.delete none = _
  rw [World.delete, hcurrent, Option.none_or]

/-! ## `stop` -/

/-- The world behind the deletion of `m_task` by the owner. -/
def World.stopped (w : World) (t : Nat) : World :=
  { w with m_task := none, deleted := t :: w.deleted }

theorem stopDelete_owner {t : Nat} {Q : Bool → World → Prop} {Y : Code Bool → World → Prop}
    (hcurrent : w.current = none) (howner : w.ownerDeleted = false) (hm_task : w.m_task = some t)
    (halive : w.Alive t) (hQ : Q true (w.stopped t)) :
    turns stopDelete Q Y w := by
  refine turn_on trivial fun m_task hm _ => ⟨id, ?_⟩
  obtain rfl : m_task = some t := hm.trans hm_task
  refine turn_on ⟨t, rfl, halive⟩ fun _ _ _ => ⟨?_, ?_⟩
  · refine mt (yields_owner ?_).mp ?_
    · exact hcurrent
    · exact Bool.not_eq_true _ ▸ howner
  refine turn_on trivial fun _ _ _ => ⟨id, turn_ret hQ⟩

theorem stopDelete_task {t : Nat} {Q : Bool → World → Prop} {Y : Code Bool → World → Prop}
    (hcurrent : w.current = some t) (hm_task : w.m_task = some t) (halive : w.Alive t)
    (hY : ¬w.Stopping → ∀ p, Y p { w with deleted := t :: w.deleted }) :
    turns stopDelete Q Y w := by
  refine turn_on trivial fun m_task hm _ => ⟨id, ?_⟩
  obtain rfl : m_task = some t := hm.trans hm_task
  have hsome : w.current.isSome = true := by rw [hcurrent]; rfl
  refine turn_off ⟨t, rfl, halive⟩ fun _ _ htimely => ⟨?_, ?_⟩
  · refine (yields_task (t := t) (.inr ⟨_, rfl⟩) ?_).mpr ?_
    · exact hcurrent
    · exact List.mem_cons_self
  · exact hY (htimely hsome) _

/-- The wait of `stop`, and its end. -/
def stopping (toTicks : UInt32 → UInt32) (start timeout_ms : UInt32) : Code Bool := do
  stopWait toTicks start timeout_ms
  stopDelete

theorem stopping_turn {start timeout_ms : UInt32} {t : Nat} {Q : Bool → World → Prop}
    {Y : Code Bool → World → Prop} (hm_task : w.m_task = some t) (halive : w.Alive t)
    (hdelete : turns stopDelete Q Y w)
    (hwait : Y (stopping toTicks start timeout_ms) w) :
    turns (stopping toTicks start timeout_ms) Q Y w := by
  refine turn_loop (turn_bind ?_)
  refine turn_on trivial fun m_task hm _ => ⟨id, ?_⟩
  obtain rfl : m_task = some t := hm.trans hm_task
  refine turn_on ⟨t, rfl, halive⟩ fun state hstate _ => ⟨id, ?_⟩
  rw [if_neg (hstate t rfl halive)]
  refine turn_on trivial fun now _ _ => ⟨id, ?_⟩
  split
  · exact turn_off trivial fun _ _ _ => ⟨trivial, hwait⟩
  · exact turn_ret hdelete

/-- `stop`, where there is a task. -/
theorem stop_turn {timeout_ms : UInt32} {t : Nat} {Q : Bool → World → Prop}
    {Y : Code Bool → World → Prop} (hm_task : w.m_task = some t) (halive : w.Alive t)
    (hdelete : turns stopDelete Q Y { w with m_should_stop := true })
    (hwait : 0 < timeout_ms → ∀ start,
      Y (stopping toTicks start timeout_ms) { w with m_should_stop := true }) :
    turns (stop toTicks timeout_ms) Q Y w := by
  refine turn_on trivial fun m_task hm _ => ⟨id, ?_⟩
  obtain rfl : m_task = some t := hm.trans hm_task
  rw [if_neg (by simp)]
  refine turn_on trivial fun _ _ _ => ⟨id, ?_⟩
  split
  · next hpos =>
    refine turn_on trivial fun start _ _ => ⟨id, ?_⟩
    exact stopping_turn hm_task halive hdelete (hwait hpos start)
  · exact hdelete

/-- `stop`, where there is none. -/
theorem stop_none {timeout_ms : UInt32} {Q : Bool → World → Prop} {Y : Code Bool → World → Prop}
    (hm_task : w.m_task = none) (hQ : Q false w) :
    turns (stop toTicks timeout_ms) Q Y w := by
  refine turn_on trivial fun m_task hm _ => ⟨id, ?_⟩
  obtain rfl : m_task = none := hm.trans hm_task
  exact turn_ret hQ

end

/-! ## The invariant -/

/-- `m_task` is the handle of the task that exists, and only tasks are deleted, each of them once. -/
structure Coherent (w : World) : Prop where
  handle : ∀ t, w.Alive t → w.m_task = some t
  once : w.deleted.Nodup
  created : ∀ t ∈ w.deleted, t ∈ w.created
  owner : w.ownerDeleted = false

namespace Coherent

variable {w w' : World} {t : Nat}

/-- Only these members matter. -/
theorem congr (h : Coherent w) (hm_task : w'.m_task = w.m_task) (hdeleted : w'.deleted = w.deleted)
    (hcreated : w'.created = w.created) (howner : w'.ownerDeleted = w.ownerDeleted) : Coherent w' := by
  refine ⟨fun t ht => ?_, ?_, ?_, howner.trans h.owner⟩
  · rw [World.Alive, hdeleted, hcreated] at ht
    exact hm_task.trans (h.handle t ht)
  · exact hdeleted ▸ h.once
  · rw [hdeleted, hcreated]
    exact h.created

theorem none_alive (h : Coherent w) (hm_task : w.m_task = none) (t : Nat) : ¬w.Alive t := by
  intro halive
  rw [h.handle t halive] at hm_task
  cases hm_task

/-- The one task is deleted, and the members of the thread are arbitrary. -/
theorem delete (h : Coherent w) (halive : w.Alive t) (hdeleted : w'.deleted = t :: w.deleted)
    (hcreated : w'.created = w.created) (howner : w'.ownerDeleted = w.ownerDeleted) :
    Coherent w' ∧ ∀ t', ¬w'.Alive t' := by
  have hnone : ∀ t', ¬w'.Alive t' := by
    rintro t' ⟨hc, hd⟩
    rw [hcreated] at hc
    rw [hdeleted, List.mem_cons, not_or] at hd
    have hhandle := h.handle t' ⟨hc, hd.2⟩
    rw [h.handle t halive] at hhandle
    exact hd.1 (Option.some.inj hhandle).symm
  refine ⟨⟨fun t' ht' => absurd ht' (hnone t'), ?_, ?_, howner.trans h.owner⟩, hnone⟩
  · rw [hdeleted]
    exact List.nodup_cons.mpr ⟨halive.2, h.once⟩
  · intro t' ht'
    rw [hdeleted] at ht'
    rw [hcreated]
    cases ht' with
    | head => exact halive.1
    | tail _ ht' => exact h.created t' ht'

/-- A new task, where there was none. -/
theorem create (h : Coherent w) (hm_task : w.m_task = none) {handle : Option Nat}
    (hnew : ∀ t ∈ handle, t ∉ w.created) : Coherent (w.create handle) := by
  cases handle with
  | none => exact h
  | some t =>
    refine ⟨?_, h.once, fun t' ht' => List.mem_cons_of_mem _ (h.created t' ht'), h.owner⟩
    rintro t' ⟨hc, hd⟩
    cases hc with
    | head => rfl
    | tail _ hc => exact absurd ⟨hc, hd⟩ (h.none_alive hm_task t')

end Coherent

/-- The owner outside of the class, about to make a call. -/
def calling (toTicks : UInt32 → UInt32) : Code Unit :=
  ownerCall toTicks >>= Iter.onward (fun _ => do Sys.idle; ownerCall toTicks) .ret

/-- Where the owner is between two turns. -/
inductive OwnerAt (toTicks : UInt32 → UInt32) : Code Unit → World → Prop where
  | outside {w : World} (hcall : ¬w.Stopping) : OwnerAt toTicks (owner toTicks) w
  | calling {w : World} (hcall : ¬w.Stopping) :
      OwnerAt toTicks (calling toTicks) w
  | waiting {w : World} {start timeout_ms : UInt32} {t : Nat} (hcall : w.Stopping)
      (hm_task : w.m_task = some t) (halive : w.Alive t) :
      OwnerAt toTicks (stopping toTicks start timeout_ms >>= fun _ => owner toTicks) w
  | finished {w : World} (hnone : ∀ t, ¬w.Alive t) : OwnerAt toTicks (.ret ()) w

theorem OwnerAt.congr {toTicks : UInt32 → UInt32} {p : Code Unit} {w w' : World}
    (h : OwnerAt toTicks p w) (hm_task : w'.m_task = w.m_task) (hdeleted : w'.deleted = w.deleted)
    (hcreated : w'.created = w.created) (hcall : w'.call = w.call) : OwnerAt toTicks p w' := by
  have halive : ∀ t, w'.Alive t ↔ w.Alive t := fun t => by
    rw [World.Alive, hdeleted, hcreated, World.Alive]
  have hstopping : w'.Stopping ↔ w.Stopping := by rw [World.Stopping, hcall, World.Stopping]
  cases h with
  | outside hno => exact .outside (hno ∘ hstopping.mp)
  | calling hno => exact .calling (hno ∘ hstopping.mp)
  | waiting hw hm ht => exact .waiting (hstopping.mpr hw) (hm_task.trans hm) ((halive _).mpr ht)
  | finished hnone => exact .finished fun t ht => hnone t ((halive t).mp ht)

theorem OwnerAt.over {toTicks : UInt32 → UInt32} {p : Code Unit} {w : World} (h : OwnerAt toTicks p w)
    (hdone : p = .ret ()) (t : Nat) : ¬w.Alive t := by
  cases h with
  | outside => cases hdone
  | calling => cases hdone
  | waiting => cases hdone
  | finished hnone => exact hnone t

/-- Where a task is between two turns. -/
inductive TaskAt (toTicks : UInt32 → UInt32) : Code Unit → Prop where
  | running : TaskAt toTicks (taskEntry toTicks)
  | waiting {start timeout_ms : UInt32} :
      TaskAt toTicks (stopping toTicks start timeout_ms >>= fun _ => taskEntry toTicks)

structure Inv (toTicks : UInt32 → UInt32) (ps : Option Nat → Code Unit) (w : World) : Prop where
  coherent : Coherent w
  owner_at : OwnerAt toTicks (ps none) w
  task_at : ∀ t, t ∉ w.deleted → TaskAt toTicks (ps (some t))

/-! ## A turn of the owner -/

section

variable {toTicks : UInt32 → UInt32} {w : World} {Q : Bool → World → Prop}
  {Y : Code Bool → World → Prop}

theorem startTask_turn (hcoherent : Coherent w) (hm_task : w.m_task = none)
    (hY : ∀ b w', Coherent w' → w'.call = w.call → w'.deleted = w.deleted → Y (.ret b) w') :
    turns startTask Q Y w := by
  refine turn_on trivial fun _ _ _ => ⟨id, ?_⟩
  refine turn_on trivial fun params hparams _ => ⟨id, ?_⟩
  have hcoherent' : Coherent { w with m_should_stop := false } := (hcoherent.congr rfl rfl rfl rfl)
  split
  · refine turn_off trivial fun handle hnew _ => ⟨trivial, ?_⟩
    refine hY _ _ (hcoherent'.create hm_task hnew) ?_ ?_
    · cases handle <;> rfl
    · cases handle <;> rfl
  · refine turn_off trivial fun handle hnew _ => ⟨trivial, ?_⟩
    refine hY _ _ (hcoherent'.create hm_task hnew) ?_ ?_
    · cases handle <;> rfl
    · cases handle <;> rfl

/-- What `stop` leaves to the owner. -/
structure Stopped (w w' : World) : Prop where
  coherent : Coherent w'
  m_task : w'.m_task = none
  current : w'.current = none
  call : w'.call = w.call
  deleted : w.deleted ⊆ w'.deleted

theorem stopDelete_ends {t : Nat} (hcoherent : Coherent w) (hcurrent : w.current = none)
    (hm_task : w.m_task = some t) (halive : w.Alive t) (hQ : ∀ w', Stopped w w' → Q true w') :
    turns stopDelete Q Y w := by
  obtain ⟨hcoherent', -⟩ : Coherent (w.stopped t) ∧ _ := hcoherent.delete halive rfl rfl rfl
  refine stopDelete_owner hcurrent hcoherent.owner hm_task halive (hQ _ ?_)
  exact ⟨hcoherent', rfl, hcurrent, rfl, List.subset_cons_self _ _⟩

/-- `stop` in a call of the owner. -/
theorem stop_ends {timeout_ms : UInt32} (hcoherent : Coherent w) (hcurrent : w.current = none)
    (hlive : ∀ t ∈ w.m_task, w.Alive t) (hQ : ∀ b w', Stopped w w' → Q b w')
    (hY : 0 < timeout_ms → ∀ start t, w.m_task = some t → w.Alive t →
      Y (stopping toTicks start timeout_ms) { w with m_should_stop := true }) :
    turns (stop toTicks timeout_ms) Q Y w := by
  cases hm_task : w.m_task with
  | none => exact stop_none hm_task (hQ _ _ ⟨hcoherent, hm_task, hcurrent, rfl, List.Subset.refl _⟩)
  | some t =>
    have halive := hlive t hm_task
    refine stop_turn hm_task halive ?_ fun hpos start => hY hpos start t hm_task halive
    refine stopDelete_ends (hcoherent.congr rfl rfl rfl rfl) hcurrent hm_task halive ?_
    exact fun w' h => hQ _ _ ⟨h.1, h.2, h.3, h.4, h.5⟩

theorem start_turn (hcoherent : Coherent w) (hcurrent : w.current = none)
    (hlive : ∀ t ∈ w.m_task, w.Alive t)
    (hY : ∀ b w', Coherent w' → w'.call = w.call → w.deleted ⊆ w'.deleted → Y (.ret b) w') :
    turns (start toTicks) Q Y w := by
  refine turn_on trivial fun m_task hm _ => ⟨id, ?_⟩
  obtain rfl : m_task = w.m_task := hm
  split
  · refine turn_bind (stop_ends hcoherent hcurrent hlive (fun _ w' h => ?_) fun hpos => ?_)
    · refine startTask_turn h.coherent h.m_task fun b w'' hc hcall hd => ?_
      exact hY b w'' hc (hcall.trans h.call) (hd ▸ h.deleted)
    · exact absurd hpos (by decide)
  · next hm_task =>
    refine startTask_turn hcoherent (not_not.mp hm_task) fun b w' hc hcall hd => ?_
    exact hY b w' hc hcall (hd ▸ List.Subset.refl _)

end

/-- What a turn of the owner from `w` ends with. -/
def OwnerEnds (toTicks : UInt32 → UInt32) (w : World) (p : Code Unit) (w' : World) : Prop :=
  Coherent w' ∧ OwnerAt toTicks p w' ∧ w.deleted ⊆ w'.deleted

section

variable {toTicks : UInt32 → UInt32} {w w₀ : World}

theorem ownerCall_turn {Q : Iter Unit Unit → World → Prop}
    {Y : Code (Iter Unit Unit) → World → Prop} (hcoherent : Coherent w) (hcurrent : w.current = none)
    (hnext : ∀ w', Coherent w' → w.deleted ⊆ w'.deleted → Q (.next ()) w')
    (hdone : ∀ w', Coherent w' → w'.m_task = none → w.deleted ⊆ w'.deleted → Q (.done ()) w')
    (hcreated : ∀ w', Coherent w' → ¬w'.Stopping → w.deleted ⊆ w'.deleted →
      Y (.ret (.next ())) w')
    (hwait : ∀ w' start timeout_ms t, Coherent w' → w'.Stopping → w'.m_task = some t → w'.Alive t →
      w.deleted ⊆ w'.deleted →
      Y (stopping toTicks start timeout_ms >>= fun _ => .ret (.next ())) w') :
    turns (ownerCall toTicks) Q Y w := by
  -- The owner calls one function after another; here is one turn for each of them.
  refine turn_on trivial fun call _ hlive => ⟨id, ?_⟩
  have hcoherent' : Coherent { w with call := some call } :=
    (hcoherent.congr rfl rfl rfl rfl)
  -- While `start` is running nobody waits for the task to end.
  have hstart : ∀ {w' : World} {params}, w'.call = some (.start params) → ¬w'.Stopping := by
    rintro w' params hcall ⟨timeout_ms, hstop⟩
    rw [hcall] at hstop
    cases hstop
  -- The two functions `start`, then `stop`, then the destructor, which is a `stop` without a timeout.
  split
  · refine turn_bind (start_turn hcoherent' hcurrent hlive fun b w' hc hcall hd => ?_)
    exact hcreated w' hc (hstart hcall) hd
  · refine turn_bind (turn_on trivial fun _ _ _ => ⟨id, ?_⟩)
    refine start_turn (hcoherent.congr rfl rfl rfl rfl) hcurrent hlive ?_
    exact fun b w' hc hcall hd => hcreated w' hc (hstart hcall) hd
  · next timeout_ms _ =>
    refine turn_bind (stop_ends hcoherent' hcurrent hlive (fun b w' h => ?_) ?_)
    · exact turn_ret (hnext w' h.coherent h.deleted)
    · intro _ start t hm_task halive
      refine hwait _ start timeout_ms t (hcoherent.congr rfl rfl rfl rfl) ?_ hm_task halive ?_
      · exact ⟨timeout_ms, rfl⟩
      · exact List.Subset.refl _
  · refine turn_bind (stop_ends hcoherent' hcurrent hlive (fun b w' h => ?_) fun hpos => ?_)
    · exact turn_ret (hdone w' h.coherent h.m_task h.deleted)
    · exact absurd hpos (by decide)

variable {Q : Unit → World → Prop}

theorem owner_turn (hcoherent : Coherent w) (hdeleted : w₀.deleted ⊆ w.deleted) :
    turns (owner toTicks) Q (OwnerEnds toTicks w₀) w := by
  refine turn_loop (turn_bind (turn_off trivial fun _ _ _ => ⟨trivial, ?_, .calling ?_, hdeleted⟩))
  · exact (hcoherent.congr rfl rfl rfl rfl)
  · rintro ⟨timeout_ms, hcall⟩
    cases hcall

theorem waiting_turn {start timeout_ms : UInt32} {t : Nat} (hcoherent : Coherent w)
    (hcurrent : w.current = none) (hcall : w.Stopping) (hm_task : w.m_task = some t)
    (halive : w.Alive t) (hdeleted : w₀.deleted ⊆ w.deleted) :
    turns (stopping toTicks start timeout_ms >>= fun _ => owner toTicks) Q
      (OwnerEnds toTicks w₀) w := by
  refine turn_bind (stopping_turn hm_task halive ?_ ?_)
  · refine stopDelete_ends hcoherent hcurrent hm_task halive fun w' h => ?_
    exact owner_turn h.coherent (List.Subset.trans hdeleted h.deleted)
  · exact ⟨hcoherent, .waiting hcall hm_task halive, hdeleted⟩

theorem calling_turn (hcoherent : Coherent w) (hcurrent : w.current = none) 
    (hdeleted : w₀.deleted ⊆ w.deleted)
    (hQ : ∀ w', Coherent w' → (∀ t, ¬w'.Alive t) → w₀.deleted ⊆ w'.deleted → Q () w') :
    turns (calling toTicks) Q (OwnerEnds toTicks w₀) w := by
  refine turn_bind (ownerCall_turn hcoherent hcurrent ?_ ?_ ?_ ?_)
  · exact fun w' hc hd => owner_turn hc (List.Subset.trans hdeleted hd)
  · exact fun w' hc hm_task hd => turn_ret (hQ w' hc (hc.none_alive hm_task) (List.Subset.trans hdeleted hd))
  · exact fun w' hc hcall hd => ⟨hc, .outside hcall, List.Subset.trans hdeleted hd⟩
  · intro w' start timeout_ms t hc hcall hm_task halive hd
    rw [Prog.bind_bind]
    exact ⟨hc, .waiting hcall hm_task halive, List.Subset.trans hdeleted hd⟩

end

/-! ## A turn of a task -/

/-- What a turn of the task `t` from `w` ends with: it waits or has given up the processor, or it has
been deleted. -/
structure TaskEnds (toTicks : UInt32 → UInt32) (t : Nat) (w : World) (p : Code Unit) (w' : World) :
    Prop where
  created : w'.created = w.created
  call : w'.call = w.call
  owner : w'.ownerDeleted = w.ownerDeleted
  going : (TaskAt toTicks p ∧ w'.m_task = w.m_task ∧ w'.deleted = w.deleted) ∨
    (¬w.Stopping ∧ w'.deleted = t :: w.deleted)

namespace TaskEnds

variable {toTicks : UInt32 → UInt32} {t : Nat} {w w' : World} {p q : Code Unit}

theorem coherent (h : TaskEnds toTicks t w p w') (hcoherent : Coherent w) (halive : w.Alive t) :
    Coherent w' := by
  obtain ⟨-, hm, hd⟩ | ⟨-, hd⟩ := h.going
  · exact hcoherent.congr hm hd h.created h.owner
  · exact (hcoherent.delete halive hd h.created h.owner).1

/-- A task that ends leaves the owner where it is: the owner does not wait for that. -/
theorem owner_at (h : TaskEnds toTicks t w p w') (howner : OwnerAt toTicks q w) (halive : w.Alive t) :
    OwnerAt toTicks q w' := by
  obtain ⟨-, hm, hd⟩ | ⟨hno, -⟩ := h.going
  · exact howner.congr hm hd h.created h.call
  · have hno' : ¬w'.Stopping := by rwa [World.Stopping, h.call]
    cases howner with
    | outside => exact .outside hno'
    | calling => exact .calling hno'
    | waiting hcall => exact absurd hcall hno
    | finished hnone => exact absurd halive (hnone t)

theorem task_at (h : TaskEnds toTicks t w p w') (ht : t ∉ w'.deleted) : TaskAt toTicks p := by
  obtain ⟨htask, -, -⟩ | ⟨-, hd⟩ := h.going
  · exact htask
  · exact absurd (hd ▸ List.mem_cons_self) ht

theorem deleted (h : TaskEnds toTicks t w p w') : w.deleted ⊆ w'.deleted := by
  obtain ⟨-, -, hd⟩ | ⟨-, hd⟩ := h.going
  · exact hd ▸ List.Subset.refl _
  · exact hd ▸ List.subset_cons_self _ _

end TaskEnds

section

variable {toTicks : UInt32 → UInt32} {t : Nat} {w w₀ : World} {Q : Unit → World → Prop}

theorem runBody_turn {Q : Iter Unit Unit → World → Prop}
    {Y : Code (Iter Unit Unit) → World → Prop} (hcurrent : w.current = some t)
    (hm_task : w.m_task = some t) (halive : w.Alive t)
    (hdelay : Y (.ret (.next ())) w) (hfinish : ¬w.Stopping → Q (.done ()) w)
    (hwait : ∀ start timeout_ms, Y (stopping toTicks start timeout_ms >>= fun _ => .ret (.next ()))
      { w with m_should_stop := true })
    (hdeleted : ¬w.Stopping → ∀ p,
      Y p { w with m_should_stop := true, deleted := t :: w.deleted }) :
    turns (runBody toTicks) Q Y w := by
  refine turn_on trivial fun move _ hmove => ⟨id, ?_⟩
  split
  · exact turn_off trivial fun _ _ _ => ⟨trivial, hdelay⟩
  · refine turn_bind (stop_turn hm_task halive ?_ fun _ start => hwait start _)
    exact stopDelete_task hcurrent hm_task halive fun hcall p => hdeleted hcall _
  · exact turn_ret (hfinish hmove)

theorem taskEntry_turn (hcurrent : w.current = some t) (hm_task : w.m_task = some t)
    (halive : w.Alive t) :
    turns (taskEntry toTicks) Q (TaskEnds toTicks t w) w := by
  refine turn_loop (turn_bind (runBody_turn hcurrent hm_task halive ?_ ?_ ?_ ?_))
  · exact ⟨rfl, rfl, rfl, .inl ⟨.running, rfl, rfl⟩⟩
  · intro hcall
    refine turn_on trivial fun _ _ _ => ⟨id, ?_⟩
    have hexit : turns (Prog.perform Op.exit >>= Prog.ret) Q
        (TaskEnds toTicks t w) { w with m_task := none } := by
      refine turn_off trivial fun _ _ _ => ?_
      rw [after_exit (w := { w with m_task := none }) hcurrent]
      refine ⟨?_, rfl, rfl, rfl, .inr ⟨hcall, rfl⟩⟩
      exact (yields_task (w := { w with m_task := none, deleted := t :: w.deleted }) (.inl rfl) hcurrent).mpr
        List.mem_cons_self
    exact hexit
  · intro start timeout_ms
    rw [Prog.bind_bind]
    exact ⟨rfl, rfl, rfl, .inl ⟨.waiting, rfl, rfl⟩⟩
  · exact fun hcall p => ⟨rfl, rfl, rfl, .inr ⟨hcall, rfl⟩⟩

theorem selfStop_turn {start timeout_ms : UInt32} (hcurrent : w.current = some t)
    (hm_task : w.m_task = some t) (halive : w.Alive t) :
    turns (stopping toTicks start timeout_ms >>= fun _ => taskEntry toTicks) Q
      (TaskEnds toTicks t w) w := by
  refine turn_bind (stopping_turn hm_task halive ?_ ?_)
  · refine stopDelete_task hcurrent hm_task halive fun hcall p => ?_
    exact ⟨rfl, rfl, rfl, .inr ⟨hcall, rfl⟩⟩
  · exact ⟨rfl, rfl, rfl, .inl ⟨.waiting, rfl, rfl⟩⟩

end

/-! ## Whole runs -/

section

variable {toTicks : UInt32 → UInt32} {ps : Option Nat → Code Unit} {w : World}

theorem Inv.owner_kept (h : Inv toTicks ps w) : (tasks Timely).Kept Proper (Inv toTicks) none ps w := by
  have hcoherent : Coherent ((tasks Timely).enter none w) :=
    (h.coherent.congr rfl rfl rfl rfl)
  have hinv : ∀ p w', OwnerEnds toTicks w p w' → Inv toTicks (Function.update ps none p) w' := by
    rintro p w' ⟨hc, howner, hd⟩
    refine ⟨hc, ?_, fun t ht => ?_⟩
    · rwa [Function.update_self]
    · rw [Function.update_of_ne (by simp)]
      exact h.task_at t fun hmem => ht (hd hmem)
  have hturn : turns (ps none)
      (fun _ w' => Inv toTicks (Function.update ps none (.ret ())) w') (OwnerEnds toTicks w)
      ((tasks Timely).enter none w) := by
    have howner := h.owner_at
    generalize ps none = p at howner ⊢
    cases howner with
    | outside => exact owner_turn hcoherent (List.Subset.refl _)
    | calling =>
      refine calling_turn hcoherent rfl (List.Subset.refl _) fun w' hc hnone hd => ?_
      exact hinv _ w' ⟨hc, .finished hnone, hd⟩
    | waiting hcall hm_task halive =>
      exact waiting_turn hcoherent rfl hcall hm_task halive (List.Subset.refl _)
    | finished hnone => exact turn_ret (hinv _ _ ⟨hcoherent, .finished hnone, List.Subset.refl _⟩)
  exact turn_mono hturn (fun _ _ h => h) hinv

theorem Inv.task_kept {t : Nat} (h : Inv toTicks ps w) (halive : w.Alive t) :
    (tasks Timely).Kept Proper (Inv toTicks) (some t) ps w := by
  have hm_task : w.m_task = some t := h.coherent.handle t halive
  have hinv : ∀ p w', TaskEnds toTicks t ((tasks Timely).enter (some t) w) p w' →
      Inv toTicks (Function.update ps (some t) p) w' := by
    intro p w' hends
    refine ⟨hends.coherent (h.coherent.congr rfl rfl rfl rfl) halive, ?_, fun t' ht' => ?_⟩
    · rw [Function.update_of_ne (by simp)]
      exact hends.owner_at (h.owner_at.congr rfl rfl rfl rfl) halive
    · by_cases heq : t' = t
      · subst heq
        rw [Function.update_self]
        exact hends.task_at ht'
      · rw [Function.update_of_ne (by simpa using heq)]
        exact h.task_at t' fun hmem => ht' (hends.deleted hmem)
  have hturn : turns (ps (some t))
      (fun _ w' => Inv toTicks (Function.update ps (some t) (.ret ())) w')
      (TaskEnds toTicks t ((tasks Timely).enter (some t) w)) ((tasks Timely).enter (some t) w) := by
    have htask := h.task_at t halive.2
    generalize ps (some t) = p at htask ⊢
    cases htask with
    | running => exact taskEntry_turn rfl hm_task halive
    | waiting => exact selfStop_turn rfl hm_task halive
  exact turn_mono hturn (fun _ _ h => h) hinv

theorem Inv.kept (h : Inv toTicks ps w) (a : Option Nat) (hready : (tasks Timely).ready a w) :
    (tasks Timely).Kept Proper (Inv toTicks) a ps w := by
  cases a with
  | none => exact h.owner_kept
  | some t => exact h.task_kept hready

theorem Inv.managed (h : Inv toTicks ps w) : Managed ps w := by
  refine ⟨h.coherent.once, h.coherent.created, h.coherent.owner, fun hdone t hcreated => ?_⟩
  by_contra hdeleted
  exact h.owner_at.over hdone t ⟨hcreated, hdeleted⟩

theorem Inv.constructed (params : Params) : Inv toTicks (programs toTicks) (constructed params) := by
  refine ⟨⟨?_, .nil, ?_, rfl⟩, .outside ?_, fun t _ => .running⟩
  · rintro t ⟨⟨⟩, -⟩
  · rintro t ⟨⟩
  · rintro ⟨timeout_ms, ⟨⟩⟩

end

/-- Where the thread does not end while its owner waits in `stop`, and the owner calls nothing after
the thread has stopped itself, `stop` always hands over the handle of a task that exists, and every
task is deleted exactly once. -/
theorem managed_of_timely (toTicks : UInt32 → UInt32) (params : Params) :
    (tasks Timely).Sound Proper Managed (programs toTicks) (constructed params) :=
  Tasks.sound (Inv toTicks) (Inv.constructed params) (fun _ _ a h hready => h.kept a hready)
    fun _ _ h => h.managed

/-! ## A thread that ends while its owner waits -/

/-- Nothing is ruled out. -/
abbrev free : Tasks Op Op.Res (Option Nat) World := tasks fun _ _ => True

section

variable {α : Type} {w w' : World} {o : Pause Op Op.Res α}

theorem keeps (op : Op) (r : Op.Res op) {k : Op.Res op → Code α} (hallows : w.Allows ⟨op, r⟩)
    (hno : ¬Yields op (w.after ⟨op, r⟩))
    (h : Turn free.env Yields (k r) (w.after ⟨op, r⟩) o w') :
    Turn free.env Yields (.call op k) w o w' := by
  have henv : free.env w op r (w.after ⟨op, r⟩) := ⟨⟨hallows, trivial⟩, rfl⟩
  exact .call henv hno h

theorem yields (op : Op) (r : Op.Res op) {k : Op.Res op → Code α} (hallows : w.Allows ⟨op, r⟩)
    (hyields : Yields op (w.after ⟨op, r⟩)) :
    Turn free.env Yields (.call op k) w (.yielded (k r)) (w.after ⟨op, r⟩) := by
  have henv : free.env w op r (w.after ⟨op, r⟩) := ⟨⟨hallows, trivial⟩, rfl⟩
  exact .yield henv hyields

end

section

variable (toTicks : UInt32 → UInt32) {w : World}

theorem owner_idles :
    Turn free.env Yields (owner toTicks) w (.yielded (calling toTicks)) { w with call := none } :=
  .loop (yields .idle () trivial trivial)

theorem owner_starts {t : Nat} {params : Params} (hm_task : w.m_task = none)
    (hparams : w.m_params = params) (hcore : params.core = none) (hnew : t ∉ w.created) :
    Turn free.env Yields (calling toTicks) w (.yielded (owner toTicks))
      { w with
        call := some (.start none)
        m_should_stop := false
        m_task := some t
        created := t :: w.created } := by
  refine keeps .next (Call.start none) trivial id ?_
  refine keeps .task none hm_task.symm id ?_
  refine keeps (.setShouldStop false) () trivial id ?_
  obtain ⟨name, stack_size, priority, core⟩ := params
  obtain rfl : core = none := hcore
  refine keeps .params ⟨name, stack_size, priority, none⟩ hparams.symm id ?_
  refine yields (.xTaskCreate ⟨name, stack_size, priority, none⟩) (some t) ?_ trivial
  rintro t' ⟨⟩
  exact hnew

theorem owner_waits {t : Nat} (hm_task : w.m_task = some t) :
    Turn free.env Yields (calling id) w (.yielded (stopping id 0 100 >>= fun _ => owner id))
      { w with call := some (.stop 100), m_should_stop := true } := by
  refine keeps .next (Call.stop 100) trivial id ?_
  refine keeps .task (some t) hm_task.symm id ?_
  refine keeps (.setShouldStop true) () trivial id ?_
  refine keeps .xTaskGetTickCount 0 trivial id ?_
  refine .loop ?_
  refine keeps .task (some t) hm_task.symm id ?_
  refine keeps (.eTaskGetState (some t)) .ready (fun _ _ _ => TaskState.noConfusion) id ?_
  refine keeps .xTaskGetTickCount 0 trivial id ?_
  exact yields (.vTaskDelay 1) () trivial trivial

theorem task_ends {t : Nat} (hcurrent : w.current = some t) :
    Turn free.env Yields (taskEntry toTicks) w (.yielded (.ret ()))
      { w with m_task := none, deleted := t :: w.deleted } := by
  refine .loop ?_
  refine keeps .move Move.finish trivial id ?_
  refine keeps (.setTask none) () trivial id ?_
  have hexit : { w with m_task := none }.after ⟨Op.exit, ()⟩ =
      { w with m_task := none, deleted := t :: w.deleted } := after_exit hcurrent
  have hyields : Yields .exit { w with m_task := none, deleted := t :: w.deleted } := by
    refine (yields_task (t := t) (.inl rfl) ?_).mpr ?_
    · exact hcurrent
    · exact List.mem_cons_self
  rw [← hexit] at hyields ⊢
  exact yields .exit () trivial hyields

theorem owner_asks {start timeout_ms : UInt32} (hm_task : w.m_task = none) :
    Turn free.env Yields (stopping toTicks start timeout_ms >>= fun _ => owner toTicks) w
      (.stopped (.asking (.eTaskGetState none))) w := by
  refine .loop ?_
  refine keeps .task none hm_task.symm id ?_
  exact .asking

end

/-- The thread ends while its owner waits in `stop(100)`, which then asks for the state of no task. -/
theorem not_managed : ¬∀ (toTicks : UInt32 → UInt32) (params : Params),
    free.Sound Proper Managed (programs toTicks) (constructed params) := by
  intro h
  let params : Params := ⟨"thread", 4096, 1, none⟩
  have hsound := h id params
  have h₀ : free.Reaches (programs id) (constructed params) (programs id) (constructed params) :=
    .start
  have h₁ := h₀.yielded none rfl (owner_idles id)
  have h₂ := h₁.yielded none rfl (owner_starts (t := 0) id rfl rfl rfl List.not_mem_nil)
  have h₃ := h₂.yielded none rfl (owner_idles id)
  have h₄ := h₃.yielded none rfl (owner_waits rfl)
  have h₅ := h₄.yielded (some 0) ⟨List.mem_cons_self, List.not_mem_nil⟩ (task_ends id rfl)
  obtain ⟨t, ht, -⟩ := (hsound _ _ h₅).2 none _ _ rfl (owner_asks id rfl)
  cases ht

end Thread
