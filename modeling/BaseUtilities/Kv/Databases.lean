import BaseUtilities.Effects.Owners
import BaseUtilities.Effects.Session
import BaseUtilities.Kv.Stores

/-!
# Databases

Any number of `KVHandle` objects that are constructed, initialised, moved and destroyed in any order,
beside callers with databases of their own that they may supply to `init`.  A handle deinitialises
what it holds, so that each database has one owner only as long as what is supplied is handed over.
-/

open Effects Mem

namespace Kv.Databases

/-! ## The databases -/

/-- The databases that have been initialised, and those that have been deinitialised. -/
structure World where
  used : List Nat
  deinits : List Nat

/-- Each initialisation makes a database of its own, or fails. -/
def World.Step (w : World) : KvEvent → World → Prop
  | ⟨.fdb_kvdb_init _, some id⟩, w' => id ∉ w.used ∧ w' = { w with used := id :: w.used }
  | ⟨.fdb_kvdb_deinit (some db), _⟩, w' => w' = { w with deinits := db.id :: w.deinits }
  | _, w' => w' = w

def databases : Env Op Op.Res World := fun w op r w' => w.Step ⟨op, r⟩ w'

/-- A database is initialised where it is deinitialised. -/
def Proper : Stop Op → World → Prop
  | .asking (.fdb_kvdb_deinit db), w => ∀ d ∈ db, d.id ∈ w.used ∧ d.id ∉ w.deinits
  | .asking _, _ => True
  | .fault, _ => False

/-! ## The calls -/

/-- The handles that exist, by their names, and the databases that callers have initialised, with
those that they use. -/
structure State where
  handles : Nat → Option KVHandle
  made : List Nat
  inUse : List Nat

inductive Call where
  | construct (a : Nat)
  | init (a : Nat) (part : Part)
  | initExisting (a : Nat) (existing_kvdb : Option Db)
  | deinit (a : Nat)
  | moveConstruct (a b : Nat)
  | moveAssign (a b : Nat)
  | destroy (a : Nat)
  /-- A caller initialises a database of its own. -/
  | make (part : Part)
  /-- A caller uses its database no more. -/
  | giveUp (id : Nat)
  /-- A caller deinitialises its database. -/
  | finish (db : Db)

namespace State

def update (s : State) (a : Nat) (self : Option KVHandle) : State :=
  { s with handles := Function.update s.handles a self }

/-- A call of a handle that exists. -/
def on (s : State) (a : Nat) (call : KVHandle → Code KVHandle) : Code State :=
  match s.handles a with
  | some self => do
    let self ← call self
    return s.update a (some self)
  | none => return s

end State

def Call.run (s : State) : Call → Code State
  | .construct a => return s.update a (some .constructed)
  | .init a part => s.on a fun self => do
    let (_, self) ← self.init part
    return self
  | .initExisting a existing_kvdb => s.on a fun self => return (self.initExisting existing_kvdb).2
  | .deinit a => s.on a KVHandle.deinit
  | .moveConstruct a b =>
    match s.handles b with
    | some other =>
      let (self, other) := KVHandle.moveConstruct other
      return (s.update b (some other)).update a (some self)
    | none => return s
  | .moveAssign a b =>
    -- a handle is not moved to itself
    if a = b then
      return s
    else
      match s.handles a, s.handles b with
      | some self, some other => do
        let (self, other) ← self.moveAssign other
        return (s.update b (some other)).update a (some self)
      | _, _ => return s
  | .destroy a =>
    match s.handles a with
    | some self => do
      self.destroy
      return s.update a none
    | none => return s
  | .make part => do
    let db ← Sys.fdb_kvdb_init part
    match db with
    | some id => return { s with made := id :: s.made, inUse := id :: s.inUse }
    | none => return s
  | .giveUp id => return { s with inUse := s.inUse.filter (· ≠ id) }
  | .finish db => do
    Sys.fdb_kvdb_deinit (some db)
    return { s with inUse := s.inUse.filter (· ≠ db.id) }

/-- A handle is constructed where there is none, and a caller deinitialises what it uses. -/
def Call.Valid (s : State) : Call → Prop
  | .construct a => s.handles a = none
  | .moveConstruct a _ => s.handles a = none
  | .finish db => db.id ∈ s.inUse
  | _ => True

/-- Every sequence of calls as `may` permits them. -/
def program (may : State → World → Call → Prop) : Session Op Op.Res Call State World where
  run c s := c.run s
  may s w c := c.Valid s ∧ may s w c

/-- The database that a handle holds. -/
def held (self : KVHandle) : Option Nat := if self.m_initialized then self.m_kvdb.map (·.id) else none

/-- A database that is supplied to a handle without one is handed over: it is initialised, its caller
does not use it any more, and no other handle holds it. -/
def HandedOver (s : State) (w : World) : Call → Prop
  | .initExisting a existing_kvdb => ∀ self ∈ s.handles a, self.m_initialized = false →
    ∀ db ∈ existing_kvdb, db.id ∈ w.used ∧ db.id ∉ w.deinits ∧ db.id ∉ s.inUse ∧
      ∀ b, holdings held s.handles b ≠ some db.id
  | _ => True

/-- Between two calls nothing has been deinitialised twice, nothing that a handle or a caller uses has
been deinitialised, and where there are no handles left what handles initialised has been. -/
structure Settled (s : State) (w : World) : Prop where
  once : w.deinits.Nodup
  handles : ∀ a self db, s.handles a = some self → self.m_initialized = true → self.m_kvdb = some db →
    db.id ∉ w.deinits
  callers : ∀ id ∈ s.inUse, id ∉ w.deinits
  all : (∀ a, s.handles a = none) → ∀ id ∈ w.used, id ∉ s.made → id ∈ w.deinits

/-! ## The invariant -/

/-- Each database that is open has one owner, which is a handle or a caller. -/
structure Inv (held : Nat → Option Nat) (made inUse : List Nat) (opened : Nat → Prop) (w : World) : Prop where
  owned : Owned held opened
  live : ∀ id, opened id → id ∈ w.used ∧ id ∉ w.deinits ∧ id ∉ inUse
  callers : ∀ id ∈ inUse, id ∈ w.used ∧ id ∉ w.deinits
  used : ∀ id ∈ w.used, opened id ∨ id ∈ w.deinits ∨ id ∈ made
  deinits : ∀ id ∈ w.deinits, id ∈ w.used
  once : w.deinits.Nodup

section

variable {held' : Nat → Option Nat} {made inUse : List Nat} {opened : Nat → Prop} {w : World} {a : Nat}
  {self : KVHandle} {id : Nat}

/-- A database that a handle holds is deinitialised, and held no more. -/
theorem Inv.release (h : Inv held' made inUse opened w) (ha : held' a = some id) :
    Inv (Function.update held' a none) made inUse (fun id' => id' ≠ id ∧ opened id')
      { w with deinits := id :: w.deinits } := by
  obtain ⟨hused, hlive, hfree⟩ := h.live id (h.owned.opened_of_held ha)
  -- The handle lets go of `id`, which is counted as released from now on; all others keep their place.
  constructor
  · exact h.owned.release ha
  · rintro id' ⟨hne, hopened⟩
    obtain ⟨hused', hlive', hfree'⟩ := h.live id' hopened
    refine ⟨hused', ?_, hfree'⟩
    rw [List.mem_cons, not_or]
    exact ⟨hne, hlive'⟩
  · intro id' hid'
    obtain ⟨hused', hlive'⟩ := h.callers id' hid'
    refine ⟨hused', ?_⟩
    rw [List.mem_cons, not_or]
    refine ⟨?_, hlive'⟩
    -- A database that its caller still uses was never given to a handle.
    rintro rfl
    exact hfree hid'
  -- Every database in use is open, released or the caller's own.
  · intro id' hid'
    by_cases hne : id' = id
    · exact .inr (.inl (hne ▸ List.mem_cons_self))
    · rcases h.used id' hid' with hopened | hdeinit | hmade
      · exact .inl ⟨hne, hopened⟩
      · exact .inr (.inl (List.mem_cons_of_mem _ hdeinit))
      · exact .inr (.inr hmade)
  · intro id' hid'
    cases hid' with
    | head => exact hused
    | tail _ hid' => exact h.deinits id' hid'
  · exact List.nodup_cons.mpr ⟨hlive, h.once⟩

/-- A handle comes to hold a database that neither a handle nor a caller has. -/
theorem Inv.acquire (h : Inv held' made inUse opened w) (ha : held' a = none) (hused : id ∈ w.used)
    (hlive : id ∉ w.deinits) (hfree : id ∉ inUse) (hunowned : ¬opened id) :
    Inv (Function.update held' a (some id)) made inUse (fun id' => id' = id ∨ opened id') w := by
  refine ⟨h.owned.acquire ha hunowned, ?_, h.callers, fun id' hid' => ?_, h.deinits, h.once⟩
  · rintro id' (rfl | hopened)
    · exact ⟨hused, hlive, hfree⟩
    · exact h.live id' hopened
  · exact (h.used id' hid').imp_left .inr

/-- A database is initialised, by a caller or for a handle that will hold it. -/
theorem Inv.make (h : Inv held' made inUse opened w) (id : Nat) :
    Inv held' (id :: made) inUse opened { w with used := id :: w.used } := by
  refine ⟨h.owned, fun id' hid' => ?_, fun id' hid' => ?_, fun id' hid' => ?_, fun id' hid' => ?_, h.once⟩
  · obtain ⟨hused, hrest⟩ := h.live id' hid'
    exact ⟨List.mem_cons_of_mem _ hused, hrest⟩
  · obtain ⟨hused, hlive⟩ := h.callers id' hid'
    exact ⟨List.mem_cons_of_mem _ hused, hlive⟩
  · cases hid' with
    | head => exact .inr (.inr List.mem_cons_self)
    | tail _ hid' => exact (h.used id' hid').imp_right (.imp_right (List.mem_cons_of_mem _))
  · exact List.mem_cons_of_mem _ (h.deinits id' hid')

/-- What is acquired where it is made is made by no caller. -/
theorem Inv.owner (h : Inv held' (id :: made) inUse opened w) (hopened : opened id) :
    Inv held' made inUse opened w := by
  refine ⟨h.owned, h.live, h.callers, fun id' hid' => ?_, h.deinits, h.once⟩
  rcases h.used id' hid' with hopened' | hdeinit | hmade
  · exact .inl hopened'
  · exact .inr (.inl hdeinit)
  · cases hmade with
    | head => exact .inl hopened
    | tail _ hmade => exact .inr (.inr hmade)

theorem deinit_spec (h : Inv held' made inUse opened w) (ha : held' a = held self) :
    wp databases Proper self.deinit (fun self' w' => held self' = none ∧
      ∃ opened', Inv (Function.update held' a none) made inUse opened' w') w := by
  rw [KVHandle.deinit]
  split
  · next hinit =>
    cases hdb : self.m_kvdb with
    | none =>
      refine wp_ask (fun _ hd => nomatch hd) fun _ w' hstep => wp_ret.mpr ⟨rfl, opened, ?_⟩
      obtain rfl : w' = w := hstep
      have hnone : held' a = none := by rw [ha, held, if_pos hinit, hdb]; rfl
      rw [← hnone, Function.update_eq_self]
      exact h
    | some db =>
      have hsome : held' a = some db.id := by rw [ha, held, if_pos hinit, hdb]; rfl
      obtain ⟨hused, hlive, -⟩ := h.live db.id (h.owned.opened_of_held hsome)
      refine wp_ask ?_ fun _ w' hstep => wp_ret.mpr ⟨rfl, ?_⟩
      · rintro d ⟨⟩
        exact ⟨hused, hlive⟩
      · obtain rfl : w' = { w with deinits := db.id :: w.deinits } := hstep
        exact ⟨_, h.release hsome⟩
  · next hinit =>
    have hnone : held self = none := if_neg hinit
    refine wp_ret.mpr ⟨hnone, opened, ?_⟩
    rw [← hnone, ← ha, Function.update_eq_self]
    exact h

theorem init_spec {part : Part} (h : Inv held' made inUse opened w) (ha : held' a = held self) :
    wp databases Proper (self.init part) (fun r w' =>
      ∃ opened', Inv (Function.update held' a (held r.2)) made inUse opened' w') w := by
  rw [KVHandle.init]
  split
  · refine wp_ret.mpr ⟨opened, ?_⟩
    rw [← ha, Function.update_eq_self]
    exact h
  · next hinit =>
    have hnone : held' a = none := ha.trans (if_neg hinit)
    refine wp_ask trivial fun db w' hstep => ?_
    cases db with
    | none =>
      obtain rfl : w' = w := hstep
      refine wp_ret.mpr ⟨opened, ?_⟩
      rw [← ha, Function.update_eq_self]
      exact h
    | some id =>
      obtain ⟨hnew, rfl⟩ : id ∉ w.used ∧ w' = _ := hstep
      have hacquired := (h.make id).acquire hnone List.mem_cons_self (fun hd => hnew (h.deinits id hd))
        (fun hc => hnew (h.callers id hc).1) (fun ho => hnew (h.live id ho).1)
      exact wp_ret.mpr ⟨_, hacquired.owner (.inl rfl)⟩

/-- A caller has fewer databases. -/
theorem Inv.subset {inUse' : List Nat} (h : Inv held' made inUse opened w)
    (hsubset : ∀ id ∈ inUse', id ∈ inUse) : Inv held' made inUse' opened w := by
  refine ⟨h.owned, fun id' hid' => ?_, fun id' hid' => h.callers id' (hsubset id' hid'), h.used, h.deinits,
    h.once⟩
  obtain ⟨hused, hlive, hfree⟩ := h.live id' hid'
  exact ⟨hused, hlive, fun hid => hfree (hsubset id' hid)⟩

/-- A caller uses what it has made. -/
theorem Inv.use (h : Inv held' made inUse opened w) (hused : id ∈ w.used) (hlive : id ∉ w.deinits)
    (hunowned : ¬opened id) : Inv held' made (id :: inUse) opened w := by
  refine ⟨h.owned, fun id' hid' => ?_, fun id' hid' => ?_, h.used, h.deinits, h.once⟩
  · obtain ⟨hused', hlive', hfree'⟩ := h.live id' hid'
    refine ⟨hused', hlive', ?_⟩
    rw [List.mem_cons, not_or]
    refine ⟨?_, hfree'⟩
    rintro rfl
    exact hunowned hid'
  · cases hid' with
    | head => exact ⟨hused, hlive⟩
    | tail _ hid' => exact h.callers id' hid'

/-- A caller deinitialises a database that it used. -/
theorem Inv.finish (h : Inv held' made inUse opened w) (hid : id ∈ inUse) :
    Inv held' made (inUse.filter (· ≠ id)) opened { w with deinits := id :: w.deinits } := by
  obtain ⟨hused, hlive⟩ := h.callers id hid
  have hsubset : Inv held' made (inUse.filter (· ≠ id)) opened w :=
    h.subset fun id' hid' => (List.mem_filter.mp hid').1
  refine ⟨h.owned, fun id' hid' => ?_, fun id' hid' => ?_, fun id' hid' => ?_, fun id' hid' => ?_, ?_⟩
  · obtain ⟨hused', hlive', hfree'⟩ := hsubset.live id' hid'
    refine ⟨hused', ?_, hfree'⟩
    rw [List.mem_cons, not_or]
    refine ⟨?_, hlive'⟩
    rintro rfl
    exact (h.live id' hid').2.2 hid
  · obtain ⟨hused', hlive'⟩ := hsubset.callers id' hid'
    refine ⟨hused', ?_⟩
    rw [List.mem_cons, not_or]
    exact ⟨of_decide_eq_true (List.mem_filter.mp hid').2, hlive'⟩
  · exact (h.used id' hid').imp_right (.imp_left (List.mem_cons_of_mem _))
  · cases hid' with
    | head => exact hused
    | tail _ hid' => exact h.deinits id' hid'
  · exact List.nodup_cons.mpr ⟨hlive, h.once⟩

end

/-- The invariant of a state. -/
def Coherent (s : State) (w : World) : Prop :=
  ∃ opened, Inv (holdings held s.handles) s.made s.inUse opened w

section

variable {s : State} {w : World} {a : Nat} {c : Call}

theorem on_spec {call : KVHandle → Code KVHandle} (h : Coherent s w)
    (hcall : ∀ self, s.handles a = some self → wp databases Proper (call self)
      (fun self' w' => Coherent (s.update a (some self')) w') w) :
    wp databases Proper (s.on a call) Coherent w := by
  rw [State.on]
  split
  · next self ha => exact (hcall self ha).bind fun _ _ h' => wp_ret.mpr h'
  · exact wp_ret.mpr h

/-- The state after a call that changes one handle. -/
theorem Coherent.update {self : Option KVHandle} (opened : Nat → Prop)
    (h : Inv (Function.update (holdings held s.handles) a (self.bind held)) s.made s.inUse opened w) :
    Coherent (s.update a self) w := by
  refine ⟨opened, ?_⟩
  rw [State.update, holdings_update]
  exact h

theorem holdings_some {self : KVHandle} (ha : s.handles a = some self) :
    holdings held s.handles a = held self := by
  rw [holdings, ha, Option.bind_some]

theorem holdings_none (ha : s.handles a = none) : holdings held s.handles a = none := by
  rw [holdings, ha, Option.bind_none]

/-- A database that is handed over to a handle. -/
theorem initExisting_coherent {self : KVHandle} {existing_kvdb : Option Db} (h : Coherent s w)
    (hgiven : HandedOver s w (.initExisting a existing_kvdb)) (ha : s.handles a = some self) :
    Coherent (s.update a (some (self.initExisting existing_kvdb).2)) w := by
  obtain ⟨opened, h⟩ := h
  rw [KVHandle.initExisting]
  split
  · refine .update opened ?_
    show Inv (Function.update _ a (held self)) _ _ _ _
    rw [← holdings_some ha, Function.update_eq_self]
    exact h
  · next hinit =>
    have hnone : holdings held s.handles a = none := (holdings_some ha).trans (if_neg hinit)
    cases existing_kvdb with
    | none =>
      refine .update opened ?_
      show Inv (Function.update _ a none) _ _ _ _
      rw [← hnone, Function.update_eq_self]
      exact h
    | some db =>
      obtain ⟨hused, hlive, hfree, hunheld⟩ := hgiven self ha (Bool.not_eq_true _ ▸ hinit) db rfl
      have hunowned : ¬opened db.id := by
        rw [h.owned.held_iff]
        rintro ⟨b, hb⟩
        exact hunheld b hb
      exact .update _ (h.acquire hnone hused hlive hfree hunowned)

/-- A handle without a database takes over that of another one. -/
theorem takeOver_coherent {b : Nat} {other self' other' : KVHandle} (opened : Nat → Prop)
    (h : Inv (Function.update (holdings held s.handles) a none) s.made s.inUse opened w) (hab : a ≠ b)
    (hb : s.handles b = some other) (hself : held self' = held other) (hother : held other' = none) :
    Coherent ((s.update b (some other')).update a (some self')) w :=
  ⟨opened, h.owned.takeOver hab hb hself hother, h.live, h.callers, h.used, h.deinits, h.once⟩

/-- Every call keeps the invariant where what is supplied is handed over. -/
theorem run_spec (h : Coherent s w) (hvalid : c.Valid s) (hgiven : HandedOver s w c) :
    wp databases Proper (c.run s) Coherent w := by
  -- One case for each operation of a handle, and the three of a caller with databases of its own.
  cases c with
  | construct a =>
    obtain ⟨opened, h⟩ := h
    refine wp_ret.mpr (.update opened ?_)
    show Inv (Function.update _ a none) _ _ _ _
    rw [← holdings_none hvalid, Function.update_eq_self]
    exact h
  | init a part =>
    refine on_spec h fun self ha => ?_
    obtain ⟨opened, h⟩ := h
    refine (init_spec h (holdings_some ha)).bind ?_
    rintro ⟨_, self'⟩ w' ⟨opened', h'⟩
    exact wp_ret.mpr (.update _ h')
  | initExisting a existing_kvdb =>
    exact on_spec h fun self ha => wp_ret.mpr (initExisting_coherent h hgiven ha)
  | deinit a =>
    refine on_spec h fun self ha => ?_
    obtain ⟨opened, h⟩ := h
    refine (deinit_spec h (holdings_some ha)).mono ?_
    rintro self' w' ⟨hnone, opened', h'⟩
    refine .update opened' ?_
    rw [Option.bind_some, hnone]
    exact h'
  | moveConstruct a b =>
    obtain ⟨opened, h⟩ := h
    rw [Call.run]
    split
    · next other hb =>
      -- The new handle is not one of those that exist, so it takes over from another.
      have hab : a ≠ b := by
        rintro rfl
        cases hvalid.symm.trans hb
      refine wp_ret.mpr (takeOver_coherent opened ?_ hab hb rfl rfl)
      rw [← holdings_none hvalid, Function.update_eq_self]
      exact h
    · exact wp_ret.mpr ⟨opened, h⟩
  | moveAssign a b =>
    rw [Call.run]
    split
    · exact wp_ret.mpr h
    · next hab =>
      obtain ⟨opened, h⟩ := h
      split
      · next self other ha hb =>
        refine wp_bind.mpr ((deinit_spec h (holdings_some ha)).bind ?_)
        rintro self' w' ⟨-, opened', h'⟩
        exact wp_ret.mpr (wp_ret.mpr (takeOver_coherent opened' h' hab hb rfl rfl))
      · exact wp_ret.mpr ⟨opened, h⟩
  | destroy a =>
    obtain ⟨opened, h⟩ := h
    rw [Call.run]
    split
    · next self ha =>
      refine wp_bind.mpr ((deinit_spec h (holdings_some ha)).bind ?_)
      rintro _ w' ⟨-, opened', h'⟩
      exact wp_ret.mpr (wp_ret.mpr (.update _ h'))
    · exact wp_ret.mpr ⟨opened, h⟩
  | make part =>
    obtain ⟨opened, h⟩ := h
    refine wp_ask trivial fun db w' hstep => ?_
    cases db with
    | none =>
      -- Flashdb could not make the database.
      obtain rfl : w' = w := hstep
      exact wp_ret.mpr ⟨opened, h⟩
    | some id =>
      obtain ⟨hnew, rfl⟩ : id ∉ w.used ∧ w' = _ := hstep
      refine wp_ret.mpr ⟨opened, (h.make id).use List.mem_cons_self ?_ ?_⟩
      · exact fun hd => hnew (h.deinits id hd)
      · exact fun ho => hnew (h.live id ho).1
  | giveUp id =>
    obtain ⟨opened, h⟩ := h
    exact wp_ret.mpr ⟨opened, h.subset fun id' hid' => (List.mem_filter.mp hid').1⟩
  | finish db =>
    obtain ⟨opened, h⟩ := h
    refine wp_ask ?_ fun _ w' hstep => wp_ret.mpr ⟨opened, ?_⟩
    · rintro d ⟨⟩
      exact h.callers db.id hvalid
    · obtain rfl : w' = { w with deinits := db.id :: w.deinits } := hstep
      exact h.finish hvalid

theorem Coherent.settled (h : Coherent s w) : Settled s w := by
  obtain ⟨opened, h⟩ := h
  constructor
  · exact h.once
  · intro a self db ha hinit hdb
    have hheld : holdings held s.handles a = some db.id := by
      rw [holdings_some ha, held, if_pos hinit, hdb]
      rfl
    exact (h.live db.id (h.owned.opened_of_held hheld)).2.1
  · exact fun id hid => (h.callers id hid).2
  · intro hnone id hid hmade
    rcases h.used id hid with hopened | hdeinit | hmade'
    · exact absurd hopened (h.owned.not_opened (fun a => holdings_none (hnone a)) id)
    · exact hdeinit
    · exact absurd hmade' hmade

end

/-- Before any call. -/
def fresh : State := ⟨fun _ => none, [], []⟩

theorem fresh_coherent : Coherent fresh ⟨[], []⟩ := by
  refine ⟨fun _ => False, Owned.empty, fun _ h => h.elim, fun _ h => ?_, fun _ h => ?_, fun _ h => ?_, .nil⟩
  · cases h
  · cases h
  · cases h

/-- Where every database that is supplied is handed over, each is deinitialised once, by its owner. -/
theorem settled_of_handedOver (s : State) (w : World)
    (hreach : (program HandedOver).Reaches databases fresh ⟨[], []⟩ s w) :
    Settled s w ∧ ∀ c : Call, c.Valid s → HandedOver s w c →
      wp databases Proper (c.run s) (fun _ _ => True) w := by
  have h : Coherent s w :=
    hreach.invariant Coherent fresh_coherent fun _ _ _ h hmay => run_spec h hmay.1 hmay.2
  exact ⟨h.settled, fun c hvalid hgiven => (run_spec h hvalid hgiven).mono fun _ _ _ => trivial⟩

/-- The handle 0 with the database 0, which the caller that made it has given up. -/
def supplied : State :=
  (State.update ⟨fun _ => none, [0], []⟩ 0 (some .constructed)).update 0
    (some (KVHandle.constructed.initExisting (some ⟨0, 0⟩)).2)

theorem supplied_reached :
    (program HandedOver).Reaches databases fresh ⟨[], []⟩ supplied ⟨[0], []⟩ := by
  let made : State := ⟨fun _ => none, [0], [0]⟩
  let givenUp : State := ⟨fun _ => none, [0], []⟩
  let constructed : State := givenUp.update 0 (some .constructed)
  have hmade : (program HandedOver).Reaches databases fresh ⟨[], []⟩ made ⟨[0], []⟩ :=
    Session.Reaches.start.step (.make 0) ⟨trivial, trivial⟩
      (Exec.call (r := some 0) ⟨List.not_mem_nil, rfl⟩ ⟨rfl, rfl⟩)
  have hgivenUp : (program HandedOver).Reaches databases fresh ⟨[], []⟩ givenUp ⟨[0], []⟩ :=
    hmade.step (.giveUp 0) ⟨trivial, trivial⟩ ⟨rfl, rfl⟩
  have hconstructed : (program HandedOver).Reaches databases fresh ⟨[], []⟩ constructed ⟨[0], []⟩ :=
    hgivenUp.step (.construct 0) ⟨rfl, trivial⟩ ⟨rfl, rfl⟩
  have hgiven : HandedOver constructed ⟨[0], []⟩ (.initExisting 0 (some ⟨0, 0⟩)) := by
    rintro _ _ _ _ ⟨⟩
    refine ⟨List.mem_cons_self, List.not_mem_nil, List.not_mem_nil, fun b => ?_⟩
    have hnone : holdings held constructed.handles b = none := by
      simp only [constructed, givenUp, State.update, holdings_update, Option.bind_some]
      exact (Function.update_apply _ _ _ _).trans (ite_self _)
    rw [hnone]
    exact (Option.some_ne_none _).symm
  exact hconstructed.step (.initExisting 0 (some ⟨0, 0⟩)) ⟨trivial, hgiven⟩ ⟨rfl, rfl⟩

/-- The database goes on to the handle 1, which deinitialises it. -/
theorem settled_of_handedOver_example : ∃ s w,
    (program HandedOver).Reaches databases fresh ⟨[], []⟩ s w ∧ w = ⟨[0], [0]⟩ ∧ Settled s w ∧
      ∀ c : Call, c.Valid s → HandedOver s w c → wp databases Proper (c.run s) (fun _ _ => True) w := by
  have hmoved : ∃ s, (program HandedOver).Reaches databases fresh ⟨[], []⟩ s ⟨[0], []⟩ ∧
      s.handles 1 = some (KVHandle.moveConstruct (KVHandle.constructed.initExisting (some ⟨0, 0⟩)).2).1 :=
    ⟨_, supplied_reached.step (.moveConstruct 1 0) ⟨rfl, trivial⟩ ⟨rfl, rfl⟩, rfl⟩
  obtain ⟨moved, hmoved, hhandle⟩ := hmoved
  have hdeinit : ∃ s, Exec databases (Call.run moved (.deinit 1)) ⟨[0], []⟩ (.returned s) ⟨[0], [0]⟩ := by
    rw [Call.run, State.on, hhandle]
    exact ⟨_, Exec.call (r := ()) rfl ⟨rfl, rfl⟩⟩
  obtain ⟨s, hdeinit⟩ := hdeinit
  have hreach : (program HandedOver).Reaches databases fresh ⟨[], []⟩ s ⟨[0], [0]⟩ :=
    hmoved.step (.deinit 1) ⟨trivial, trivial⟩ hdeinit
  exact ⟨s, _, hreach, rfl, settled_of_handedOver s _ hreach⟩

/-- A handle deinitialises the database of a caller that uses it. -/
theorem not_settled : ¬(program fun _ _ _ => True).Sound databases Proper Settled fresh ⟨[], []⟩ := by
  intro h
  let db : Db := ⟨0, 0⟩
  let made : State := ⟨fun _ => none, [0], [0]⟩
  let constructed : State := made.update 0 (some .constructed)
  let given : State := constructed.update 0 (some (KVHandle.constructed.initExisting (some db)).2)
  have hmade : (program fun _ _ _ => True).Reaches databases fresh ⟨[], []⟩ made ⟨[0], []⟩ :=
    Session.Reaches.start.step (.make 0) ⟨trivial, trivial⟩
      (Exec.call (r := some 0) ⟨List.not_mem_nil, rfl⟩ ⟨rfl, rfl⟩)
  have hconstructed : (program fun _ _ _ => True).Reaches databases fresh ⟨[], []⟩ constructed ⟨[0], []⟩ :=
    hmade.step (.construct 0) ⟨rfl, trivial⟩ ⟨rfl, rfl⟩
  have hgiven : (program fun _ _ _ => True).Reaches databases fresh ⟨[], []⟩ given ⟨[0], []⟩ :=
    hconstructed.step (.initExisting 0 (some db)) ⟨trivial, trivial⟩ ⟨rfl, rfl⟩
  have hdeinit : ∃ s, Exec databases (Call.run given (.deinit 0)) ⟨[0], []⟩ (.returned s) ⟨[0], [0]⟩ ∧
      s.inUse = [0] :=
    ⟨_, Exec.call (r := ()) rfl ⟨rfl, rfl⟩, rfl⟩
  obtain ⟨s, hexec, hinUse⟩ := hdeinit
  have hsettled := (h _ _ (hgiven.step (.deinit 0) ⟨trivial, trivial⟩ hexec)).1
  exact hsettled.callers 0 (hinUse ▸ List.mem_cons_self) List.mem_cons_self

end Kv.Databases
