import BaseUtilities.Effects.Owners
import BaseUtilities.Files.FileHandle

/-!
# Descriptors

Any number of file handles that are constructed, opened, moved, closed and destroyed in any order.
The world keeps every opening with the number of times that its descriptor has been closed since;
the system may give a descriptor again once it is closed.
-/

open Effects Mem

namespace Files

/-! ## The system -/

/-- The openings, the last one first: each a descriptor and how often it has been closed. -/
structure World where
  openings : List (Int × Nat)

/-- A descriptor is closed. -/
def closed (fd : Int) : List (Int × Nat) → List (Int × Nat)
  | [] => []
  | (fd', n) :: openings =>
    if fd' = fd then (fd', n + 1) :: openings else (fd', n) :: closed fd openings

namespace World

/-- A descriptor that has been opened and not yet closed. -/
def Open (w : World) (fd : Int) : Prop := (fd, 0) ∈ w.openings

/-- `::open` fails, or returns a descriptor that is not open. -/
def Step (w : World) : FileEvent → World → Prop
  | ⟨.open_ _ _ _, fd⟩, w' =>
    (fd < 0 ∧ w' = w) ∨ (0 ≤ fd ∧ ¬w.Open fd ∧ w' = ⟨(fd, 0) :: w.openings⟩)
  | ⟨.close fd, _⟩, w' => w' = ⟨closed fd w.openings⟩
  | _, w' => w' = w

end World

def files : Env Op Op.Res World := fun w op r w' => w.Step ⟨op, r⟩ w'

/-- Only what is open is closed. -/
def Proper : Stop Op → World → Prop
  | .asking (.close fd), w => w.Open fd
  | .asking _, _ => True
  | .fault, _ => False

/-! ## The calls -/

/-- The handles that exist, by their names. -/
abbrev Handles := Nat → Option FileHandle

inductive Call where
  | construct (a : Nat)
  | constructOpen (a : Nat) (path : Bytes) (mode : UInt32)
  | open_ (a : Nat) (path : Bytes) (mode perm : UInt32)
  | close (a : Nat)
  | moveConstruct (a b : Nat)
  | moveAssign (a b : Nat)
  | destroy (a : Nat)
  | size (a : Nat)
  | seek (a : Nat) (offset : Int) (origin : SeekOrigin)
  | sync (a : Nat)
  | read (a : Nat) (count : Nat)
  | write (a : Nat) (data : Bytes)

/-- A call of a handle that exists. -/
def on (s : Handles) (a : Nat) (call : FileHandle → Code FileHandle) : Code Handles :=
  match s a with
  | some self => do
    let self ← call self
    return Function.update s a (some self)
  | none => return s

/-- A call that leaves the handle as it is. -/
def asking {α : Type} (call : FileHandle → Code α) (self : FileHandle) : Code FileHandle := do
  let _ ← call self
  return self

def Call.run (s : Handles) : Call → Code Handles
  | .construct a => return Function.update s a (some .constructed)
  | .constructOpen a path mode => do
    let self ← FileHandle.constructedOpen path mode
    return Function.update s a (some self)
  | .open_ a path mode perm => on s a fun self => do
    let (_, self) ← self.open_ path mode perm
    return self
  | .close a => on s a FileHandle.close
  | .moveConstruct a b =>
    match s b with
    | some other =>
      let (self, other) := FileHandle.moveConstruct other
      return Function.update (Function.update s b (some other)) a (some self)
    | none => return s
  | .moveAssign a b =>
    -- a handle is not moved to itself
    if a = b then
      return s
    else
      match s a, s b with
      | some self, some other => do
        let (self, other) ← self.moveAssign other
        return Function.update (Function.update s b (some other)) a (some self)
      | _, _ => return s
  | .destroy a =>
    match s a with
    | some self => do
      self.destroy
      return Function.update s a none
    | none => return s
  | .size a => on s a (asking FileHandle.size)
  | .seek a offset origin => on s a (asking (·.seek offset origin))
  | .sync a => on s a (asking FileHandle.sync)
  | .read a count => on s a (asking (·.read count))
  | .write a data => on s a (asking (·.write data))

/-- A handle is constructed where there is none. -/
def Call.Valid (s : Handles) : Call → Prop
  | .construct a => s a = none
  | .constructOpen a _ _ => s a = none
  | .moveConstruct a _ => s a = none
  | _ => True

def program : Session Op Op.Res Call Handles World where
  run c s := c.run s
  may s _ c := c.Valid s

/-- Between two calls no two handles hold one descriptor, those that are
held are those that are open, and every opening is closed once at most, and once where there are no
handles left. -/
structure Settled (s : Handles) (w : World) : Prop where
  sole : ∀ a b self other, a ≠ b → s a = some self → s b = some other → 0 ≤ self.m_fd →
    self.m_fd ≠ other.m_fd
  held_iff : ∀ fd, w.Open fd ↔ 0 ≤ fd ∧ ∃ a self, s a = some self ∧ self.m_fd = fd
  once : ∀ opening ∈ w.openings, opening.2 ≤ 1
  all : (∀ a, s a = none) → ∀ opening ∈ w.openings, opening.2 = 1

/-! ## The openings -/

/-- Every opening is closed once at most, and behind a later one of the same descriptor once. -/
structure Sound (openings : List (Int × Nat)) : Prop where
  once : ∀ opening ∈ openings, opening.2 ≤ 1
  later : openings.Pairwise fun newer older => newer.1 = older.1 → older.2 = 1

section

variable {openings : List (Int × Nat)} {opening : Int × Nat} {fd : Int} {n : Nat}

theorem Sound.tail (h : Sound (opening :: openings)) : Sound openings :=
  ⟨fun older holder => h.once older (List.mem_cons_of_mem _ holder), (List.pairwise_cons.mp h.later).2⟩

theorem Sound.cons (h : Sound openings) (hn : n ≤ 1)
    (hlater : ∀ older ∈ openings, fd = older.1 → older.2 = 1) : Sound ((fd, n) :: openings) := by
  refine ⟨fun older holder => ?_, List.pairwise_cons.mpr ⟨hlater, h.later⟩⟩
  cases holder with
  | head => exact hn
  | tail _ holder => exact h.once older holder

/-- A descriptor that is not open is opened. -/
theorem Sound.open_ (h : Sound openings) (hclosed : (fd, 0) ∉ openings) : Sound ((fd, 0) :: openings) := by
  apply h.cons (Nat.zero_le 1)
  rintro ⟨fd', n⟩ holder heq
  obtain rfl : fd = fd' := heq
  have hn : n ≤ 1 := h.once _ holder
  have hne : n ≠ 0 := by
    rintro rfl
    exact hclosed holder
  show n = 1
  omega

theorem mem_closed (h : opening ∈ closed fd openings) : opening ∈ openings ∨ opening.1 = fd := by
  induction openings with
  | nil => exact .inl h
  | cons newer openings ih =>
    rw [closed] at h
    split at h
    · next heq =>
      cases h with
      | head => exact .inr heq
      | tail _ h => exact .inl (List.mem_cons_of_mem _ h)
    · cases h with
      | head => exact .inl List.mem_cons_self
      | tail _ h => exact (ih h).imp_left (List.mem_cons_of_mem _)

/-- The opening that is closed is the last one of its descriptor, the only one that can be open. -/
theorem Sound.close (h : Sound openings) (hopen : (fd, 0) ∈ openings) :
    Sound (closed fd openings) ∧
      ∀ fd', (fd', 0) ∈ closed fd openings ↔ fd' ≠ fd ∧ (fd', 0) ∈ openings := by
  -- The openings are listed from the newest; `closed` marks the newest one of `fd` that is still open.
  induction openings with
  | nil => cases hopen
  | cons newer openings ih =>
    obtain ⟨fd₁, n⟩ := newer
    have hlater := (List.pairwise_cons.mp h.later).1
    rw [closed]
    split
    · next heq =>
      subst heq
      have hclosed : (fd₁, 0) ∉ openings := fun hmem => absurd (hlater _ hmem rfl) Nat.zero_ne_one
      have hn : n = 0 := by
        cases hopen with
        | head => rfl
        | tail _ hmem => exact absurd hmem hclosed
      subst hn
      refine ⟨h.tail.cons (Nat.le_refl 1) hlater, fun fd' => ?_⟩
      rw [List.mem_cons, List.mem_cons]
      constructor
      · rintro (heq | hmem)
        · cases heq
        · refine ⟨?_, .inr hmem⟩
          rintro rfl
          exact hclosed hmem
      · rintro ⟨hne, heq | hmem⟩
        · exact absurd (congrArg Prod.fst heq) hne
        · exact .inr hmem
    -- The newest opening is of another descriptor: it stays, and the older ones are closed by induction.
    · next hne =>
      have hmem : (fd, 0) ∈ openings := by
        cases hopen with
        | head => exact absurd rfl hne
        | tail _ hmem => exact hmem
      obtain ⟨hsound, hiff⟩ := ih h.tail hmem
      refine ⟨hsound.cons (h.once _ List.mem_cons_self) fun older holder heq => ?_, fun fd' => ?_⟩
      · rcases mem_closed holder with holder | hfd
        · exact hlater older holder heq
        · exact absurd (heq.trans hfd) hne
      · rw [List.mem_cons, List.mem_cons, hiff fd']
        constructor
        · rintro (heq | ⟨hne', hmem⟩)
          · cases heq
            exact ⟨hne, .inl rfl⟩
          · exact ⟨hne', .inr hmem⟩
        · rintro ⟨hne', heq | hmem⟩
          · exact .inl heq
          · exact .inr ⟨hne', hmem⟩

end

/-! ## The handles -/

/-- The descriptor that a handle holds. -/
def FileHandle.held (self : FileHandle) : Option Int := if 0 ≤ self.m_fd then some self.m_fd else none

/-- The invariant: each descriptor that is open has one owner. -/
structure Inv (held : Nat → Option Int) (w : World) : Prop where
  owned : Owned held w.Open
  sound : Sound w.openings
  nonneg : ∀ fd, w.Open fd → 0 ≤ fd

section

variable {held : Nat → Option Int} {w : World} {a : Nat} {self : FileHandle} {s : Handles}

theorem close_spec (h : Inv held w) (ha : held a = self.held) :
    wp files Proper self.close (fun self' w' => self'.held = none ∧ Inv (Function.update held a none) w')
      w := by
  rw [FileHandle.close]
  split
  · next hopen =>
    have hpos : 0 ≤ self.m_fd := of_decide_eq_true hopen
    have hheld : held a = some self.m_fd := ha.trans (if_pos hpos)
    have hfd : w.Open self.m_fd := h.owned.opened_of_held hheld
    refine wp_ask hfd fun _ w' hstep => wp_ret.mpr ⟨rfl, ?_⟩
    obtain rfl : w' = ⟨closed self.m_fd w.openings⟩ := hstep
    obtain ⟨hsound, hiff⟩ := h.sound.close hfd
    exact ⟨(h.owned.release hheld).congr hiff, hsound, fun fd hfd => h.nonneg fd ((hiff fd).mp hfd).2⟩
  · next hopen =>
    have hnone : self.held = none := if_neg fun hpos => hopen (decide_eq_true hpos)
    refine wp_ret.mpr ⟨hnone, ?_⟩
    rw [← hnone, ← ha, Function.update_eq_self]
    exact h

theorem open_spec {path : Bytes} {mode perm : UInt32} (h : Inv held w) (ha : held a = self.held) :
    wp files Proper (self.open_ path mode perm)
      (fun r w' => Inv (Function.update held a r.2.held) w') w := by
  refine (close_spec h ha).bind ?_
  rintro _ w ⟨-, h⟩
  refine wp_ask trivial fun fd w' hstep => wp_ret.mpr ?_
  rcases hstep with ⟨hneg, rfl⟩ | ⟨hpos, hclosed, rfl⟩
  · have hnone : FileHandle.held ⟨fd⟩ = none := if_neg (Int.not_le.mpr hneg)
    rw [hnone]
    exact h
  · have hsome : FileHandle.held ⟨fd⟩ = some fd := if_pos hpos
    have hacquired := h.owned.acquire (Function.update_self a none held) hclosed
    rw [Function.update_idem] at hacquired
    rw [hsome]
    refine ⟨hacquired.congr fun fd' => ?_, h.sound.open_ hclosed, fun fd' hfd' => ?_⟩
    · show (fd', 0) ∈ (fd, 0) :: w.openings ↔ _
      rw [List.mem_cons, Prod.mk.injEq, and_iff_left rfl]
      rfl
    · cases hfd' with
      | head => exact hpos
      | tail _ hfd' => exact h.nonneg fd' hfd'

/-- A handle that is left as it is. -/
theorem asking_spec {α : Type} {call : FileHandle → Code α} (h : Inv (holdings FileHandle.held s) w)
    (ha : s a = some self)
    (hcall : wp files Proper (call self) (fun _ w' => w' = w) w) :
    wp files Proper (asking call self)
      (fun self' w' => Inv (holdings FileHandle.held (Function.update s a (some self'))) w') w := by
  refine hcall.bind ?_
  rintro _ _ rfl
  refine wp_ret.mpr ?_
  rw [← ha, Function.update_eq_self]
  exact h

/-- A call of the system that opens and closes nothing. -/
theorem wp_still {α : Type} {op : Op} {f : Op.Res op → Code α} {Q : α → World → Prop}
    (hproper : Proper (.asking op) w) (hstill : ∀ r w', w.Step ⟨op, r⟩ w' → w' = w)
    (h : ∀ r, wp files Proper (f r) Q w) : wp files Proper (Prog.perform op >>= f) Q w :=
  wp_ask hproper fun r w' hstep => by
    obtain rfl := hstill r w' hstep
    exact h r

/-- A handle without a descriptor takes over that of another one. -/
theorem Inv.takeOver {b : Nat} {other : FileHandle}
    (h : Inv (Function.update (holdings FileHandle.held s) a none) w) (hab : a ≠ b) (hb : s b = some other) :
    Inv (holdings FileHandle.held (Function.update (Function.update s b (some ⟨-1⟩)) a (some ⟨other.m_fd⟩)))
      w :=
  ⟨h.owned.takeOver hab hb rfl rfl, h.sound, h.nonneg⟩

theorem on_spec {call : FileHandle → Code FileHandle} (h : Inv (holdings FileHandle.held s) w)
    (hcall : ∀ self, s a = some self → wp files Proper (call self)
      (fun self' w' => Inv (holdings FileHandle.held (Function.update s a (some self'))) w') w) :
    wp files Proper (on s a call) (fun s' w' => Inv (holdings FileHandle.held s') w') w := by
  rw [on]
  split
  · next self ha => exact (hcall self ha).bind fun _ _ h' => wp_ret.mpr h'
  · exact wp_ret.mpr h

end

/-- Every call keeps the invariant. -/
theorem run_spec {s : Handles} {w : World} {c : Call} (h : Inv (holdings FileHandle.held s) w)
    (hvalid : c.Valid s) :
    wp files Proper (c.run s) (fun s' w' => Inv (holdings FileHandle.held s') w') w := by
  have hheld : ∀ {a self}, s a = some self → holdings FileHandle.held s a = self.held := fun ha => by
    rw [holdings, ha, Option.bind_some]
  have hfree : ∀ {a}, s a = none → holdings FileHandle.held s a = none := fun ha => by
    rw [holdings, ha, Option.bind_none]
  -- One case for each member function; those that only ask the system (`asking_spec`) keep every
  -- handle as it is, the others pass a descriptor on, and `holdings_update` says to whom.
  cases c with
  | construct a =>
    refine wp_ret.mpr ?_
    rw [holdings_update]
    show Inv (Function.update (holdings FileHandle.held s) a none) w
    rw [← hfree hvalid, Function.update_eq_self]
    exact h
  | constructOpen a path mode =>
    have hopen : wp files Proper (FileHandle.open_ ⟨-1⟩ path mode 0o644)
        (fun r w' => Inv (Function.update (holdings FileHandle.held s) a r.2.held) w') w :=
        open_spec h (hfree hvalid)
    refine wp_bind.mpr (hopen.bind fun r w' h' => wp_ret.mpr (wp_ret.mpr ?_))
    rw [holdings_update]
    exact h'
  | open_ a path mode perm =>
    refine on_spec h fun self ha => ?_
    refine (open_spec h (hheld ha)).bind fun r w' h' => wp_ret.mpr ?_
    rw [holdings_update]
    exact h'
  | close a =>
    refine on_spec h fun self ha => (close_spec h (hheld ha)).mono ?_
    rintro self' w' ⟨hnone, h'⟩
    rw [holdings_update, Option.bind_some, hnone]
    exact h'
  -- `a` is not constructed yet, so it holds nothing and is not the handle `b` that it takes over.
  | moveConstruct a b =>
    rw [Call.run]
    split
    · next other hb =>
      have hab : a ≠ b := by
        rintro rfl
        cases hvalid.symm.trans hb
      refine wp_ret.mpr (Inv.takeOver ?_ hab hb)
      rw [← hfree hvalid, Function.update_eq_self]
      exact h
    · exact wp_ret.mpr h
  | moveAssign a b =>
    rw [Call.run]
    split
    · exact wp_ret.mpr h
    · next hab =>
      split
      · next self other ha hb =>
        refine wp_bind.mpr ((close_spec h (hheld ha)).bind fun _ w' h' => wp_ret.mpr (wp_ret.mpr ?_))
        exact h'.2.takeOver hab hb
      · exact wp_ret.mpr h
  | destroy a =>
    rw [Call.run]
    split
    · next self ha =>
      refine wp_bind.mpr ((close_spec h (hheld ha)).bind fun _ w' h' => wp_ret.mpr (wp_ret.mpr ?_))
      rw [holdings_update]
      exact h'.2
    · exact wp_ret.mpr h
  | size a =>
    refine on_spec h fun self ha => asking_spec h ha ?_
    rw [FileHandle.size]
    split
    · exact wp_still trivial (fun _ _ hstep => hstep) fun _ => wp_ret.mpr rfl
    · exact wp_ret.mpr rfl
  | seek a offset origin =>
    refine on_spec h fun self ha => asking_spec h ha ?_
    rw [FileHandle.seek]
    split
    · exact wp_perform.mpr ⟨trivial, fun _ _ hstep => hstep⟩
    · exact wp_ret.mpr rfl
  | sync a =>
    refine on_spec h fun self ha => asking_spec h ha ?_
    rw [FileHandle.sync]
    split
    · exact wp_still trivial (fun _ _ hstep => hstep) fun _ => wp_ret.mpr rfl
    · exact wp_ret.mpr rfl
  | read a count =>
    refine on_spec h fun self ha => asking_spec h ha ?_
    rw [FileHandle.read]
    split
    · exact wp_still trivial (fun _ _ hstep => hstep) fun _ => wp_ret.mpr rfl
    · exact wp_ret.mpr rfl
  | write a data =>
    refine on_spec h fun self ha => asking_spec h ha ?_
    rw [FileHandle.write]
    split
    · exact wp_still trivial (fun _ _ hstep => hstep) fun _ => wp_ret.mpr rfl
    · exact wp_ret.mpr rfl

theorem Inv.empty : Inv (holdings FileHandle.held fun _ => none) ⟨[]⟩ := by
  refine ⟨Owned.empty.congr fun fd => ?_, ⟨fun _ h => ?_, .nil⟩, fun fd h => ?_⟩
  · constructor
    · intro h
      cases h
    · exact False.elim
  · cases h
  · cases h

theorem held_iff {self : FileHandle} {fd : Int} : self.held = some fd ↔ 0 ≤ fd ∧ self.m_fd = fd := by
  rw [FileHandle.held]
  split
  · next hpos => exact ⟨fun h => Option.some.inj h ▸ ⟨hpos, rfl⟩, fun h => congrArg some h.2⟩
  · next hneg =>
    constructor
    · intro h
      cases h
    · rintro ⟨hpos, rfl⟩
      exact absurd hpos hneg

theorem holdings_iff {s : Handles} {a : Nat} {fd : Int} :
    holdings FileHandle.held s a = some fd ↔ 0 ≤ fd ∧ ∃ self, s a = some self ∧ self.m_fd = fd := by
  rw [holdings, Option.bind_eq_some_iff]
  constructor
  · rintro ⟨self, ha, hheld⟩
    obtain ⟨hpos, hfd⟩ := held_iff.mp hheld
    exact ⟨hpos, self, ha, hfd⟩
  · rintro ⟨hpos, self, ha, hfd⟩
    exact ⟨self, ha, held_iff.mpr ⟨hpos, hfd⟩⟩

theorem Inv.settled {s : Handles} {w : World} (h : Inv (holdings FileHandle.held s) w) : Settled s w := by
  constructor
  · intro a b self other hab ha hb hpos heq
    have hself := holdings_iff.mpr ⟨hpos, self, ha, rfl⟩
    have hother := holdings_iff.mpr ⟨hpos, other, hb, heq.symm⟩
    exact hab (h.owned.sole hself hother)
  · intro fd
    rw [h.owned.held_iff]
    constructor
    · rintro ⟨a, ha⟩
      obtain ⟨hpos, hself⟩ := holdings_iff.mp ha
      exact ⟨hpos, a, hself⟩
    · rintro ⟨hpos, a, hself⟩
      exact ⟨a, holdings_iff.mpr ⟨hpos, hself⟩⟩
  · exact h.sound.once
  · rintro hnone ⟨fd, n⟩ hopening
    have hn : n ≤ 1 := h.sound.once _ hopening
    have hclosed := h.owned.not_opened (fun a => by rw [holdings, hnone a, Option.bind_none]) fd
    have hne : n ≠ 0 := by
      rintro rfl
      exact hclosed hopening
    show n = 1
    omega

/-- The ledger of descriptors in every sequence of calls. -/
theorem descriptors_owned : program.Sound files Proper Settled (fun _ => none) ⟨[]⟩ :=
  Session.sound (fun s w => Inv (holdings FileHandle.held s) w) Inv.empty
    (fun _ _ _ h hvalid => run_spec h hvalid)
    fun _ _ h => h.settled

end Files
