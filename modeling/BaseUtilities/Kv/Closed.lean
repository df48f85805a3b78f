import BaseUtilities.Kv.Databases

/-!
# Closed handles

What the operations of a `KVHandle` do where it is not initialised, in whatever way it has come to that:
constructed and never initialised, after an initialisation that failed, deinitialised, or moved from.
All but three ask first; `get_u32`, `get_u8` and `get_bool` go to Flashdb with a database that is not
there.
-/

open Effects Mem

namespace Kv.Databases

/-- The operations of a handle on what is stored. -/
inductive Operation where
  | has (key : Key)
  | erase (key : Key)
  | clear
  | used_size
  | available_size
  | set_i32 (key : Key) (value : Int32)
  | get_i32 (key : Key) (default_val : Int32)
  | set_u32 (key : Key) (value : UInt32)
  | get_u32 (key : Key) (default_val : UInt32)
  | set_u8 (key : Key) (value : UInt8)
  | get_u8 (key : Key) (default_val : UInt8)
  | set_bool (key : Key) (value : Bool)
  | get_bool (key : Key) (default_val : Bool)
  | set_string (key : Key) (value : Option Bytes)
  | get_string (key : Key) (default_val : Bytes)
  | set_blob (key : Key) (data : Option Bytes)
  | get_blob (key : Key) (out : Bytes)
  | set (n : Nat) (key : Key) (value : Buffer n)
  /-- Here `value` is the local variable of `get`. -/
  | get (n : Nat) (key : Key) (default_val value : Buffer n)
  | foreach

namespace Operation

/-- What an operation answers; `get_blob` also fills its vector. -/
abbrev Answer : Operation → Type
  | .has _ => Bool
  | .erase _ => Bool
  | .clear => Bool
  | .used_size => UInt32
  | .available_size => UInt32
  | .set_i32 _ _ => Bool
  | .get_i32 _ _ => Int32
  | .set_u32 _ _ => Bool
  | .get_u32 _ _ => UInt32
  | .set_u8 _ _ => Bool
  | .get_u8 _ _ => UInt8
  | .set_bool _ _ => Bool
  | .get_bool _ _ => Bool
  | .set_string _ _ => Bool
  | .get_string _ _ => Bytes
  | .set_blob _ _ => Bool
  | .get_blob _ _ => Bool × Bytes
  | .set _ _ _ => Bool
  | .get n _ _ _ => Buffer n
  | .foreach => Unit

/-- An operation that does not change its handle. -/
def reads {α : Type} (self : KVHandle) (call : Code α) : Code (α × KVHandle) := do
  let a ← call
  return (a, self)

def run (self : KVHandle) : (op : Operation) → Code (op.Answer × KVHandle)
  | .has key => reads self (self.has key)
  | .erase key => self.erase key
  | .clear => self.clear
  | .used_size => reads self self.used_size
  | .available_size => reads self self.available_size
  | .set_i32 key value => self.set_i32 key value
  | .get_i32 key default_val => self.get_i32 key default_val
  | .set_u32 key value => self.set_u32 key value
  | .get_u32 key default_val => self.get_u32 key default_val
  | .set_u8 key value => self.set_u8 key value
  | .get_u8 key default_val => self.get_u8 key default_val
  | .set_bool key value => self.set_bool key value
  | .get_bool key default_val => self.get_bool key default_val
  | .set_string key value => self.set_string key value
  | .get_string key default_val => self.get_string key default_val
  | .set_blob key data => self.set_blob key data
  | .get_blob key out => do
    let (found, out, self) ← self.get_blob key out
    return ((found, out), self)
  | .set _ key value => self.set key value
  | .get _ key default_val value => self.get key default_val value
  | .foreach => reads self self.foreach

/-- The answer of a failure: false, a size of 0, the default of the caller, or the vector as it was. -/
def failure : (op : Operation) → op.Answer
  | .has _ => false
  | .erase _ => false
  | .clear => false
  | .used_size => 0
  | .available_size => 0
  | .set_i32 _ _ => false
  | .get_i32 _ default_val => default_val
  | .set_u32 _ _ => false
  | .get_u32 _ default_val => default_val
  | .set_u8 _ _ => false
  | .get_u8 _ default_val => default_val
  | .set_bool _ _ => false
  | .get_bool _ default_val => default_val
  | .set_string _ _ => false
  | .get_string _ default_val => default_val
  | .set_blob _ _ => false
  | .get_blob _ out => (false, out)
  | .set _ _ _ => false
  | .get _ _ default_val _ => default_val
  | .foreach => ()

/-- The getters that do not ask whether the handle is initialised. -/
def Unguarded : Operation → Prop
  | .get_u32 _ _ => True
  | .get_u8 _ _ => True
  | .get_bool _ _ => True
  | _ => False

end Operation

/-- An operation calls nothing, changes nothing, and answers that it failed. -/
def Inert (self : KVHandle) (op : Operation) : Prop := op.run self = .ret (op.failure, self)

/-! ## Runs -/

/-- A call of `Databases`, or an operation of a handle that exists. -/
inductive Act where
  | call (c : Call)
  | operate (a : Nat) (op : Operation)

def Act.run (s : State) : Act → Code State
  | .call c => c.run s
  | .operate a op => s.on a fun self => do
    let (_, self) ← op.run self
    return self

def Act.Valid (s : State) : Act → Prop
  | .call c => c.Valid s
  | .operate _ _ => True

/-- Every sequence of calls and operations. -/
def course : Session Op Op.Res Act State World where
  run act s := act.run s
  may s _ act := act.Valid s

/-! ## Which operations are inert -/

section

variable {self : KVHandle}

theorem set_blob_closed (hclosed : self.m_initialized = false) (key : Key) (data : Option Bytes) :
    self.set_blob key data = .ret (false, self) := by
  rw [KVHandle.set_blob, hclosed]
  rfl

theorem get_blob_closed (hclosed : self.m_initialized = false) (key : Key) (out : Bytes) :
    self.get_blob key out = .ret (false, out, self) := by
  rw [KVHandle.get_blob, hclosed]
  rfl

theorem reads_ret {α : Type} {call : Code α} {a : α} (h : call = .ret a) :
    Operation.reads self call = .ret (a, self) := by
  rw [h]
  rfl

theorem inert_of_guarded (hclosed : self.m_initialized = false) {op : Operation} (hop : ¬op.Unguarded) :
    Inert self op := by
  unfold Inert
  cases op with
  | has key => exact reads_ret (by rw [KVHandle.has, hclosed]; rfl)
  | erase key => rw [Operation.run, KVHandle.erase, hclosed]; rfl
  | clear => rw [Operation.run, KVHandle.clear, hclosed]; rfl
  | used_size => exact reads_ret (by rw [KVHandle.used_size, hclosed]; rfl)
  | available_size => exact reads_ret (by rw [KVHandle.available_size, hclosed]; rfl)
  | foreach => exact reads_ret (by rw [KVHandle.foreach, hclosed]; rfl)
  | get_i32 key default_val => rw [Operation.run, KVHandle.get_i32, hclosed]; rfl
  | get_string key default_val => rw [Operation.run, KVHandle.get_string, get_blob_closed hclosed]; rfl
  | get_blob key out => rw [Operation.run, get_blob_closed hclosed]; rfl
  | get n key default_val value => rw [Operation.run, KVHandle.get, hclosed]; rfl
  | get_u32 key default_val => exact absurd trivial hop
  | get_u8 key default_val => exact absurd trivial hop
  | get_bool key default_val => exact absurd trivial hop
  -- the setters, which all end in `set_blob`
  | _ => exact set_blob_closed hclosed _ _

/-- The other three begin with a call of Flashdb. -/
theorem not_inert_of_unguarded {op : Operation} (hop : op.Unguarded) : ¬Inert self op := by
  intro hinert
  unfold Inert at hinert
  cases op with
  | get_u32 key default_val => cases hinert
  | get_u8 key default_val => cases hinert
  | get_bool key default_val => cases hinert
  | _ => cases hop

/-- What is not called on a closed handle is not noticed. -/
theorem operate_closed {s : State} {a : Nat} {op : Operation} (ha : s.handles a = some self)
    (hclosed : self.m_initialized = false) (hop : ¬op.Unguarded) :
    Act.run s (.operate a op) = .ret s := by
  have hrun : op.run self = .ret (op.failure, self) := inert_of_guarded hclosed hop
  have hsame : s.update a (some self) = s := by
    rw [State.update, ← ha, Function.update_eq_self]
  rw [Act.run, State.on, ha]
  dsimp only
  rw [hrun]
  show Prog.ret (s.update a (some self)) = _
  rw [hsame]

/-- An operation on the handle `a` is inert, and leaves all handles as they are. -/
def ClosedInert (s : State) (a : Nat) (self : KVHandle) (op : Operation) : Prop :=
  Inert self op ∧ Act.run s (.operate a op) = .ret s

/-- In whatever way a handle has come to be closed, an operation on it is inert if and only if it is not
`get_u32`, `get_u8` or `get_bool`. -/
theorem closed_inert_iff : ∀ (s : State) (w : World), course.Reaches databases fresh ⟨[], []⟩ s w →
    ∀ a self, s.handles a = some self → self.m_initialized = false →
      ∀ op, ClosedInert s a self op ↔ ¬op.Unguarded := by
  intro s w _ a self ha hclosed op
  constructor
  · rintro ⟨hinert, -⟩ hop
    exact not_inert_of_unguarded hop hinert
  · intro hop
    exact ⟨inert_of_guarded hclosed hop, operate_closed ha hclosed hop⟩

end

/-- A handle that has been constructed. -/
def constructedOnly : State := fresh.update 0 (some .constructed)

theorem constructedOnly_reached : course.Reaches databases fresh ⟨[], []⟩ constructedOnly ⟨[], []⟩ :=
  Session.Reaches.start.step (.call (.construct 0)) rfl ⟨rfl, rfl⟩

theorem closed_inert_iff_constructed :
    ClosedInert constructedOnly 0 .constructed (.get_i32 [107] 5) ↔ ¬(Operation.get_i32 [107] 5).Unguarded :=
  closed_inert_iff constructedOnly ⟨[], []⟩ constructedOnly_reached 0 .constructed rfl rfl (.get_i32 [107] 5)

/-- A handle that has never been initialised asks Flashdb for a value. -/
theorem not_closed_inert : ¬∀ (s : State) (w : World), course.Reaches databases fresh ⟨[], []⟩ s w →
    ∀ a self, s.handles a = some self → self.m_initialized = false → ∀ op, ClosedInert s a self op := by
  intro h
  have hclosed : ClosedInert constructedOnly 0 .constructed (.get_u32 [107] 5) :=
    h constructedOnly ⟨[], []⟩ constructedOnly_reached 0 .constructed rfl rfl _
  have hop : (Operation.get_u32 [107] 5).Unguarded := trivial
  exact not_inert_of_unguarded hop hclosed.1

end Kv.Databases
