import Mathlib.Data.List.Basic

/-!
# Messages in fragments

A message is sent as frames, one or more.  All of them but the last are not final, and all but the first
are continuations.  A receiver puts the messages together again, and gives up where a continuation
continues nothing or another frame comes in the middle of a message.
-/

namespace Framing

universe u v

variable {κ : Type u} {α : Type v}

/-- A frame; a continuation has no kind. -/
structure Frame (κ : Type u) (α : Type v) where
  fin : Bool
  kind : Option κ
  payload : List α
  deriving DecidableEq, Repr

structure Message (κ : Type u) (α : Type v) where
  kind : κ
  payload : List α
  deriving DecidableEq, Repr

/-- A message with one more piece. -/
def Message.extend (m : Message κ α) (payload : List α) : Message κ α :=
  { m with payload := m.payload ++ payload }

/-! ## Receiving -/

/-- The message that a frame begins or goes on with, where `pending` is what has come of one. -/
def accept : Option (Message κ α) → Frame κ α → Option (Message κ α)
  | none, ⟨_, some kind, payload⟩ => some ⟨kind, payload⟩
  | some m, ⟨_, none, payload⟩ => some (m.extend payload)
  | none, ⟨_, none, _⟩ => none
  | some _, ⟨_, some _, _⟩ => none

/-- The messages of some frames, and what has come of another one. -/
def receive : Option (Message κ α) → List (Frame κ α) →
    Option (List (Message κ α) × Option (Message κ α))
  | pending, [] => some ([], pending)
  | pending, f :: frames =>
    match accept pending f with
    | none => none
    | some m =>
      if f.fin then
        (receive none frames).map fun r => (m :: r.1, r.2)
      else
        receive (some m) frames

/-! ## Sending -/

/-- The frames of a message, or of its rest as continuations; the last piece is in a final one. -/
def frames (kind : Option κ) (payload : List α) : List (List α) → List (Frame κ α)
  | [] => [⟨true, kind, payload⟩]
  | next :: rest => ⟨false, kind, payload⟩ :: frames none next rest

/-- The rest of a message is received. -/
theorem receive_rest (m : Message κ α) (payload : List α) (rest : List (List α)) (behind : List (Frame κ α)) :
    receive (some m) (frames none payload rest ++ behind) =
      (receive none behind).map fun r => (m.extend (payload :: rest).flatten :: r.1, r.2) := by
  induction rest generalizing m payload with
  | nil => simp [frames, receive, accept]
  | cons next rest ih =>
    have hstep : receive (some m) (frames none payload (next :: rest) ++ behind) =
        receive (some (m.extend payload)) (frames none next rest ++ behind) := rfl
    rw [hstep, ih]
    simp [Message.extend, List.append_assoc]

/-- A message that is sent in any pieces is received as a whole. -/
theorem receive_frames (kind : κ) (payload : List α) (rest : List (List α)) (behind : List (Frame κ α)) :
    receive none (frames (some kind) payload rest ++ behind) =
      (receive none behind).map fun r => (⟨kind, (payload :: rest).flatten⟩ :: r.1, r.2) := by
  cases rest with
  | nil => simp [frames, receive, accept]
  | cons next rest =>
    have hstep : receive none (frames (some kind) payload (next :: rest) ++ behind) =
        receive (some ⟨kind, payload⟩) (frames none next rest ++ behind) := rfl
    rw [hstep, receive_rest]
    simp [Message.extend]

/-- Messages that are sent in one frame each are received as they are. -/
theorem receive_whole (messages : List (Message κ α)) :
    receive none (messages.map fun m => (⟨true, some m.kind, m.payload⟩ : Frame κ α)) =
      some (messages, none) := by
  induction messages with
  | nil => rfl
  | cons m messages ih =>
    rw [List.map_cons, receive, accept]
    dsimp only
    rw [if_pos rfl, ih]
    rfl

end Framing
