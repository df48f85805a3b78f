import BaseUtilities.Files.Content

/-!
# Values that are streamed to a file and back

`operator<<` writes the bytes of a value and `operator>>` reads as many into a variable; neither looks
at what the transfer came to.  Values come back whatever the variables held exactly where every read
delivers the whole of its value, and a read that delivers less leaves a variable half overwritten.
-/

open Effects Mem

namespace Files

/-! ## Values one after another -/

/-- Values, or variables, of the sizes `ns`. -/
inductive Values : List Nat → Type where
  | nil : Values []
  | cons {n : Nat} {ns : List Nat} (v : Buffer n) (vs : Values ns) : Values (n :: ns)

namespace Values

def bytes : {ns : List Nat} → Values ns → Bytes
  | _, .nil => []
  | _, .cons v vs => v.bytes ++ vs.bytes

def zeroed : (ns : List Nat) → Values ns
  | [] => .nil
  | n :: ns => .cons (.zeroed n) (zeroed ns)

end Values

/-- `<<` for each value. -/
def shiftLefts (self : FileHandle) : {ns : List Nat} → Values ns → Code Unit
  | _, .nil => return ()
  | _, .cons v vs => do
    self.shiftLeft v
    shiftLefts self vs

/-- `>>` for each variable: what they hold then. -/
def shiftRights (self : FileHandle) : {ns : List Nat} → Values ns → Code (Values ns)
  | _, .nil => return .nil
  | _, .cons t ts => do
    let v ← self.shiftRight t
    let vs ← shiftRights self ts
    return .cons v vs

/-- Values are written, and read again from the start into the variables `ts`. -/
def streamed (self : FileHandle) {ns : List Nat} (vs ts : Values ns) : Code (Values ns) := do
  shiftLefts self vs
  let _ ← self.seek 0 .begin
  shiftRights self ts

/-! ## What variables receive -/

/-- What `>>` leaves of variables, and of the file. -/
def OpenFile.received : {ns : List Nat} → OpenFile → Values ns → Values ns × OpenFile
  | _, w, .nil => (.nil, w)
  | n :: _, w, .cons t ts =>
    let r := (w.advanced (w.coming n)).received ts
    (.cons (t.overlay (w.coming n)) r.1, r.2)

section

variable (fd : Nat) {ns : List Nat}

theorem shiftRight_run {n : Nat} (w : OpenFile) (t : Buffer n) :
    Exec (serving fd) ((opened fd).shiftRight t) w (.returned (t.overlay (w.coming n)))
      (w.advanced (w.coming n)) :=
  (read_run fd w n).bind .ret

theorem shiftRights_run (w : OpenFile) (ts : Values ns) :
    Exec (serving fd) (shiftRights (opened fd) ts) w (.returned (w.received ts).1)
      (w.received ts).2 := by
  induction ts generalizing w with
  | nil => exact .ret
  | cons t ts ih => exact (shiftRight_run fd w t).bind ((ih _).bind .ret)

/-- Writes that are full append the values. -/
theorem shiftLefts_run (vs : Values ns) (content : Bytes) (reads : Stream' Transfer) :
    Exec (serving fd) (shiftLefts (opened fd) vs) ⟨content, content.length, reads, full⟩ (.returned ())
      ⟨content ++ vs.bytes, (content ++ vs.bytes).length, reads, full⟩ := by
  induction vs generalizing content with
  | nil =>
    rw [Values.bytes, List.append_nil]
    exact .ret
  | cons v vs ih =>
    have hwrite := write_run fd ⟨content, content.length, reads, full⟩ v.bytes
    have htaken : OpenFile.taken ⟨content, content.length, reads, full⟩ v.bytes = v.bytes :=
      List.take_length
    have hend : OpenFile.extended ⟨content, content.length, reads, full⟩ v.bytes =
        ⟨content ++ v.bytes, (content ++ v.bytes).length, reads, full⟩ := by
      rw [OpenFile.extended_end rfl, List.length_append]
      rfl
    rw [htaken, hend] at hwrite
    rw [Values.bytes, ← List.append_assoc]
    have hvalue : Exec (serving fd) ((opened fd).shiftLeft v) _ (.returned ()) _ := hwrite.bind .ret
    exact hvalue.bind (ih (content ++ v.bytes))

theorem streamed_run (vs ts : Values ns) (reads : Stream' Transfer) :
    ∃ w, Exec (serving fd) (streamed (opened fd) vs ts) ⟨[], 0, reads, full⟩
      (.returned (OpenFile.received ⟨vs.bytes, 0, reads, full⟩ ts).1) w :=
  ⟨_, (shiftLefts_run fd vs [] reads).bind
    ((seek_run fd _ 0).bind (shiftRights_run fd ⟨vs.bytes, 0, reads, full⟩ ts))⟩

end

/-- The number of bytes that a read of a value moves where the file has them. -/
def Transfer.delivers (t : Transfer) (n : Nat) : Nat := ((t.moved n).map (·.1)).getD 0

theorem Transfer.delivers_le (t : Transfer) (n : Nat) : t.delivers n ≤ n := by
  unfold delivers
  cases t.moved n with
  | none => exact Nat.zero_le n
  | some k => exact k.2

theorem OpenFile.coming_eq (w : OpenFile) (n : Nat) :
    w.coming n = w.rest.take (w.reads.head.delivers n) := by
  unfold coming delivered Transfer.delivers
  cases w.reads.head.moved n with
  | none => rfl
  | some k => rfl

theorem OpenFile.advanced_rest (w : OpenFile) (data : Bytes) :
    (w.advanced data).rest = w.rest.drop data.length := by
  unfold rest advanced
  rw [List.drop_drop]

section

variable {n : Nat} {w : OpenFile} {v : Buffer n} {s : Bytes}

theorem coming_value (hrest : w.rest = v.bytes ++ s) :
    w.coming n = v.bytes.take (w.reads.head.delivers n) := by
  have hle : w.reads.head.delivers n ≤ v.bytes.length := by
    rw [v.size_eq]
    exact w.reads.head.delivers_le n
  rw [OpenFile.coming_eq, hrest, List.take_append_of_le_length hle]

theorem coming_whole (hrest : w.rest = v.bytes ++ s) (hfull : w.reads.head.delivers n = n) :
    w.coming n = v.bytes := by
  rw [coming_value hrest, hfull]
  exact v.take_all

/-- A value comes back whatever its variable held exactly where the read delivers all of it. -/
theorem coming_forall (hrest : w.rest = v.bytes ++ s) :
    (∀ t : Buffer n, t.overlay (w.coming n) = v) ↔ w.reads.head.delivers n = n := by
  have hle := w.reads.head.delivers_le n
  have hsize := v.size_eq
  have hlen : (w.coming n).length = w.reads.head.delivers n := by
    rw [coming_value hrest, List.length_take]
    omega
  rw [Buffer.overlay_forall (by omega)]
  constructor
  · intro hall
    rw [← hlen, hall, hsize]
  · intro hfull
    exact coming_whole hrest hfull

end

/-- Every read of values of the sizes `ns` delivers the whole of its value. -/
def Delivers (ns : List Nat) (reads : Stream' Transfer) : Prop :=
  ∀ i (h : i < ns.length), (reads.get i).delivers ns[i] = ns[i]

theorem delivers_cons {n : Nat} {ns : List Nat} {reads : Stream' Transfer} :
    Delivers (n :: ns) reads ↔ reads.head.delivers n = n ∧ Delivers ns reads.tail := by
  constructor
  · intro h
    exact ⟨h 0 (Nat.succ_pos _), fun i hi => h (i + 1) (Nat.succ_lt_succ hi)⟩
  · rintro ⟨hhead, htail⟩ i hi
    cases i with
    | zero => exact hhead
    | succ i => exact htail i (Nat.lt_of_succ_lt_succ hi)

theorem received_forall {ns : List Nat} (vs : Values ns) {w : OpenFile} (hrest : w.rest = vs.bytes) :
    (∀ ts : Values ns, (w.received ts).1 = vs) ↔ Delivers ns w.reads := by
  induction vs generalizing w with
  | nil =>
    refine iff_of_true (fun ts => ?_) (fun i hi => absurd hi (Nat.not_lt_zero i))
    cases ts
    rfl
  | @cons n ns v vs ih =>
    have hfirst := coming_forall hrest
    -- The second value is read from where it was written only if the first one came whole.
    have hnext : w.reads.head.delivers n = n → (w.advanced (w.coming n)).rest = vs.bytes := by
      intro hfull
      rw [OpenFile.advanced_rest, hrest, coming_whole hrest hfull]
      exact List.drop_left
    rw [delivers_cons]
    constructor
    · intro hall
      have hvalue : ∀ t : Buffer n, t.overlay (w.coming n) = v := by
        intro t
        -- `hall` is about every target: a value that came short would show the bytes of its own.
        have h := hall (.cons t (.zeroed ns))
        exact (Values.cons.inj h).1
      have hfull := hfirst.mp hvalue
      refine ⟨hfull, (ih (hnext hfull)).mp fun ts => ?_⟩
      have h := hall (.cons (.zeroed n) ts)
      exact (Values.cons.inj h).2
    · rintro ⟨hfull, htail⟩ ts
      cases ts with
      | cons t ts =>
        have hvalue := hfirst.mpr hfull t
        have hvalues := (ih (hnext hfull)).mpr htail ts
        show Values.cons (t.overlay (w.coming n)) ((w.advanced (w.coming n)).received ts).1 = .cons v vs
        rw [hvalue, hvalues]

/-! ## Streams -/

/-- Values that are written to an empty file come back, whatever the variables held. -/
def ComeBack (fd : Nat) {ns : List Nat} (vs : Values ns) (reads : Stream' Transfer) : Prop :=
  ∀ ts : Values ns,
    Returns (serving fd) (streamed (opened fd) vs ts) (fun read _ => read = vs) ⟨[], 0, reads, full⟩

/-- A variable keeps its value where the file has fewer bytes left than it takes. -/
def LeftAlone (fd : Nat) {n : Nat} (t : Buffer n) (w : OpenFile) : Prop :=
  w.rest.length < n → Returns (serving fd) ((opened fd).shiftRight t) (fun t' _ => t' = t) w

theorem comeBack_iff (fd : Nat) {ns : List Nat} (vs : Values ns) (reads : Stream' Transfer) :
    ComeBack fd vs reads ↔ Delivers ns reads := by
  rw [← received_forall vs (w := ⟨vs.bytes, 0, reads, full⟩) rfl]
  apply forall_congr'
  intro ts
  obtain ⟨w, hrun⟩ := streamed_run fd vs ts reads
  exact (serving_deterministic fd).returns_iff hrun

theorem leftAlone_iff (fd : Nat) {n : Nat} (t : Buffer n) (w : OpenFile) :
    LeftAlone fd t w ↔ (w.rest.length < n → w.coming n <+: t.bytes) := by
  have hle : (w.coming n).length ≤ n := by
    rw [OpenFile.coming_eq]
    exact Nat.le_trans (List.length_take_le _ _) (w.reads.head.delivers_le n)
  unfold LeftAlone
  rw [(serving_deterministic fd).returns_iff (shiftRight_run fd w t), Buffer.overlay_eq_self t hle]

/-- Values come back exactly where every read delivers the whole of its value; and a variable keeps
its value at the end of a file exactly where the bytes that the read delivers are those it begins
with. -/
theorem streams_iff (fd : Nat) {ns : List Nat} (vs : Values ns) (reads : Stream' Transfer) {n : Nat}
    (t : Buffer n) (w : OpenFile) :
    (ComeBack fd vs reads ↔ Delivers ns reads) ∧
      (LeftAlone fd t w ↔ (w.rest.length < n → w.coming n <+: t.bytes)) :=
  ⟨comeBack_iff fd vs reads, leftAlone_iff fd t w⟩

/-- One byte is left in the file, and it becomes the first byte of a variable of two. -/
theorem not_leftAlone : ¬LeftAlone 3 (.zeroed 2) (steady [7] 0) := by
  rw [leftAlone_iff]
  decide

end Files
