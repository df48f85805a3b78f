import BaseUtilities.Ftp.Replies

/-!
# What is made of a stream

Whatever bytes the control connection delivers, `readLine` cuts their stream into pieces, and
`readResponse` takes one reply of the pieces in front.  `takeReply` says so on lists; it looks at what
the pieces leave in `response`, as the source does.
-/

open Effects Mem

namespace Ftp

/-! ## Pieces -/

/-- The most bytes that a call of `readLine` takes for `response`. -/
abbrev LINE_MAX : Nat := RESPONSE_BUFFER_SIZE - 1

/-- What calls of `readLine` take of a stream, where the first of them still takes `room` bytes: lines
with their line ends, and of longer lines as much as there is room for. -/
def piecesFrom : Nat → Bytes → List Bytes
  | _, [] => []
  | room, c :: s =>
    if c = LF ∨ room ≤ 1 then [c] :: piecesFrom LINE_MAX s
    else
      match piecesFrom (room - 1) s with
      | [] => [[c]]
      | l :: ls => (c :: l) :: ls

def pieces (s : Bytes) : List Bytes := piecesFrom LINE_MAX s

/-- No more bytes belong to the piece. -/
def Whole (l : Bytes) : Prop := l.getLast? = some LF ∨ l.length = LINE_MAX

instance (l : Bytes) : Decidable (Whole l) := inferInstanceAs (Decidable (_ ∨ _))

theorem piecesFrom_line {init : Bytes} (h : LF ∉ init) {room : Nat} (hroom : init.length < room) (s : Bytes) :
    piecesFrom room (init ++ LF :: s) = (init ++ [LF]) :: pieces s := by
  induction init generalizing room with
  | nil =>
    rw [List.nil_append, piecesFrom, if_pos (.inl rfl)]
    rfl
  | cons c init ih =>
    rw [List.mem_cons, not_or] at h
    rw [List.length_cons] at hroom
    rw [List.cons_append, piecesFrom, if_neg, ih h.2 (by omega)]
    · rfl
    · rintro (hc | hc)
      · exact h.1 hc.symm
      · omega

theorem piecesFrom_full {text : Bytes} (h : LF ∉ text) (hne : text ≠ []) {room : Nat}
    (hroom : text.length = room) (s : Bytes) : piecesFrom room (text ++ s) = text :: pieces s := by
  induction text generalizing room with
  | nil => exact absurd rfl hne
  | cons c text ih =>
    rw [List.mem_cons, not_or] at h
    rw [List.length_cons] at hroom
    rw [List.cons_append, piecesFrom]
    by_cases hnil : text = []
    · subst hnil
      rw [if_pos (.inr (Nat.le_of_eq hroom.symm))]
      rfl
    · have hpos := List.length_pos_iff.mpr hnil
      rw [if_neg, ih h.2 hnil (by omega)]
      rintro (hc | hc)
      · exact h.1 hc.symm
      · omega

theorem piecesFrom_tail {text : Bytes} (h : LF ∉ text) {room : Nat} (hroom : text.length < room) :
    piecesFrom room text = if text = [] then [] else [text] := by
  induction text generalizing room with
  | nil => rfl
  | cons c text ih =>
    rw [List.mem_cons, not_or] at h
    rw [List.length_cons] at hroom
    rw [piecesFrom, if_neg, ih h.2 (by omega), if_neg (List.cons_ne_nil c text)]
    · by_cases hnil : text = []
      · rw [if_pos hnil, hnil]
      · rw [if_neg hnil]
    · rintro (hc | hc)
      · exact h.1 hc.symm
      · omega

/-! ## Replies -/

/-- What a piece leaves in `response`. -/
def shownPiece (response : Buffer RESPONSE_BUFFER_SIZE) (l : Bytes) : Buffer RESPONSE_BUFFER_SIZE :=
  let content := if l.length = LINE_MAX ∧ LF ∉ l then l.set 0 0 else chomp l
  response.overlay (content ++ 0 :: List.replicate (l.length - content.length) 0)

/-- `response` behind several pieces. -/
def shownPieces (response : Buffer RESPONSE_BUFFER_SIZE) (ls : List Bytes) : Buffer RESPONSE_BUFFER_SIZE :=
  ls.foldl shownPiece response

/-- The pieces up to one that shows `code`: what `response` is then, and the pieces behind. -/
def takeCode (code : Bytes) :
    Buffer RESPONSE_BUFFER_SIZE → List Bytes → Option (Buffer RESPONSE_BUFFER_SIZE × List Bytes)
  | _, [] => none
  | response, l :: ls =>
    let response := shownPiece response l
    if matches4 4 response.bytes code then some (response, ls) else takeCode code response ls

/-- The pieces of one reply: what `response` is then, and the pieces behind. -/
def takeReply (response : Buffer RESPONSE_BUFFER_SIZE) :
    List Bytes → Option (Buffer RESPONSE_BUFFER_SIZE × List Bytes)
  | [] => none
  | l :: ls =>
    let response := shownPiece response l
    if response.bytes[3]? = some 45 then takeCode (replyMatch response) response ls
    else some (response, ls)

/-- The pieces of `k` replies. -/
def takeReplies : Nat → Buffer RESPONSE_BUFFER_SIZE → List Bytes →
    Option (Buffer RESPONSE_BUFFER_SIZE × List Bytes)
  | 0, response, ls => some (response, ls)
  | k + 1, response, ls => (takeReplies k response ls).bind fun p => takeReply p.1 p.2

/-! ## The stream of a run -/

/-- What has come on the control connection, and whether it has ended. -/
structure Heard where
  bytes : Bytes
  ended : Bool

def Heard.after (control : Nat) (h : Heard) : FtpEvent → Heard
  | ⟨.recv fd _, some x⟩ => if fd = control then ⟨h.bytes ++ x.1, h.ended || x.1.isEmpty⟩ else h
  | _ => h

/-- The pieces that have come behind the unread bytes `u` and to which no more bytes belong. -/
def Heard.lines (u : Bytes) (h : Heard) : List Bytes :=
  if h.ended then pieces (u ++ h.bytes) else (pieces (u ++ h.bytes)).filter (decide <| Whole ·)

variable {W : Type} {E : Env Op Op.Res W} {control : Nat} {heard : W → Heard}

/-- `heard` is what has come since some call; behind the end of the stream nothing more comes. -/
structure Listens (E : Env Op Op.Res W) (control : Nat) (heard : W → Heard) : Prop where
  after : ∀ w op r w', E w op r w' → heard w' = (heard w).after control ⟨op, r⟩
  last : ∀ w len (x : Chunk len) w', E w (.recv control len) (some x) w' → (heard w).ended = true → x.1 = []

/-- Behind `u₀` and what has been heard, the pieces `done` have been read, and `u` is received and not
read. -/
structure Heeds (control : Nat) (heard : W → Heard) (response₀ : Buffer RESPONSE_BUFFER_SIZE) (u₀ : Bytes)
    (done : List Bytes) (u : Bytes) (nControl : NetBuf) (w : W) : Prop where
  dir_eq : nControl.dir = .control
  handle_eq : nControl.handle = control
  unread : nControl.Unread u
  pieces_eq : ∀ v, ((heard w).ended = true → v = []) →
    pieces (u₀ ++ ((heard w).bytes ++ v)) = done ++ pieces (u ++ v)
  ended : (heard w).ended = true → u = []
  whole : (heard w).ended = false → ∀ l ∈ done, Whole l
  shown : nControl.response = shownPieces response₀ done

section

variable {response₀ : Buffer RESPONSE_BUFFER_SIZE} {u₀ u : Bytes} {done : List Bytes} {nControl : NetBuf}
  {w w' : W}

theorem shownPieces_snoc (response : Buffer RESPONSE_BUFFER_SIZE) (ls : List Bytes) (l : Bytes) :
    shownPieces response (ls ++ [l]) = shownPiece (shownPieces response ls) l := by
  unfold shownPieces
  rw [List.foldl_append]
  rfl

/-- Nothing has been heard yet. -/
theorem Heeds.start (hdir : nControl.dir = .control) (hhandle : nControl.handle = control)
    (hunread : nControl.Unread u) (hheard : heard w = ⟨[], false⟩) :
    Heeds control heard nControl.response u [] u nControl w where
  dir_eq := hdir
  handle_eq := hhandle
  unread := hunread
  pieces_eq v _ := by rw [hheard]; rfl
  ended h := by rw [hheard] at h; cases h
  whole _ l hl := by cases hl
  shown := rfl

/-- What the whole pieces of the stream are. -/
theorem Heeds.lines_eq (h : Heeds control heard response₀ u₀ done u nControl w) :
    (heard w).lines u₀ = done ++ if (heard w).ended then [] else (pieces u).filter (decide <| Whole ·) := by
  have hpieces := h.pieces_eq [] fun _ => rfl
  rw [List.append_nil, List.append_nil] at hpieces
  rw [Heard.lines]
  cases hended : (heard w).ended with
  | true =>
    rw [if_pos rfl, if_pos rfl, hpieces, h.ended hended]
    rfl
  | false =>
    rw [if_neg Bool.false_ne_true, if_neg Bool.false_ne_true, hpieces, List.filter_append,
      List.filter_eq_self.mpr fun l hl => decide_eq_true (h.whole hended l hl)]

/-- The bytes `d` have been delivered since `w`. -/
structure Since (heard : W → Heard) (w : W) (d : Bytes) (w' : W) : Prop where
  bytes_eq : (heard w').bytes = (heard w).bytes ++ d
  ended : (heard w).ended = true → d = []

theorem since_feeds (hE : Listens E control heard) (w : W) (n : Nat) (u : Bytes) :
    Feeds E (fun _ _ => True) n control u
      (fun d w' => Since heard w d w' ∧ (heard w').ended = (heard w).ended)
      (fun d w' => Since heard w d w' ∧ (heard w').ended = true)
      (fun d w' => Since heard w d w' ∧ (heard w').ended = (heard w).ended) where
  asks _ _ _ _ _ := trivial
  more := by
    rintro d w' x w'' ⟨h, hended⟩ hstep hx
    have hafter := hE.after w' _ _ w'' hstep
    rw [Heard.after, if_pos rfl] at hafter
    have hlive : ¬(heard w').ended = true := fun he => hx (hE.last w' _ x w'' hstep he)
    refine ⟨⟨?_, fun he => absurd (hended.trans he) hlive⟩, ?_⟩
    · rw [hafter, h.bytes_eq, List.append_assoc]
    · rw [hafter]
      simp [hx, hended]
  eof := by
    rintro d w' x w'' ⟨h, -⟩ hstep hx
    have hafter := hE.after w' _ _ w'' hstep
    rw [Heard.after, if_pos rfl, hx, List.append_nil] at hafter
    refine ⟨⟨?_, h.ended⟩, ?_⟩
    · rw [hafter, h.bytes_eq]
    · rw [hafter]
      simp
  error := by
    rintro d w' w'' ⟨h, hended⟩ hstep
    have hafter : heard w'' = heard w' := hE.after w' _ _ w'' hstep
    exact ⟨⟨by rw [hafter, h.bytes_eq], h.ended⟩, by rw [hafter, hended]⟩
  fault _ _ _ _ := trivial

/-- The pieces of the stream once `d` has been delivered. -/
theorem Heeds.since (h : Heeds control heard response₀ u₀ done u nControl w) {d : Bytes}
    (hd : Since heard w d w') (v : Bytes) (hv : (heard w).ended = true → v = []) :
    pieces (u₀ ++ ((heard w').bytes ++ v)) = done ++ pieces (u ++ d ++ v) := by
  rw [hd.bytes_eq, List.append_assoc, List.append_assoc]
  refine h.pieces_eq (d ++ v) fun he => ?_
  rw [hd.ended he, hv he, List.append_nil]

/-- A line that has been read shows its piece. -/
theorem shown_eq_shownPiece {l : Line} (response : Buffer RESPONSE_BUFFER_SIZE) (hne : l.text ≠ [])
    (hcontent : l.content = if l.text.length = LINE_MAX ∧ LF ∉ l.text then l.text.set 0 0 else chomp l.text) :
    l.shown response = shownPiece response l.text := by
  unfold Line.shown shownPiece Line.padding
  rw [if_neg fun h => hne h.1, hcontent]

/-- A line at the end of the stream, or in front of an error, shows its piece where it has any bytes. -/
theorem shown_tail {text : Bytes} {nc : NetBuf} {ending : LineEnd} (response : Buffer RESPONSE_BUFFER_SIZE)
    (hending : ending = .eof ∨ ending = .error) (hline : LF ∉ text) (hroom : text.length < LINE_MAX) :
    Line.shown ⟨ending, text, [], nc⟩ response = if text = [] then response else shownPiece response text := by
  by_cases htext : text = []
  · rw [if_pos htext, Line.shown]
    rcases hending with rfl | rfl
    · exact if_pos ⟨htext, by simp⟩
    · exact if_pos ⟨htext, by simp⟩
  · rw [if_neg htext]
    refine shown_eq_shownPiece _ htext ?_
    rw [if_neg fun hfull => absurd hfull.1 (Nat.ne_of_lt hroom), chomp_eq hline]
    rcases hending with rfl | rfl
    · rfl
    · rfl

/-- A piece has been read to which no more bytes belong. -/
theorem Heeds.read_whole (h : Heeds control heard response₀ u₀ done u nControl w) {d l rest : Bytes}
    (hd : Since heard w d w') (hended : (heard w').ended = (heard w).ended) (hsplit : l ++ rest = u ++ d)
    (hne : l ≠ []) (hwhole : Whole l) (hpiece : ∀ s, pieces (l ++ s) = l :: pieces s) {nc : NetBuf}
    (hdir : nc.dir = .control) (hhandle : nc.handle = control) (hunread : nc.Unread rest)
    (hshown : nc.response = shownPiece nControl.response l) :
    Heeds control heard response₀ u₀ (done ++ [l]) rest nc w' where
  dir_eq := hdir
  handle_eq := hhandle
  unread := hunread
  pieces_eq v hv := by
    rw [hended] at hv
    rw [h.since hd v hv, ← hsplit, List.append_assoc, hpiece, List.append_assoc, List.singleton_append]
  ended he := by
    rw [hended] at he
    rw [h.ended he, hd.ended he] at hsplit
    exact absurd (List.append_eq_nil_iff.mp hsplit).1 hne
  whole he l' hl' := by
    rw [hended] at he
    rcases List.mem_append.mp hl' with hl' | hl'
    · exact h.whole he l' hl'
    · rw [List.mem_singleton.mp hl']
      exact hwhole
  shown := by rw [shownPieces_snoc, ← h.shown, hshown]

/-- The stream up to bytes that are no whole piece. -/
theorem Heeds.tail (h : Heeds control heard response₀ u₀ done u nControl w) {d : Bytes} (hd : Since heard w d w')
    (hline : LF ∉ u ++ d) (hroom : (u ++ d).length < LINE_MAX) :
    pieces (u₀ ++ (heard w').bytes) = done ++ if u ++ d = [] then [] else [u ++ d] := by
  have hpieces := h.since hd [] fun _ => rfl
  rwa [List.append_nil, List.append_nil, pieces.eq_def (u ++ d), piecesFrom_tail hline hroom] at hpieces

/-- What these bytes show. -/
theorem Heeds.shown_tail (h : Heeds control heard response₀ u₀ done u nControl w) {d : Bytes}
    (hd : Since heard w d w') (hline : LF ∉ u ++ d) (hroom : (u ++ d).length < LINE_MAX) :
    shownPieces response₀ (pieces (u₀ ++ (heard w').bytes)) =
      if u ++ d = [] then nControl.response else shownPiece nControl.response (u ++ d) := by
  rw [h.tail hd hline hroom, h.shown]
  split
  · rw [List.append_nil]
  · rw [shownPieces_snoc]

/-- At the end of the stream they are the last piece. -/
theorem Heeds.read_last (h : Heeds control heard response₀ u₀ done u nControl w) {d : Bytes}
    (hd : Since heard w d w') (hended : (heard w').ended = true) (hline : LF ∉ u ++ d)
    (hroom : (u ++ d).length < LINE_MAX) (hne : u ++ d ≠ []) {nc : NetBuf} (hdir : nc.dir = .control)
    (hhandle : nc.handle = control) (hunread : nc.Unread [])
    (hshown : nc.response = shownPiece nControl.response (u ++ d)) :
    Heeds control heard response₀ u₀ (done ++ [u ++ d]) [] nc w' where
  dir_eq := hdir
  handle_eq := hhandle
  unread := hunread
  pieces_eq v hv := by
    have htail := h.tail hd hline hroom
    rw [if_neg hne] at htail
    rw [hv hended, List.append_nil, htail]
    exact (List.append_nil _).symm
  ended _ := rfl
  whole he := by
    rw [hended] at he
    cases he
  shown := by rw [shownPieces_snoc, ← h.shown, hshown]

/-- In front of an error they are no piece that is read. -/
theorem Heeds.lines_error (h : Heeds control heard response₀ u₀ done u nControl w) {d : Bytes}
    (hd : Since heard w d w') (hended : (heard w').ended = (heard w).ended) (hline : LF ∉ u ++ d)
    (hroom : (u ++ d).length < LINE_MAX) : (heard w').lines u₀ = done := by
  rw [Heard.lines, hended, h.tail hd hline hroom]
  cases he : (heard w).ended with
  | true =>
    -- Behind the end of the stream nothing could have been received.
    rw [if_pos rfl, h.ended he, hd.ended he]
    exact List.append_nil done
  | false =>
    have hpart : ¬Whole (u ++ d) := by
      rintro (hlast | hfull)
      · exact hline (List.mem_of_getLast? hlast)
      · exact absurd hfull (Nat.ne_of_lt hroom)
    rw [if_neg Bool.false_ne_true, List.filter_append,
      List.filter_eq_self.mpr fun l hl => decide_eq_true (h.whole he l hl)]
    split
    · exact List.append_nil done
    · rw [List.filter_singleton, decide_eq_false hpart]
      exact List.append_nil done

/-- The end of one call of `readLine` for `response`. -/
inductive HeardPiece (control : Nat) (heard : W → Heard) (response₀ : Buffer RESPONSE_BUFFER_SIZE) (u₀ : Bytes)
    (done : List Bytes) : Int × NetBuf → W → Prop where
  | read {rv : Int} {nc : NetBuf} {l u : Bytes} {w' : W} (hrv : rv ≠ -1)
      (heeds : Heeds control heard response₀ u₀ (done ++ [l]) u nc w') :
      HeardPiece control heard response₀ u₀ done (rv, nc) w'
  | broken {nc : NetBuf} {w' : W} (hlines : (heard w').lines u₀ = done)
      (hshown : nc.response = shownPieces response₀ (pieces (u₀ ++ (heard w').bytes))) :
      HeardPiece control heard response₀ u₀ done (-1, nc) w'

theorem readResponseLine_hears (hE : Listens E control heard)
    (h : Heeds control heard response₀ u₀ done u nControl w) :
    wp E (fun _ _ => True) (readResponseLine nControl) (HeardPiece control heard response₀ u₀ done) w := by
  have hwait : socketWait nControl nControl = .ret (1, nControl) := by
    rw [socketWait, h.dir_eq]
    rfl
  have hfeeds := since_feeds hE w RESPONSE_BUFFER_SIZE u
  rw [← h.handle_eq] at hfeeds
  have hline := (readLine_bisim nControl.response nControl (by decide) (by simp [h.dir_eq]) h.unread).forth.wp
    (fetchLine_rule (by decide) hwait hfeeds ⟨⟨(List.append_nil _).symm, fun _ => rfl⟩, rfl⟩)
  refine hline.bind ?_
  rintro r w' ⟨l, hr, htook⟩
  refine wp_ret.mpr ?_
  have hsame := (NetBuf.Same.of_moved hr.moved).respond r.buffer
  have hunread : NetBuf.Unread { r.ctl with response := r.buffer } l.rest :=
    ⟨hr.unread.1, hr.unread.2, hr.unread.3⟩
  have hdir := hsame.dir_eq.trans h.dir_eq
  have hhandle := hsame.handle_eq.trans h.handle_eq
  have hbuffer := hr.buffer_eq
  rw [hr.retval_eq]
  -- One case for each ending of the line.
  cases htook with
  | @newline d init rest _ hG hsplit hline hne hlen =>
    obtain ⟨hd, hended⟩ := hG
    have hroom : init.length < LINE_MAX := by
      show init.length < RESPONSE_BUFFER_SIZE - 1
      omega
    have hpiece (s : Bytes) : pieces (init ++ [LF] ++ s) = (init ++ [LF]) :: pieces s := by
      rw [List.append_assoc, List.singleton_append]
      exact piecesFrom_line hline hroom s
    have hshown := shown_eq_shownPiece (l := ⟨.newline, init ++ [LF], rest, nControl⟩) nControl.response
      (by simp) (if_neg fun hfull => hfull.2 (by simp)).symm
    have hsplit : init ++ [LF] ++ rest = u ++ d := (List.append_assoc _ _ _).trans hsplit
    exact .read (by simp [Line.retval]) (h.read_whole hd hended hsplit (by simp) (.inl List.getLast?_concat)
      hpiece hdir hhandle hunread (hbuffer.trans hshown))
  | @full d text rest _ hG hsplit hline hlen =>
    obtain ⟨hd, hended⟩ := hG
    have hlen : text.length = LINE_MAX := Nat.eq_sub_of_add_eq hlen
    have hne : text ≠ [] := fun hnil => by rw [hnil] at hlen; cases hlen
    have hshown := shown_eq_shownPiece (l := ⟨.full, text, rest, nControl⟩) nControl.response hne
      (if_pos ⟨hlen, hline⟩).symm
    exact .read (by simp [Line.retval]) (h.read_whole hd hended hsplit hne (.inr hlen)
      (piecesFrom_full hline hne hlen) hdir hhandle hunread (hbuffer.trans hshown))
  | @eof d _ hG hline hlen =>
    obtain ⟨hd, hended⟩ := hG
    have hroom : (u ++ d).length < LINE_MAX := Nat.lt_sub_of_add_lt hlen
    rw [shown_tail _ (.inl rfl) hline hroom] at hbuffer
    -- Nothing before the end: the array still shows the piece read before.
    by_cases htext : u ++ d = []
    · have hretval : Line.retval ⟨.eof, u ++ d, [], nControl⟩ = -1 := if_pos htext
      rw [hretval]
      refine .broken ?_ (hbuffer.trans (h.shown_tail hd hline hroom).symm)
      rw [Heard.lines, hended, if_pos rfl, h.tail hd hline hroom, if_pos htext, List.append_nil]
    · have hretval : Line.retval ⟨.eof, u ++ d, [], nControl⟩ = (u ++ d).length := if_neg htext
      rw [if_neg htext] at hbuffer
      exact .read (by rw [hretval]; omega) (h.read_last hd hended hline hroom htext hdir hhandle hunread hbuffer)
  | @error d _ hG hline hlen =>
    obtain ⟨hd, hended⟩ := hG
    have hroom : (u ++ d).length < LINE_MAX := Nat.lt_sub_of_add_lt hlen
    rw [shown_tail _ (.inr rfl) hline hroom] at hbuffer
    exact .broken (h.lines_error hd hended hline hroom) (hbuffer.trans (h.shown_tail hd hline hroom).symm)

/-! ## A reply -/

/-- `k` replies have been read, and no part of the next. -/
structure Heeded (control : Nat) (heard : W → Heard) (response₀ : Buffer RESPONSE_BUFFER_SIZE) (u₀ : Bytes)
    (k : Nat) (nControl : NetBuf) (w : W) : Prop where
  reads : ∃ done u, Heeds control heard response₀ u₀ done u nControl w ∧
    ∀ rest, takeReplies k response₀ (done ++ rest) = some (nControl.response, rest)

theorem Heeded.start (hdir : nControl.dir = .control) (hhandle : nControl.handle = control)
    (hunread : nControl.Unread u) (hheard : heard w = ⟨[], false⟩) :
    Heeded control heard nControl.response u 0 nControl w :=
  ⟨[], u, .start hdir hhandle hunread hheard, fun _ => rfl⟩

variable {k : Nat}

theorem Heeded.dir_eq (h : Heeded control heard response₀ u₀ k nControl w) : nControl.dir = .control := by
  obtain ⟨done, u, hreads, -⟩ := h.reads
  exact hreads.dir_eq

theorem Heeded.congr (h : Heeded control heard response₀ u₀ k nControl w) (hheard : heard w' = heard w) :
    Heeded control heard response₀ u₀ k nControl w' := by
  obtain ⟨done, u, hreads, htakes⟩ := h.reads
  refine ⟨done, u, ⟨hreads.dir_eq, hreads.handle_eq, hreads.unread, ?_, ?_, ?_, hreads.shown⟩, htakes⟩
  · rw [hheard]
    exact hreads.pieces_eq
  · rw [hheard]
    exact hreads.ended
  · rw [hheard]
    exact hreads.whole

/-- The replies read are those in front of the stream. -/
theorem Heeded.takes (h : Heeded control heard response₀ u₀ k nControl w) :
    ∃ rest, takeReplies k response₀ ((heard w).lines u₀) = some (nControl.response, rest) := by
  obtain ⟨done, u, hreads, htakes⟩ := h.reads
  rw [hreads.lines_eq]
  exact ⟨_, htakes _⟩

/-- What `readResponse` makes of the stream behind `k` replies. -/
inductive HeardReply (control : Nat) (heard : W → Heard) (response₀ : Buffer RESPONSE_BUFFER_SIZE) (u₀ : Bytes)
    (k : Nat) (c : UInt8) : Int × NetBuf → W → Prop where
  | replied {nc : NetBuf} {w' : W} (h : Heeded control heard response₀ u₀ (k + 1) nc w') :
      HeardReply control heard response₀ u₀ k c (if nc.response.first = c then 1 else 0, nc) w'
  | broken {nc : NetBuf} {w' : W} (hnone : takeReplies (k + 1) response₀ ((heard w').lines u₀) = none)
      (hshown : nc.response = shownPieces response₀ (pieces (u₀ ++ (heard w').bytes))) :
      HeardReply control heard response₀ u₀ k c (0, nc) w'

/-- The first piece of a reply has been read, and `response` was `first` then; the reply goes on. -/
def Within (control : Nat) (heard : W → Heard) (response₀ : Buffer RESPONSE_BUFFER_SIZE) (u₀ : Bytes) (k : Nat)
    (first : Buffer RESPONSE_BUFFER_SIZE) (nControl : NetBuf) (w : W) : Prop :=
  ∃ done u, Heeds control heard response₀ u₀ done u nControl w ∧
    ∀ rest, takeReplies (k + 1) response₀ (done ++ rest) = takeCode (replyMatch first) nControl.response rest

/-- One pass through the loop of `readResponse`. -/
theorem readResponse_pass (hE : Listens E control heard) (c : UInt8) {first : Buffer RESPONSE_BUFFER_SIZE}
    (h : Within control heard response₀ u₀ k first nControl w) :
    wp E (fun _ _ => True)
      (do
        let (rv, nControl) ← readResponseLine nControl
        if rv = -1 then
          return Iter.done ((0 : Int), nControl)
        else if matches4 4 nControl.response.bytes (replyMatch first) then
          return .done (if nControl.response.first = c then 1 else 0, nControl)
        else
          return .next nControl)
      (Iter.post (Within control heard response₀ u₀ k first) (HeardReply control heard response₀ u₀ k c)) w := by
  obtain ⟨done, u, hreads, htakes⟩ := h
  refine (readResponseLine_hears hE hreads).bind ?_
  intro r w' hpiece
  cases hpiece with
  | broken hlines hshown =>
    refine wp_ret.mpr (.broken ?_ hshown)
    have hnone := htakes []
    rwa [List.append_nil, takeCode, ← hlines] at hnone
  | @read rv nc l u' _ hrv hreads' =>
    have hresponse : nc.response = shownPiece nControl.response l := by
      rw [hreads'.shown, shownPieces_snoc, hreads.shown]
    have htakes' : ∀ rest, takeReplies (k + 1) response₀ (done ++ [l] ++ rest) =
        if matches4 4 nc.response.bytes (replyMatch first) then some (nc.response, rest)
        else takeCode (replyMatch first) nc.response rest := by
      intro rest
      rw [List.append_assoc, htakes, List.singleton_append, takeCode, ← hresponse]
    dsimp only
    rw [if_neg hrv]
    split
    · next hmatch =>
      refine wp_ret.mpr (.replied ⟨done ++ [l], u', hreads', fun rest => ?_⟩)
      rw [htakes', if_pos hmatch]
    · next hmatch =>
      refine wp_ret.mpr ⟨done ++ [l], u', hreads', fun rest => ?_⟩
      rw [htakes', if_neg hmatch]

theorem readResponse_hears (hE : Listens E control heard) (c : UInt8)
    (h : Heeded control heard response₀ u₀ k nControl w) :
    wp E (fun _ _ => True) (readResponse c nControl) (HeardReply control heard response₀ u₀ k c) w := by
  obtain ⟨done, u, hreads, htakes⟩ := h.reads
  refine (readResponseLine_hears hE hreads).bind ?_
  intro r w' hpiece
  cases hpiece with
  | broken hlines hshown =>
    refine wp_ret.mpr (.broken ?_ hshown)
    have hnone := htakes []
    rw [List.append_nil, ← hlines] at hnone
    rw [takeReplies, hnone]
    rfl
  | @read rv nc l u' _ hrv hreads' =>
    have hresponse : nc.response = shownPiece nControl.response l := by
      rw [hreads'.shown, shownPieces_snoc, hreads.shown]
    have htakes' : ∀ rest, takeReplies (k + 1) response₀ (done ++ [l] ++ rest) =
        if nc.response.bytes[3]? = some 45 then takeCode (replyMatch nc.response) nc.response rest
        else some (nc.response, rest) := by
      intro rest
      rw [takeReplies, List.append_assoc, htakes, Option.bind_some, List.singleton_append]
      dsimp only
      rw [takeReply, ← hresponse]
    dsimp only
    rw [if_neg hrv]
    -- The fourth byte decides, whichever piece it is from.
    split
    · next hdash =>
      refine wp_forever (Within control heard response₀ u₀ k nc.response) ⟨done ++ [l], u', hreads', fun rest => ?_⟩
        fun _ _ h => readResponse_pass hE c h
      rw [htakes', if_pos hdash]
    · next hdash =>
      refine wp_ret.mpr (.replied ⟨done ++ [l], u', hreads', fun rest => ?_⟩)
      rw [htakes', if_neg hdash]

/-- What `sendCommand` makes of it: the command was not sent, or `readResponse` has answered. -/
theorem sendCommand_hears (cmd : Bytes) (c : UInt8) {Q : Int × NetBuf → W → Prop}
    (h : Heeded control heard response₀ u₀ k nControl w)
    (hrefused : Q (0, nControl) w)
    (hunsent : ∀ r w', (r = none ∨ ∃ x ∈ r, x.1 = 0) → E w (.send nControl.handle (cmd ++ [CR, LF])) r w' →
      Q (0, nControl) w')
    (hsent : ∀ x w', x.1 ≠ 0 → E w (.send nControl.handle (cmd ++ [CR, LF])) (some x) w' →
      wp E (fun _ _ => True) (readResponse c nControl) Q w') :
    wp E (fun _ _ => True) (sendCommand cmd c nControl) Q w := by
  rw [sendCommand.eq_def, if_neg (not_not_intro h.dir_eq)]
  split
  · exact wp_ret.mpr hrefused
  · refine wp_bind.mpr (wp_perform.mpr ⟨trivial, ?_⟩)
    intro r w' hr
    cases r with
    | none => exact wp_ret.mpr (hunsent none w' (.inl rfl) hr)
    | some x =>
      dsimp only
      split
      · next hzero => exact wp_ret.mpr (hunsent (some x) w' (.inr ⟨x, rfl, hzero⟩) hr)
      · next hzero => exact hsent x w' hzero hr

end

end Ftp
