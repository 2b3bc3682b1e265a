import DataBridge.Sftp.Download

/-!
# The download delivers the file in order

`Windowed start` is the invariant of a download whose next byte is at `start`:
the pending ranges cover the file from there to the next request without gaps,
each with a reply the server may give, and the window bounds what is in flight.
`Download.read_wp` follows one call; `Download.calls_wp` and
`Download.drain_wp` are the runs.
-/

namespace DataBridge

open Effect Routine

/-- The ranges follow each other from `start` to `stop`. -/
def Covers : Nat → List (Nat × Nat × Nat) → Nat → Prop
  | start, [], stop => start = stop
  | start, (_, offset, length) :: rest, stop =>
    offset = start ∧ 0 < length ∧ length ≤ requestSize ∧ Covers (start + length) rest stop

theorem Covers.le {start stop : Nat} {pending : List (Nat × Nat × Nat)}
    (h : Covers start pending stop) : start ≤ stop := by
  induction pending generalizing start with
  | nil => exact le_of_eq h
  | cons p rest ih =>
    obtain ⟨-, positive, -, covers⟩ := h
    have := ih covers
    omega

/-- A range after the last one. -/
theorem Covers.concat {start stop number length : Nat} {pending : List (Nat × Nat × Nat)}
    (h : Covers start pending stop) (positive : 0 < length) (small : length ≤ requestSize) :
    Covers start (pending ++ [(number, stop, length)]) (stop + length) := by
  induction pending generalizing start with
  | nil =>
    obtain rfl : start = stop := h
    exact ⟨rfl, positive, small, rfl⟩
  | cons p rest ih =>
    obtain ⟨offset, positive', small', covers⟩ := h
    exact ⟨offset, positive', small', ih covers⟩

/-- A download whose next byte not yet received is at `start`. -/
structure Windowed (d : Download) (content : Bytes) (start : Nat) (s : DownloadState)
    (net : Net Unit) : Prop where
  covers : Covers start s.pending s.nextOffset
  bounded : s.nextOffset ≤ d.size
  fits : s.pending.length ≤ d.window
  heard : s.requests.ignored = []
  replies : ∃ m, List.Forall₂ (fun q p => p.1 = q.1 ∧ ReadReply content q.2.1 q.2.2 p.2)
    s.pending m ∧ Outstanding m s.requests net

/-- No more than the window is in flight. -/
def InWindow (d : Download) (net : Net Unit) : Prop := net.flying.length ≤ d.window

/-- The server answers every READ, and the transport does not fail. -/
abbrev download (d : Download) (content : Bytes) : Setting Wire (Net Unit) :=
  wire (readServer content) (fun _ => False) (InWindow d)

theorem inWindow_passive {fault : Exc → Prop} (d : Download) : Passive fault (InWindow d) where
  deliver _ _ fits := le_trans List.length_erase_le fits
  fail _ _ _ fits := fits

theorem readReply_exists (content : Bytes) (offset : Nat) {length : Nat} (positive : 0 < length) :
    ∃ reply, ReadReply content offset length reply := by
  by_cases inside : offset < content.length
  · refine ⟨⟨.data, stringField ((content.drop offset).take 1)⟩,
      .data ?_ ?_ (List.take_prefix ..)⟩
    · intro empty
      have := congrArg List.length empty
      simp at this
      omega
    · simp
      omega
  · exact ⟨_, .eof (by omega) ⟨[], [], by simp, by decide, rfl⟩⟩

section Rules

variable {d : Download} {content : Bytes} {start : Nat} {s : DownloadState} {net : Net Unit}
  {m : List (Nat × Reply)}

/-- One more READ is sent when the window has room for it. -/
theorem Download.request_wp {offset length : Nat} (positive : 0 < length)
    (out : Outstanding m s.requests net) (heard : s.requests.ignored = [])
    (room : m.length < d.window) :
    (Download.request d offset length).Wp (download d content)
      (Post (fun q s' net' => s' = s ∧ q = (net.log.length, offset, length) ∧ InWindow d net' ∧
          ∃ reply, ReadReply content offset length reply ∧
            Outstanding (m ++ [(net.log.length, reply)]) s.requests net')
        fun _ _ _ => False) s net := by
  refine .bind (P := Post (fun n s' net' => s' = s ∧ n = net.log.length ∧ InWindow d net' ∧
      ∃ reply, ReadReply content offset length reply ∧
        Outstanding (m ++ [(net.log.length, reply)]) s.requests net') fun _ _ _ => False)
    (.zoom (send_wp ?_ ?_ ?_ ?_)) ?_ fun _ _ _ impossible => impossible.elim
  · obtain ⟨reply, answer⟩ := readReply_exists content offset positive
    exact .inl ⟨reply, (), answer⟩
  · intro reply _ answer
    have posted : InWindow d (net.post (.read d.handle offset length) reply ()) := by
      refine le_trans (out.post.flying_le heard) ?_
      rw [List.length_append, List.length_singleton]
      omega
    exact ⟨posted, Setting.settled_alone.mpr ⟨rfl, rfl, posted, reply, answer, out.post⟩⟩
  · exact fun _ _ impossible => impossible.elim
  · exact fun unencodable => absurd (fun _ none => nomatch none) unencodable
  · rintro n s net' ⟨rfl, rfl, rest⟩
    exact .pure (Setting.settled_alone.mpr ⟨rfl, rfl, rest⟩)

/-- Filling the window keeps the invariant, and leaves something to wait for. -/
theorem Download.fill_window_wp (window : 0 < d.window) (h : Windowed d content start s net)
    (inside : start < d.size) (start_K : InWindow d net) :
    (Routine.iterate (fun _ => Download.requestNext d) ()).Wp (download d content)
      (Post (fun _ s' net' => Windowed d content start s' net' ∧ InWindow d net' ∧
          s'.leftover = s.leftover ∧ s'.pending ≠ []) fun _ _ _ => False) s net := by
  refine .iterate (I := fun n _ s' net' => Windowed d content start s' net' ∧ InWindow d net' ∧
    s'.leftover = s.leftover ∧ d.size - s'.nextOffset = n) ?_ ⟨h, start_K, rfl, rfl⟩
  rintro n _ s' net' ⟨windowed, inv, same, rfl⟩
  rw [Download.requestNext, Wp.fields_bind]
  obtain ⟨m, paired, out⟩ := windowed.replies
  split
  · rename_i more
    obtain ⟨room, unrequested⟩ := more
    have positive : 0 < min requestSize (d.size - s'.nextOffset) :=
      lt_min (by decide) (by omega)
    refine .bind (Download.request_wp positive out windowed.heard (by rwa [← paired.length_eq])) ?_
      fun _ _ _ impossible => impossible.elim
    rintro _ _ net'' ⟨rfl, rfl, inv, reply, answer, out⟩
    rw [Wp.modify_bind]
    refine .pure (Setting.settled_alone.mpr (Setting.settled_alone.mpr
      ⟨_, ?_, ⟨?_, ?_, ?_, windowed.heard, ?_⟩, inv, same, rfl⟩))
    · simp only
      omega
    · exact windowed.covers.concat positive (min_le_left ..)
    · simp only
      omega
    · rw [List.length_append, List.length_singleton]
      exact room
    · exact ⟨_, List.rel_append paired (.cons ⟨rfl, answer⟩ .nil), out⟩
  · rename_i enough
    refine .pure (Setting.settled_alone.mpr (Setting.settled_alone.mpr
      ⟨windowed, inv, same, fun empty => ?_⟩))
    have covers := windowed.covers
    rw [empty] at covers
    obtain rfl : start = s'.nextOffset := covers
    exact enough ⟨by rw [empty]; exact window, inside⟩

/-- What `receiveData` makes of a reply before its handler. -/
theorem parse_readReply {reply : Reply} {offset length : Nat}
    (answer : ReadReply content offset length reply) (small : length ≤ requestSize) :
    (∃ data, (accept .data (stash reply) >>= Reader.parse Reader.string) = .ok data ∧
      data ≠ [] ∧ data.length ≤ length ∧ data <+: content.drop offset) ∨
    ((accept .data (stash reply) >>= Reader.parse Reader.string) = .error (.status sftpEof) ∧
      content.length ≤ offset) := by
  cases answer with
  | @data bytes nonempty short inFile =>
    left
    have size : bytes.length ≤ 32768 := le_trans short small
    have fits : (stringField bytes).length + 4 ≤ maxReply := by
      simp only [stringField, List.length_append, length_bigEndian, maxReply]
      omega
    have parsed : Reader.string (stringField bytes) = .ok (bytes, []) := by
      have : Reader.string (stringField bytes ++ []) = .ok (bytes, []) :=
        Reader.string_append (by omega)
      rwa [List.append_nil] at this
    refine ⟨bytes, ?_, nonempty, short, inFile⟩
    rw [accept_result (by decide) fits]
    simp only [bind, Except.bind, Reader.parse, parsed, Except.map]
  | eof past status =>
    right
    rw [accept_failure status (by decide) (by decide)]
    exact ⟨rfl, past⟩

/-- The reply to a READ is data, or no bytes at the end of the file. -/
theorem Download.receiveData_wp {p : Nat × Reply} {offset length : Nat} (out : Outstanding m s.requests net)
    (member : p ∈ m) (answer : ReadReply content offset length p.2) (small : length ≤ requestSize)
    (heard : s.requests.ignored = []) (start_K : InWindow d net) :
    (Download.receiveData p.1).Wp (download d content)
      (Post (fun data s' net' => InWindow d net' ∧ data.length ≤ length ∧
          data <+: content.drop offset ∧ (data = [] → content.length ≤ offset) ∧
          Outstanding (m.erase p) s'.requests net' ∧ s'.requests.ignored = [] ∧
          s' = { s with requests := s'.requests })
        fun _ _ _ => False) s net := by
  -- What is left after the reply was taken.
  let Taken := fun (s' : DownloadState) (net' : Net Unit) => InWindow d net' ∧
    Outstanding (m.erase p) s'.requests net' ∧ s'.requests.ignored = [] ∧
    s' = { s with requests := s'.requests }
  refine .catching (P := fun r s' net' => Taken s' net' ∧
    r = accept .data (stash p.2) >>= Reader.parse Reader.string) ?_ ?_ ?_
  · refine .bind (P := fun r s' net' => Taken s' net' ∧ r = accept .data (stash p.2))
      (.zoom ((receive_wp (inWindow_passive d) out member start_K).mono ?_)) ?_ ?_
    · rintro r rs' net' ⟨inv, ⟨rfl, rest, waiting⟩ | ⟨_, _, impossible, _⟩⟩
      · have heard' : rs'.ignored = [] := List.subset_nil.mp (heard ▸ waiting.ignored)
        exact Setting.settled_alone.mpr ⟨⟨inv, rest, heard', rfl⟩, rfl⟩
      · exact impossible.elim
    · rintro payload s' net' ⟨taken, accepted⟩
      refine .ofExcept (Setting.settled_alone.mpr ⟨taken, ?_⟩)
      rw [← accepted]
      rfl
    · rintro e s' net' ⟨taken, accepted⟩
      refine Setting.settled_alone.mpr ⟨taken, ?_⟩
      rw [← accepted]
      rfl
  · rintro data s' net' ⟨⟨inv, rest⟩, parsed⟩
    refine Setting.settled_alone.mpr ?_
    rcases parse_readReply answer small with ⟨_, result, nonempty, short, inFile⟩ | ⟨result, _⟩
    · obtain rfl := Except.ok.inj (parsed.trans result)
      exact ⟨inv, short, inFile, fun empty => absurd empty nonempty, rest⟩
    · cases parsed.trans result
  · rintro e s' net' ⟨⟨inv, rest⟩, parsed⟩
    rcases parse_readReply answer small with ⟨_, result, -⟩ | ⟨result, past⟩
    · cases parsed.trans result
    · obtain rfl := Except.error.inj (parsed.trans result)
      rw [if_pos rfl]
      exact .pure (Setting.settled_alone.mpr
        ⟨inv, Nat.zero_le _, List.nil_prefix, fun _ => past, rest⟩)

/-- The next range of the file arrives, or the file has ended there. -/
theorem Download.nextReply_wp (window : 0 < d.window) (h : Windowed d content start s net)
    (inside : start < d.size) (start_K : InWindow d net) :
    (Download.nextReply d).Wp (download d content)
      (Post (fun data s' net' => InWindow d net' ∧ data ≠ [] ∧ data <+: content.drop start ∧
          Windowed d content (start + data.length) s' net' ∧ s'.leftover = s.leftover)
        fun e s' net' => InWindow d net' ∧ e = sourceChanged d.name ∧ content.length ≤ start ∧
          (∃ later, start ≤ later ∧ Windowed d content later s' net') ∧
          s'.leftover = s.leftover) s net := by
  refine .bind (Download.fill_window_wp window h inside start_K) ?_ fun _ _ _ impossible => impossible.elim
  rintro _ s₁ net₁ ⟨⟨covers, bounded, fits, heard, m, paired, out⟩, inv, same, waiting⟩
  rw [Wp.fields_bind]
  split
  · rename_i empty
    exact absurd empty waiting
  rename_i number offset length pending first
  rw [first] at covers fits paired
  obtain ⟨rfl, positive, small, covers⟩ := covers
  -- The reply paired with the first range is the first of the outstanding ones.
  obtain ⟨p, m', ⟨rfl, answer⟩, tail, rfl⟩ := List.forall₂_cons_left_iff.mp paired
  rw [Wp.modify_bind]
  refine .bind (Download.receiveData_wp out List.mem_cons_self answer small heard inv) ?_
    fun _ _ _ impossible => impossible.elim
  rintro data s₂ net₂ ⟨inv, short, inFile, ended, out, heard, unchanged⟩
  rw [List.erase_cons_head] at out
  have pending₂ : s₂.pending = pending := by rw [unchanged]
  have next₂ : s₂.nextOffset = s₁.nextOffset := by rw [unchanged]
  have leftover₂ : s₂.leftover = s.leftover := by rw [unchanged, same]
  rw [← pending₂, ← next₂] at covers
  rw [← pending₂] at tail
  rw [← next₂] at bounded
  rw [List.length_cons, ← pending₂] at fits
  split
  · rename_i empty
    have rest : Windowed d content (offset + length) s₂ net₂ :=
      ⟨covers, bounded, by omega, heard, m', tail, out⟩
    exact .raise (Setting.settled_alone.mpr
      ⟨inv, rfl, ended empty, ⟨_, Nat.le_add_right .., rest⟩, leftover₂⟩)
  rename_i nonempty
  have received : 0 < data.length := List.length_pos_of_ne_nil nonempty
  rw [if_neg (Nat.not_lt.mpr short)]
  split
  · rename_i shorter
    have room : m'.length < d.window := by rw [← tail.length_eq]; omega
    refine .bind (Download.request_wp (by omega) out heard room) ?_ fun _ _ _ impossible => impossible.elim
    rintro _ s₃ net₃ ⟨rfl, rfl, inv, reply, answer, out⟩
    rw [Wp.modify_bind]
    refine .pure (Setting.settled_alone.mpr
      ⟨inv, nonempty, inFile, ⟨⟨rfl, by omega, by omega, ?_⟩, bounded, fits, heard,
        _ :: m', .cons ⟨rfl, answer⟩ tail, out.perm List.perm_append_comm⟩, leftover₂⟩)
    rw [show offset + data.length + (length - data.length) = offset + length by omega]
    exact covers
  · rename_i whole
    have all : data.length = length := le_antisymm short (by omega)
    exact .pure (Setting.settled_alone.mpr ⟨inv, nonempty, inFile,
      ⟨all ▸ covers, bounded, by omega, heard, m', tail, out⟩, leftover₂⟩)

/-- A download that has delivered the file up to `pos`. -/
structure Delivering (d : Download) (content : Bytes) (pos : Nat) (s : DownloadState)
    (net : Net Unit) : Prop where
  leftover : s.leftover <+: content.drop pos
  windowed : Windowed d content (pos + s.leftover.length) s net
  inWindow : InWindow d net

theorem prefix_drop_append {a b bytes : Bytes} {pos : Nat} (first : a <+: bytes.drop pos)
    (second : b <+: bytes.drop (pos + a.length)) : a ++ b <+: bytes.drop pos := by
  obtain ⟨rest, whole⟩ := first
  have later : bytes.drop (pos + a.length) = rest := by
    rw [← List.drop_drop, ← whole, List.drop_left]
  rw [← whole]
  exact (List.prefix_append_right_inj a).mpr (later ▸ second)

theorem prefix_drop_split {a bytes : Bytes} {pos count : Nat} (h : a <+: bytes.drop pos) :
    a.drop count <+: bytes.drop (pos + (a.take count).length) := by
  obtain ⟨rest, whole⟩ := h
  have split : a ++ rest = a.take count ++ (a.drop count ++ rest) := by
    rw [← List.append_assoc, List.take_append_drop]
  refine ⟨rest, ?_⟩
  rw [← List.drop_drop, ← whole, split, List.drop_left]

/-- After a refill, the next bytes of the file are left over. -/
theorem Download.refill_wp {pos : Nat} (window : 0 < d.window) (h : Delivering d content pos s net)
    (more : s.leftover ≠ [] ∨ s.pending ≠ [] ∨ s.nextOffset < d.size) :
    (Download.refill d).Wp (download d content)
      (Post (fun _ s' net' => Delivering d content pos s' net' ∧ s'.leftover ≠ [])
        fun e s' net' => e = sourceChanged d.name ∧ content.length ≤ pos ∧ content.length < d.size ∧
          ∃ later, pos ≤ later ∧ Delivering d content later s' net') s net := by
  obtain ⟨leftover, windowed, inWindow⟩ := h
  rw [Download.refill, Wp.fields_bind]
  split
  · rename_i empty
    rw [empty, List.length_nil, Nat.add_zero] at windowed
    have inside : pos < d.size := by
      rcases more with leftover | pending | unrequested
      · exact absurd empty leftover
      · have covers := windowed.covers
        have bounded := windowed.bounded
        obtain ⟨p, rest, first⟩ := List.exists_cons_of_ne_nil pending
        rw [first] at covers
        obtain ⟨-, positive, -, covers⟩ := covers
        have := covers.le
        omega
      · exact lt_of_le_of_lt windowed.covers.le unrequested
    refine .bind (Download.nextReply_wp window windowed inside inWindow) ?_ ?_
    · rintro data s' net' ⟨inv, nonempty, inFile, windowed, -⟩
      exact .modify (Setting.settled_alone.mpr
        ⟨⟨inFile, ⟨windowed.covers, windowed.bounded, windowed.fits, windowed.heard,
          windowed.replies⟩, inv⟩, nonempty⟩)
    · rintro e s' net' ⟨inv, rfl, past, ⟨later, after, windowed⟩, same⟩
      have none : s'.leftover = [] := same.trans empty
      refine Setting.settled_alone.mpr ⟨rfl, past, lt_of_le_of_lt past inside, later, after, ?_⟩
      refine ⟨none ▸ List.nil_prefix, ?_, inv⟩
      rwa [none, List.length_nil, Nat.add_zero]
  · rename_i nonempty
    exact .pure (Setting.settled_alone.mpr ⟨⟨leftover, windowed, inWindow⟩, nonempty⟩)

/-- One call returns the next bytes, fewer than asked only at the end, or finds
that the file has become shorter. -/
theorem Download.read_wp {pos wanted : Nat} (window : 0 < d.window) (h : Delivering d content pos s net) :
    (Download.read d wanted).Wp (download d content)
      (Post (fun bytes s' net' => bytes <+: content.drop pos ∧ bytes.length ≤ wanted ∧
          pos + bytes.length ≤ d.size ∧ (bytes.length < wanted → pos + bytes.length = d.size) ∧
          Delivering d content (pos + bytes.length) s' net')
        fun e s' net' => e = sourceChanged d.name ∧ content.length < pos + wanted ∧
          content.length < d.size ∧
          ∃ later, pos ≤ later ∧ content.length ≤ later ∧ Delivering d content later s' net')
      s net := by
  refine withFailures_wp ?_
  refine .iterate (I := fun n (buffer : Bytes) s' net' => buffer <+: content.drop pos ∧
    buffer.length ≤ wanted ∧ Delivering d content (pos + buffer.length) s' net' ∧
    wanted - buffer.length = n) ?_ ⟨List.nil_prefix, Nat.zero_le _, h, rfl⟩
  rintro n buffer s net ⟨inFile, room, delivering, rfl⟩
  have reached : pos + buffer.length ≤ d.size :=
    le_trans (Nat.le_add_right ..) (delivering.windowed.covers.le.trans delivering.windowed.bounded)
  rw [Download.readMore, Wp.fields_bind]
  split
  · rename_i continues
    refine .bind (Download.refill_wp window delivering continues.2) ?_ ?_
    · rintro _ s' net' ⟨⟨leftover, windowed, inWindow⟩, nonempty⟩
      rw [Wp.fields_bind, Wp.modify_bind]
      have received := List.length_pos_of_ne_nil nonempty
      have taken := (List.take_prefix (wanted - buffer.length) s'.leftover).trans leftover
      have split := congrArg List.length
        (List.take_append_drop (wanted - buffer.length) s'.leftover)
      rw [List.length_append] at split
      have short := List.length_take_le (wanted - buffer.length) s'.leftover
      have progress : 0 < (s'.leftover.take (wanted - buffer.length)).length := by
        rw [List.length_take]
        omega
      refine .pure (Setting.settled_alone.mpr (Setting.settled_alone.mpr
        ⟨_, ?_, prefix_drop_append inFile taken, ?_, ⟨?_, ?_, inWindow⟩, rfl⟩))
      · rw [List.length_append]
        omega
      · rw [List.length_append]
        omega
      · rw [List.length_append, ← Nat.add_assoc]
        exact prefix_drop_split leftover
      · rw [List.length_append, ← Nat.add_assoc, Nat.add_assoc _ _ (List.length (List.drop ..)),
          split]
        exact ⟨windowed.covers, windowed.bounded, windowed.fits, windowed.heard, windowed.replies⟩
    · rintro e s' net' ⟨rfl, past, shrunk, later, after, delivering⟩
      refine Setting.settled_alone.mpr (Setting.settled_alone.mpr (Setting.settled_alone.mpr
        ⟨rfl, by omega, shrunk, later, by omega, by omega, delivering⟩))
  · rename_i done
    refine .pure (Setting.settled_alone.mpr (Setting.settled_alone.mpr
      (Setting.settled_alone.mpr ⟨inFile, room, reached, fun short => ?_, delivering⟩)))
    -- Nothing is left over, pending or unrequested, so the end is reached.
    have covers := delivering.windowed.covers
    have none : s.leftover = [] := by_contra fun leftover => done ⟨short, .inl leftover⟩
    have idle : s.pending = [] := by_contra fun pending => done ⟨short, .inr (.inl pending)⟩
    have requested : ¬s.nextOffset < d.size := fun unrequested =>
      done ⟨short, .inr (.inr unrequested)⟩
    rw [idle, none] at covers
    have : pos + buffer.length = s.nextOffset := covers
    omega

end Rules

/-! ## Whole runs -/

/-- What a reader with one request in flight sees of the first `size` bytes of a
file, from `pos` on and up to the first call that raises. -/
def sequentialReads (content : Bytes) (size : Nat) (name : Text) :
    Nat → List Nat → List (Except Exc Bytes)
  | _, [] => []
  | pos, wanted :: sizes =>
    if size ≤ content.length ∨ pos + wanted ≤ content.length then
      .ok (((content.take size).drop pos).take wanted) ::
        sequentialReads content size name (min (pos + wanted) size) sizes
    else [.error (sourceChanged name)]

/-- What a caller of `read` may see, call by call. -/
inductive Reads (content : Bytes) (size : Nat) (name : Text) :
    Nat → List Nat → List (Except Exc Bytes) → Prop
  | nil {pos : Nat} : Reads content size name pos [] []
  | ok {pos wanted : Nat} {bytes : Bytes} {sizes : List Nat} {rest : List (Except Exc Bytes)} :
    bytes <+: content.drop pos → bytes.length ≤ wanted → pos + bytes.length ≤ size →
    (bytes.length < wanted → pos + bytes.length = size) →
    Reads content size name (pos + bytes.length) sizes rest →
    Reads content size name pos (wanted :: sizes) (.ok bytes :: rest)
  | error {pos wanted later : Nat} {sizes : List Nat} {rest : List (Except Exc Bytes)} :
    content.length < pos + wanted → content.length < size → pos ≤ later →
    content.length ≤ later → Reads content size name later sizes rest →
    Reads content size name pos (wanted :: sizes) (.error (sourceChanged name) :: rest)

section Runs

variable {d : Download} {content : Bytes} {s : DownloadState} {net : Net Unit} {pos : Nat}

theorem Download.calls_wp (window : 0 < d.window) (sizes : List Nat)
    (h : Delivering d content pos s net) :
    (Download.calls d sizes).Wp (download d content)
      (Post (fun outcomes _ _ => Reads content d.size d.name pos sizes outcomes)
        fun _ _ _ => False) s net := by
  induction sizes generalizing pos s net with
  | nil => exact .pure (Setting.settled_alone.mpr .nil)
  | cons wanted sizes ih =>
    refine .bind (P := Post (fun outcome s' net' => ∃ later, Delivering d content later s' net' ∧
        ∀ outcomes, Reads content d.size d.name later sizes outcomes →
          Reads content d.size d.name pos (wanted :: sizes) (outcome :: outcomes))
        fun _ _ _ => False) ?_ ?_ fun _ _ _ impossible => impossible.elim
    · refine .catching (P := Post (fun (outcome : Except Exc Bytes) s' net' =>
          ∃ bytes, outcome = .ok bytes ∧ bytes <+: content.drop pos ∧ bytes.length ≤ wanted ∧
            pos + bytes.length ≤ d.size ∧ (bytes.length < wanted → pos + bytes.length = d.size) ∧
            Delivering d content (pos + bytes.length) s' net')
          fun e s' net' => e = sourceChanged d.name ∧ content.length < pos + wanted ∧
            content.length < d.size ∧
            ∃ later, pos ≤ later ∧ content.length ≤ later ∧ Delivering d content later s' net')
        ?_ ?_ ?_
      · refine .bind (Download.read_wp window h) ?_ fun e s' net' raised => Setting.settled_alone.mpr raised
        exact fun bytes s' net' read => .pure (Setting.settled_alone.mpr ⟨bytes, rfl, read⟩)
      · rintro _ s' net' ⟨bytes, rfl, inFile, room, inside, short, delivering⟩
        exact Setting.settled_alone.mpr ⟨_, delivering, fun _ rest =>
          .ok inFile room inside short rest⟩
      · rintro e s' net' ⟨rfl, past, shrunk, later, after, ended, delivering⟩
        exact .pure (Setting.settled_alone.mpr ⟨later, delivering, fun _ rest =>
          .error past shrunk after ended rest⟩)
    · rintro outcome s' net' ⟨later, delivering, chain⟩
      refine .bind (ih delivering) (fun outcomes _ _ reads => ?_)
        fun _ _ _ impossible => impossible.elim
      exact .pure (Setting.settled_alone.mpr (chain outcomes reads))

/-- A call after the file was found to be shorter raises again or is at the end. -/
theorem Reads.after_error {size : Nat} {name : Text} {sizes : List Nat}
    {outcomes : List (Except Exc Bytes)} (reads : Reads content size name pos sizes outcomes)
    (past : content.length ≤ pos) :
    ∀ o ∈ outcomes, o = .error (sourceChanged name) ∨ o = .ok [] := by
  induction reads with
  | nil => exact fun _ member => (List.not_mem_nil member).elim
  | @ok pos _ bytes _ _ inFile _ _ _ _ ih =>
    have none : bytes = [] := by
      rw [List.drop_eq_nil_of_le past] at inFile
      exact List.prefix_nil.mp inFile
    subst none
    intro o member
    rcases List.mem_cons.mp member with rfl | member
    · exact .inr rfl
    · exact ih past o member
  | error _ _ _ later _ ih =>
    intro o member
    rcases List.mem_cons.mp member with rfl | member
    · exact .inl rfl
    · exact ih later o member

theorem Reads.length_eq {size : Nat} {name : Text} {sizes : List Nat}
    {outcomes : List (Except Exc Bytes)} (reads : Reads content size name pos sizes outcomes) :
    outcomes.length = sizes.length := by
  induction reads with
  | nil => rfl
  | ok _ _ _ _ _ ih => exact congrArg Nat.succ ih
  | error _ _ _ _ _ ih => exact congrArg Nat.succ ih

/-- The calls up to the first that raises are those of the sequential reader. -/
theorem Reads.sequential {size : Nat} {name : Text} {sizes : List Nat}
    {outcomes : List (Except Exc Bytes)} (reads : Reads content size name pos sizes outcomes)
    (within : pos ≤ content.length) (positive : ∀ n ∈ sizes, 0 < n) :
    ∃ rest, outcomes = sequentialReads content size name pos sizes ++ rest ∧
      ∀ o ∈ rest, o = .error (sourceChanged name) ∨ o = .ok [] := by
  induction reads with
  | nil => exact ⟨[], rfl, fun _ member => (List.not_mem_nil member).elim⟩
  | @ok pos wanted bytes sizes outcomes inFile room inside short _ ih =>
    have asked : 0 < wanted := positive wanted List.mem_cons_self
    have available : bytes.length ≤ content.length - pos := by
      rw [← List.length_drop]
      exact inFile.length_le
    obtain ⟨rest, same, later⟩ := ih (by omega) fun n member =>
      positive n (List.mem_cons_of_mem _ member)
    refine ⟨rest, ?_, later⟩
    have reached : size ≤ content.length ∨ pos + wanted ≤ content.length := by
      rcases Nat.lt_or_ge bytes.length wanted with few | all
      · have := short few
        omega
      · omega
    have next : min (pos + wanted) size = pos + bytes.length := by
      rcases Nat.lt_or_ge bytes.length wanted with few | all
      · have := short few
        omega
      · omega
    have chunk : ((content.take size).drop pos).take wanted = bytes := by
      rw [List.drop_take, List.take_take, List.prefix_iff_eq_take.mp inFile]
      congr 1
      rcases Nat.lt_or_ge bytes.length wanted with few | all
      · have := short few
        omega
      · omega
    rw [sequentialReads, if_pos reached, next, chunk, List.cons_append, same]
  | @error pos wanted later sizes rest past shrunk after ended reads ih =>
    have unreached : ¬(size ≤ content.length ∨ pos + wanted ≤ content.length) := by omega
    refine ⟨rest, ?_, reads.after_error ended⟩
    rw [sequentialReads, if_neg unreached]
    rfl

/-- Draining ends with the first `size` bytes, or finds the file shorter. -/
theorem Download.drain_wp {wanted : Nat} (window : 0 < d.window) (asked : 0 < wanted)
    (h : Delivering d content 0 s net) :
    (Download.drain d wanted).Wp (download d content)
      (Post (fun all _ _ => d.size ≤ content.length ∧ all = content.take d.size)
        fun e _ _ => e = sourceChanged d.name ∧ content.length < d.size) s net := by
  refine .iterate (I := fun n (all : Bytes) s' net' => all <+: content ∧ all.length ≤ d.size ∧
    Delivering d content all.length s' net' ∧ d.size - all.length = n) ?_
    ⟨List.nil_prefix, Nat.zero_le _, h, rfl⟩
  rintro n all s net ⟨inFile, inside, delivering, rfl⟩
  refine .bind (Download.read_wp window delivering) ?_ ?_
  · rintro bytes s' net' ⟨next, room, bounded, short, delivering⟩
    split
    · rename_i empty
      subst empty
      have reached : all.length = d.size := short asked
      refine .pure (Setting.settled_alone.mpr (Setting.settled_alone.mpr ⟨?_, ?_⟩))
      · rw [← reached]
        exact inFile.length_le
      · rw [← reached]
        exact List.prefix_iff_eq_take.mp inFile
    · rename_i nonempty
      have progress := List.length_pos_of_ne_nil nonempty
      refine .pure (Setting.settled_alone.mpr (Setting.settled_alone.mpr
        ⟨_, ?_, ?_, ?_, ?_, rfl⟩))
      · rw [List.length_append]
        omega
      · have whole : all <+: content.drop 0 := by rwa [List.drop_zero]
        have after : bytes <+: content.drop (0 + all.length) := by rwa [Nat.zero_add]
        have both := prefix_drop_append whole after
        rwa [List.drop_zero] at both
      · rw [List.length_append]
        exact bounded
      · rw [List.length_append]
        exact delivering
  · rintro e s' net' ⟨rfl, -, shrunk, -⟩
    exact Setting.settled_alone.mpr (Setting.settled_alone.mpr ⟨rfl, shrunk⟩)

end Runs

/-- A connection over which nothing has been requested. -/
def freshNet : Net Unit := { server := () }

theorem delivering_start (d : Download) (content : Bytes) :
    Delivering d content 0 {} freshNet where
  leftover := List.nil_prefix
  windowed := {
    covers := rfl
    bounded := Nat.zero_le _
    fits := Nat.zero_le _
    heard := rfl
    replies := ⟨[], .nil, .nil⟩ }
  inWindow := Nat.zero_le _

/-- The pipelined download delivers what the sequential reader delivers, call by
call and when it is drained, and never has more requests in flight than its
window, which is `WINDOW` in the source and 1 in the sequential reader. -/
theorem Download.delivers (content : Bytes) (d : Download) (window : 0 < d.window)
    (sizes : List Nat) (positive : ∀ n ∈ sizes, 0 < n) (wanted : Nat) (asked : 0 < wanted) :
    Prog.Ends (Wire.sem (readServer content) fun _ => False) (d.calls sizes {}) freshNet
      (fun r _ => ∃ outcomes, r.1 = .ok outcomes ∧ outcomes.length = sizes.length ∧
        ∃ rest, outcomes = sequentialReads content d.size d.name 0 sizes ++ rest ∧
          ∀ o ∈ rest, o = .error (sourceChanged d.name) ∨ o = .ok []) ∧
    (∀ c, Prog.Reach (Wire.sem (readServer content) fun _ => False) (d.calls sizes {}, freshNet) c →
      c.2.flying.length ≤ d.window) ∧
    Prog.Ends (Wire.sem (readServer content) fun _ => False) (d.drain wanted {}) freshNet
      (fun r _ => if d.size ≤ content.length then r.1 = .ok (content.take d.size)
        else r.1 = .error (sourceChanged d.name)) := by
  have start := delivering_start d content
  have runs := Download.calls_wp window sizes start
  refine ⟨(Prog.Wp.mono runs ?_).ends, fun c run => ?_, (Prog.Wp.mono
    (Download.drain_wp window asked start) ?_).ends⟩
  · rintro ⟨outcome, s⟩ net h
    cases outcome with
    | error e => exact h.elim
    | ok outcomes =>
      exact ⟨outcomes, rfl, h.length_eq, h.sequential (Nat.zero_le _) positive⟩
  · exact runs.invariant (I := InWindow d) (Nat.zero_le _) (fun _ _ _ kept => kept) run
  · rintro ⟨outcome, s⟩ net h
    cases outcome with
    | error e =>
      obtain ⟨rfl, shrunk⟩ := h
      rw [if_neg (Nat.not_le.mpr shrunk)]
    | ok all =>
      obtain ⟨long, rfl⟩ := h
      rw [if_pos long]

/-- A three-byte file, with the window of the source and of the sequential reader. -/
theorem Download.delivers_three :
    (∀ c, Prog.Reach (Wire.sem (readServer [7, 8, 9]) fun _ => False)
      (Download.calls ⟨[1], 3, lit "f", 1⟩ [2, 2] {}, freshNet) c → c.2.flying.length ≤ 1) ∧
    Prog.Ends (Wire.sem (readServer [7, 8, 9]) fun _ => False)
      (Download.drain ⟨[1], 3, lit "f", requestWindow⟩ 2 {}) freshNet
      fun r _ => r.1 = .ok [7, 8, 9] :=
  ⟨(Download.delivers [7, 8, 9] ⟨[1], 3, lit "f", 1⟩ (by decide) [2, 2] (by decide) 2
      (by decide)).2.1,
    (Download.delivers [7, 8, 9] ⟨[1], 3, lit "f", requestWindow⟩ (by decide) [2, 2] (by decide) 2
      (by decide)).2.2⟩

/-- What both readers see of that file, and of one that should have five bytes. -/
example : sequentialReads [7, 8, 9] 3 [] 0 [2, 2, 2] = [.ok [7, 8], .ok [9], .ok []] ∧
    sequentialReads [7, 8, 9] 5 [] 0 [2, 2, 2] = [.ok [7, 8], .error (sourceChanged [])] := by
  exact ⟨rfl, rfl⟩

end DataBridge
