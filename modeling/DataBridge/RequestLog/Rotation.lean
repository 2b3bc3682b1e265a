import DataBridge.RequestLog.Log

/-!
# What rotation keeps

The files of a log as blocks of lines, from the oldest backup down to the log
file, and the lines they hold in that order. The rename cascade moves blocks up
by one into names that it has just emptied, so it loses at most the block of the
oldest backup; with a write that finds the log file or starts it, the lines held
are always a suffix of all lines that ever were.
-/

namespace DataBridge

open Effect Routine Files

/-! ## Blocks of lines -/

/-- The lines of the log file (number 0) and of each backup. -/
abbrev LogBlocks : Type := Nat → Option (List LogLine)

/-- The contents of a file with some lines. -/
def linesText (lines : List LogLine) : Bytes := lines.flatMap LogLine.text

theorem linesText_snoc (lines : List LogLine) (line : LogLine) :
    linesText (lines ++ [line]) = linesText lines ++ line.text := by
  simp [linesText]

namespace LogBlocks

/-- The lines of a file; an absent file has none. -/
def lines (blocks : LogBlocks) (number : Nat) : List LogLine := (blocks number).getD []

/-- The lines from a backup down to the log file. -/
def held (blocks : LogBlocks) : Nat → List LogLine
  | 0 => blocks.lines 0
  | number + 1 => blocks.lines (number + 1) ++ blocks.held number

/-- The block of one number moves up. -/
def shift (blocks : LogBlocks) (number : Nat) : LogBlocks :=
  if (blocks (number - 1)).isSome then
    Function.update (Function.update blocks number (blocks (number - 1))) (number - 1) none
  else blocks

/-- The cascade, from the oldest number down. -/
def cascade (blocks : LogBlocks) (backups : Nat) : LogBlocks :=
  (RequestLog.numbers backups).foldl shift blocks

variable {blocks other : LogBlocks} {number level backups : Nat}

theorem held_congr (same : ∀ n ≤ level, other n = blocks n) : other.held level = blocks.held level := by
  induction level with
  | zero => simp only [held, lines, same 0 (Nat.le_refl 0)]
  | succ level ih =>
    have below : other.held level = blocks.held level := ih fun n le => same n (by omega)
    simp only [held, lines, same (level + 1) (Nat.le_refl _), below]

theorem shift_of_none (absent : blocks number = none) : blocks.shift (number + 1) = blocks := by
  unfold shift
  rw [Nat.add_sub_cancel, absent]
  rfl

theorem shift_of_some {moved : List LogLine} (present : blocks number = some moved) :
    blocks.shift (number + 1) =
      Function.update (Function.update blocks (number + 1) (some moved)) number none := by
  unfold shift
  rw [Nat.add_sub_cancel, present]
  rfl

theorem shift_source : (blocks.shift (number + 1)) number = none := by
  cases present : blocks number with
  | none => rw [shift_of_none present, present]
  | some moved => rw [shift_of_some present, Function.update_self]

/-- A block that moves into an empty name stays where it was in the order. -/
theorem held_shift (empty : blocks (number + 1) = none) (le : number + 1 ≤ level) :
    (blocks.shift (number + 1)).held level = blocks.held level := by
  cases present : blocks number with
  | none => rw [shift_of_none present]
  | some moved =>
    rw [shift_of_some present]
    induction level with
    | zero => omega
    | succ level ih =>
      by_cases top : level = number
      · subst top
        -- The two places next to each other exchange their blocks, one of which is empty.
        cases level with
        | zero => simp [held, lines, present, empty]
        | succ level =>
          have rest : ∀ n ≤ level, Function.update (Function.update blocks (level + 2)
              (some moved)) (level + 1) none n = blocks n := by
            intro n le
            rw [Function.update_of_ne (by omega), Function.update_of_ne (by omega)]
          simp [held, lines, present, empty, held_congr rest]
      · have above : number + 1 ≤ level := by omega
        have other : Function.update (Function.update blocks (number + 1) (some moved)) number none
            (level + 1) = blocks (level + 1) := by
          rw [Function.update_of_ne (by omega), Function.update_of_ne (by omega)]
        simp only [held, lines, other, ih above]

/-- The cascade below an empty name keeps the lines and empties the log file. -/
theorem held_cascade (empty : blocks number = none) (le : number ≤ level) :
    (blocks.cascade number).held level = blocks.held level ∧ blocks.cascade number 0 = none := by
  induction number generalizing blocks with
  | zero => exact ⟨rfl, empty⟩
  | succ number ih =>
    have source : blocks.shift (number + 1) number = none := shift_source
    obtain ⟨same, emptied⟩ := ih source (by omega)
    exact ⟨same.trans (held_shift empty le), emptied⟩

/-- What is left of the blocks when the log file goes without a backup. -/
def discard (blocks : LogBlocks) (backups : Nat) : LogBlocks :=
  if backups = 0 then Function.update blocks 0 none else blocks

/-- The blocks after a rotation, before the log file is created again. -/
def rotated (blocks : LogBlocks) (backups : Nat) : LogBlocks :=
  (blocks.discard backups).cascade backups

/-- A rotation loses no line but those of the oldest file. -/
theorem held_rotated : (blocks.rotated backups) 0 = none ∧
    ((blocks.rotated backups).held backups = blocks.held backups ∨
      blocks.held backups = blocks.lines backups ++ (blocks.rotated backups).held backups) := by
  cases backups with
  | zero => simp [rotated, discard, cascade, RequestLog.numbers, held, lines]
  | succ backups =>
    have source : blocks.shift (backups + 1) backups = none := shift_source
    obtain ⟨same, emptied⟩ := held_cascade source (Nat.le_succ backups)
    have unfolded : blocks.rotated (backups + 1) = (blocks.shift (backups + 1)).cascade backups :=
      rfl
    rw [unfolded]
    refine ⟨emptied, ?_⟩
    rw [same]
    cases present : blocks backups with
    | none =>
      left
      rw [shift_of_none present]
    | some moved =>
      right
      rw [shift_of_some present]
      -- The block below takes the place of the oldest one.
      cases backups with
      | zero => simp [held, lines, present]
      | succ backups =>
        have rest : ∀ n ≤ backups, Function.update (Function.update blocks (backups + 2)
            (some moved)) (backups + 1) none n = blocks n := by
          intro n le
          rw [Function.update_of_ne (by omega), Function.update_of_ne (by omega)]
        simp [held, lines, present, held_congr rest]

/-- The block of the log file grows by one line. -/
def append (blocks : LogBlocks) (line : LogLine) : LogBlocks :=
  Function.update blocks 0 (some (blocks.lines 0 ++ [line]))

theorem held_append (line : LogLine) :
    (blocks.append line).held level = blocks.held level ++ [line] := by
  induction level with
  | zero => simp [append, held, lines]
  | succ level ih =>
    rw [held, ih]
    simp [append, held, lines]

/-- The block of the log file once it is open. -/
def started (blocks : LogBlocks) : LogBlocks := Function.update blocks 0 (some (blocks.lines 0))

theorem held_started : blocks.started.held level = blocks.held level := by
  induction level with
  | zero => simp [started, held, lines]
  | succ level ih =>
    rw [held, ih]
    simp [started, held, lines]

end LogBlocks

/-! ## The files behind the blocks -/

/-- What a name of the directory shows. -/
def LogShows (d : Directory Nat) (name : Nat) : Option (List LogLine) → Prop
  | none => d.entries name = none
  | some lines =>
    ∃ file, d.entries name = some (.file file) ∧ (d.nodes file).content = linesText lines

/-- The log file and its backups hold the blocks, each in a file of its own. -/
structure Holds (backups : Nat) (d : Directory Nat) (blocks : LogBlocks) : Prop where
  shown : ∀ name ≤ backups, LogShows d name (blocks name)
  distinct : ∀ name ≤ backups, ∀ other ≤ backups, ∀ file, d.entries name = some (.file file) →
    d.entries other = some (.file file) → name = other

theorem LogShows.isSome {d : Directory Nat} {name : Nat} {block : Option (List LogLine)}
    (shown : LogShows d name block) : (d.entries name).isSome = block.isSome := by
  cases block with
  | none =>
    have absent : d.entries name = none := shown
    rw [absent]
    rfl
  | some lines =>
    obtain ⟨file, entry, -⟩ := shown
    rw [entry]
    rfl

theorem LogShows.congr {d d' : Directory Nat} {name other : Nat} {block : Option (List LogLine)}
    (shown : LogShows d other block) (entry : d'.entries name = d.entries other)
    (same : ∀ file, d.entries other = some (.file file) →
      (d'.nodes file).content = (d.nodes file).content) : LogShows d' name block := by
  cases block with
  | none => exact entry.trans shown
  | some lines =>
    obtain ⟨file, found, content⟩ := shown
    exact ⟨file, entry.trans found, (same file found).trans content⟩

section Holds

variable {backups number : Nat} {d d' : Directory Nat} {blocks : LogBlocks}

theorem Holds.rename (h : Holds backups d blocks) (le : number + 1 ≤ backups)
    {moved : List LogLine} (present : blocks number = some moved) :
    Holds backups (d.rename number (number + 1)) (blocks.shift (number + 1)) := by
  have apart : number ≠ number + 1 := by omega
  rw [LogBlocks.shift_of_some present]
  constructor
  · intro name small
    by_cases source : name = number
    · subst source
      rw [Function.update_self]
      exact Directory.rename_entries_old apart
    · rw [Function.update_of_ne source]
      by_cases target : name = number + 1
      · subst target
        rw [Function.update_self, ← present]
        refine (h.shown number (by omega)).congr Directory.rename_entries_new fun file _ => ?_
        rw [Directory.rename_nodes]
      · rw [Function.update_of_ne target]
        refine (h.shown name small).congr (Directory.rename_entries_of_ne source target)
          fun file _ => ?_
        rw [Directory.rename_nodes]
  · -- The names of a file after the move are its names before, with the target for the source.
    have before : ∀ name file, (d.rename number (number + 1)).entries name = some (.file file) →
        name ≠ number ∧ d.entries (if name = number + 1 then number else name) =
          some (.file file) := by
      intro name file found
      have differs : name ≠ number := by
        intro same
        rw [same, Directory.rename_entries_old apart] at found
        cases found
      refine ⟨differs, ?_⟩
      by_cases target : name = number + 1
      · rw [if_pos target]
        rw [target, Directory.rename_entries_new] at found
        exact found
      · rw [if_neg target]
        rw [Directory.rename_entries_of_ne differs target] at found
        exact found
    intro name small other small' file found found'
    obtain ⟨differs, was⟩ := before name file found
    obtain ⟨differs', was'⟩ := before other file found'
    have same := h.distinct _ (by split <;> omega) _ (by split <;> omega) file was was'
    split at same <;> split at same <;> omega

theorem Holds.discard (h : Holds backups d blocks) :
    Holds backups (if backups = 0 then d.unlink 0 else d) (blocks.discard backups) := by
  by_cases none : backups = 0
  · subst none
    refine ⟨fun name small => ?_, fun name small other small' file _ _ => by omega⟩
    obtain rfl : name = 0 := by omega
    have emptied : blocks.discard 0 0 = none := by
      rw [LogBlocks.discard, if_pos rfl, Function.update_self]
    rw [emptied]
    exact Directory.unlink_entries_self
  · rw [if_neg none, LogBlocks.discard, if_neg none]
    exact h

/-- A new log file in the place of none. -/
theorem Holds.create (h : Holds backups d blocks) (absent : blocks 0 = none) (mode : Nat) :
    Holds backups (d.create 0 mode) blocks.started := by
  have older : ∀ name ≤ backups, name ≠ 0 → ∀ file,
      (d.create 0 mode).entries name = some (.file file) → file < d.next := by
    intro name _ differs file found
    rw [Directory.create_entries_of_ne differs] at found
    exact d.bounded name file found
  constructor
  · intro name small
    by_cases first : name = 0
    · subst first
      rw [LogBlocks.started, Function.update_self, LogBlocks.lines, absent]
      refine ⟨d.next, Directory.create_entries_self, ?_⟩
      rw [Directory.create_nodes_next]
      rfl
    · rw [LogBlocks.started, Function.update_of_ne first]
      refine (h.shown name small).congr (Directory.create_entries_of_ne first) fun file found => ?_
      rw [Directory.create_nodes_of_lt (d.bounded name file found)]
  · intro name small other small' file found found'
    by_cases first : name = 0
    · by_cases first' : other = 0
      · rw [first, first']
      · rw [first, Directory.create_entries_self] at found
        cases found
        exact absurd (older other small' first' _ found') (Nat.lt_irrefl _)
    · by_cases first' : other = 0
      · rw [first', Directory.create_entries_self] at found'
        cases found'
        exact absurd (older name small first _ found) (Nat.lt_irrefl _)
      · rw [Directory.create_entries_of_ne first] at found
        rw [Directory.create_entries_of_ne first'] at found'
        exact h.distinct name small other small' file found found'

/-- The same names, and the same contents but for the log file. -/
theorem Holds.modify (h : Holds backups d blocks) {file : Nat}
    (entry : d.entries 0 = some (.file file)) {lines : List LogLine}
    (entries : d'.entries = d.entries) (content : (d'.nodes file).content = linesText lines)
    (others : ∀ other, other ≠ file → (d'.nodes other).content = (d.nodes other).content) :
    Holds backups d' (Function.update blocks 0 (some lines)) := by
  constructor
  · intro name small
    by_cases first : name = 0
    · subst first
      rw [Function.update_self]
      exact ⟨file, (congrFun entries 0).trans entry, content⟩
    · rw [Function.update_of_ne first]
      refine (h.shown name small).congr (congrFun entries name) fun other found => ?_
      refine others other fun same => first ?_
      subst same
      exact h.distinct name small 0 (Nat.zero_le _) other found entry
  · rw [entries]
    exact h.distinct

end Holds

/-! ## Calls that do not fail -/

/-- No call of the log fails. -/
abbrev reliableLog : Setting LogCall LogWorld :=
  .alone (LogCall.sem fun _ => False) fun _ _ => True

section Calls

variable {α : Type} {log : RequestLogState} {w v : LogWorld}
  {Q : Except Exc α → RequestLogState → LogWorld → Prop}

/-- A call with one answer. -/
theorem reliable_invoke {op : LogCall (Except Exc α)} {r : Except Exc α}
    (only : ∀ r' w', LogCall.sem (fun _ => False) op w r' w' ↔ r' = r ∧ w' = v)
    (h : Q r log v) : (Routine.invoke op).Wp reliableLog Q log w := by
  refine .invoke fun w₁ same => ?_
  subst same
  refine ⟨⟨r, v, (only r v).mpr ⟨rfl, rfl⟩⟩, fun r' w' answer => ?_⟩
  obtain ⟨rfl, rfl⟩ := (only r' w').mp answer
  exact ⟨trivial, Setting.settled_alone.mpr h⟩

/-- After a part that does not raise comes the next one. -/
theorem reliable_then {β : Type} {x : LogRoutine β} {f : β → LogRoutine α}
    {P : β → RequestLogState → LogWorld → Prop}
    (first : x.Wp reliableLog (Post P fun _ _ _ => False) log w)
    (next : ∀ b log w, P b log w → (f b).Wp reliableLog Q log w) : (x >>= f).Wp reliableLog Q log w :=
  .bind first next fun _ _ _ impossible => impossible.elim

theorem reliable_bind {β : Type} {op : LogCall (Except Exc β)} {f : β → LogRoutine α} {b : β}
    (only : ∀ r' w', LogCall.sem (fun _ => False) op w r' w' ↔ r' = .ok b ∧ w' = v)
    (next : (f b).Wp reliableLog Q log v) :
    (Routine.invoke op >>= f).Wp reliableLog Q log w := by
  refine reliable_then (P := fun b' log' w' => b' = b ∧ log' = log ∧ w' = v)
    (reliable_invoke only ⟨rfl, rfl, rfl⟩) ?_
  rintro b' log' w' ⟨rfl, rfl, rfl⟩
  exact next

theorem chmod_answers {file mode : Nat} (r : Except Exc Unit) (w' : LogWorld) :
    LogCall.sem (fun _ => False) (.chmod file mode) w r w' ↔
      r = .ok () ∧ w' = w.chmod file mode := by
  simp only [LogCall.sem, false_and, exists_false, false_or]

theorem fileSize_answers {file : Nat} (r : Except Exc Nat) (w' : LogWorld) :
    LogCall.sem (fun _ => False) (.fileSize file) w r w' ↔
      r = .ok (w.directory.nodes file).content.length ∧ w' = w := by
  simp only [LogCall.sem, false_and, exists_false, false_or]

theorem fdopen_answers {file : Nat} (r : Except Exc Unit) (w' : LogWorld) :
    LogCall.sem (fun _ => False) (.fdopen file) w r w' ↔ r = .ok () ∧ w' = w := by
  simp only [LogCall.sem, false_and, exists_false, false_or]

theorem exist_answers {name : Nat} (r : Except Exc Bool) (w' : LogWorld) :
    LogCall.sem (fun _ => False) (.exist name) w r w' ↔
      r = .ok (w.directory.entries name).isSome ∧ w' = w := by
  simp only [LogCall.sem, false_and, exists_false, false_or]

theorem LogWorld.append_nil (file : Nat) : w.append file [] = w := rfl

theorem LogWorld.append_entries (file : Nat) (data : Bytes) :
    (w.append file data).directory.entries = w.directory.entries := by
  unfold append
  split <;> rfl

theorem LogWorld.append_next (file : Nat) (data : Bytes) :
    (w.append file data).directory.next = w.directory.next := by
  unfold append
  split <;> rfl

theorem LogWorld.append_content (file : Nat) (data : Bytes) :
    ((w.append file data).directory.nodes file).content =
      (w.directory.nodes file).content ++ data := by
  unfold append
  split
  · rename_i nothing
    rw [nothing, List.append_nil]
  · rw [Directory.modify_nodes_self]

theorem LogWorld.append_nodes {file other : Nat} (data : Bytes) (differs : other ≠ file) :
    (w.append file data).directory.nodes other = w.directory.nodes other := by
  unfold append
  split
  · rfl
  · exact Function.update_of_ne differs ..

theorem LogWorld.mem_written {file other : Nat} {data : Bytes}
    (member : other ∈ (w.append file data).written) : other = file ∨ other ∈ w.written := by
  unfold append at member
  split at member
  · exact .inr member
  · exact List.mem_cons.mp member

end Calls

/-! ## Opening and rotating -/

/-- Names may have moved, and files may be new; no file has other contents. -/
structure Moved (w w' : LogWorld) : Prop where
  written : w'.written = w.written
  next : w.directory.next ≤ w'.directory.next
  contents : ∀ file < w.directory.next,
    (w'.directory.nodes file).content = (w.directory.nodes file).content

theorem Moved.refl (w : LogWorld) : Moved w w := ⟨rfl, Nat.le_refl _, fun _ _ => rfl⟩

theorem Moved.trans {w w₁ w₂ : LogWorld} (h : Moved w w₁) (h' : Moved w₁ w₂) : Moved w w₂ where
  written := h'.written.trans h.written
  next := h.next.trans h'.next
  contents file older :=
    (h'.contents file (older.trans_le h.next)).trans (h.contents file older)

theorem moved_rename {w : LogWorld} (source target : Nat) :
    Moved w { w with directory := w.directory.rename source target } where
  written := rfl
  next := Nat.le_of_eq Directory.rename_next.symm
  contents file _ := by
    change ((w.directory.rename source target).nodes file).content = _
    rw [Directory.rename_nodes]

theorem moved_create {w : LogWorld} (mode : Nat) :
    Moved w { w with directory := w.directory.create 0 mode } where
  written := rfl
  next := Nat.le_succ _
  contents _ older := congrArg Node.content (Directory.create_nodes_of_lt older)

theorem LogWorld.chmod_content {w : LogWorld} (file other mode : Nat) :
    ((w.chmod file mode).directory.nodes other).content = (w.directory.nodes other).content := by
  by_cases same : other = file
  · subst same
    rw [chmod, Directory.modify_nodes_self]
  · rw [chmod, Directory.modify_nodes_of_ne same]

theorem moved_chmod {w : LogWorld} (file mode : Nat) : Moved w (w.chmod file mode) where
  written := rfl
  next := Nat.le_refl _
  contents other _ := LogWorld.chmod_content file other mode

/-- The stream is open on the log file, and the tracked size is that of its lines. -/
structure LogOpened (log : RequestLogState) (w : LogWorld) (blocks : LogBlocks) : Prop where
  stream : ∃ file, log.stream = some ⟨file, [], false⟩ ∧
    w.directory.entries 0 = some (.file file)
  size : log.size = (linesText (blocks.lines 0)).length

theorem LogOpened.started {log : RequestLogState} {w : LogWorld} {blocks : LogBlocks}
    (opened : LogOpened log w blocks) : LogOpened log w blocks.started where
  stream := opened.stream
  size := by
    have same : blocks.started.lines 0 = blocks.lines 0 := by
      simp [LogBlocks.started, LogBlocks.lines]
    rw [same]
    exact opened.size

namespace RequestLog

variable {c : RequestLog} {backups number : Nat} {log : RequestLogState} {w : LogWorld}
  {blocks : LogBlocks}

theorem chmod_holds (holds : Holds backups w.directory blocks.started) (file mode : Nat) :
    Holds backups (w.chmod file mode).directory blocks.started where
  shown name small := (holds.shown name small).congr rfl fun other _ =>
    LogWorld.chmod_content file other mode
  distinct := holds.distinct

/-- What `os.open` leaves. -/
theorem openFile_holds (holds : Holds backups w.directory blocks) :
    ∃ file w₁, (∀ r' w', LogCall.sem (fun _ => False) .openFile w r' w' ↔ r' = .ok file ∧ w' = w₁) ∧
      Moved w w₁ ∧ Holds backups w₁.directory blocks.started ∧
      w₁.directory.entries 0 = some (.file file) := by
  have shown := holds.shown 0 (Nat.zero_le _)
  cases block : blocks 0 with
  | none =>
    rw [block] at shown
    have absent : w.directory.entries 0 = none := shown
    refine ⟨w.directory.next, { w with directory := w.directory.create 0 0o600 }, ?_,
      moved_create _, holds.create block _, Directory.create_entries_self⟩
    intro r' w'
    simp [LogCall.sem, absent]
  | some lines =>
    rw [block] at shown
    obtain ⟨file, entry, -⟩ := shown
    have same : blocks.started = blocks := by
      rw [LogBlocks.started, LogBlocks.lines, block]
      exact (congrArg (Function.update blocks 0) block.symm).trans (Function.update_eq_self ..)
    refine ⟨file, w, ?_, .refl w, ?_, entry⟩
    · intro r' w'
      simp [LogCall.sem, entry]
    · rw [same]
      exact holds

theorem openLog_wp (holds : Holds backups w.directory blocks) :
    openLog.Wp reliableLog (Post (fun _ log' w' => Moved w w' ∧
      Holds backups w'.directory blocks.started ∧ LogOpened log' w' blocks)
      fun _ _ _ => False) log w := by
  obtain ⟨file, w₁, answers, moved, kept, entry⟩ := openFile_holds holds
  have chmoded := chmod_holds kept file 0o600
  obtain ⟨file', entry', content⟩ := chmoded.shown 0 (Nat.zero_le _)
  cases entry.symm.trans entry'
  refine reliable_bind answers (reliable_bind chmod_answers (reliable_bind fileSize_answers ?_))
  refine Wp.modify_bind.mpr (reliable_bind fdopen_answers ?_)
  refine .modify (Setting.settled_alone.mpr ⟨moved.trans (moved_chmod _ _), chmoded, ?_⟩)
  exact ⟨⟨file, rfl, entry⟩, congrArg List.length content⟩

/-- A stream without a buffer closes without a trace. -/
theorem close_wp (opened : LogOpened log w blocks) :
    close.Wp reliableLog (Post (fun _ log' w' => log'.stream = none ∧ w' = w)
      fun _ _ _ => False) log w := by
  obtain ⟨file, open_, -⟩ := opened.stream
  refine onStream_wp open_ ?_
  refine reliable_then (P := fun _ _ w' => w' = w) ?_ ?_
  · unfold LogStream.close
    rw [if_neg Bool.false_ne_true]
    refine reliable_then (P := fun answer _ w' => answer = ([], .ok ()) ∧ w' = w) ?_ ?_
    · refine .ask fun w₁ same => ?_
      subst same
      refine ⟨⟨_, _, .inr ⟨rfl, rfl⟩⟩, ?_⟩
      rintro answer w' (⟨_, _, _, impossible, -⟩ | ⟨rfl, rfl⟩)
      · exact impossible.elim
      · exact ⟨trivial, Setting.settled_alone.mpr ⟨rfl, rfl⟩⟩
    · rintro answer log' w' ⟨rfl, rfl⟩
      exact Wp.modify_bind.mpr (.ofExcept (Setting.settled_alone.mpr rfl))
  · rintro _ log' w' rfl
    exact .modify (Setting.settled_alone.mpr ⟨rfl, rfl⟩)

theorem discard_wp (holds : Holds c.backups w.directory blocks) :
    c.discard.Wp reliableLog (Post (fun _ log' w' => log' = log ∧ Moved w w' ∧
      Holds c.backups w'.directory (blocks.discard c.backups)) fun _ _ _ => False) log w := by
  have kept := holds.discard
  unfold discard
  by_cases none : c.backups = 0
  · rw [if_pos none] at kept ⊢
    have shown := (holds.shown 0 (Nat.zero_le _)).isSome
    have unlinked : ∃ w₁, Moved w w₁ ∧
        Holds c.backups w₁.directory (blocks.discard c.backups) ∧ ∀ r' w',
        LogCall.sem (fun _ => False) (.unlink 0) w r' w' ↔ r' = .ok () ∧ w' = w₁ := by
      cases block : blocks 0 with
      | none =>
        have absent : w.directory.entries 0 = Option.none := by
          have shown := holds.shown 0 (Nat.zero_le _)
          rw [block] at shown
          exact shown
        have same : blocks.discard c.backups = blocks := by
          rw [LogBlocks.discard, if_pos none, ← block, Function.update_eq_self]
        rw [same]
        exact ⟨w, .refl w, holds, fun r' w' => by simp [LogCall.sem, absent]⟩
      | some lines =>
        have shown := holds.shown 0 (Nat.zero_le _)
        rw [block] at shown
        obtain ⟨file, entry, -⟩ := shown
        refine ⟨{ w with directory := w.directory.unlink 0 }, ⟨rfl, Nat.le_refl _, fun _ _ => rfl⟩,
          kept, fun r' w' => ?_⟩
        simp [LogCall.sem, entry]
    obtain ⟨w₁, moved, kept, answers⟩ := unlinked
    exact reliable_invoke answers ⟨rfl, moved, kept⟩
  · rw [if_neg none] at kept ⊢
    exact .pure (Setting.settled_alone.mpr ⟨rfl, .refl w, kept⟩)

theorem shift_wp (holds : Holds backups w.directory blocks) (le : number + 1 ≤ backups) :
    (shift (number + 1)).Wp reliableLog (Post (fun _ log' w' => log' = log ∧ Moved w w' ∧
      Holds backups w'.directory (blocks.shift (number + 1))) fun _ _ _ => False) log w := by
  refine reliable_bind exist_answers ?_
  have source := holds.shown number (by omega)
  have target := holds.shown (number + 1) le
  rw [Nat.add_sub_cancel, source.isSome]
  cases present : blocks number with
  | none =>
    rw [LogBlocks.shift_of_none present]
    exact .pure (Setting.settled_alone.mpr ⟨rfl, .refl w, holds⟩)
  | some moved =>
    rw [present] at source
    obtain ⟨file, entry, -⟩ := source
    refine reliable_invoke (r := .ok ()) (fun r' w' => ?_)
      ⟨rfl, moved_rename number (number + 1), holds.rename le present⟩
    cases occupied : blocks (number + 1) with
    | none =>
      rw [occupied] at target
      have absent : w.directory.entries (number + 1) = none := target
      simp [LogCall.sem, entry, absent]
    | some lines =>
      rw [occupied] at target
      obtain ⟨file', entry', -⟩ := target
      simp [LogCall.sem, entry, entry']

theorem mem_numbers {n : Nat} (member : n ∈ numbers backups) :
    ∃ number, n = number + 1 ∧ number + 1 ≤ backups := by
  induction backups with
  | zero => exact (List.not_mem_nil member).elim
  | succ backups ih =>
    rcases List.mem_cons.mp member with rfl | below
    · exact ⟨backups, rfl, Nat.le_refl _⟩
    · obtain ⟨number, same, le⟩ := ih below
      exact ⟨number, same, by omega⟩

/-- The loop of `_rotate` moves the blocks as the cascade does. -/
theorem shifts_wp (holds : Holds backups w.directory blocks) :
    (Routine.forEach shift (numbers backups)).Wp reliableLog (Post (fun _ log' w' => log' = log ∧
      Moved w w' ∧ Holds backups w'.directory (blocks.cascade backups))
      fun _ _ _ => False) log w := by
  refine .forEach (I := fun done log' w' => log' = log ∧ Moved w w' ∧
    Holds backups w'.directory (done.foldl LogBlocks.shift blocks)) ?_ ?_ ⟨rfl, .refl w, holds⟩
  · rintro done n rest split log' w' ⟨rfl, moved, kept⟩
    have member : n ∈ numbers backups := by
      rw [split]
      exact List.mem_append_right _ List.mem_cons_self
    obtain ⟨number, rfl, le⟩ := mem_numbers member
    refine (shift_wp kept le).post ?_ fun _ _ _ impossible => impossible.elim
    rintro _ log₁ w₁ ⟨rfl, moved', kept'⟩
    rw [List.foldl_append]
    exact ⟨rfl, moved.trans moved', kept'⟩
  · intro log' w' done
    exact Setting.settled_alone.mpr done

theorem rotate_wp (holds : Holds c.backups w.directory blocks) (opened : LogOpened log w blocks) :
    c.rotate.Wp reliableLog (Post (fun _ log' w' => Moved w w' ∧
      Holds c.backups w'.directory (blocks.rotated c.backups).started ∧
      LogOpened log' w' (blocks.rotated c.backups)) fun _ _ _ => False) log w := by
  refine reliable_then (close_wp opened) ?_
  rintro _ log₁ w₁ ⟨-, rfl⟩
  refine reliable_then (discard_wp holds) ?_
  rintro _ log₂ w₂ ⟨-, moved, kept⟩
  refine reliable_then (shifts_wp kept) ?_
  rintro _ log₃ w₃ ⟨-, moved', kept'⟩
  refine (openLog_wp kept').post ?_ fun _ _ _ impossible => impossible
  rintro _ log₄ w₄ ⟨moved'', kept'', opened'⟩
  exact ⟨(moved.trans moved').trans moved'', kept'', opened'⟩

/-! ## One write -/

variable (c) in
/-- A file is short enough, or has only one line. -/
def Fits (content : Bytes) : Prop :=
  content.length ≤ c.maxBytes ∨ ∃ line : LogLine, content = line.text

/-- What holds between two writes. -/
structure Sound (c : RequestLog) (log : RequestLogState) (w : LogWorld) (blocks : LogBlocks) :
    Prop extends LogOpened log w blocks where
  holds : Holds c.backups w.directory blocks
  bounded : ∀ file ∈ w.written,
    file < w.directory.next ∧ c.Fits (w.directory.nodes file).content

theorem Sound.moved {log' : RequestLogState} {w' : LogWorld} {now : LogBlocks}
    (sound : Sound c log w blocks) (moved : Moved w w') (holds : Holds c.backups w'.directory now)
    (opened : LogOpened log' w' now) : Sound c log' w' now where
  toLogOpened := opened
  holds := holds
  bounded file member := by
    rw [moved.written] at member
    obtain ⟨older, fits⟩ := sound.bounded file member
    rw [moved.contents file older]
    exact ⟨older.trans_le moved.next, fits⟩

/-- A rotation leaves room for the line, and loses the oldest file at most. -/
theorem makeRoom_wp (sound : Sound c log w blocks) (line : LogLine) :
    (c.makeRoom line).Wp reliableLog (Post (fun _ log' w' => ∃ now : LogBlocks,
      Sound c log' w' now ∧ ¬ c.Due log'.size line ∧
      (now.held c.backups = blocks.held c.backups ∨ c.Due log.size line ∧
        blocks.held c.backups = blocks.lines c.backups ++ now.held c.backups))
      fun _ _ _ => False) log w := by
  unfold makeRoom
  rw [Wp.fields_bind]
  by_cases due : c.Due log.size line
  · rw [if_pos due]
    refine (rotate_wp sound.holds sound.toLogOpened).post ?_ fun _ _ _ impossible => impossible
    rintro _ log' w' ⟨moved, kept, opened⟩
    obtain ⟨emptied, lost⟩ : blocks.rotated c.backups 0 = none ∧ _ := LogBlocks.held_rotated
    have size : log'.size = 0 := by
      rw [opened.size, LogBlocks.lines, emptied]
      rfl
    refine ⟨_, sound.moved moved kept opened.started, fun due => due.1 size, ?_⟩
    rw [LogBlocks.held_started]
    rcases lost with none | oldest
    · exact .inl none
    · exact .inr ⟨due, oldest⟩
  · rw [if_neg due]
    exact .pure (Setting.settled_alone.mpr ⟨blocks, sound, due, .inl rfl⟩)

theorem streamWrite_wp {file : Nat} {data : Bytes} (line : LogLine)
    (stream : log.stream = some ⟨file, data, false⟩) :
    (onStream (fun stream => stream.write line) (.raise .runtimeError)).Wp reliableLog
      (Post (fun _ log' w' => ∃ stored,
        log' = { log with stream := some ⟨file, (data ++ line.text).drop stored, false⟩ } ∧
        w' = w.append file ((data ++ line.text).take stored)) fun _ _ _ => False) log w := by
  refine onStream_wp stream ?_
  unfold LogStream.write
  rw [if_neg Bool.false_ne_true]
  refine reliable_then (P := fun answer log' w' => log' = log ∧ ∃ stored,
    answer = ((data ++ line.text).drop stored, .ok ()) ∧
    w' = w.append file ((data ++ line.text).take stored)) ?_ ?_
  · refine .ask fun w₁ same => ?_
    subst same
    refine ⟨⟨_, _, .inr ⟨0, rfl, rfl⟩⟩, ?_⟩
    rintro answer w' (⟨_, _, _, impossible, -⟩ | ⟨stored, rfl, rfl⟩)
    · exact impossible.elim
    · exact ⟨trivial, Setting.settled_alone.mpr ⟨rfl, stored, rfl, rfl⟩⟩
  · rintro answer log' w' ⟨rfl, stored, rfl, rfl⟩
    exact Wp.modify_bind.mpr (.ofExcept (Setting.settled_alone.mpr ⟨stored, rfl, rfl⟩))

theorem streamFlush_wp {file : Nat} {data : Bytes}
    (stream : log.stream = some ⟨file, data, false⟩) :
    (onStream LogStream.flush (.raise .runtimeError)).Wp reliableLog
      (Post (fun _ log' w' => log' = { log with stream := some ⟨file, [], false⟩ } ∧
        w' = w.append file data) fun _ _ _ => False) log w := by
  refine onStream_wp stream ?_
  unfold LogStream.flush
  rw [if_neg Bool.false_ne_true]
  refine reliable_then (P := fun answer log' w' => log' = log ∧ answer = ([], .ok ()) ∧
    w' = w.append file data) ?_ ?_
  · refine .ask fun w₁ same => ?_
    subst same
    refine ⟨⟨_, _, .inr ⟨rfl, rfl⟩⟩, ?_⟩
    rintro answer w' (⟨_, _, _, impossible, -⟩ | ⟨rfl, rfl⟩)
    · exact impossible.elim
    · exact ⟨trivial, Setting.settled_alone.mpr ⟨rfl, rfl, rfl⟩⟩
  · rintro answer log' w' ⟨rfl, rfl, rfl⟩
    exact Wp.modify_bind.mpr (.ofExcept (Setting.settled_alone.mpr ⟨rfl, rfl⟩))

/-- The log file with a line more. -/
theorem Sound.append (sound : Sound c log w blocks) {file : Nat} {line : LogLine}
    {log' : RequestLogState} {w' : LogWorld} (room : ¬ c.Due log.size line)
    (entry : w.directory.entries 0 = some (.file file))
    (stream : log'.stream = some ⟨file, [], false⟩) (size : log'.size = log.size + line.size)
    (entries : w'.directory.entries = w.directory.entries)
    (next : w'.directory.next = w.directory.next)
    (content : (w'.directory.nodes file).content =
      (w.directory.nodes file).content ++ line.text)
    (others : ∀ other, other ≠ file → w'.directory.nodes other = w.directory.nodes other)
    (written : ∀ other ∈ w'.written, other = file ∨ other ∈ w.written) :
    Sound c log' w' (blocks.append line) := by
  have shown : (w.directory.nodes file).content = linesText (blocks.lines 0) := by
    have shown := sound.holds.shown 0 (Nat.zero_le _)
    cases block : blocks 0 with
    | none =>
      rw [block] at shown
      cases entry.symm.trans shown
    | some lines =>
      rw [block] at shown
      obtain ⟨file', entry', text⟩ := shown
      cases entry.symm.trans entry'
      rw [text, LogBlocks.lines, block]
      rfl
  have longer : (w'.directory.nodes file).content = linesText (blocks.lines 0 ++ [line]) := by
    rw [content, shown, linesText_snoc]
  constructor
  · constructor
    · exact ⟨file, stream, (congrFun entries 0).trans entry⟩
    · have lines : (blocks.append line).lines 0 = blocks.lines 0 ++ [line] := by
        simp [LogBlocks.append, LogBlocks.lines]
      rw [size, sound.size, lines, linesText_snoc, List.length_append]
      rfl
  · exact sound.holds.modify entry entries longer fun other differs =>
      congrArg Node.content (others other differs)
  · have fits : file < w'.directory.next ∧ c.Fits (w'.directory.nodes file).content := by
      rw [next]
      refine ⟨w.directory.bounded 0 file entry, ?_⟩
      have tracked : log.size = (w.directory.nodes file).content.length := by
        rw [sound.size, shown]
      rw [content]
      by_cases empty : log.size = 0
      · right
        rw [empty] at tracked
        exact ⟨line, by rw [List.length_eq_zero_iff.mp tracked.symm, List.nil_append]⟩
      · left
        rw [List.length_append, ← tracked]
        exact Nat.le_of_not_lt fun long => room ⟨empty, long⟩
    intro other member
    by_cases same : other = file
    · rw [same]
      exact fits
    · rw [others other same, next]
      exact sound.bounded other ((written other member).resolve_left same)

theorem write_wp (sound : Sound c log w blocks) (line : LogLine) :
    (c.write line).Wp reliableLog (Post (fun _ log' w' => ∃ now : LogBlocks,
      Sound c log' w' now ∧ (now.held c.backups = blocks.held c.backups ++ [line] ∨
        c.Due log.size line ∧ ∃ rest,
          blocks.held c.backups = blocks.lines c.backups ++ rest ∧
          now.held c.backups = rest ++ [line]))
      fun _ _ _ => False) log w := by
  refine reliable_then (makeRoom_wp sound line) ?_
  rintro _ log₁ w₁ ⟨now, sound₁, room, lost⟩
  obtain ⟨file, stream, entry⟩ := sound₁.stream
  refine reliable_then (streamWrite_wp line stream) ?_
  rintro _ log₂ w₂ ⟨stored, rfl, rfl⟩
  refine reliable_then (streamFlush_wp rfl) ?_
  rintro _ log₃ w₃ ⟨rfl, rfl⟩
  refine .modify (Setting.settled_alone.mpr ⟨now.append line, ?_, ?_⟩)
  · refine sound₁.append room entry rfl rfl ?_ ?_ ?_ ?_ ?_
    · rw [LogWorld.append_entries, LogWorld.append_entries]
    · rw [LogWorld.append_next, LogWorld.append_next]
    · rw [LogWorld.append_content, LogWorld.append_content, List.append_assoc,
        List.take_append_drop, List.nil_append]
    · intro other differs
      rw [LogWorld.append_nodes _ differs, LogWorld.append_nodes _ differs]
    · intro other member
      rcases LogWorld.mem_written member with same | member
      · exact .inl same
      · exact LogWorld.mem_written member
  · rw [LogBlocks.held_append]
    rcases lost with same | ⟨due, oldest⟩
    · exact .inl (by rw [same])
    · exact .inr ⟨due, _, oldest, rfl⟩

/-! ## Every sequence of events -/

variable (c) in
/-- A log that is opened and given some events. -/
def record (events : List LogLine) : LogRoutine Unit := do
  openLog
  .forEach c.write events

theorem record_wp {d : Directory Nat} (holds : Holds c.backups d blocks) (events : List LogLine) :
    (c.record events).Wp reliableLog (Post (fun _ log w => ∃ now : LogBlocks, Sound c log w now ∧
      now.held c.backups <:+ blocks.held c.backups ++ events) fun _ _ _ => False)
      log ⟨d, []⟩ := by
  refine reliable_then (openLog_wp holds) ?_
  rintro _ log₁ w₁ ⟨moved, kept, opened⟩
  have none : w₁.written = [] := moved.written
  have start : Sound c log₁ w₁ blocks.started := by
    refine ⟨opened.started, kept, fun file member => ?_⟩
    rw [none] at member
    exact (List.not_mem_nil member).elim
  refine .forEach (I := fun done log w => ∃ now : LogBlocks, Sound c log w now ∧
    now.held c.backups <:+ blocks.held c.backups ++ done) ?_ ?_ ?_
  · rintro done line rest - log w ⟨now, sound, suffix⟩
    refine (write_wp sound line).post ?_ fun _ _ _ impossible => impossible.elim
    rintro _ log' w' ⟨later, sound', held | ⟨-, left, split, held⟩⟩
    · refine ⟨later, sound', ?_⟩
      rw [held, ← List.append_assoc]
      exact List.suffix_append_self_iff.mpr suffix
    · refine ⟨later, sound', ?_⟩
      rw [held, ← List.append_assoc]
      have shorter : left <:+ now.held c.backups := ⟨_, split.symm⟩
      exact List.suffix_append_self_iff.mpr (shorter.trans suffix)
  · intro log w done
    exact Setting.settled_alone.mpr done
  · refine ⟨_, start, ?_⟩
    rw [LogBlocks.held_started, List.append_nil]

end RequestLog

/-- After some events the backups and the log file hold the newest lines in
order, no file that was written to is too long, unless for a single line, and the
tracked size is the size of the log file; the next write loses lines only when it
rotates, those of the oldest file. -/
def RequestLog.KeepsNewest (c : RequestLog) (blocks : LogBlocks) (events : List LogLine)
    (log : RequestLogState) (w : LogWorld) : Prop :=
  ∃ now : LogBlocks, Holds c.backups w.directory now ∧
    now.held c.backups <:+ blocks.held c.backups ++ events ∧
    (∀ file ∈ w.written, c.Fits (w.directory.nodes file).content) ∧
    (∃ file, w.directory.entries 0 = some (.file file) ∧
      log.size = (w.directory.nodes file).content.length) ∧
    ∀ line, (c.write line).Wp reliableLog (Post (fun _ _ w' => ∃ later : LogBlocks,
      Holds c.backups w'.directory later ∧
      (later.held c.backups = now.held c.backups ++ [line] ∨ c.Due log.size line ∧ ∃ rest,
        now.held c.backups = now.lines c.backups ++ rest ∧
        later.held c.backups = rest ++ [line]))
      fun _ _ _ => False) log w

/-- Whatever files of lines there are, every sequence of events is recorded, and
the newest lines are kept. -/
theorem requestLog_rotation (c : RequestLog) (d : Directory Nat) (blocks : LogBlocks)
    (holds : Holds c.backups d blocks) (events : List LogLine) :
    (c.record events).Wp reliableLog (Post (fun _ => c.KeepsNewest blocks events)
      fun _ _ _ => False) ⟨none, 0⟩ ⟨d, []⟩ := by
  refine (RequestLog.record_wp holds events).post ?_ fun _ _ _ impossible => impossible
  rintro _ log w ⟨now, sound, suffix⟩
  refine ⟨now, sound.holds, suffix, fun file member => (sound.bounded file member).2, ?_, ?_⟩
  · obtain ⟨file, -, entry⟩ := sound.stream
    have shown := sound.holds.shown 0 (Nat.zero_le _)
    refine ⟨file, entry, ?_⟩
    cases block : now 0 with
    | none =>
      rw [block] at shown
      cases entry.symm.trans shown
    | some lines =>
      rw [block] at shown
      obtain ⟨file', entry', content⟩ := shown
      cases entry.symm.trans entry'
      rw [sound.size, content, LogBlocks.lines, block]
      rfl
  · intro line
    refine (RequestLog.write_wp sound line).post ?_ fun _ _ _ impossible => impossible
    rintro _ log' w' ⟨later, sound', held⟩
    exact ⟨later, sound'.holds, held⟩

/-- A line of one letter. -/
def shortLine : LogLine := ⟨[97], by decide⟩

/-- A log file of one line, and no backup. -/
def oneLineLog : Directory Nat :=
  (Directory.empty.create 0 0o600).modify 0 fun node => { node with content := shortLine.text }

theorem requestLog_rotation_short :
    (RequestLog.record ⟨3, 1, by decide⟩ [shortLine, shortLine]).Wp reliableLog
      (Post (fun _ => RequestLog.KeepsNewest ⟨3, 1, by decide⟩
        (Function.update (fun _ => none) 0 (some [shortLine])) [shortLine, shortLine])
        fun _ _ _ => False) ⟨none, 0⟩ ⟨oneLineLog, []⟩ := by
  refine requestLog_rotation ⟨3, 1, by decide⟩ oneLineLog _ ⟨fun name small => ?_, ?_⟩ _
  · by_cases first : name = 0
    · subst first
      exact ⟨0, rfl, rfl⟩
    · rw [Function.update_of_ne first]
      exact Function.update_of_ne first ..
  · intro name _ other _ file found found'
    by_cases first : name = 0
    · by_cases first' : other = 0
      · rw [first, first']
      · have absent : oneLineLog.entries other = none := Function.update_of_ne first' ..
        cases absent.symm.trans found'
    · have absent : oneLineLog.entries name = none := Function.update_of_ne first ..
      cases absent.symm.trans found

end DataBridge
