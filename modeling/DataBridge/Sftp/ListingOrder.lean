import DataBridge.Sftp.ListingScan
import DataBridge.Sftp.NameReply

/-!
# The requests of a listing

`Bounded` holds after each step of a listing. `Browsing` is the invariant of its
loops: some entries are scanned, the lookups of a batch are on their way, and the
rest of the page is known. There is one lemma for each loop; `scanEntries_wp`
follows the whole directory.
-/

namespace DataBridge

open Effect Routine

/-! ## The bounds on the requests -/

section Bounds

variable {S : Type} {net : Net S} {request : Request} {reply : Reply} {server : S} {e : Exc}

/-- The request with this number is a LSTAT. -/
def asksLookup (log : Log) (number : Nat) : Bool :=
  (log[number]?).any fun entry => (lookupOf entry).isSome

/-- The LSTAT replies that are on the way. -/
def lookupsFlying (net : Net S) : List (Nat × Reply) :=
  net.flying.filter fun p => asksLookup net.log p.1

/-- The bounds of one listing. -/
structure Bounded (net : Net S) : Prop where
  pages : pagesAsked net.log ≤ maxListScan + 1
  lookups : (lookupsOf net.log).length ≤ maxListScan + requestWindow
  window : (lookupsFlying net).length ≤ requestWindow

theorem asksLookup_append {log : Log} {number : Nat} (other : lookupOf (request, reply) = none) :
    asksLookup (log ++ [(request, reply)]) number = asksLookup log number := by
  unfold asksLookup
  rcases Nat.lt_trichotomy number log.length with before | same | after
  · rw [List.getElem?_append_left before]
  · subst same
    rw [List.getElem?_append_right (le_refl _), Nat.sub_self, List.getElem?_eq_none (le_refl _)]
    simp [other]
  · rw [List.getElem?_eq_none (Nat.le_of_lt after), List.getElem?_eq_none (by
      rw [List.length_append, List.length_singleton]
      exact after)]

theorem lookupsOf_append (log : Log) : lookupsOf (log ++ [(request, reply)]) =
    lookupsOf log ++ (lookupOf (request, reply)).toList := by
  unfold lookupsOf
  rw [List.filterMap_append]
  cases found : lookupOf (request, reply) <;> simp [found]

theorem pagesAsked_append (log : Log) : pagesAsked (log ++ [(request, reply)]) =
    pagesAsked log + if isReadDirectory (request, reply) then 1 else 0 := by
  rw [pagesAsked, List.countP_append, List.countP_singleton]
  rfl

theorem entriesOf_append (log : Log) : entriesOf (log ++ [(request, reply)]) =
    entriesOf log ++ pageEntries (request, reply) := by
  rw [entriesOf, List.flatMap_append, List.flatMap_singleton]
  rfl

namespace Bounded

theorem passive {fault : Exc → Prop} : Passive fault (Bounded (S := S)) where
  deliver := by
    intro net p h
    refine ⟨h.pages, h.lookups, le_trans ?_ h.window⟩
    exact (List.erase_sublist.filter _).length_le
  fail := fun net e _ h => ⟨h.pages, h.lookups, h.window⟩

/-- A request other than a lookup leaves the lookups alone. -/
theorem post_other (h : Bounded net) (other : lookupOf (request, reply) = none)
    (pages : isReadDirectory (request, reply) → pagesAsked net.log ≤ maxListScan) :
    Bounded (net.post request reply server) ∧ Bounded (net.lose request reply server e) := by
  have asked : pagesAsked (net.log ++ [(request, reply)]) ≤ maxListScan + 1 := by
    rw [pagesAsked_append]
    split
    · rename_i page
      exact Nat.succ_le_succ (pages page)
    · exact h.pages
  have lookups : (lookupsOf (net.log ++ [(request, reply)])).length ≤
      maxListScan + requestWindow := by
    rw [lookupsOf_append, other]
    exact (List.append_nil _).symm ▸ h.lookups
  have flying : net.flying.filter (fun p => asksLookup (net.log ++ [(request, reply)]) p.1) =
      lookupsFlying net := List.filter_congr fun p _ => asksLookup_append other
  have last : asksLookup (net.log ++ [(request, reply)]) net.log.length = false := by
    rw [asksLookup_append other, asksLookup, List.getElem?_eq_none (le_refl _)]
    rfl
  refine ⟨⟨asked, lookups, ?_⟩, ⟨asked, lookups, ?_⟩⟩
  · change ((net.flying ++ [(net.log.length, reply)]).filter
      fun p => asksLookup (net.log ++ [(request, reply)]) p.1).length ≤ _
    rw [List.filter_append, flying, List.filter_singleton, last]
    exact (List.append_nil _).symm ▸ h.window
  · change (net.flying.filter fun p => asksLookup (net.log ++ [(request, reply)]) p.1).length ≤ _
    rw [flying]
    exact h.window

/-- A lookup, while few are on the way. -/
theorem post_lookup (h : Bounded net) {path : Text} (few : net.flying.length < requestWindow)
    (fewer : (lookupsOf net.log).length < maxListScan + requestWindow) :
    Bounded (net.post (.lstat path) reply server) ∧
      Bounded (net.lose (.lstat path) reply server e) := by
  have asked : pagesAsked (net.log ++ [(.lstat path, reply)]) ≤ maxListScan + 1 := by
    rw [pagesAsked_append]
    exact h.pages
  have lookups : (lookupsOf (net.log ++ [(.lstat path, reply)])).length ≤
      maxListScan + requestWindow := by
    rw [lookupsOf_append, List.length_append]
    exact fewer
  refine ⟨⟨asked, lookups, ?_⟩, ⟨asked, lookups, ?_⟩⟩
  · refine le_trans (List.length_filter_le ..) ?_
    rw [Net.post, List.length_append]
    exact few
  · exact le_trans (List.length_filter_le ..) (Nat.le_of_lt few)

end Bounded

end Bounds

/-! ## The loops -/

/-- Every page and lookup of a listing follows the OPENDIR that gave the handle. -/
def Opened (root : Text) (handle : Bytes) (log : Log) : Prop :=
  ∃ reply rest, log = (.openDirectory root, reply) :: rest ∧ openedHandle reply = .ok handle ∧
    (Request.openDirectory root).Encodable ∧
    Only (fun request => request = .readDirectory handle ∨ ∃ path, request = .lstat path) rest

theorem Opened.snoc {root : Text} {handle : Bytes} {log : Log} {request : Request} {reply : Reply}
    (h : Opened root handle log)
    (kind : request = .readDirectory handle ∨ ∃ path, request = .lstat path) :
    Opened root handle (log ++ [(request, reply)]) := by
  obtain ⟨first, rest, rfl, opened, encodable, only⟩ := h
  exact ⟨first, rest ++ [(request, reply)], rfl, opened, encodable, Only.allows only kind⟩

/-- An entry of a batch with its lookup: the path, the number and the reply. -/
structure Ask where
  entry : RawEntry
  lookup : Option (Text × Nat × Reply)

namespace Ask

/-- The entry is looked up exactly when it needs it. -/
def Fits (root : Text) (a : Ask) : Prop := lookupPath root a.entry = a.lookup.map (·.1)

def number (a : Ask) : Option Nat := a.lookup.map (·.2.1)

def waits (a : Ask) : Option (Nat × Reply) := a.lookup.map (·.2)

def answer (a : Ask) : Option (Text × Reply) := a.lookup.map fun l => (l.1, l.2.2)

end Ask

section Loops

variable {S : Type} {serve : S → Request → Reply → S → Prop} {fault : Exc → Prop}
  {root : Text} {handle : Bytes} {done todo : List RawEntry} {asks : List Ask} {scan : Scan}
  {s : Requests} {net : Net S}

/-- Every request is answered, or the transport may fail. -/
structure Answering (serve : S → Request → Reply → S → Prop) (fault : Exc → Prop) : Prop where
  answers : ∀ server request, (∃ reply server', serve server request reply server') ∨ ∃ e, fault e
  faults : ∀ e, fault e → TransportFault e

/-- The scan has taken `done`, the lookups of `asks` are on their way, and `todo` is
the rest of the page. -/
structure Browsing (root : Text) (handle : Bytes) (done : List RawEntry) (asks : List Ask)
    (todo : List RawEntry) (scan : Scan) (s : Requests) (net : Net S) : Prop where
  bounded : Bounded net
  waiting : Outstanding (asks.filterMap (·.waits)) s net
  heard : s.ignored = []
  opened : Opened root handle net.log
  entries : entriesOf net.log = done ++ asks.map (·.entry) ++ todo
  fits : ∀ a ∈ asks, a.Fits root
  taken : ∃ seen, Taken root done seen (.inl scan) ∧
    lookupsOf net.log = seen ++ asks.filterMap (·.answer)
  pages : pagesAsked net.log ≤ (entriesOf net.log).length
  encodable : ∀ entry ∈ todo, ∀ path, lookupPath root entry = some path →
    (Request.lstat path).Encodable

/-- The listing has no use for a reply any more, and only its handle is open. -/
structure Dropped (root : Text) (handle : Bytes) (s : Requests) (net : Net S) : Prop where
  idle : Outstanding [] s net
  opened : Opened root handle net.log

/-- The end of the directory was reached. -/
def Ended (log : Log) : Prop :=
  ∃ handle reply, (.readDirectory handle, reply) ∈ log ∧ readNames reply = .error (.status sftpEof)

/-- The listing is what the scan makes of the entries. -/
def Found (root : Text) (log : Log) (listing : Listing) : Prop :=
  ∃ done todo seen later, entriesOf log = done ++ todo ∧ lookupsOf log = seen ++ later ∧
    (Taken root done seen (.inr listing) ∨
      ∃ scan : Scan, Taken root done seen (.inl scan) ∧ listing = scan.last ∧ todo = [] ∧
        later = [] ∧ Ended log)

/-- What an exception leaves: the transport failed, or the replies are dropped. -/
def Abandoned (fault : Exc → Prop) (root : Text) (handle : Bytes) (e : Exc) (s : Requests)
    (net : Net S) : Prop :=
  Bounded net ∧ (fault e ∨ ((∃ code, e = .status code) ∧ Dropped root handle s net))

/-- No reply is expected any more. -/
theorem Outstanding.ignoreAll {m : List (Nat × Reply)} (out : Outstanding m s net) :
    Outstanding [] (Requests.ignoreAll (m.map Prod.fst) s) net := by
  induction m generalizing s with
  | nil => exact out
  | cons p m ih =>
    have rest := out.ignore List.mem_cons_self
    rw [List.erase_cons_head] at rest
    exact ih rest

theorem Browsing.dropped {numbers : List Nat}
    (out : Outstanding (asks.filterMap (·.waits)) s net)
    (same : numbers = asks.filterMap (·.number)) (opened : Opened root handle net.log) :
    Dropped root handle (Requests.ignoreAll numbers s) net := by
  have keys : (asks.filterMap (·.waits)).map Prod.fst = numbers := by
    rw [same, List.map_filterMap]
    refine List.filterMap_congr fun a _ => ?_
    rw [Ask.waits, Ask.number, Option.map_map]
    rfl
  rw [← keys]
  exact ⟨out.ignoreAll, opened⟩

theorem answer_append {asks : List Ask} {a : Ask} :
    (asks ++ [a]).filterMap (·.answer) = asks.filterMap (·.answer) ++ a.answer.toList := by
  rw [List.filterMap_append]
  cases found : a.answer <;> simp [found]

theorem waits_append {asks : List Ask} {a : Ask} :
    (asks ++ [a]).filterMap (·.waits) = asks.filterMap (·.waits) ++ a.waits.toList := by
  rw [List.filterMap_append]
  cases found : a.waits <;> simp [found]

/-- Few lookups are on the way while a batch is sent. -/
theorem Browsing.few (h : Browsing root handle done asks todo scan s net) :
    net.flying.length ≤ asks.length ∧ (lookupsOf net.log).length ≤ maxListScan + asks.length := by
  obtain ⟨seen, taken, lookups⟩ := h.taken
  have waits : (asks.filterMap (·.waits)).length ≤ asks.length := List.length_filterMap_le ..
  have answers : (asks.filterMap (·.answer)).length ≤ asks.length := List.length_filterMap_le ..
  refine ⟨le_trans (h.waiting.flying_le h.heard) waits, ?_⟩
  rw [lookups, List.length_append]
  have := taken.scanned.2
  omega

/-- The next entry of the batch needs no lookup. -/
theorem Browsing.known {entry : RawEntry}
    (h : Browsing root handle done asks (entry :: todo) scan s net)
    (none : lookupPath root entry = .none) :
    Browsing root handle done (asks ++ [⟨entry, .none⟩]) todo scan s net where
  bounded := h.bounded
  waiting := by
    rw [waits_append]
    exact (List.append_nil _).symm ▸ h.waiting
  heard := h.heard
  opened := h.opened
  entries := by
    rw [h.entries, List.map_append]
    simp only [List.map_cons, List.map_nil, List.append_assoc, List.cons_append, List.nil_append]
  fits := by
    intro a member
    rcases List.mem_append.mp member with member | single
    · exact h.fits a member
    · rw [List.mem_singleton.mp single]
      exact none
  taken := by
    obtain ⟨seen, taken, lookups⟩ := h.taken
    refine ⟨seen, taken, ?_⟩
    rw [lookups, answer_append]
    exact (List.append_nil _).symm ▸ rfl
  pages := h.pages
  encodable := fun entry member => h.encodable entry (List.mem_cons_of_mem _ member)

/-- The lookup of the next entry of the batch is sent. -/
theorem Browsing.asked {entry : RawEntry} {path : Text} {reply : Reply} {server : S}
    (h : Browsing root handle done asks (entry :: todo) scan s net)
    (path_eq : lookupPath root entry = some path)
    (bounded : Bounded (net.post (.lstat path) reply server)) :
    Browsing root handle done (asks ++ [⟨entry, some (path, net.log.length, reply)⟩]) todo scan s
      (net.post (.lstat path) reply server) where
  bounded := bounded
  waiting := by
    rw [waits_append]
    exact h.waiting.post
  heard := h.heard
  opened := h.opened.snoc (.inr ⟨path, rfl⟩)
  entries := by
    change entriesOf (net.log ++ [(.lstat path, reply)]) = _
    rw [entriesOf_append, h.entries, List.map_append]
    simp only [pageEntries, List.map_cons, List.map_nil, List.append_assoc, List.cons_append,
      List.nil_append, List.append_nil]
  fits := by
    intro a member
    rcases List.mem_append.mp member with member | single
    · exact h.fits a member
    · rw [List.mem_singleton.mp single]
      exact path_eq
  taken := by
    obtain ⟨seen, taken, lookups⟩ := h.taken
    refine ⟨seen, taken, ?_⟩
    change lookupsOf (net.log ++ [(.lstat path, reply)]) = _
    rw [lookupsOf_append, lookups, answer_append, List.append_assoc]
    rfl
  pages := by
    change pagesAsked (net.log ++ [(.lstat path, reply)]) ≤
      (entriesOf (net.log ++ [(.lstat path, reply)])).length
    rw [pagesAsked_append, entriesOf_append]
    exact le_trans h.pages (by simp [pageEntries])
  encodable := fun entry member => h.encodable entry (List.mem_cons_of_mem _ member)

/-- The lookups of a batch are sent. -/
theorem sendLookups_wp (answering : Answering serve fault) {batch : List RawEntry}
    (h : Browsing root handle done asks (batch ++ todo) scan s net)
    (fits : asks.length + batch.length ≤ requestWindow) :
    (Requests.sendLookups root batch).Wp (wire serve fault Bounded)
      (Post (fun numbers s' net' => ∃ more, more.map (·.entry) = batch ∧
          numbers = more.map (·.number) ∧
          Browsing root handle done (asks ++ more) todo scan s' net')
        fun e s' net' => Abandoned fault root handle e s' net') s net := by
  induction batch generalizing asks s net with
  | nil =>
    refine .pure (Setting.settled_alone.mpr ⟨[], rfl, rfl, ?_⟩)
    rw [List.append_nil]
    exact h
  | cons entry batch ih =>
    rw [List.length_cons] at fits
    refine .bind (P := Post (fun number s' net' => ∃ a : Ask, a.entry = entry ∧
        number = a.number ∧ Browsing root handle done (asks ++ [a]) (batch ++ todo) scan s' net')
        fun e s' net' => Abandoned fault root handle e s' net') ?_ ?_ ?_
    · cases lookup : lookupPath root entry with
      | none =>
        exact .pure (Setting.settled_alone.mpr ⟨⟨entry, none⟩, rfl, rfl, h.known lookup⟩)
      | some path =>
        obtain ⟨few, fewer⟩ := h.few
        have posts : ∀ reply server e, Bounded (net.post (.lstat path) reply server) ∧
            Bounded (net.lose (.lstat path) reply server e) :=
          fun reply server e => h.bounded.post_lookup (by omega) (by omega)
        refine .bind (P := Post (fun number s' net' => ∃ reply server, s' = s ∧
            number = net.log.length ∧ net' = net.post (.lstat path) reply server)
            fun e s' net' => Abandoned fault root handle e s' net')
          (send_wp (answering.answers _ _) ?_ ?_ ?_) ?_ ?_
        · intro reply server _
          exact ⟨(posts reply server .timeout).1, reply, server, rfl, rfl, rfl⟩
        · intro e net' failed after
          rcases after with rfl | ⟨reply, server, -, rfl⟩
          · exact ⟨h.bounded, h.bounded, .inl failed⟩
          · exact ⟨(posts reply server e).2, (posts reply server e).2, .inl failed⟩
        · intro unencodable
          exact absurd (h.encodable entry List.mem_cons_self path lookup) unencodable
        · intro number s' net' sent
          obtain ⟨reply, server, rfl, rfl, rfl⟩ := sent
          exact .pure (Setting.settled_alone.mpr ⟨⟨entry, some (path, net.log.length, reply)⟩,
            rfl, rfl, h.asked lookup (posts reply server .timeout).1⟩)
        · exact fun _ _ _ abandoned => Setting.settled_alone.mpr abandoned
    · intro number s' net' sent
      obtain ⟨a, same, numbered, browsing⟩ := sent
      have room : (asks ++ [a]).length + batch.length ≤ requestWindow := by
        rw [List.length_append, List.length_singleton]
        omega
      refine .bind (ih browsing room) ?_ fun _ _ _ abandoned => Setting.settled_alone.mpr abandoned
      intro numbers s'' net'' rest
      obtain ⟨more, entries, same', browsing'⟩ := rest
      refine .pure (Setting.settled_alone.mpr ⟨a :: more, ?_, ?_, ?_⟩)
      · rw [List.map_cons, same, entries]
      · rw [List.map_cons, ← numbered, same']
      · rw [List.append_assoc] at browsing'
        exact browsing'
    · exact fun _ _ _ abandoned => Setting.settled_alone.mpr abandoned

/-- The answer to a lookup. -/
theorem receiveMode_wp (answering : Answering serve fault) {m : List (Nat × Reply)} {number : Nat}
    {reply : Reply} (out : Outstanding ((number, reply) :: m) s net) (bounded : Bounded net) :
    (Requests.receiveMode number).Wp (wire serve fault Bounded)
      (Post (fun mode s' net' => Sighting.looked reply = .ok mode ∧ Bounded net' ∧
          Outstanding m s' net' ∧ Waiting s s' net net' [])
        fun e s' net' => Bounded net' ∧ (fault e ∨ ((∃ code, e = .status code) ∧
          Outstanding m s' net' ∧ net'.log = net.log))) s net := by
  refine .catching (P := fun r s' net' => Bounded net' ∧
      ((r = (reported reply).map (·.mode) ∧ Outstanding m s' net' ∧ Waiting s s' net net' []) ∨
        ∃ e, r = .error e ∧ fault e)) ?_ ?_ ?_
  · refine .bind (receive_wp Bounded.passive out List.mem_cons_self bounded) ?_ ?_
    · intro payload s' net' received
      obtain ⟨bounded', ⟨accepted, rest, waiting⟩ | ⟨e, impossible, -⟩⟩ := received
      · rw [List.erase_cons_head] at rest
        have whole : reported reply = Reader.parse Reader.attributes payload := by
          rw [reported, ← accepted]
          rfl
        refine .bind (P := fun r s' net' => r = reported reply ∧ Bounded net' ∧
            Outstanding m s' net' ∧ Waiting s s' net net' [])
          (.ofExcept (Setting.settled_alone.mpr ⟨whole.symm, bounded', rest, waiting⟩)) ?_ ?_
        · intro attributes s'' net'' parsed
          refine .pure (Setting.settled_alone.mpr ⟨parsed.2.1, .inl ⟨?_, parsed.2.2⟩⟩)
          rw [← parsed.1]
          rfl
        · intro e s'' net'' failed
          refine Setting.settled_alone.mpr ⟨failed.2.1, .inl ⟨?_, failed.2.2⟩⟩
          rw [← failed.1]
          rfl
      · cases impossible
    · intro e s' net' received
      refine Setting.settled_alone.mpr ⟨received.1, ?_⟩
      obtain ⟨-, ⟨refused, rest, waiting⟩ | ⟨e', same, failed, -⟩⟩ := received
      · rw [List.erase_cons_head] at rest
        refine .inl ⟨?_, rest, waiting⟩
        rw [reported, ← refused]
        rfl
      · exact .inr ⟨e', congrArg Except.error (Except.error.inj same), failed⟩
  · intro mode s' net' received
    obtain ⟨bounded', ⟨same, rest, waiting⟩ | ⟨e, impossible, -⟩⟩ := received
    · refine Setting.settled_alone.mpr ⟨?_, bounded', rest, waiting⟩
      unfold Sighting.looked
      cases read : reported reply with
      | ok attributes =>
        rw [read] at same
        exact same.symm
      | error e =>
        rw [read] at same
        cases same
    · cases impossible
  · intro e s' net' received
    obtain ⟨bounded', ⟨same, rest, waiting⟩ | ⟨e', raised, failed⟩⟩ := received
    · cases read : reported reply with
      | ok attributes =>
        rw [read] at same
        cases same
      | error e' =>
        rw [read] at same
        cases same
        have code : ∃ code, e = .status code := by
          unfold reported at read
          cases accepted : accept .attrs (stash reply) with
          | error e' =>
            rw [accepted] at read
            cases read
            exact accept_error accepted
          | ok payload =>
            rw [accepted] at read
            exact ⟨_, Reader.strict_attributes.parse read⟩
        split
        · rename_i absent
          refine .pure (Setting.settled_alone.mpr ⟨?_, bounded', rest, waiting⟩)
          unfold Sighting.looked
          rw [read]
          exact if_pos absent
        · exact .raise (Setting.settled_alone.mpr
            ⟨bounded', .inr ⟨code, rest, waiting.log⟩⟩)
    · cases raised
      split
      · rename_i absent
        have transport := answering.faults e failed
        rcases absent with rfl | rfl <;> exact transport.elim
      · exact .raise (Setting.settled_alone.mpr ⟨bounded', .inl failed⟩)

theorem Outstanding.waits_cons {a : Ask} (out : Outstanding ((a :: asks).filterMap (·.waits)) s net) :
    Outstanding (a.waits.toList ++ asks.filterMap (·.waits)) s net := by
  cases waits : a.waits with
  | none =>
    rw [List.filterMap_cons_none waits] at out
    exact out
  | some p =>
    rw [List.filterMap_cons_some waits] at out
    exact out

/-- What the scan makes of the next entry of the batch. -/
theorem Browsing.takes {a : Ask} {mode : Option Nat}
    (h : Browsing root handle done (a :: asks) todo scan s net)
    (seen : (Sighting.mk a.entry (a.lookup.map (·.2.2))).seen = .ok mode) :
    ∃ before, Taken root (done ++ [a.entry]) before
        (scan.next (Requests.classifiedAs a.entry.1 mode)) ∧
      lookupsOf net.log = before ++ asks.filterMap (·.answer) := by
  obtain ⟨before, taken, lookups⟩ := h.taken
  have fits := h.fits a List.mem_cons_self
  obtain ⟨entry, lookup⟩ := a
  cases lookup with
  | none =>
    have looked : Looked root [entry] [] [⟨entry, none⟩] := .known fits .nil
    refine ⟨before ++ [], taken.snoc looked seen, ?_⟩
    rw [lookups, List.append_nil]
    rfl
  | some l =>
    have looked : Looked root [entry] [(l.1, l.2.2)] [⟨entry, some l.2.2⟩] := .asked fits .nil
    refine ⟨before ++ [(l.1, l.2.2)], taken.snoc looked seen, ?_⟩
    rw [lookups, List.append_assoc]
    rfl

/-- The scan goes on behind the next entry of the batch. -/
theorem Browsing.goesOn {a : Ask} {mode : Option Nat} {s' : Requests} {net' : Net S} {scan' : Scan}
    (h : Browsing root handle done (a :: asks) todo scan s net)
    (seen : (Sighting.mk a.entry (a.lookup.map (·.2.2))).seen = .ok mode)
    (bounded : Bounded net') (rest : Outstanding (asks.filterMap (·.waits)) s' net')
    (heard : s'.ignored = []) (log : net'.log = net.log)
    (goes : scan.next (Requests.classifiedAs a.entry.1 mode) = .inl scan') :
    Browsing root handle (done ++ [a.entry]) asks todo scan' s' net' where
  bounded := bounded
  waiting := rest
  heard := heard
  opened := log ▸ h.opened
  entries := by
    rw [log, h.entries]
    simp only [List.map_cons, List.append_assoc, List.cons_append, List.nil_append]
  fits := fun b member => h.fits b (List.mem_cons_of_mem _ member)
  taken := by
    obtain ⟨before, taken, lookups⟩ := h.takes seen
    rw [goes] at taken
    exact ⟨before, taken, log ▸ lookups⟩
  pages := by
    rw [log]
    exact h.pages
  encodable := h.encodable

/-- The scan stops at the next entry of the batch. -/
theorem Browsing.stops {a : Ask} {mode : Option Nat} {net' : Net S} {listing : Listing}
    (h : Browsing root handle done (a :: asks) todo scan s net)
    (seen : (Sighting.mk a.entry (a.lookup.map (·.2.2))).seen = .ok mode)
    (log : net'.log = net.log)
    (stopped : scan.next (Requests.classifiedAs a.entry.1 mode) = .inr listing) :
    Found root net'.log listing := by
  obtain ⟨before, taken, lookups⟩ := h.takes seen
  rw [stopped] at taken
  refine ⟨done ++ [a.entry], asks.map (·.entry) ++ todo, before, _, ?_, log ▸ lookups, .inl taken⟩
  rw [log, h.entries]
  simp only [List.map_cons, List.append_assoc, List.cons_append, List.nil_append]

/-- The classification of one entry of a batch. -/
theorem classify_wp (answering : Answering serve fault) {a : Ask}
    (h : Browsing root handle done (a :: asks) todo scan s net) :
    (Requests.classify a.entry a.number).Wp (wire serve fault Bounded)
      (Post (fun pair s' net' => ∃ mode, pair = Requests.classifiedAs a.entry.1 mode ∧
          (Sighting.mk a.entry (a.lookup.map (·.2.2))).seen = .ok mode ∧ Bounded net' ∧
          Outstanding (asks.filterMap (·.waits)) s' net' ∧ s'.ignored = [] ∧ net'.log = net.log)
        fun e s' net' => Bounded net' ∧ (fault e ∨ ((∃ code, e = .status code) ∧
          Outstanding (asks.filterMap (·.waits)) s' net' ∧ net'.log = net.log))) s net := by
  have waiting := h.waiting.waits_cons
  obtain ⟨entry, lookup⟩ := a
  cases lookup with
  | none => exact .pure (Setting.settled_alone.mpr ⟨_, rfl, rfl, h.bounded, waiting, h.heard, rfl⟩)
  | some l =>
    refine .bind (receiveMode_wp answering waiting h.bounded) ?_
      fun _ _ _ abandoned => Setting.settled_alone.mpr abandoned
    intro mode s' net' received
    obtain ⟨seen, bounded, rest, quiet⟩ := received
    exact .pure (Setting.settled_alone.mpr ⟨mode, rfl, seen, bounded, rest,
      List.subset_nil.mp (h.heard ▸ quiet.ignored), quiet.log⟩)

/-- One batch of lookups, as the scan takes it. -/
theorem scanBatch_wp (answering : Answering serve fault)
    (h : Browsing root handle done asks todo scan s net) :
    (Requests.scanBatch (asks.map fun a => (a.entry, a.number)) scan).Wp (wire serve fault Bounded)
      (Post (fun r s' net' => r.elim
          (fun scan' => Browsing root handle (done ++ asks.map (·.entry)) [] todo scan' s' net')
          fun listing => Bounded net' ∧ Dropped root handle s' net' ∧ Found root net'.log listing)
        fun e s' net' => Abandoned fault root handle e s' net') s net := by
  induction asks generalizing done scan s net with
  | nil =>
    refine .pure (Setting.settled_alone.mpr ?_)
    change Browsing root handle (done ++ []) [] todo scan s net
    rw [List.append_nil]
    exact h
  | cons a asks ih =>
    have numbers : (asks.map fun a => (a.entry, a.number)).filterMap (·.2) =
        asks.filterMap (·.number) := by
      rw [List.filterMap_map]
      rfl
    refine .bind (P := Post (fun pair s' net' => ∃ mode,
          pair = Requests.classifiedAs a.entry.1 mode ∧
          (Sighting.mk a.entry (a.lookup.map (·.2.2))).seen = .ok mode ∧ Bounded net' ∧
          Outstanding (asks.filterMap (·.waits)) s' net' ∧ s'.ignored = [] ∧ net'.log = net.log)
        fun e s' net' => Abandoned fault root handle e s' net')
      (.catching (classify_wp answering h) ?_ ?_) ?_ ?_
    · exact fun _ _ _ classified => Setting.settled_alone.mpr classified
    · intro e s' net' failed
      rw [Wp.modify_bind]
      refine .raise (Setting.settled_alone.mpr ⟨failed.1, failed.2.imp_right ?_⟩)
      intro refused
      obtain ⟨code, rest, log⟩ := refused
      exact ⟨code, Browsing.dropped rest numbers (log ▸ h.opened)⟩
    · intro pair s' net' classified
      obtain ⟨mode, rfl, seen, bounded, rest, heard, log⟩ := classified
      cases goes : scan.next (Requests.classifiedAs a.entry.1 mode) with
      | inl scan' =>
        have browsing := h.goesOn seen bounded rest heard log goes
        refine (ih browsing).mono fun r s'' net'' => ?_
        rw [List.append_assoc]
        exact id
      | inr listing =>
        dsimp only
        rw [Wp.modify_bind]
        exact .pure (Setting.settled_alone.mpr ⟨bounded,
          Browsing.dropped rest numbers (log ▸ h.opened), h.stops seen log goes⟩)
    · exact fun _ _ _ abandoned => Setting.settled_alone.mpr abandoned

/-- The batches of a page. -/
theorem classified_wp (answering : Answering serve fault) {entries : List RawEntry}
    (h : Browsing root handle done [] entries scan s net) :
    (Requests.classified root entries scan).Wp (wire serve fault Bounded)
      (Post (fun r s' net' => r.elim
          (fun scan' => Browsing root handle (done ++ entries) [] [] scan' s' net')
          fun listing => Bounded net' ∧ Dropped root handle s' net' ∧ Found root net'.log listing)
        fun e s' net' => Abandoned fault root handle e s' net') s net := by
  -- The batches before `start` are done.
  refine .iterate (I := fun n (at_ : Nat × Scan) s net => n = entries.length - at_.1 ∧
    Browsing root handle (done ++ entries.take at_.1) [] (entries.drop at_.1) at_.2 s net) ?_
    ⟨rfl, ?_⟩
  · intro n at_ s net inv
    obtain ⟨start, scan⟩ := at_
    obtain ⟨rfl, browsing⟩ := inv
    dsimp only at browsing
    dsimp only [Requests.classifyBatch]
    split
    · rename_i more
      have split : (entries.drop start).take requestWindow ++ entries.drop (start + requestWindow) =
          entries.drop start := by
        rw [← List.drop_drop, List.take_append_drop]
      have room : ([] : List Ask).length + ((entries.drop start).take requestWindow).length ≤
          requestWindow := by
        rw [List.length_nil, Nat.zero_add]
        exact List.length_take_le ..
      rw [← split] at browsing
      refine .bind (sendLookups_wp answering browsing room) ?_ ?_
      · intro numbers s' net' sent
        obtain ⟨asks, batch, rfl, sent⟩ := sent
        have zipped : ((entries.drop start).take requestWindow).zip (asks.map (·.number)) =
            asks.map fun a => (a.entry, a.number) := by
          rw [← batch, List.zip_map']
        rw [zipped]
        refine .bind (scanBatch_wp answering sent) ?_ ?_
        · intro r s'' net'' scanned
          cases r with
          | inl scan' =>
            refine .pure (Setting.settled_alone.mpr (Setting.settled_alone.mpr ?_))
            refine ⟨entries.length - (start + requestWindow), ?_, rfl, ?_⟩
            · have positive : 0 < requestWindow := by decide
              omega
            · dsimp only
              rw [List.take_add, ← batch, ← List.append_assoc]
              exact scanned
          | inr listing =>
            exact .pure (Setting.settled_alone.mpr (Setting.settled_alone.mpr scanned))
        · exact fun _ _ _ abandoned => Setting.settled_alone.mpr (Setting.settled_alone.mpr abandoned)
      · exact fun _ _ _ abandoned => Setting.settled_alone.mpr (Setting.settled_alone.mpr abandoned)
    · rename_i finished
      have whole : entries.length ≤ start := Nat.le_of_not_lt finished
      rw [List.take_of_length_le whole, List.drop_of_length_le whole] at browsing
      exact .pure (Setting.settled_alone.mpr (Setting.settled_alone.mpr browsing))
  · rw [List.take_zero, List.append_nil, List.drop_zero]
    exact h

/-! ### Pages -/


theorem plain_posixJoin {root name : Text} (h : root.Plain) (h' : name.Plain) :
    (posixJoin root name).Plain := by
  have slash : (lit "/").Plain := by
    intro point member
    rw [List.mem_singleton.mp (show point ∈ [CodePoint.ofChar '/'] from member)]
    rfl
  unfold posixJoin
  split
  · exact h'
  · split
    · exact h.append h'
    · exact (h.append slash).append h'

/-- The names of a page are text. -/
theorem plain_entries {count : Nat} {payload rest : Bytes} {entries : List RawEntry}
    (read : Reader.entries count payload = .ok (entries, rest)) :
    entries.length = count ∧
      ∀ name attributes, (some name, attributes) ∈ entries → Text.Plain name := by
  induction count generalizing payload rest entries with
  | zero =>
    cases read
    exact ⟨rfl, fun _ _ none => (List.not_mem_nil none).elim⟩
  | succ count ih =>
    obtain ⟨raw, _, -, read⟩ := Reader.ok_of_bind read
    obtain ⟨_, _, -, read⟩ := Reader.ok_of_bind read
    obtain ⟨attributes, _, -, read⟩ := Reader.ok_of_bind read
    obtain ⟨more, _, later, read⟩ := Reader.ok_of_bind read
    cases read
    obtain ⟨length, plain⟩ := ih later
    refine ⟨congrArg Nat.succ length, fun name attributes' member => ?_⟩
    rcases List.mem_cons.mp member with same | inMore
    · have decoded : addressableName raw = some name := (congrArg Prod.fst same).symm
      unfold addressableName at decoded
      split at decoded
      · cases decoded
      · rename_i text read
        split at decoded
        · cases decoded
        · cases decoded
          exact plain_decodeUtf8 read
    · exact plain name attributes' inMore

/-- A page has entries, and their names are text. -/
theorem readNames_ok {reply : Reply} {entries : List RawEntry} (read : readNames reply = .ok entries) :
    0 < entries.length ∧
      ∀ name attributes, (some name, attributes) ∈ entries → Text.Plain name := by
  unfold readNames at read
  cases accepted : accept .name (stash reply) with
  | error e =>
    rw [accepted] at read
    cases read
  | ok payload =>
    rw [accepted] at read
    change Reader.parse Reader.names payload = .ok entries at read
    unfold Reader.parse at read
    cases parsed : Reader.names payload with
    | error e =>
      rw [parsed] at read
      cases read
    | ok p =>
      rw [parsed] at read
      cases read
      obtain ⟨count, rest, -, parsed⟩ := Reader.ok_of_bind parsed
      unfold Reader.someEntries at parsed
      split at parsed
      · cases parsed
      · rename_i some
        have parsed : Reader.entries count rest = .ok (p.1, p.2) := parsed
        obtain ⟨length, plain⟩ := plain_entries parsed
        exact ⟨length ▸ Nat.pos_of_ne_zero some, plain⟩

theorem encodable_lookup {entries : List RawEntry} (encodable : (Request.openDirectory root).Encodable)
    (plain : ∀ name attributes, (some name, attributes) ∈ entries → Text.Plain name) :
    ∀ entry ∈ entries, ∀ path, lookupPath root entry = some path →
      (Request.lstat path).Encodable := by
  intro entry member path lookup
  obtain ⟨name, size, mode⟩ := entry
  cases name with
  | none => cases lookup
  | some name =>
    cases mode with
    | some mode => cases lookup
    | none =>
      cases lookup
      intro path single
      rw [List.mem_singleton.mp single]
      have rootPlain : root.Plain := plain_of_isSome (encodable root List.mem_cons_self)
      exact (plain_posixJoin rootPlain (plain name _ member)).isSome_utf8Length

/-- What a READDIR brings. -/
inductive Paged (root : Text) (handle : Bytes) (done : List RawEntry) (scan : Scan) (s : Requests)
    (net : Net S) : Option Bytes → Prop
  | last : Bounded net → Dropped root handle s net → Found root net.log scan.last →
    Paged root handle done scan s net none
  | page {payload : Bytes} : (∀ entries, Reader.parse Reader.names payload = .ok entries →
      0 < entries.length ∧ Browsing root handle done [] entries scan s net) →
    Bounded net → Dropped root handle s net → Paged root handle done scan s net (some payload)

theorem pageEntries_ok {reply : Reply} {entries : List RawEntry}
    (read : readNames reply = .ok entries) :
    pageEntries (.readDirectory handle, reply) = entries := by
  rw [pageEntries, read]
  rfl

theorem pageEntries_error {reply : Reply} {e : Exc} (refused : readNames reply = .error e) :
    pageEntries (.readDirectory handle, reply) = [] := by
  rw [pageEntries, refused]
  rfl

/-- A page is added to what was taken. -/
theorem Browsing.page {reply : Reply} {entries : List RawEntry} {s' : Requests} {net' : Net S}
    (h : Browsing root handle done [] [] scan s net) (read : readNames reply = .ok entries)
    (log : net'.log = net.log ++ [(.readDirectory handle, reply)]) (bounded : Bounded net')
    (idle : Outstanding [] s' net') (heard : s'.ignored = []) :
    Browsing root handle done [] entries scan s' net' := by
  obtain ⟨some, plain⟩ := readNames_ok read
  have opened : Opened root handle net'.log := log ▸ h.opened.snoc (.inl rfl)
  have entriesOfLog : entriesOf net'.log = done ++ entries := by
    rw [log, entriesOf_append, h.entries, pageEntries_ok read, List.map_nil, List.append_nil,
      List.append_nil]
  exact {
    bounded := bounded
    waiting := idle
    heard := heard
    opened := opened
    entries := by rw [entriesOfLog, List.map_nil, List.append_nil]
    fits := fun _ none => (List.not_mem_nil none).elim
    taken := by
      obtain ⟨seen, taken, lookups⟩ := h.taken
      refine ⟨seen, taken, ?_⟩
      rw [log, lookupsOf_append, lookups, List.append_assoc]
      rfl
    pages := by
      have before := h.pages
      rw [h.entries, List.map_nil, List.append_nil, List.append_nil] at before
      rw [entriesOfLog, log, pagesAsked_append, List.length_append]
      split <;> omega
    encodable := by
      obtain ⟨_, _, _, _, encodable, _⟩ := opened
      exact encodable_lookup encodable plain }

theorem readPage_wp (answering : Answering serve fault)
    (h : Browsing root handle done [] [] scan s net) :
    (Requests.readPage handle).Wp (wire serve fault Bounded)
      (Post (fun page s' net' => Paged root handle done scan s' net' page)
        fun e s' net' => Abandoned fault root handle e s' net') s net := by
  have entries : entriesOf net.log = done := by
    rw [h.entries, List.map_nil, List.append_nil, List.append_nil]
  have few : pagesAsked net.log ≤ maxListScan := by
    obtain ⟨seen, taken, -⟩ := h.taken
    exact le_trans h.pages (entries ▸ taken.scanned.1)
  have posts : ∀ reply server e, Bounded (net.post (.readDirectory handle) reply server) ∧
      Bounded (net.lose (.readDirectory handle) reply server e) :=
    fun reply server e => h.bounded.post_other rfl fun _ => few
  have answered : ∀ {reply : Reply} {s' : Requests} {net' : Net S},
      net'.log = net.log ++ [(.readDirectory handle, reply)] → Outstanding [] s' net' →
      Dropped root handle s' net' :=
    fun log idle => ⟨idle, log ▸ h.opened.snoc (.inl rfl)⟩
  refine .catching (P := fun r s' net' => Bounded net' ∧
      ((∃ reply, r = (accept .name (stash reply)).map some ∧ s'.ignored = [] ∧
          net'.log = net.log ++ [(.readDirectory handle, reply)] ∧ Outstanding [] s' net') ∨
        ∃ e, r = .error e ∧ fault e)) ?_ ?_ ?_
  · refine .bind (call_wp Bounded.passive h.waiting h.bounded (answering.answers _ _)
      (fun reply server _ => (posts reply server .timeout).1)
      fun reply server e _ _ => (posts reply server e).2) ?_ ?_
    · intro payload s' net' outcome
      obtain ⟨bounded, fewer, called⟩ := outcome
      generalize result : Except.ok payload = r at called
      cases called with
      | @answered reply _ _ _ _ log _ idle =>
        refine .pure (Setting.settled_alone.mpr ⟨bounded, .inl ⟨reply, ?_,
          List.subset_nil.mp (h.heard ▸ fewer), log, idle⟩⟩)
        rw [← result]
        rfl
      | lost => cases result
      | unsent => cases result
    · intro e s' net' outcome
      obtain ⟨bounded, fewer, called⟩ := outcome
      refine Setting.settled_alone.mpr ⟨bounded, ?_⟩
      generalize result : Except.error e = r at called
      cases called with
      | @answered reply _ _ _ _ log _ idle =>
        refine .inl ⟨reply, ?_, List.subset_nil.mp (h.heard ▸ fewer), log, idle⟩
        rw [← result]
        rfl
      | lost _ failed =>
        cases result
        exact .inr ⟨e, rfl, failed⟩
      | unsent failed =>
        cases result
        rcases failed with failed | ⟨-, unencodable⟩
        · exact .inr ⟨e, rfl, failed⟩
        · exact absurd (fun _ none => (List.not_mem_nil none).elim) unencodable
  · intro page s' net' outcome
    obtain ⟨bounded, ⟨reply, same, heard, log, idle⟩ | ⟨e, impossible, -⟩⟩ := outcome
    · refine Setting.settled_alone.mpr ?_
      cases accepted : accept .name (stash reply) with
      | error e =>
        rw [accepted] at same
        cases same
      | ok payload =>
        rw [accepted] at same
        cases same
        refine .page (fun entries parsed => ?_) bounded (answered log idle)
        have read : readNames reply = .ok entries := by
          rw [readNames, accepted]
          exact parsed
        exact ⟨(readNames_ok read).1, h.page read log bounded idle heard⟩
    · cases impossible
  · intro e s' net' outcome
    obtain ⟨bounded, ⟨reply, same, heard, log, idle⟩ | ⟨e', raised, failed⟩⟩ := outcome
    · cases accepted : accept .name (stash reply) with
      | ok payload =>
        rw [accepted] at same
        cases same
      | error e' =>
        rw [accepted] at same
        cases same
        split
        · rename_i ended
          have read : readNames reply = .error (.status sftpEof) := by
            rw [readNames, accepted, ended]
            rfl
          refine .pure (Setting.settled_alone.mpr (.last bounded (answered log idle) ?_))
          obtain ⟨seen, taken, lookups⟩ := h.taken
          refine ⟨done, [], seen, [], ?_, ?_, .inr ⟨scan, taken, rfl, rfl, rfl, handle, reply, ?_,
            read⟩⟩
          · rw [log, entriesOf_append, entries, pageEntries_error read]
          · rw [log, lookupsOf_append, lookups]
            simp [lookupOf]
          · rw [log]
            exact List.mem_append_right _ List.mem_cons_self
        · exact .raise (Setting.settled_alone.mpr
            ⟨bounded, .inr ⟨accept_error accepted, answered log idle⟩⟩)
    · cases raised
      split
      · rename_i ended
        have transport := answering.faults e failed
        rw [ended] at transport
        exact transport.elim
      · exact .raise (Setting.settled_alone.mpr ⟨bounded, .inl failed⟩)

/-- One page. -/
theorem scanPage_wp (answering : Answering serve fault)
    (h : Browsing root handle done [] [] scan s net) :
    (Requests.scanPage root handle scan).Wp (wire serve fault Bounded)
      (Post (fun r s' net' => r.elim
          (fun scan' => ∃ done', done.length < done'.length ∧
            Browsing root handle done' [] [] scan' s' net')
          fun listing => Bounded net' ∧ Dropped root handle s' net' ∧ Found root net'.log listing)
        fun e s' net' => Abandoned fault root handle e s' net') s net := by
  refine .bind (readPage_wp answering h) ?_ fun _ _ _ abandoned => Setting.settled_alone.mpr abandoned
  intro page s' net' paged
  cases paged with
  | last bounded dropped found =>
    exact .pure (Setting.settled_alone.mpr ⟨bounded, dropped, found⟩)
  | @page payload browsing bounded dropped =>
    refine .bind (P := fun r s'' net'' => r = Reader.parse Reader.names payload ∧ s'' = s' ∧
      net'' = net') (.ofExcept (Setting.settled_alone.mpr ⟨rfl, rfl, rfl⟩)) ?_ ?_
    · intro entries s'' net'' parsed
      obtain ⟨parsed, rfl, rfl⟩ := parsed
      obtain ⟨some, browsing⟩ := browsing entries parsed.symm
      refine (classified_wp answering browsing).mono fun r s'' net'' classified => ?_
      cases r with
      | error e => exact classified
      | ok result =>
        cases result with
        | inr listing => exact classified
        | inl scan' =>
          refine ⟨done ++ entries, ?_, classified⟩
          rw [List.length_append]
          omega
    · intro e s'' net'' failed
      obtain ⟨failed, rfl, rfl⟩ := failed
      exact Setting.settled_alone.mpr
        ⟨bounded, .inr ⟨⟨_, Reader.strict_names.parse failed.symm⟩, dropped⟩⟩

/-! ### The whole listing -/

/-- What a listing leaves when the session still works: no reply is expected any
more, and each handle was released. -/
structure Released (root : Text) (s : Requests) (net : Net S) : Prop where
  idle : Outstanding [] s net
  closed : ∀ reply handle, (.openDirectory root, reply) ∈ net.log →
    openedHandle reply = .ok handle → ∃ reply', (.close handle, reply') ∈ net.log

/-- What a listing comes to. -/
structure Settled (fault : Exc → Prop) (root : Text) (r : Except Exc Listing) (s : Requests)
    (net : Net S) : Prop where
  bounded : Bounded net
  found : ∀ listing, r = .ok listing → Found root net.log listing
  released : (∃ e, fault e) ∨ Released root s net
  raised : ∀ e, r = .error e → fault e ∨ (∃ code, e = .status code) ∨ e = .unicodeEncode

theorem Found.snoc {log : Log} {listing : Listing} {request : Request} {reply : Reply}
    (h : Found root log listing) (entries : pageEntries (request, reply) = [])
    (lookup : lookupOf (request, reply) = none) : Found root (log ++ [(request, reply)]) listing := by
  obtain ⟨done, todo, seen, later, entries', lookups, outcome⟩ := h
  refine ⟨done, todo, seen, later, ?_, ?_, ?_⟩
  · rw [entriesOf_append, entries, List.append_nil, entries']
  · rw [lookupsOf_append, lookup, lookups]
    exact List.append_nil _
  · refine outcome.imp_right fun ended => ?_
    obtain ⟨scan, taken, last, none, none', handle, reply', member, refused⟩ := ended
    exact ⟨scan, taken, last, none, none', handle, reply', List.mem_append_left _ member, refused⟩

/-- Releasing the handle. -/
theorem closeDirectory_wp (answering : Answering serve fault) (bounded : Bounded net)
    (dropped : (∃ e, fault e) ∨ Dropped root handle s net) :
    (Requests.closeQuietly handle).Wp (wire serve fault Bounded)
      (fun r s' net' => Bounded net' ∧ ((∃ e, fault e) ∨ Released root s' net') ∧
        (∀ e, r = .error e → fault e) ∧ (net'.log = net.log ∨
          ∃ reply, net'.log = net.log ++ [(.close handle, reply)])) s net := by
  have posts : ∀ reply server e, Bounded (net.post (.close handle) reply server) ∧
      Bounded (net.lose (.close handle) reply server e) :=
    fun reply server e => bounded.post_other rfl fun page => by cases page
  refine .catching (P := fun r s' net' => Bounded net' ∧ ((∃ e, fault e) ∨ Released root s' net') ∧
      (∀ e, r = .error e → fault e) ∧ (net'.log = net.log ∨
        ∃ reply, net'.log = net.log ++ [(.close handle, reply)]))
    (.bind (P := fun r s' net' => Bounded net' ∧ ((∃ reply server, s' = s ∧
        r = .ok net.log.length ∧ net' = net.post (.close handle) reply server) ∨
        ∃ e, r = .error e ∧ fault e ∧ (net'.log = net.log ∨
          ∃ reply, net'.log = net.log ++ [(.close handle, reply)]))) ?_ ?_ ?_) ?_ ?_
  · refine send_wp (answering.answers _ _) ?_ ?_ ?_
    · intro reply server _
      exact ⟨(posts reply server .timeout).1, (posts reply server .timeout).1,
        .inl ⟨reply, server, rfl, rfl, rfl⟩⟩
    · intro e net' failed after
      rcases after with rfl | ⟨reply, server, -, rfl⟩
      · exact ⟨bounded, bounded, .inr ⟨e, rfl, failed, .inl rfl⟩⟩
      · exact ⟨(posts reply server e).2, (posts reply server e).2,
          .inr ⟨e, rfl, failed, .inr ⟨reply, rfl⟩⟩⟩
    · intro unencodable
      exact absurd (fun _ none => (List.not_mem_nil none).elim) unencodable
  · intro number s' net' sent
    obtain ⟨bounded', ⟨reply, server, rfl, same, rfl⟩ | ⟨e, impossible, -⟩⟩ := sent
    · obtain rfl := Except.ok.inj same
      refine .modify (Setting.settled_alone.mpr ⟨bounded', dropped.imp_right ?_, ?_,
        .inr ⟨reply, rfl⟩⟩)
      · intro dropped
        have posted : Outstanding [(net.log.length, reply)] s' (net.post (.close handle) reply server) :=
          dropped.idle.post
        have idle := posted.ignore List.mem_cons_self
        rw [List.erase_cons_head] at idle
        refine ⟨idle, fun reply' handle' member opened => ?_⟩
        obtain ⟨first, rest, log, opened', -, only⟩ := dropped.opened
        change _ ∈ net.log ++ [(.close handle, reply)] at member
        rw [log] at member
        rcases List.mem_cons.mp member with same | inRest
        · cases same
          rw [opened'] at opened
          cases opened
          exact ⟨reply, List.mem_append_right _ List.mem_cons_self⟩
        · rcases List.mem_append.mp inRest with inRest | single
          · rcases only _ inRest with kind | ⟨path, kind⟩ <;> cases kind
          · cases List.mem_singleton.mp single
      · intro e impossible
        cases impossible
    · cases impossible
  · intro e s' net' sent
    obtain ⟨bounded', ⟨_, _, _, impossible, _⟩ | ⟨e', same, failed, log⟩⟩ := sent
    · cases impossible
    · cases same
      refine Setting.settled_alone.mpr ⟨bounded', .inl ⟨e, failed⟩, fun e' same => ?_, log⟩
      cases same
      exact failed
  · exact fun _ _ _ closed => Setting.settled_alone.mpr closed
  · intro e s' net' closed
    split
    · refine .pure (Setting.settled_alone.mpr ⟨closed.1, closed.2.1, ?_, closed.2.2.2⟩)
      intro e' impossible
      cases impossible
    · exact .raise (Setting.settled_alone.mpr closed)

/-- The handle of the directory, or nothing to release. -/
theorem openDirectory_wp (answering : Answering serve fault) {server : S} :
    (Requests.openHandle (.openDirectory root)).Wp (wire serve fault Bounded)
      (Post (fun handle s' net' => Browsing root handle [] [] [] {} s' net')
        fun e s' net' => Settled fault root (.error e) s' net') {} { server } := by
  have start : Bounded ({ server } : Net S) := ⟨Nat.zero_le _, Nat.zero_le _, Nat.zero_le _⟩
  have posts : ∀ reply server' e,
      Bounded ((⟨server, [], [], []⟩ : Net S).post (.openDirectory root) reply server') ∧
      Bounded ((⟨server, [], [], []⟩ : Net S).lose (.openDirectory root) reply server' e) :=
    fun reply server' e => start.post_other rfl fun page => by cases page
  have nothing : ∀ {listing : Listing} {e : Exc}, (Except.error e : Except Exc Listing) ≠ .ok listing :=
    fun impossible => by cases impossible
  have refused : ∀ {e : Exc} {code : Nat} {reply : Reply} {s' : Requests} {net' : Net S},
      e = .status code → openedHandle reply = .error e → Bounded net' → Outstanding [] s' net' →
      net'.log = [(.openDirectory root, reply)] → Settled fault root (.error e) s' net' := by
    intro e code reply s' net' status opened bounded idle log
    refine ⟨bounded, fun _ same => (nothing same).elim, .inr ⟨idle, ?_⟩, ?_⟩
    · intro reply' handle member opened'
      rw [log] at member
      cases List.mem_singleton.mp member
      rw [opened] at opened'
      cases opened'
    · intro e' same
      cases same
      exact .inr (.inl ⟨code, status⟩)
  refine .bind (call_wp Bounded.passive .nil start (answering.answers _ _)
    (fun reply server' _ => (posts reply server' .timeout).1)
    fun reply server' e _ _ => (posts reply server' e).2) ?_ ?_
  · intro payload s' net' outcome
    obtain ⟨bounded, fewer, called⟩ := outcome
    generalize result : Except.ok payload = r at called
    cases called with
    | @answered reply _ _ encodable _ log _ idle =>
      have whole : openedHandle reply = Reader.parse Reader.string payload := by
        rw [openedHandle, ← result]
        rfl
      refine .ofExcept (Setting.settled_alone.mpr ?_)
      cases parsed : Reader.parse Reader.string payload with
      | error e =>
        rw [parsed] at whole
        exact refused (Reader.strict_string.parse parsed) whole bounded idle log
      | ok handle =>
        rw [parsed] at whole
        have same : net'.log = [(.openDirectory root, reply)] := log
        exact {
          bounded := bounded
          waiting := idle
          heard := List.subset_nil.mp fewer
          opened := ⟨reply, [], same, whole, encodable, fun _ none => (List.not_mem_nil none).elim⟩
          entries := by
            rw [same]
            rfl
          fits := fun _ none => (List.not_mem_nil none).elim
          taken := ⟨[], .nil, by rw [same]; rfl⟩
          pages := by
            rw [same]
            exact Nat.zero_le _
          encodable := fun _ none => (List.not_mem_nil none).elim }
    | lost => cases result
    | unsent => cases result
  · intro e s' net' outcome
    obtain ⟨bounded, fewer, called⟩ := outcome
    refine Setting.settled_alone.mpr ?_
    generalize result : Except.error e = r at called
    cases called with
    | @answered reply _ _ _ _ log _ idle =>
      obtain ⟨code, status⟩ := accept_error result.symm
      rw [← result]
      refine refused status ?_ bounded idle log
      rw [openedHandle, ← result]
      rfl
    | lost _ failed =>
      cases result
      refine ⟨bounded, fun _ same => (nothing same).elim, .inl ⟨e, failed⟩, fun e' same => ?_⟩
      cases same
      exact .inl failed
    | unsent failed idle =>
      cases result
      refine ⟨bounded, fun _ same => (nothing same).elim, .inr ⟨idle, ?_⟩, fun e' same => ?_⟩
      · intro reply handle none
        exact (List.not_mem_nil none).elim
      · cases same
        exact failed.imp_right fun unencodable => .inr unencodable.1

/-- `_entries` under `bounded_listing`. -/
theorem scanEntries_wp (answering : Answering serve fault) {server : S} :
    (Requests.scanEntries root).Wp (wire serve fault Bounded) (Settled fault root) {} { server } := by
  refine .bind (openDirectory_wp answering) ?_ fun _ _ _ settled => Setting.settled_alone.mpr settled
  intro handle s net browsing
  refine .ensuring (P := Post (fun listing s' net' => Bounded net' ∧ Dropped root handle s' net' ∧
      Found root net'.log listing) fun e s' net' => Abandoned fault root handle e s' net')
    (.iterate (I := fun n scan s net => ∃ done, n = maxListScan - done.length ∧
      Browsing root handle done [] [] scan s net) ?_ ⟨[], rfl, browsing⟩) ?_
  · intro n scan s net inv
    obtain ⟨done, rfl, browsing⟩ := inv
    refine (scanPage_wp answering browsing).mono fun r s' net' page => ?_
    cases r with
    | error e => exact Setting.settled_alone.mpr page
    | ok result =>
      cases result with
      | inr listing => exact Setting.settled_alone.mpr page
      | inl scan' =>
        obtain ⟨done', more, browsing'⟩ := page
        obtain ⟨seen, taken, -⟩ := browsing'.taken
        have within := taken.scanned.1
        exact Setting.settled_alone.mpr ⟨maxListScan - done'.length, by omega, done', rfl, browsing'⟩
  · intro r s' net' ended
    have dropped : Bounded net' ∧ ((∃ e, fault e) ∨ Dropped root handle s' net') := by
      cases r with
      | ok listing => exact ⟨ended.1, .inr ended.2.1⟩
      | error e => exact ⟨ended.1, ended.2.imp (fun failed => ⟨e, failed⟩) And.right⟩
    refine (closeDirectory_wp answering dropped.1 dropped.2).mono fun r' s'' net'' closed => ?_
    obtain ⟨bounded, released, raised, log⟩ := closed
    cases r' with
    | error e =>
      refine Setting.settled_alone.mpr
        ⟨bounded, fun _ impossible => (by cases impossible), released, fun e' same => ?_⟩
      cases same
      exact .inl (raised e rfl)
    | ok _ =>
      refine Setting.settled_alone.mpr ⟨bounded, ?_, released, ?_⟩
      · intro listing same
        rw [same] at ended
        rcases log with log | ⟨reply, log⟩
        · rw [log]
          exact ended.2.2
        · rw [log]
          exact ended.2.2.snoc rfl rfl
      · intro e same
        rw [same] at ended
        exact ended.2.imp_right fun refused => .inl refused.1

end Loops

end DataBridge
