import Mathlib.Data.List.TakeWhile
import DataBridge.Effect.Ensures
import DataBridge.Sftp.Requests

/-!
# Pairing replies with requests

`_Requests` keeps two tables: the replies that arrived, and the numbers whose reply is to
be dropped. `Session` are the runs of a session: any calls of `send`, `receive` and
`ignore` one after the other, over a `Line` on which replies arrive in any order. Paramiko
numbers the requests, and hands over one reply to each request it registered;
replies with other numbers it drops.

`Paired` says what the tables hold after the calls `done`. An arrival keeps it
(`Paired.arrive`), and each of the three calls adds itself to `done`.
-/

namespace DataBridge

open Effect Routine

/-! ## Paramiko's side -/

/-- Paramiko's side of a session. -/
structure Line where
  next : Nat
  /-- `_expecting`: the requests that were registered and have no reply yet. -/
  expecting : List Nat := []
  /-- The replies that will arrive, in their order. -/
  arriving : List (Nat × Reply)
  /-- The replies that were handed over. -/
  handed : List (Nat × Reply) := []

namespace Line

def register (line : Line) : Line :=
  { line with next := line.next + 1, expecting := line.next :: line.expecting }

/-- The replies from the next one on that answers a registered request. -/
def due (line : Line) : List (Nat × Reply) :=
  line.arriving.dropWhile fun p => decide (p.1 ∉ line.expecting)

/-- A reply is handed over. -/
def hand (p : Nat × Reply) (rest : List (Nat × Reply)) (line : Line) : Line :=
  { line with
    expecting := line.expecting.erase p.1
    arriving := rest
    handed := line.handed ++ [p] }

/-- The answers of paramiko. When the transport fails, a request may have been registered,
and replies may be lost. -/
def sem : Sem Wire Line
  | _, .asyncRequest _, line, r, line' =>
    (r = .ok line.next ∧ line' = line.register) ∨
    ∃ e, TransportFault e ∧ r = .error e ∧ (line' = line ∨ line' = line.register)
  | _, .readResponse, line, r, line' =>
    (∃ p rest, line.due = p :: rest ∧ r = .ok p ∧ line' = line.hand p rest) ∨
    ∃ e rest, TransportFault e ∧ r = .error e ∧ rest <:+ line.arriving ∧
      line' = { line with arriving := rest }

variable {line : Line} {p : Nat × Reply} {rest : List (Nat × Reply)}

theorem expecting_of_due (due : line.due = p :: rest) : p.1 ∈ line.expecting := by
  have some : line.due ≠ [] := by
    rw [due]
    exact List.cons_ne_nil _ _
  have head := List.head_dropWhile_not (fun p : Nat × Reply => decide (p.1 ∉ line.expecting)) some
  have first : line.due.head some = p := by simp only [due, List.head_cons]
  change decide ((line.due.head some).1 ∉ line.expecting) = false at head
  rw [first] at head
  exact not_not.mp (of_decide_eq_false head)

/-- A reply that a registered request waits for is not dropped. -/
theorem mem_due (arrives : p ∈ line.arriving) (expecting : p.1 ∈ line.expecting) :
    p ∈ line.due := by
  have split := List.takeWhile_append_dropWhile (p := fun p => decide (p.1 ∉ line.expecting))
    (l := line.arriving)
  rw [← split] at arrives
  rcases List.mem_append.mp arrives with dropped | due
  · have unexpected := List.mem_takeWhile_imp dropped
    exact absurd expecting (of_decide_eq_true unexpected)
  · exact due

theorem length_due_le (line : Line) : line.due.length ≤ line.arriving.length :=
  List.length_dropWhile_le _ _

end Line

/-! ## The calls of a session -/

/-- A call of `_Requests` that has ended. -/
inductive Done
  | sent (request : Request) (result : Except Exc Nat)
  | received (number : Nat) (expected : ReplyKind) (result : Except Exc Bytes)
  | ignored (number : Nat)

/-- The transport failed before the reply was there. -/
def waitFailed : Except Exc Bytes → Bool
  | .error (.osError _) | .error .timeout | .error .transport | .error .sftpError => true
  | _ => false

/-- The number of the reply that a call took from the table. -/
def Done.taken : Done → Option Nat
  | .received number _ result => if waitFailed result then none else some number
  | _ => none

/-- The replies taken so far. -/
def takes (done : List Done) : List Nat := done.filterMap Done.taken

/-- A number that `send` returned, and whose reply was not taken or ignored. -/
structure Unsettled (done : List Done) (number : Nat) : Prop where
  sent : ∃ request, .sent request (.ok number) ∈ done
  untaken : number ∉ takes done
  heeded : .ignored number ∉ done

/-- The runs of a session. Only what is open is ignored. -/
inductive Session : List Done → Requests → Line → Prop
  | start {next : Nat} {arriving : List (Nat × Reply)} :
    Session [] {} ⟨next, [], arriving, []⟩
  | send {done : List Done} {s s' : Requests} {line line' : Line} {request : Request}
    {result : Except Exc Nat} : Session done s line →
    Runs Line.sem (Requests.send request) s line result s' line' →
    Session (done ++ [.sent request result]) s' line'
  | receive {done : List Done} {s s' : Requests} {line line' : Line} {number : Nat}
    {expected : ReplyKind} {result : Except Exc Bytes} : Session done s line →
    Runs Line.sem (Requests.receive number expected) s line result s' line' →
    Session (done ++ [.received number expected result]) s' line'
  | ignore {done : List Done} {s : Requests} {line : Line} {number : Nat} :
    Session done s line → Unsettled done number →
    Session (done ++ [.ignored number]) (s.ignore number) line

theorem takes_append (done : List Done) (call : Done) :
    takes (done ++ [call]) = takes done ++ call.taken.toList := by
  unfold takes
  rw [List.filterMap_append]
  cases number : call.taken <;> simp [number]

/-! ## The tables -/

/-- What the tables hold after the calls `done`. -/
structure Paired (done : List Done) (s : Requests) (line : Line) : Prop where
  /-- A registered request waits for its reply, or the reply was handed over, once. -/
  expecting : line.expecting.Nodup
  handed : (line.handed.map Prod.fst).Nodup
  apart : ∀ n ∈ line.expecting, n ∉ line.handed.map Prod.fst
  below : ∀ n, n ∈ line.expecting ∨ n ∈ line.handed.map Prod.fst → n < line.next
  sent : ∀ request n, .sent request (.ok n) ∈ done →
    n ∈ line.expecting ∨ n ∈ line.handed.map Prod.fst
  /-- The table of replies: what was handed over, not taken and not ignored. -/
  kept : ∀ n kept, s.replies n = some kept → n ∉ takes done ∧ .ignored n ∉ done ∧
    ∃ reply, (n, reply) ∈ line.handed ∧ kept = stash reply
  found : ∀ n reply, (n, reply) ∈ line.handed → n ∉ takes done → .ignored n ∉ done →
    s.replies n = some (stash reply)
  /-- The table of numbers: what was ignored before its reply came. -/
  dropping : ∀ n ∈ s.ignored, n ∈ line.expecting ∧ .ignored n ∈ done
  distinct : s.ignored.Nodup
  ignored : ∀ n, .ignored n ∈ done → n ∉ takes done ∧
    (n ∈ s.ignored ∨ n ∈ line.handed.map Prod.fst)
  taken : ∀ n ∈ takes done, n ∈ line.handed.map Prod.fst
  once : (takes done).Nodup
  results : ∀ n expected result, .received n expected result ∈ done → waitFailed result = true ∨
    ∃ reply, (n, reply) ∈ line.handed ∧ result = accept expected (stash reply)

namespace Paired

variable {done : List Done} {s : Requests} {line : Line}

theorem start {next : Nat} {arriving : List (Nat × Reply)} :
    Paired [] {} ⟨next, [], arriving, []⟩ where
  expecting := List.nodup_nil
  handed := List.nodup_nil
  apart := fun _ member => (List.not_mem_nil member).elim
  below := fun _ member => by simp at member
  sent := fun _ _ member => (List.not_mem_nil member).elim
  kept := fun _ _ impossible => by cases impossible
  found := fun _ _ member => (List.not_mem_nil member).elim
  dropping := fun _ member => (List.not_mem_nil member).elim
  distinct := List.nodup_nil
  ignored := fun _ member => (List.not_mem_nil member).elim
  taken := fun _ member => (List.not_mem_nil member).elim
  once := List.nodup_nil
  results := fun _ _ _ member => (List.not_mem_nil member).elim

/-- What arrives later does not matter. -/
theorem lose {rest : List (Nat × Reply)} (paired : Paired done s line) :
    Paired done s { line with arriving := rest } :=
  { paired with }

theorem register (paired : Paired done s line) : Paired done s line.register where
  expecting := List.nodup_cons.mpr
    ⟨fun member => (paired.below _ (.inl member)).false, paired.expecting⟩
  handed := paired.handed
  apart := by
    intro n member
    rcases List.mem_cons.mp member with rfl | member
    · exact fun inHanded => (paired.below _ (.inr inHanded)).false
    · exact paired.apart n member
  below := by
    intro n member
    change n < line.next + 1
    rcases member with member | member
    · rcases List.mem_cons.mp member with rfl | member
      · omega
      · have := paired.below n (.inl member)
        omega
    · have := paired.below n (.inr member)
      omega
  sent := fun request n member => (paired.sent request n member).imp_left (List.mem_cons_of_mem _)
  kept := paired.kept
  found := paired.found
  dropping := fun n member =>
    ⟨List.mem_cons_of_mem _ (paired.dropping n member).1, (paired.dropping n member).2⟩
  distinct := paired.distinct
  ignored := paired.ignored
  taken := paired.taken
  once := paired.once
  results := paired.results

/-- A reply arrives: it is dropped if its request was ignored, and else kept. -/
theorem arrive {p : Nat × Reply} {rest : List (Nat × Reply)} (paired : Paired done s line)
    (awaited : p.1 ∈ line.expecting) :
    Paired done (s.asyncResponse p.1 p.2) (line.hand p rest) := by
  have keys : ((line.handed ++ [p]).map Prod.fst) = line.handed.map Prod.fst ++ [p.1] := by simp
  have fresh : p.1 ∉ line.handed.map Prod.fst := paired.apart _ awaited
  have untaken : p.1 ∉ takes done := fun member => fresh (paired.taken _ member)
  have others : ∀ n, n ∈ line.expecting.erase p.1 ↔ n ≠ p.1 ∧ n ∈ line.expecting := fun n =>
    paired.expecting.mem_erase_iff
  have later : ∀ n, n ∈ line.handed.map Prod.fst → n ∈ (line.handed ++ [p]).map Prod.fst := by
    intro n member
    rw [keys]
    exact List.mem_append_left _ member
  have now : p.1 ∈ (line.handed ++ [p]).map Prod.fst := by simp
  have registered : ∀ n, n ∈ line.expecting ∨ n ∈ line.handed.map Prod.fst ↔
      n ∈ line.expecting.erase p.1 ∨ n ∈ (line.handed ++ [p]).map Prod.fst := by
    intro n
    rw [keys, others, List.mem_append, List.mem_singleton]
    by_cases same : n = p.1
    · subst same
      exact ⟨fun _ => .inr (.inr rfl), fun _ => .inl awaited⟩
    · simp [same]
  have result : ∀ n expected result, .received n expected result ∈ done →
      waitFailed result = true ∨
        ∃ reply, (n, reply) ∈ line.handed ++ [p] ∧ result = accept expected (stash reply) := by
    intro n expected result member
    refine (paired.results n expected result member).imp_right ?_
    intro ⟨reply, inHanded, same⟩
    exact ⟨reply, List.mem_append_left _ inHanded, same⟩
  -- What neither table decides.
  have common (s' : Requests)
      (kept : ∀ n kept, s'.replies n = some kept → n ∉ takes done ∧ .ignored n ∉ done ∧
        ∃ reply, (n, reply) ∈ line.handed ++ [p] ∧ kept = stash reply)
      (found : ∀ n reply, (n, reply) ∈ line.handed ++ [p] → n ∉ takes done →
        .ignored n ∉ done → s'.replies n = some (stash reply))
      (dropping : ∀ n ∈ s'.ignored, n ∈ line.expecting.erase p.1 ∧ .ignored n ∈ done)
      (distinct : s'.ignored.Nodup)
      (ignored : ∀ n, .ignored n ∈ done → n ∈ s'.ignored ∨ n ∈ (line.handed ++ [p]).map Prod.fst) :
      Paired done s' (line.hand p rest) :=
    { expecting := paired.expecting.erase _
      handed := by
        change ((line.handed ++ [p]).map Prod.fst).Nodup
        rw [keys, List.nodup_append]
        refine ⟨paired.handed, List.nodup_singleton _, ?_⟩
        intro n member m single same
        rw [List.mem_singleton.mp single] at same
        exact fresh (same ▸ member)
      apart := by
        intro n member inKeys
        obtain ⟨differs, expecting⟩ := (others n).mp member
        change n ∈ (line.handed ++ [p]).map Prod.fst at inKeys
        rw [keys, List.mem_append, List.mem_singleton] at inKeys
        exact inKeys.elim (paired.apart n expecting) differs
      below := fun n member => paired.below n ((registered n).mpr member)
      sent := fun request n member => (registered n).mp (paired.sent request n member)
      kept := kept
      found := found
      dropping := dropping
      distinct := distinct
      ignored := fun n member => ⟨(paired.ignored n member).1, ignored n member⟩
      taken := fun n member => later n (paired.taken n member)
      once := paired.once
      results := result }
  unfold Requests.asyncResponse
  split
  · rename_i dropped
    have gone : .ignored p.1 ∈ done := (paired.dropping _ dropped).2
    refine common _ ?_ ?_ ?_ ?_ ?_
    · intro n kept isKept
      obtain ⟨untaken, heeded, reply, inHanded, same⟩ := paired.kept n kept isKept
      exact ⟨untaken, heeded, reply, List.mem_append_left _ inHanded, same⟩
    · intro n reply member untaken heeded
      rcases List.mem_append.mp member with before | new
      · exact paired.found n reply before untaken heeded
      · cases List.mem_singleton.mp new
        exact absurd gone heeded
    · intro n member
      obtain ⟨differs, before⟩ := paired.distinct.mem_erase_iff.mp member
      obtain ⟨expecting, isIgnored⟩ := paired.dropping n before
      exact ⟨(others n).mpr ⟨differs, expecting⟩, isIgnored⟩
    · exact paired.distinct.erase _
    · intro n member
      by_cases same : n = p.1
      · exact .inr (same ▸ now)
      · exact (paired.ignored n member).2.imp
          (fun before => paired.distinct.mem_erase_iff.mpr ⟨same, before⟩) (later n)
  · rename_i heeded
    have unignored : .ignored p.1 ∉ done := fun member =>
      (paired.ignored _ member).2.elim heeded fresh
    refine common _ ?_ ?_ ?_ ?_ ?_
    · intro n kept isKept
      by_cases same : n = p.1
      · subst same
        change Function.update s.replies p.1 _ p.1 = _ at isKept
        rw [Function.update_self] at isKept
        cases isKept
        exact ⟨untaken, unignored, p.2, List.mem_append_right _ List.mem_cons_self, rfl⟩
      · change Function.update s.replies p.1 _ n = _ at isKept
        rw [Function.update_of_ne same] at isKept
        obtain ⟨untaken, heeded, reply, inHanded, eq⟩ := paired.kept n kept isKept
        exact ⟨untaken, heeded, reply, List.mem_append_left _ inHanded, eq⟩
    · intro n reply member untaken heeded
      change Function.update s.replies p.1 _ n = _
      rcases List.mem_append.mp member with before | new
      · have differs : n ≠ p.1 := by
          intro same
          exact fresh (same ▸ List.mem_map_of_mem before)
        rw [Function.update_of_ne differs]
        exact paired.found n reply before untaken heeded
      · cases List.mem_singleton.mp new
        exact Function.update_self ..
    · intro n member
      obtain ⟨expecting, isIgnored⟩ := paired.dropping n member
      have differs : n ≠ p.1 := by
        intro same
        exact unignored (same ▸ isIgnored)
      exact ⟨(others n).mpr ⟨differs, expecting⟩, isIgnored⟩
    · exact paired.distinct
    · intro n member
      exact (paired.ignored n member).2.imp_right (later n)

/-! ## The three calls -/

/-- A call that leaves the tables alone and took nothing. -/
theorem idle {call : Done} (paired : Paired done s line) (nothing : call.taken = none)
    (heeded : ∀ n, call ≠ .ignored n)
    (sent : ∀ request n, call = .sent request (.ok n) →
      n ∈ line.expecting ∨ n ∈ line.handed.map Prod.fst)
    (failed : ∀ n expected result, call = .received n expected result →
      waitFailed result = true) : Paired (done ++ [call]) s line := by
  have same : takes (done ++ [call]) = takes done := by
    rw [takes_append, nothing]
    exact List.append_nil _
  have before : ∀ other ∈ done ++ [call], other ∈ done ∨ other = call := fun other member =>
    (List.mem_append.mp member).imp_right List.mem_singleton.mp
  have isIgnored : ∀ n, .ignored n ∈ done ++ [call] ↔ .ignored n ∈ done := fun n =>
    ⟨fun member => (before _ member).resolve_right fun eq => heeded n eq.symm,
      List.mem_append_left _⟩
  exact {
    expecting := paired.expecting
    handed := paired.handed
    apart := paired.apart
    below := paired.below
    sent := fun request n member => (before _ member).elim (paired.sent request n)
      fun eq => sent request n eq.symm
    kept := by
      rw [same]
      simp only [isIgnored]
      exact paired.kept
    found := by
      rw [same]
      simp only [isIgnored]
      exact paired.found
    dropping := by
      simp only [isIgnored]
      exact paired.dropping
    distinct := paired.distinct
    ignored := by
      rw [same]
      simp only [isIgnored]
      exact paired.ignored
    taken := by
      rw [same]
      exact paired.taken
    once := by
      rw [same]
      exact paired.once
    results := fun n expected result member => (before _ member).elim
      (paired.results n expected result) fun eq => .inl (failed n expected result eq.symm) }

theorem waitFailed_accept (expected : ReplyKind) (reply : Option Reply) :
    waitFailed (accept expected reply) = false := by
  cases outcome : accept expected reply with
  | ok payload => rfl
  | error e =>
    obtain ⟨code, rfl⟩ := accept_error outcome
    rfl

/-- `receive` takes the reply to its request from the table. -/
theorem take {n : Nat} {expected : ReplyKind} {kept : Option Reply} (paired : Paired done s line)
    (isKept : s.replies n = some kept) :
    Paired (done ++ [.received n expected (accept expected kept)])
      { s with replies := Function.update s.replies n none } line := by
  obtain ⟨untaken, heeded, reply, inHanded, rfl⟩ := paired.kept n kept isKept
  have taken : takes (done ++ [.received n expected (accept expected (stash reply))]) =
      takes done ++ [n] := by
    rw [takes_append, Done.taken, waitFailed_accept]
    rfl
  have before : ∀ other ∈ done ++ [.received n expected (accept expected (stash reply))],
      other ∈ done ∨ other = .received n expected (accept expected (stash reply)) :=
    fun other member => (List.mem_append.mp member).imp_right List.mem_singleton.mp
  have isIgnored : ∀ m, .ignored m ∈ done ++
      [.received n expected (accept expected (stash reply))] ↔ .ignored m ∈ done := by
    intro m
    constructor
    · intro member
      exact (before _ member).resolve_right fun eq => by cases eq
    · exact List.mem_append_left _
  have key : n ∈ line.handed.map Prod.fst := List.mem_map_of_mem inHanded
  exact {
    expecting := paired.expecting
    handed := paired.handed
    apart := paired.apart
    below := paired.below
    sent := by
      intro request m member
      rcases before _ member with member | eq
      · exact paired.sent request m member
      · cases eq
    kept := by
      intro m other otherKept
      have differs : m ≠ n := by
        intro same
        subst same
        change Function.update s.replies m none m = _ at otherKept
        rw [Function.update_self] at otherKept
        cases otherKept
      change Function.update s.replies n none m = _ at otherKept
      rw [Function.update_of_ne differs] at otherKept
      obtain ⟨untaken, heeded, found⟩ := paired.kept m other otherKept
      rw [taken, isIgnored]
      refine ⟨fun member => ?_, heeded, found⟩
      rcases List.mem_append.mp member with member | single
      · exact untaken member
      · exact differs (List.mem_singleton.mp single)
    found := by
      intro m other member untaken heeded
      rw [taken] at untaken
      rw [isIgnored] at heeded
      have differs : m ≠ n := by
        intro same
        exact untaken (List.mem_append_right _ (List.mem_singleton.mpr same))
      change Function.update s.replies n none m = _
      rw [Function.update_of_ne differs]
      exact paired.found m other member (fun inTakes => untaken (List.mem_append_left _ inTakes))
        heeded
    dropping := by
      simp only [isIgnored]
      exact paired.dropping
    distinct := paired.distinct
    ignored := by
      intro m member
      rw [isIgnored] at member
      rw [taken]
      refine ⟨fun inTakes => ?_, (paired.ignored m member).2⟩
      rcases List.mem_append.mp inTakes with inTakes | single
      · exact (paired.ignored m member).1 inTakes
      · rw [List.mem_singleton.mp single] at member
        exact heeded member
    taken := by
      rw [taken]
      intro m member
      rcases List.mem_append.mp member with member | single
      · exact paired.taken m member
      · rw [List.mem_singleton.mp single]
        exact key
    once := by
      rw [taken, List.nodup_append]
      refine ⟨paired.once, List.nodup_singleton _, ?_⟩
      intro m member k single same
      rw [List.mem_singleton.mp single] at same
      exact untaken (same ▸ member)
    results := by
      intro m expected' result member
      rcases before _ member with member | eq
      · exact paired.results m expected' result member
      · cases eq
        exact .inr ⟨reply, inHanded, rfl⟩ }

/-- `ignore` drops the reply, whether it is there or not. -/
theorem ignore {n : Nat} (paired : Paired done s line) (unsettled : Unsettled done n) :
    Paired (done ++ [.ignored n]) (s.ignore n) line := by
  have taken : takes (done ++ [.ignored n]) = takes done := by
    rw [takes_append]
    exact List.append_nil _
  have before : ∀ other ∈ done ++ [.ignored n], other ∈ done ∨ other = .ignored n :=
    fun other member => (List.mem_append.mp member).imp_right List.mem_singleton.mp
  have isIgnored : ∀ m, .ignored m ∈ done ++ [.ignored n] ↔ m = n ∨ .ignored m ∈ done := by
    intro m
    rw [List.mem_append, List.mem_singleton, or_comm, Done.ignored.injEq]
  have others : ∀ m, (s.ignore n).replies m = if m = n then none else s.replies m := by
    intro m
    unfold Requests.ignore
    split
    · change Function.update s.replies n none m = _
      rw [Function.update_apply]
    · rename_i absent
      split
      · rename_i same
        rw [same]
        exact Option.not_isSome_iff_eq_none.mp absent
      · rfl
  have registered := unsettled.sent.elim fun request member => paired.sent request n member
  exact {
    expecting := paired.expecting
    handed := paired.handed
    apart := paired.apart
    below := paired.below
    sent := by
      intro request m member
      rcases before _ member with member | eq
      · exact paired.sent request m member
      · cases eq
    kept := by
      intro m kept isKept
      rw [others] at isKept
      split at isKept
      · cases isKept
      · rename_i differs
        obtain ⟨untaken, heeded, found⟩ := paired.kept m kept isKept
        rw [taken, isIgnored]
        exact ⟨untaken, fun member => member.elim differs heeded, found⟩
    found := by
      intro m reply member untaken heeded
      rw [taken] at untaken
      rw [isIgnored, not_or] at heeded
      rw [others, if_neg heeded.1]
      exact paired.found m reply member untaken heeded.2
    dropping := by
      intro m member
      rw [isIgnored]
      unfold Requests.ignore at member
      split at member
      · exact ⟨(paired.dropping m member).1, .inr (paired.dropping m member).2⟩
      · rename_i absent
        rcases List.mem_insert_iff.mp member with rfl | member
        · refine ⟨registered.resolve_right fun inHanded => ?_, .inl rfl⟩
          obtain ⟨⟨m, reply⟩, handed, rfl⟩ := List.mem_map.mp inHanded
          apply absent
          rw [paired.found m reply handed unsettled.untaken unsettled.heeded]
          rfl
        · exact ⟨(paired.dropping m member).1, .inr (paired.dropping m member).2⟩
    distinct := by
      unfold Requests.ignore
      split
      · exact paired.distinct
      · exact paired.distinct.insert
    ignored := by
      intro m member
      rw [taken]
      unfold Requests.ignore
      rcases (isIgnored m).mp member with rfl | member
      · refine ⟨unsettled.untaken, ?_⟩
        split
        · rename_i isKept
          obtain ⟨kept, same⟩ := Option.isSome_iff_exists.mp isKept
          obtain ⟨-, -, reply, inHanded, -⟩ := paired.kept m kept same
          exact .inr (List.mem_map_of_mem inHanded)
        · exact .inl List.mem_insert_self
      · refine ⟨(paired.ignored m member).1, ?_⟩
        split
        · exact (paired.ignored m member).2
        · exact (paired.ignored m member).2.imp_left List.mem_insert_of_mem
    taken := by
      rw [taken]
      exact paired.taken
    once := by
      rw [taken]
      exact paired.once
    results := by
      intro m expected result member
      rcases before _ member with member | eq
      · exact paired.results m expected result member
      · cases eq }

end Paired

/-! ## The runs of the calls -/

section Runs

variable {done : List Done} {s s' : Requests} {line line' : Line}

theorem Paired.send {request : Request} {result : Except Exc Nat} (paired : Paired done s line)
    (run : Runs Line.sem (Requests.send request) s line result s' line') :
    Paired (done ++ [.sent request result]) s' line' := by
  have failed (e : Exc) {line : Line} (paired : Paired done s line) :
      Paired (done ++ [.sent request (.error e)]) s line := by
    refine paired.idle rfl ?_ ?_ ?_
    · intro n impossible
      cases impossible
    · intro request n impossible
      cases impossible
    · intro n expected result impossible
      cases impossible
  unfold Requests.send at run
  split at run
  · obtain ⟨⟨rfl, rfl⟩ | ⟨e, -, rfl, rfl | rfl⟩, rfl⟩ := run.of_invoke
    · refine paired.register.idle rfl ?_ ?_ ?_
      · intro n impossible
        cases impossible
      · intro request n same
        cases same
        exact .inl List.mem_cons_self
      · intro n expected result impossible
        cases impossible
    · exact failed e paired
    · exact failed e paired.register
  · obtain ⟨rfl, rfl, rfl⟩ := run.of_raise
    exact failed _ paired

/-- One pass of the wait. -/
theorem Paired.await {n : Nat} (paired : Paired done s line) :
    (Requests.await n).Ensures Line.sem (Post
      (fun r s line => Paired done s line ∧ (r = .inr () → (s.replies n).isSome))
      fun e s line => Paired done s line ∧ TransportFault e) s line := by
  rw [Requests.await, Ensures.fields_bind]
  split
  · rename_i isKept
    exact .pure ⟨paired, fun _ => isKept⟩
  · refine .bind (P := Post (fun p s' line' => s' = s ∧ ∃ rest, line.due = p :: rest ∧
        line' = line.hand p rest)
      fun e s line => Paired done s line ∧ TransportFault e) (.invoke ?_) ?_ ?_
    · intro r line' answer
      rcases answer with ⟨p, rest, due, rfl, rfl⟩ | ⟨e, rest, failed, rfl, -, rfl⟩
      · exact ⟨rfl, rest, due, rfl⟩
      · exact ⟨paired.lose, failed⟩
    · intro p s' line' arrived
      obtain ⟨rfl, rest, due, rfl⟩ := arrived
      rw [Ensures.modify_bind]
      refine .pure ⟨paired.arrive (Line.expecting_of_due due), ?_⟩
      intro impossible
      cases impossible
    · exact fun _ _ _ h => h

theorem waitFailed_of_transportFault {e : Exc} (fault : TransportFault e) :
    waitFailed (.error e) = true := by
  cases e with
  | osError | timeout | transport | sftpError => rfl
  | _ => exact fault.elim

theorem Paired.receive {n : Nat} {expected : ReplyKind} {result : Except Exc Bytes}
    (paired : Paired done s line)
    (run : Runs Line.sem (Requests.receive n expected) s line result s' line') :
    Paired (done ++ [.received n expected result]) s' line' := by
  have waited : (Routine.iterate (fun _ => Requests.await n) ()).Ensures Line.sem (Post
      (fun _ s line => Paired done s line ∧ (s.replies n).isSome)
      fun e s line => Paired done s line ∧ TransportFault e) s line := by
    refine .iterate (I := fun _ s line => Paired done s line) ?_ paired
    intro _ s line paired
    refine paired.await.mono ?_
    intro r s line outcome
    match r with
    | .ok (.inl _) => exact outcome.1
    | .ok (.inr _) => exact ⟨outcome.1, outcome.2 rfl⟩
    | .error e => exact outcome
  rcases run.of_bind with ⟨e, rfl, failed⟩ | ⟨_, s₁, line₁, kept, rest⟩
  · obtain ⟨paired, fault⟩ := waited _ _ _ failed
    have gaveUp := waitFailed_of_transportFault fault
    refine paired.idle ?_ ?_ ?_ ?_
    · rw [Done.taken, if_pos gaveUp]
    · intro n impossible
      cases impossible
    · intro request n impossible
      cases impossible
    · intro n expected result same
      cases same
      exact gaveUp
  · obtain ⟨paired, isKept⟩ := waited _ _ _ kept
    obtain ⟨reply, same⟩ := Option.isSome_iff_exists.mp isKept
    have last : Runs Line.sem (ofExcept (accept expected ((s₁.replies n).getD none)))
        { s₁ with replies := Function.update s₁.replies n none } line₁ result s' line' := rest
    obtain ⟨rfl, rfl, rfl⟩ := last.of_ofExcept
    rw [same, Option.getD_some]
    exact paired.take same

/-- The tables are paired after every run. -/
theorem Session.paired (session : Session done s line) : Paired done s line := by
  induction session with
  | start => exact .start
  | send _ run ih => exact ih.send run
  | receive _ run ih => exact ih.receive run
  | ignore _ unsettled ih => exact ih.ignore unsettled

/-- When the reply is there or will arrive, the wait for it ends. -/
theorem Paired.receive_ends {n : Nat} {expected : ReplyKind} (paired : Paired done s line)
    (unsettled : Unsettled done n)
    (arrives : n ∈ line.expecting → ∃ reply, (n, reply) ∈ line.arriving) :
    (Requests.receive n expected).Wp (Setting.alone Line.sem fun _ _ => True)
      (fun _ _ _ => True) s line := by
  refine .bind (P := fun _ _ _ => True) ?_ ?_ ?_
  · -- The variant is the number of replies that will still arrive.
    refine .iterate (I := fun k _ s line => Paired done s line ∧
      (n ∈ line.expecting → ∃ reply, (n, reply) ∈ line.arriving) ∧ line.arriving.length = k) ?_
      ⟨paired, arrives, rfl⟩
    intro k _ s line inv
    obtain ⟨paired, arrives, rfl⟩ := inv
    rw [Requests.await, Wp.fields_bind]
    split
    · exact .pure (Setting.settled_alone.mpr (Setting.settled_alone.mpr trivial))
    · rename_i absent
      have expecting : n ∈ line.expecting := by
        obtain ⟨request, member⟩ := unsettled.sent
        refine (paired.sent request n member).resolve_right fun inHanded => absent ?_
        obtain ⟨⟨n, reply⟩, handed, rfl⟩ := List.mem_map.mp inHanded
        rw [paired.found n reply handed unsettled.untaken unsettled.heeded]
        rfl
      obtain ⟨reply, arriving⟩ := arrives expecting
      have awaited : (n, reply) ∈ line.due := Line.mem_due arriving expecting
      obtain ⟨p, rest, due⟩ : ∃ p rest, line.due = p :: rest :=
        List.exists_cons_of_ne_nil (List.ne_nil_of_mem awaited)
      have shorter : rest.length < line.arriving.length := by
        have := line.length_due_le
        rw [due, List.length_cons] at this
        exact this
      refine .bind (P := Post (fun q s' line' => s' = s ∧ q = p ∧ line' = line.hand p rest)
        fun _ _ _ => True) (.invoke fun _ same => ?_) ?_ ?_
      · subst same
        refine ⟨⟨_, _, .inl ⟨p, rest, due, rfl, rfl⟩⟩, ?_⟩
        intro r line' answer
        refine ⟨trivial, Setting.settled_alone.mpr ?_⟩
        rcases answer with ⟨q, rest', due', rfl, rfl⟩ | ⟨e, rest', -, rfl, -, rfl⟩
        · obtain ⟨rfl, rfl⟩ := List.cons.inj (due.symm.trans due')
          exact ⟨rfl, rfl, rfl⟩
        · exact trivial
      · intro q s' line' arrived
        obtain ⟨rfl, rfl, rfl⟩ := arrived
        rw [Wp.modify_bind]
        refine .pure (Setting.settled_alone.mpr (Setting.settled_alone.mpr
          ⟨_, shorter, paired.arrive (Line.expecting_of_due due), ?_, rfl⟩))
        intro still
        obtain ⟨differs, -⟩ := paired.expecting.mem_erase_iff.mp still
        rw [due] at awaited
        rcases List.mem_cons.mp awaited with same | later
        · exact absurd (congrArg Prod.fst same) differs
        · exact ⟨reply, later⟩
      · intro e s' line' _
        exact Setting.settled_alone.mpr (Setting.settled_alone.mpr trivial)
  · intro _ s line _
    rw [Wp.fields_bind, Wp.modify_bind]
    exact .ofExcept (Setting.settled_alone.mpr trivial)
  · intro e s line _
    exact Setting.settled_alone.mpr trivial

/-- `call` sends and receives. -/
theorem Session.call {request : Request} {expected : ReplyKind} {result : Except Exc Bytes}
    (session : Session done s line)
    (run : Runs Line.sem (Requests.call request expected) s line result s' line') :
    ∃ more, Session (done ++ more) s' line' := by
  rcases run.of_bind with ⟨e, rfl, failed⟩ | ⟨number, s₁, line₁, sent, received⟩
  · exact ⟨_, session.send failed⟩
  · refine ⟨[.sent request (.ok number), .received number expected result], ?_⟩
    rw [List.append_cons]
    exact (session.send sent).receive received

/-- A new number is not settled. -/
theorem Session.unsettled {request : Request} {number : Nat} (session : Session done s line)
    (run : Runs Line.sem (Requests.send request) s line (.ok number) s' line') :
    Unsettled (done ++ [.sent request (.ok number)]) number := by
  have paired := session.paired
  have fresh : number = line.next := by
    unfold Requests.send at run
    split at run
    · obtain ⟨⟨same, -⟩ | ⟨e, -, impossible, -⟩, -⟩ := run.of_invoke
      · exact Except.ok.inj same
      · cases impossible
    · cases run.of_raise.1
  have unregistered : ¬ (number ∈ line.expecting ∨ number ∈ line.handed.map Prod.fst) := by
    intro registered
    have := paired.below number registered
    omega
  constructor
  · exact ⟨request, List.mem_append_right _ List.mem_cons_self⟩
  · intro member
    rw [takes_append] at member
    rcases List.mem_append.mp member with before | impossible
    · exact unregistered (.inr (paired.taken number before))
    · cases impossible
  · intro member
    rcases List.mem_append.mp member with before | impossible
    · exact unregistered ((paired.ignored number before).2.imp_left fun dropping =>
        (paired.dropping number dropping).1)
    · cases List.mem_singleton.mp impossible

/-- `close_quietly` sends and ignores. -/
theorem Session.closeQuietly {handle : Bytes} {result : Except Exc Unit}
    (session : Session done s line)
    (run : Runs Line.sem (Requests.closeQuietly handle) s line result s' line') :
    ∃ more, Session (done ++ more) s' line' := by
  rcases run.of_catching with ⟨_, rfl, closed⟩ | ⟨e, s₁, line₁, failed, handled⟩
  · rcases closed.of_bind with ⟨e, impossible, -⟩ | ⟨number, s₁, line₁, sent, rest⟩
    · cases impossible
    · obtain ⟨same, rfl⟩ := Runs.of_ret rest
      cases same
      refine ⟨[.sent (.close handle) (.ok number), .ignored number], ?_⟩
      rw [List.append_cons]
      exact (session.send sent).ignore (session.unsettled sent)
  · have same : s' = s₁ ∧ line' = line₁ := by
      split at handled
      · exact handled.of_pure.2
      · exact handled.of_raise.2
    obtain ⟨rfl, rfl⟩ := same
    rcases failed.of_bind with ⟨e, -, unsent⟩ | ⟨number, s₁, line₁, sent, rest⟩
    · exact ⟨_, session.send unsent⟩
    · cases (Runs.of_ret rest).1

theorem fault_of_waitFailed {result : Except Exc Bytes} (failed : waitFailed result = true) :
    ∃ e, TransportFault e ∧ result = .error e := by
  cases result with
  | ok payload => cases failed
  | error e =>
    cases e with
    | osError kind => exact ⟨.osError kind, trivial, rfl⟩
    | timeout => exact ⟨.timeout, trivial, rfl⟩
    | transport => exact ⟨.transport, trivial, rfl⟩
    | sftpError => exact ⟨.sftpError, trivial, rfl⟩
    | _ => cases failed

/-- Only what was sent is ignored. -/
theorem Session.sent_of_ignored {n : Nat} (session : Session done s line)
    (ignored : .ignored n ∈ done) : ∃ request, .sent request (.ok n) ∈ done := by
  induction session with
  | start => cases ignored
  | send _ _ ih | receive _ _ ih =>
    rcases List.mem_append.mp ignored with before | impossible
    · obtain ⟨request, member⟩ := ih before
      exact ⟨request, List.mem_append_left _ member⟩
    · cases List.mem_singleton.mp impossible
  | ignore _ unsettled ih =>
    rcases List.mem_append.mp ignored with before | same
    · obtain ⟨request, member⟩ := ih before
      exact ⟨request, List.mem_append_left _ member⟩
    · cases List.mem_singleton.mp same
      obtain ⟨request, member⟩ := unsettled.sent
      exact ⟨request, List.mem_append_left _ member⟩

/-- After every run of a session: paramiko handed over one reply to a request at most;
each `receive` went by the reply to its own request; a reply that was ignored was neither
received nor stays; no reply was taken twice; once all that was sent is answered and all
that was answered is settled, both tables are empty; and a `receive` of an open request
ends if its reply is there or will arrive. -/
theorem requests_paired (session : Session done s line) :
    (line.handed.map Prod.fst).Nodup ∧
    (∀ n expected result, .received n expected result ∈ done →
      (∃ e, TransportFault e ∧ result = .error e) ∨
        ∃ reply, (n, reply) ∈ line.handed ∧ result = accept expected (stash reply)) ∧
    (∀ n, .ignored n ∈ done → s.replies n = none ∧
      ∀ expected result, .received n expected result ∈ done →
        ∃ e, TransportFault e ∧ result = .error e) ∧
    (takes done).Nodup ∧
    ((∀ request n, .sent request (.ok n) ∈ done → n ∈ line.handed.map Prod.fst) →
      (∀ n ∈ line.handed.map Prod.fst, n ∈ takes done ∨ .ignored n ∈ done) →
      (∀ n, s.replies n = none) ∧ s.ignored = []) ∧
    ∀ n expected, Unsettled done n →
      (n ∈ line.expecting → ∃ reply, (n, reply) ∈ line.arriving) →
      Prog.Ends Line.sem (Requests.receive n expected s) line fun outcome line' =>
        (∃ e, TransportFault e ∧ outcome.1 = .error e) ∨
          ∃ reply, (n, reply) ∈ line'.handed ∧ outcome.1 = accept expected (stash reply) := by
  have paired := session.paired
  refine ⟨paired.handed, ?_, ?_, paired.once, ?_, ?_⟩
  · intro n expected result member
    exact (paired.results n expected result member).imp_left fault_of_waitFailed
  · intro n isIgnored
    constructor
    · cases isKept : s.replies n with
      | none => rfl
      | some kept => exact absurd isIgnored (paired.kept n kept isKept).2.1
    · intro expected result member
      apply fault_of_waitFailed
      cases gaveUp : waitFailed result with
      | true => rfl
      | false =>
        refine absurd ?_ (paired.ignored n isIgnored).1
        refine List.mem_filterMap.mpr ⟨_, member, ?_⟩
        rw [Done.taken, gaveUp]
        rfl
  · intro answered settled
    constructor
    · intro n
      cases isKept : s.replies n with
      | none => rfl
      | some kept =>
        obtain ⟨untaken, heeded, reply, inHanded, -⟩ := paired.kept n kept isKept
        exact ((settled n (List.mem_map_of_mem inHanded)).elim untaken heeded).elim
    · refine List.eq_nil_iff_forall_not_mem.mpr fun n dropping => ?_
      obtain ⟨expecting, isIgnored⟩ := paired.dropping n dropping
      obtain ⟨request, sent⟩ := session.sent_of_ignored isIgnored
      exact paired.apart n expecting (answered request n sent)
  · intro n expected unsettled arrives
    have ends := (@Paired.receive_ends _ _ _ n expected paired unsettled arrives).ends
    refine ⟨ends.finite, ends.stuckFree, ?_⟩
    intro outcome line' run
    have ran : Runs Line.sem (Requests.receive n expected) s line outcome.1 outcome.2 line' := run
    have received := (session.receive ran).paired
    exact (received.results n expected outcome.1
      (List.mem_append_right _ List.mem_cons_self)).imp_left fault_of_waitFailed

end Runs

/-- Every request is sent, and the replies arrive. -/
def Line.answer : ∀ ⦃β : Type⦄, Wire β → Unit → Line → β × Unit × Line
  | _, .asyncRequest _, _, line => (.ok line.next, (), line.register)
  | _, .readResponse, _, line =>
    match line.due with
    | [] => (.error .timeout, (), line)
    | p :: rest => (.ok p, (), line.hand p rest)

theorem Line.answer_sem ⦃β : Type⦄ (op : Wire β) (o : Unit) (line : Line) :
    Line.sem op line (Line.answer op o line).1 (Line.answer op o line).2.2 := by
  cases op with
  | asyncRequest request => exact .inl ⟨rfl, rfl⟩
  | readResponse =>
    dsimp only [Line.answer]
    split
    · exact .inr ⟨.timeout, line.arriving, trivial, rfl, List.suffix_refl _, rfl⟩
    · rename_i p rest due
      exact .inl ⟨p, rest, due, rfl, rfl⟩

theorem Requests.send_runs {request : Request} {s : Requests} {line : Line}
    (encodable : request.Encodable) :
    Runs Line.sem (Requests.send request) s line (.ok line.next) s line.register := by
  unfold Requests.send
  rw [if_pos encodable]
  exact .single (.call (.inl ⟨rfl, rfl⟩))

/-- The reply to the second request is ignored before it comes, one reply belongs to no
request, and the first request is answered last. -/
theorem requests_paired_reordered :
    ∃ s line, Session [.sent (.stat (lit "a")) (.ok 1), .sent (.close [7]) (.ok 2), .ignored 2,
        .received 1 .attrs (.ok [0])] s line ∧
      (∀ n, s.replies n = none) ∧ s.ignored = [] := by
  have opened : Session [] {}
      ⟨1, [], [(9, ⟨.handle, []⟩), (2, statusReply sftpOk), (1, ⟨.attrs, [0]⟩)], []⟩ := .start
  have encodable : (Request.stat (lit "a")).Encodable ∧ (Request.close [7]).Encodable := by decide
  have first := opened.send (Requests.send_runs encodable.1)
  have second := first.send (Requests.send_runs encodable.2)
  have third := second.ignore (first.unsettled (Requests.send_runs encodable.2))
  have last : Session _ _ _ := @Session.receive _ _ _ _ _ 1 .attrs (.ok [0]) third
    (@Prog.eval_reach _ _ _ Unit _ Line.answer Line.answer_sem 9 _ () _ _ _ rfl)
  have empty := (requests_paired last).2.2.2.2.1
  refine ⟨_, _, last, empty ?_ ?_⟩
  · intro request n sent
    simp only [List.nil_append, List.cons_append, List.mem_cons, Done.sent.injEq, reduceCtorEq,
      List.not_mem_nil, or_false, Except.ok.injEq] at sent
    rcases sent with ⟨-, rfl⟩ | ⟨-, rfl⟩
    · decide
    · decide
  · intro n handed
    change n ∈ [2, 1] at handed
    rcases List.mem_cons.mp handed with rfl | handed
    · exact .inr (List.mem_append_left _ (List.mem_append_right _ List.mem_cons_self))
    · cases List.mem_singleton.mp handed
      exact .inl (by decide)

end DataBridge
