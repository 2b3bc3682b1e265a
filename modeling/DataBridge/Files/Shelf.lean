import DataBridge.Effect.Simulation
import Mathlib.Logic.Function.Basic
import Mathlib.Tactic

/-!
# A shelf of atomic files

What sessions on shared names are to look like: each one publishes a whole file under
its name, or looks at its name, in one step. An exclusive publication needs a name
that shows nothing, and no publication takes the place of a directory.
-/

namespace Files

open Effect

/-- What a name shows. -/
inductive Shown (B : Type)
  | file (content : B)
  | directory
  deriving DecidableEq

structure Publication (N B : Type) where
  name : N
  content : B
  exclusive : Bool

inductive Client (N B : Type)
  | publishes (p : Publication N B)
  | reads (name : N)

inductive ShelfEvent (ι : Type)
  | publish (i : ι)
  | look (i : ι)
  deriving DecidableEq

structure Shelf (ι N B : Type) where
  shows : N → Option (Shown B)
  /-- What each session has looked at. -/
  seen : ι → Option (Shown B)

namespace Shelf

variable {ι N B : Type} [DecidableEq ι] [DecidableEq N]

inductive Step (sessions : ι → Client N B) : ShelfEvent ι → Shelf ι N B → Shelf ι N B → Prop
  | publish {i : ι} {p : Publication N B} {s : Shelf ι N B} :
    sessions i = .publishes p → s.shows p.name ≠ some .directory →
    (p.exclusive = true → s.shows p.name = none) →
    Step sessions (.publish i) s
      { s with shows := Function.update s.shows p.name (some (.file p.content)) }
  | look {i : ι} {name : N} {content : Shown B} {s : Shelf ι N B} :
    sessions i = .reads name → s.shows name = some content →
    Step sessions (.look i) s { s with seen := Function.update s.seen i (some content) }

variable {sessions : ι → Client N B} {s s' : Shelf ι N B} {events : List (ShelfEvent ι)}
  {i j : ι} {p p' : Publication N B} {name : N}

/-- What shows something goes on to do so. -/
theorem Step.kept {e : ShelfEvent ι} (step : Step sessions e s s') (shown : s.shows name ≠ none) :
    s'.shows name ≠ none := by
  cases step with
  | @publish i p _ _ _ =>
    by_cases same : name = p.name
    · subst same
      dsimp only
      rw [Function.update_self]
      exact Option.some_ne_none _
    · dsimp only
      rwa [Function.update_of_ne same]
  | look => exact shown

theorem kept (run : Trace (Step sessions) s events s') (shown : s.shows name ≠ none) :
    s'.shows name ≠ none := by
  induction run with
  | nil => exact shown
  | cons first _ ih => exact ih (first.kept shown)

/-- A published name shows something from then on. -/
theorem published (run : Trace (Step sessions) s events s') (session : sessions i = .publishes p)
    (event : .publish i ∈ events) : s'.shows p.name ≠ none := by
  induction run with
  | nil => exact (List.not_mem_nil event).elim
  | @cons s s₁ s' e events first rest ih =>
    rcases List.mem_cons.mp event with now | later
    · subst now
      cases first with
      | publish session' =>
        cases session.symm.trans session'
        apply kept rest
        dsimp only
        rw [Function.update_self]
        exact Option.some_ne_none _
    · exact ih later

/-- A name shows what it did at the start, or a whole publication. -/
theorem shows_after (run : Trace (Step sessions) s events s') (name : N) :
    (s'.shows name = s.shows name ∧
      ∀ i p, sessions i = .publishes p → .publish i ∈ events → p.name ≠ name) ∨
    ∃ i p, sessions i = .publishes p ∧ p.name = name ∧ .publish i ∈ events ∧
      s'.shows name = some (.file p.content) := by
  induction run with
  | nil => exact .inl ⟨rfl, fun _ _ _ impossible => (List.not_mem_nil impossible).elim⟩
  | @cons s s₁ s' e events first rest ih =>
    rcases ih with ⟨same, others⟩ | ⟨i, p, session, named, event, shows⟩
    · cases first with
      | @publish i p _ session _ _ =>
        by_cases named : p.name = name
        · right
          refine ⟨i, p, session, named, List.mem_cons_self, ?_⟩
          subst named
          rw [same]
          dsimp only
          rw [Function.update_self]
        · left
          constructor
          · rw [same]
            dsimp only
            rw [Function.update_of_ne (Ne.symm named)]
          · intro j p' session' event
            rcases List.mem_cons.mp event with now | later
            · cases now
              cases session.symm.trans session'
              exact named
            · exact others j p' session' later
      | look =>
        left
        refine ⟨same, fun j p' session' event => ?_⟩
        rcases List.mem_cons.mp event with now | later
        · cases now
        · exact others j p' session' later
    · exact .inr ⟨i, p, session, named, List.mem_cons_of_mem _ event, shows⟩

/-- An exclusive publication takes place under a name that showed nothing before. -/
theorem exclusive_absent (run : Trace (Step sessions) s events s') (session : sessions i = .publishes p)
    (exclusive : p.exclusive = true) (event : .publish i ∈ events) : s.shows p.name = none := by
  induction run with
  | nil => exact (List.not_mem_nil event).elim
  | @cons s s₁ s' e events first rest ih =>
    rcases List.mem_cons.mp event with now | later
    · subst now
      cases first with
      | publish session' _ absent =>
        cases session.symm.trans session'
        exact absent exclusive
    · have after := ih later
      by_contra shown
      exact first.kept shown after

/-- Of the exclusive publications under one name, one takes place. -/
theorem exclusive_once (run : Trace (Step sessions) s events s')
    (first : sessions i = .publishes p) (second : sessions j = .publishes p')
    (same : p'.name = p.name) (exclusive : p.exclusive = true) (exclusive' : p'.exclusive = true)
    (event : .publish i ∈ events) (event' : .publish j ∈ events) : i = j := by
  induction run with
  | nil => exact (List.not_mem_nil event).elim
  | @cons s s₁ s' e events step rest ih =>
    have later : ∀ {i j : ι} {p p' : Publication N B}, sessions i = .publishes p →
        sessions j = .publishes p' → p'.name = p.name → p'.exclusive = true → e = .publish i →
        .publish j ∈ events → False := by
      intro i j p p' first second same exclusive' now event'
      have absent := exclusive_absent rest second exclusive' event'
      subst now
      cases step with
      | publish session' =>
        cases first.symm.trans session'
        dsimp only at absent
        rw [same, Function.update_self] at absent
        cases absent
    rcases List.mem_cons.mp event with now | event
    · rcases List.mem_cons.mp event' with now' | event'
      · cases now.trans now'.symm
        rfl
      · exact (later first second same exclusive' now.symm event').elim
    · rcases List.mem_cons.mp event' with now' | event'
      · exact (later second first same.symm exclusive now'.symm event).elim
      · exact ih event event'

/-- What a session has looked at is what its name showed at that moment. -/
theorem seen_after {content : Shown B} (run : Trace (Step sessions) s events s')
    (session : sessions i = .reads name) (seen : s'.seen i = some content) :
    s.seen i = some content ∨ ∃ before after s₁, events = before ++ .look i :: after ∧
      Trace (Step sessions) s before s₁ ∧ s₁.shows name = some content := by
  induction run with
  | nil => exact .inl seen
  | @cons s s₁ s' e events first rest ih =>
    rcases ih seen with already | ⟨before, after, s₂, rfl, earlier, shown⟩
    · cases first with
      | publish => exact .inl already
      | @look j name' content' _ session' shown =>
        by_cases same : i = j
        · subst same
          cases session.symm.trans session'
          dsimp only at already
          rw [Function.update_self] at already
          cases already
          exact .inr ⟨[], events, s, rfl, .nil, shown⟩
        · dsimp only at already
          rw [Function.update_of_ne same] at already
          exact .inl already
    · exact .inr ⟨e :: before, after, s₂, rfl, .cons first earlier, shown⟩

end Shelf

end Files
