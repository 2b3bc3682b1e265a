import DataBridge.Json.Grammar

/-!
# Where the decoder stops

`Reaches` says that the decoder comes to a place of a text: where it expects a value, a
name or a colon, or where the value of an item has just ended. A scan fails with what
the decoder raises at one place that it reaches (`scanOnce_failed`, `Reaches.fails`).
-/

namespace DataBridge.Json

/-- What the decoder expects. After an item of a container, `value` is the text from
the value of that item on. -/
inductive Place
  | value | name | colon
  | comma (i : Item) (value : Text)

/-- The value of the item at the head of `t` begins at `v`. -/
def ValueAt : Item → Text → Text → Prop
  | .value, t, v => v = t
  | .member, t, v => ∃ u x w y, t = .ofChar '"' :: u ∧ scanString t u = .ok (x, w) ∧
    skipSpace w = .ofChar ':' :: y ∧ v = skipSpace y

theorem ValueAt.unique {i : Item} {t v v' : Text} (at₁ : ValueAt i t v) (at₂ : ValueAt i t v') :
    v = v' := by
  cases i with
  | value => exact at₁.trans at₂.symm
  | member =>
    obtain ⟨u, x, w, y, rfl, key, colon, rfl⟩ := at₁
    obtain ⟨u', x', w', y', same, key', colon', rfl⟩ := at₂
    cases same
    rw [key] at key'
    cases key'
    rw [colon] at colon'
    cases colon'
    rfl

section Places

variable {ε N : Type} (hooks : Hooks ε N)

/-- The decoder, at the head of a text with a symbol, comes to a place and has `u` left. -/
inductive Reaches : (stack : Nat) → Symbol → Text → Place → Text → Prop
  | value {stack : Nat} {t : Text} : Reaches stack (.one .value) t .value t
  | container {stack : Nat} {i : Item} {t u : Text} {p : Place} :
    (∀ r, skipSpace t ≠ i.closing :: r) → Reaches stack (.many i) (skipSpace t) p u →
    Reaches (stack + 1) (.one .value) (i.opening :: t) p u
  | name {stack : Nat} {t : Text} : Reaches stack (.one .member) t .name t
  | colon {stack : Nat} {t x u : Text} : scanString (.ofChar '"' :: t) t = .ok (x, u) →
    Reaches stack (.one .member) (.ofChar '"' :: t) .colon u
  | member {stack : Nat} {t x u v w : Text} {p : Place} :
    scanString (.ofChar '"' :: t) t = .ok (x, u) → skipSpace u = .ofChar ':' :: v →
    Reaches stack (.one .value) (skipSpace v) p w →
    Reaches stack (.one .member) (.ofChar '"' :: t) p w
  | first {stack : Nat} {i : Item} {t u : Text} {p : Place} : Reaches stack (.one i) t p u →
    Reaches stack (.many i) t p u
  | after {stack : Nat} {i : Item} {t v u : Text} {a : i.Found N} : ValueAt i t v →
    scanItem (scanOnce hooks stack) i t = .ok (a, u) → Reaches stack (.many i) t (.comma i v) u
  | later {stack : Nat} {i : Item} {t u w x : Text} {a : i.Found N} {p : Place} :
    scanItem (scanOnce hooks stack) i t = .ok (a, u) → afterItem i.closing u = .ok (false, w) →
    Reaches stack (.many i) w p x → Reaches stack (.many i) t p x

/-- What the decoder raises at a place. -/
inductive Fault : Place → Text → Failure ε → Prop
  | nothing : Fault .value [] (.decode ⟨.value, []⟩)
  | string {t : Text} {e : DecodeError} : scanString (.ofChar '"' :: t) t = .error e →
    Fault .value (.ofChar '"' :: t) (.decode e)
  | plain {c : CodePoint} {t : Text} {failure : Failure ε} : c ≠ .ofChar '"' →
    (∀ i : Item, c ≠ i.opening) →
    (scanLiteral hooks (c :: t)).getD (scanNumber hooks (c :: t)) = .error failure →
    Fault .value (c :: t) failure
  | key {t : Text} {e : DecodeError} : scanString (.ofChar '"' :: t) t = .error e →
    Fault .name (.ofChar '"' :: t) (.decode e)
  | name {t : Text} : (∀ c ∈ t.head?, c ≠ .ofChar '"') → Fault .name t (.decode ⟨.name, t⟩)
  | colon {t : Text} : (∀ v, skipSpace t ≠ .ofChar ':' :: v) →
    Fault .colon t (.decode ⟨.colon, skipSpace t⟩)
  | comma {i : Item} {v t : Text} {e : DecodeError} : afterItem i.closing t = .error e →
    Fault (.comma i v) t (.decode e)

variable {hooks}

/-! ## A failure has a place -/

/-- A failure but for the stack is a fault at a place that the decoder reaches. -/
def Placed (hooks : Hooks ε N) (stack : Nat) (symbol : Symbol) (t : Text) (failure : Failure ε) :
    Prop :=
  failure = .recursion ∨ ∃ p u, Reaches hooks stack symbol t p u ∧ Fault hooks p u failure

theorem Placed.first {stack : Nat} {i : Item} {t : Text} {failure : Failure ε}
    (placed : Placed hooks stack (.one i) t failure) : Placed hooks stack (.many i) t failure := by
  rcases placed with deep | ⟨p, u, reaches, fault⟩
  · exact .inl deep
  · exact .inr ⟨p, u, .first reaches, fault⟩

/-- What the steps of a member say about it: a key, a colon and a value, or a fault. -/
theorem scanMember_placed {stack : Nat} {t : Text} {failure : Failure ε}
    (value : ∀ t failure, scanOnce hooks stack t = .error failure →
      Placed hooks stack (.one .value) t failure)
    (failed : scanMember (scanOnce hooks stack) t = .error failure) :
    Placed hooks stack (.one .member) t failure := by
  match t with
  | [] =>
    cases failed
    exact .inr ⟨.name, [], .name, .name (fun c none => by cases none)⟩
  | c :: t =>
    by_cases quote : c = .ofChar '"'
    · subst quote
      simp only [scanMember, if_true] at failed
      cases key : scanString (.ofChar '"' :: t) t with
      | error e =>
        simp only [key] at failed
        cases failed
        exact .inr ⟨.name, _, .name, .key key⟩
      | ok found =>
        obtain ⟨x, u⟩ := found
        simp only [key] at failed
        by_cases colon : ∃ v, skipSpace u = .ofChar ':' :: v
        · obtain ⟨v, colon⟩ := colon
          simp only [colon, if_true] at failed
          cases scanned : scanOnce hooks stack (skipSpace v) with
          | ok found =>
            rw [scanned] at failed
            cases failed
          | error failure' =>
            rw [scanned] at failed
            cases failed
            rcases value _ _ scanned with deep | ⟨p, w, reaches, fault⟩
            · exact .inl deep
            · exact .inr ⟨p, w, .member key colon reaches, fault⟩
        · have none : ∀ v, skipSpace u ≠ .ofChar ':' :: v := fun v same => colon ⟨v, same⟩
          refine .inr ⟨.colon, u, .colon key, ?_⟩
          have fault : Fault hooks .colon u (.decode ⟨.colon, skipSpace u⟩) := .colon none
          cases skipped : skipSpace u with
          | nil =>
            simp only [skipped] at failed
            cases failed
            rwa [skipped] at fault
          | cons d v =>
            have other : d ≠ .ofChar ':' := by
              rintro rfl
              exact none v skipped
            simp only [skipped, if_neg other] at failed
            cases failed
            rwa [skipped] at fault
    · simp only [scanMember, if_neg quote] at failed
      cases failed
      refine .inr ⟨.name, _, .name, .name fun d head => ?_⟩
      cases head
      exact quote

theorem scanItem_placed {stack : Nat} (value : ∀ t failure, scanOnce hooks stack t = .error failure →
      Placed hooks stack (.one .value) t failure) (i : Item) {t : Text} {failure : Failure ε}
    (failed : scanItem (scanOnce hooks stack) i t = .error failure) :
    Placed hooks stack (.one i) t failure := by
  cases i with
  | value => exact value t failure failed
  | member => exact scanMember_placed value failed

/-- A scanned member has a value. -/
theorem valueAt_of_scanned {scan : Text → Scanned ε (Value N)} {i : Item} {t u : Text}
    {a : i.Found N} (scanned : scanItem scan i t = .ok (a, u)) : ∃ v, ValueAt i t v := by
  cases i with
  | value => exact ⟨t, rfl⟩
  | member =>
    obtain ⟨y, v, w, rfl, key, colon, -⟩ := scanMember_ok scanned
    exact ⟨_, y, _, v, w, rfl, key, colon, rfl⟩

theorem Items.placed {stack : Nat} {i : Item}
    (one : ∀ {t failure}, scanItem (scanOnce hooks stack) i t = .error failure →
      Placed hooks stack (.one i) t failure) {t : Text} {failure : Failure ε}
    (items : Items i.closing (scanItem (scanOnce hooks stack) i) t (.error failure)) :
    Placed hooks stack (.many i) t failure := by
  generalize ended : (.error failure : Scanned ε (List (i.Found N))) = result at items
  induction items with
  | failed failed =>
    cases ended
    exact (one failed).first
  | «open» scanned after =>
    cases ended
    obtain ⟨v, valueAt⟩ := valueAt_of_scanned scanned
    exact .inr ⟨_, _, .after valueAt scanned, .comma after⟩
  | later scanned after _ ih =>
    cases ended
    rcases ih rfl with deep | ⟨p, x, reaches, fault⟩
    · exact .inl deep
    · exact .inr ⟨p, x, .later scanned after reaches, fault⟩
  | last _ _ | more _ _ _ _ => cases ended

/-- A scan fails at a place. -/
theorem scanOnce_failed (strict : hooks.Strict) {stack : Nat} {t : Text} {failure : Failure ε}
    (failed : scanOnce hooks stack t = .error failure) :
    Placed hooks stack (.one .value) t failure := by
  refine scanOnce_induction strict (motive := fun stack t result => ∀ failure,
    result = .error failure → Placed hooks stack (.one .value) t failure)
    ?_ ?_ ?_ ?_ ?_ stack t failure failed
  · intro stack failure failed
    cases failed
    exact .inr ⟨_, _, .value, .nothing⟩
  · intro stack t failure failed
    split at failed
    · rename_i e scanned
      cases failed
      exact .inr ⟨_, _, .value, .string scanned⟩
    · cases failed
  · intro i t failure failed
    cases failed
    exact .inl rfl
  · intro stack i t result ih container failure failed
    rw [map_error failed] at container
    cases container with
    | items other items =>
      rcases items.placed (scanItem_placed ih i) with deep | ⟨p, u, reaches, fault⟩
      · exact .inl deep
      · exact .inr ⟨p, u, .container other reaches, fault⟩
  · intro stack c t quote containers failure failed
    exact .inr ⟨_, _, .value, .plain quote containers failed⟩

/-! ## A fault at a place is the failure -/

/-- The scan of a symbol fails. -/
def Fails (hooks : Hooks ε N) (stack : Nat) : Symbol → Text → Failure ε → Prop
  | .one i, t, failure => scanItem (scanOnce hooks stack) i t = .error failure
  | .many i, t, failure => Items i.closing (scanItem (scanOnce hooks stack) i) t (.error failure)

theorem Fault.scanOnce {stack : Nat} {t : Text} {failure : Failure ε}
    (fault : Fault hooks .value t failure) : scanOnce hooks stack t = .error failure := by
  cases fault with
  | nothing => exact scanOnce_nil
  | string failed => rw [scanOnce_string, failed]
  | plain quote containers failed => rw [scanOnce_other quote containers, failed]

theorem Fault.scanMember {scan : Text → Scanned ε (Value N)} {t : Text} {failure : Failure ε}
    (fault : Fault hooks .name t failure) : scanMember scan t = .error failure := by
  cases fault with
  | key failed => simp only [Json.scanMember, if_true, failed]
  | name other =>
    cases t with
    | nil => rfl
    | cons c t =>
      have quote : c ≠ .ofChar '"' := other c rfl
      simp only [Json.scanMember, if_neg quote]

/-- A fault at a place that the decoder reaches is what its scan fails with. -/
theorem Reaches.fails (strict : hooks.Strict) {stack : Nat} {symbol : Symbol} {t u : Text}
    {p : Place} {failure : Failure ε} (reaches : Reaches hooks stack symbol t p u)
    (fault : Fault hooks p u failure) : Fails hooks stack symbol t failure := by
  induction reaches with
  | value => exact fault.scanOnce
  | @container stack i t u p other _ ih =>
    have takes := (reads_scanItem (reads_scanOnce strict stack) i).takes
    have failed := (Container.items other (ih fault)).scanContainer_eq takes
    change scanOnce hooks (stack + 1) (i.opening :: t) = .error failure
    rw [scanOnce_container, failed]
    rfl
  | name => exact fault.scanMember
  | @colon stack t x u key =>
    cases fault with
    | colon none =>
      change scanMember (scanOnce hooks stack) (.ofChar '"' :: t) = _
      simp only [scanMember, if_true, key]
      cases skipped : skipSpace u with
      | nil => rfl
      | cons d v =>
        have other : d ≠ .ofChar ':' := by
          rintro rfl
          exact none v skipped
        simp only [if_neg other]
  | @member stack t x u v w p key colon _ ih =>
    have failed : scanOnce hooks stack (skipSpace v) = .error failure := ih fault
    change scanMember (scanOnce hooks stack) (.ofChar '"' :: t) = _
    simp only [scanMember, if_true, key, colon, failed]
  | first _ ih => exact .failed (ih fault)
  | after _ scanned =>
    cases fault with
    | comma failed => exact .open scanned failed
  | later scanned after _ ih => exact .later scanned after (ih fault)

end Places

end DataBridge.Json
