import DataBridge.Json.Numbers
import DataBridge.Json.Strings

/-!
# The grammar of JSON

`Derives` is the grammar of values: `Derives (.one .value) n t r` says that a value
with at most `n` nested containers is at the head of `t`, and that `r` follows it.
`IsJson` is a whole text. The scanner with a stack for `n` containers reads values
of the grammar (`scanOnce_sound`), and all of them when its hooks refuse no
number (`scanOnce_complete`).
-/

namespace DataBridge.Json

/-! ## Space -/

/-- `r` follows space at the head of `t`. -/
def Space (t r : Text) : Prop := ∃ s, t = s ++ r ∧ ∀ c ∈ s, isSpace c = true

theorem Space.refl (t : Text) : Space t t := ⟨[], rfl, fun c none => by cases none⟩

theorem Space.append {t r : Text} (space : Space t r) (s : Text) : Space (t ++ s) (r ++ s) := by
  obtain ⟨x, rfl, spaces⟩ := space
  exact ⟨x, List.append_assoc x r s, spaces⟩

theorem space_skipSpace (t : Text) : Space t (skipSpace t) :=
  ⟨t.takeWhile isSpace, (List.takeWhile_append_dropWhile).symm, fun _ => List.mem_takeWhile_imp⟩

/-- Space ends at the first other character. -/
theorem Space.skipSpace_eq {t r : Text} (space : Space t r)
    (stop : ∀ c ∈ r.head?, isSpace c = false) : skipSpace t = r := by
  obtain ⟨s, rfl, spaces⟩ := space
  exact (run_stops spaces stop).2

theorem Space.suffix {t r : Text} (space : Space t r) : r <:+ t := by
  obtain ⟨s, rfl, -⟩ := space
  exact ⟨s, rfl⟩

theorem Space.length_le {t r : Text} (space : Space t r) : r.length ≤ t.length :=
  space.suffix.length_le

theorem skipSpace_head (t : Text) : ∀ c ∈ (skipSpace t).head?, isSpace c = false := by
  intro c head
  have stop := List.head?_dropWhile_not isSpace t
  unfold skipSpace at head
  rw [head] at stop
  simpa using stop

theorem isNumberChar_of_isSpace {c : CodePoint} (space : isSpace c = true) :
    isNumberChar c = false := by
  simp only [isSpace, Bool.or_eq_true, decide_eq_true_eq] at space
  rcases space with ((rfl | rfl) | rfl) | rfl
  · decide
  · decide
  · decide
  · decide

/-! ## The grammar -/

/-- What a container is made of: values in an array, members in an object. -/
inductive Item
  | value | member

def Item.opening : Item → CodePoint
  | .value => .ofChar '['
  | .member => .ofChar '{'

def Item.closing : Item → CodePoint
  | .value => .ofChar ']'
  | .member => .ofChar '}'

/-- A nonterminal: one item, or the items of a container with its closing bracket. -/
inductive Symbol
  | one (i : Item) | many (i : Item)

def literals : List Text := [lit "null", lit "true", lit "false"]

/-- The derivations of the grammar; `n` bounds the nesting. -/
inductive Derives : Symbol → Nat → Text → Text → Prop
  | string {n : Nat} {t r : Text} : StringBody t r →
    Derives (.one .value) n (.ofChar '"' :: t) r
  | number {n : Nat} {x t r : Text} : IsNumber x → t = x ++ r → Derives (.one .value) n t r
  | literal {n : Nat} {x t r : Text} : x ∈ literals → t = x ++ r → Derives (.one .value) n t r
  | empty {i : Item} {n : Nat} {t r : Text} : Space t (i.closing :: r) →
    Derives (.one .value) (n + 1) (i.opening :: t) r
  | container {i : Item} {n : Nat} {t u r : Text} : Space t u → Derives (.many i) n u r →
    Derives (.one .value) (n + 1) (i.opening :: t) r
  | member {n : Nat} {t u v w r : Text} : StringBody t u → Space u (.ofChar ':' :: v) →
    Space v w → Derives (.one .value) n w r → Derives (.one .member) n (.ofChar '"' :: t) r
  | last {i : Item} {n : Nat} {t u r : Text} : Derives (.one i) n t u →
    Space u (i.closing :: r) → Derives (.many i) n t r
  | more {i : Item} {n : Nat} {t u v w r : Text} : Derives (.one i) n t u →
    Space u (.ofChar ',' :: v) → Space v w → Derives (.many i) n w r → Derives (.many i) n t r

/-- A syntactically valid JSON text. -/
def IsJson (text : Text) : Prop :=
  ∃ n t r, Space text t ∧ Derives (.one .value) n t r ∧ Space r []

theorem StringBody.length_lt {t r : Text} (body : StringBody t r) : r.length < t.length := by
  induction body with
  | close => simp
  | plain _ _ _ _ ih | escape _ _ ih | unicode _ _ ih =>
    simp only [List.length_cons]
    omega

theorem StringBody.suffix {t r : Text} (body : StringBody t r) : r <:+ t := by
  induction body with
  | close => exact List.suffix_cons _ _
  | plain _ _ _ _ ih => exact ih.trans (List.suffix_cons _ _)
  | escape _ _ ih => exact ih.trans ⟨[_, _], rfl⟩
  | unicode _ _ ih => exact ih.trans ⟨[_, _, _, _, _, _], rfl⟩

theorem IsNumber.ne_nil {x : Text} (number : IsNumber x) : x ≠ [] := by
  obtain ⟨c, rest, rfl, -⟩ := number.head
  simp

theorem ne_nil_of_mem_literals {x : Text} (literal : x ∈ literals) : x ≠ [] := by
  rintro rfl
  revert literal
  decide

/-- A derivation takes at least one character. -/
theorem Derives.length_lt {symbol : Symbol} {n : Nat} {t r : Text} (derives : Derives symbol n t r) :
    r.length < t.length := by
  induction derives with
  | string body =>
    have less := body.length_lt
    simp only [List.length_cons]
    omega
  | number number eq =>
    have positive := List.length_pos_iff.mpr number.ne_nil
    rw [eq, List.length_append]
    omega
  | literal literal eq =>
    have positive := List.length_pos_iff.mpr (ne_nil_of_mem_literals literal)
    rw [eq, List.length_append]
    omega
  | empty space =>
    have less := space.length_le
    simp only [List.length_cons] at less ⊢
    omega
  | container space _ ih =>
    have less := space.length_le
    simp only [List.length_cons]
    omega
  | member body space space' _ ih =>
    have less₁ := body.length_lt
    have less₂ := space.length_le
    have less₃ := space'.length_le
    simp only [List.length_cons] at less₂ ⊢
    omega
  | last _ space ih =>
    have less := space.length_le
    simp only [List.length_cons] at less
    omega
  | more _ space space' _ ih₁ ih₂ =>
    have less₁ := space.length_le
    have less₂ := space'.length_le
    simp only [List.length_cons] at less₁
    omega

theorem Derives.suffix {symbol : Symbol} {n : Nat} {t r : Text} (derives : Derives symbol n t r) :
    r <:+ t := by
  induction derives with
  | string body => exact body.suffix.trans (List.suffix_cons _ _)
  | number _ eq | literal _ eq => exact ⟨_, eq.symm⟩
  | empty space => exact ((List.suffix_cons _ _).trans space.suffix).trans (List.suffix_cons _ _)
  | container space _ ih => exact (ih.trans space.suffix).trans (List.suffix_cons _ _)
  | member body space space' _ ih =>
    have rest := (ih.trans space'.suffix).trans (List.suffix_cons (.ofChar ':') _)
    exact ((rest.trans space.suffix).trans body.suffix).trans (List.suffix_cons _ _)
  | last _ space ih => exact ((List.suffix_cons _ _).trans space.suffix).trans ih
  | more _ space space' _ ih₁ ih₂ =>
    have rest := (ih₂.trans space'.suffix).trans (List.suffix_cons (.ofChar ',') _)
    exact (rest.trans space.suffix).trans ih₁

/-- What follows a derivation is not part of it. -/
theorem Derives.append {symbol : Symbol} {n : Nat} {t r : Text} (derives : Derives symbol n t r)
    (s : Text) : Derives symbol n (t ++ s) (r ++ s) := by
  induction derives with
  | string body => exact .string (body.append s)
  | number number eq => exact .number number (by rw [eq, List.append_assoc])
  | literal literal eq => exact .literal literal (by rw [eq, List.append_assoc])
  | empty space => exact .empty (space.append s)
  | container space _ ih => exact .container (space.append s) ih
  | member body space space' _ ih =>
    exact .member (body.append s) (space.append s) (space'.append s) ih
  | last _ space ih => exact .last ih (space.append s)
  | more _ space space' _ ih₁ ih₂ => exact .more ih₁ (space.append s) (space'.append s) ih₂

/-- A larger bound on the nesting. -/
theorem Derives.mono {symbol : Symbol} {n m : Nat} {t r : Text} (derives : Derives symbol n t r)
    (room : n ≤ m) : Derives symbol m t r := by
  induction derives generalizing m with
  | string body => exact .string body
  | number number eq => exact .number number eq
  | literal literal eq => exact .literal literal eq
  | @empty i n t r space =>
    obtain ⟨m, rfl⟩ := Nat.exists_eq_add_one.mpr (Nat.lt_of_lt_of_le n.succ_pos room)
    exact .empty space
  | @container i n t u r space _ ih =>
    obtain ⟨m, rfl⟩ := Nat.exists_eq_add_one.mpr (Nat.lt_of_lt_of_le n.succ_pos room)
    exact .container space (ih (Nat.le_of_succ_le_succ room))
  | member body space space' _ ih => exact .member body space space' (ih room)
  | last _ space ih => exact .last (ih room) space
  | more _ space space' _ ih₁ ih₂ => exact .more (ih₁ room) space space' (ih₂ room)

/-! ## The loop over items -/

section Items

variable {ε N α : Type} {close : CodePoint} {item : Text → Scanned ε α}

/-- Scanning takes at least one character. -/
def Takes (item : Text → Scanned ε α) : Prop :=
  ∀ t a r, item t = .ok (a, r) → r <:+ t ∧ r.length < t.length

/-- How the loop over the items of a container ends. -/
inductive Items (close : CodePoint) (item : Text → Scanned ε α) :
    Text → Scanned ε (List α) → Prop
  | failed {t : Text} {failure : Failure ε} : item t = .error failure →
    Items close item t (.error failure)
  | open {t u : Text} {a : α} {e : DecodeError} : item t = .ok (a, u) →
    afterItem close u = .error e → Items close item t (.error (.decode e))
  | last {t u r : Text} {a : α} : item t = .ok (a, u) → afterItem close u = .ok (true, r) →
    Items close item t (.ok ([a], r))
  | later {t u w : Text} {a : α} {failure : Failure ε} : item t = .ok (a, u) →
    afterItem close u = .ok (false, w) → Items close item w (.error failure) →
    Items close item t (.error failure)
  | more {t u w r : Text} {a : α} {items : List α} : item t = .ok (a, u) →
    afterItem close u = .ok (false, w) → Items close item w (.ok (items, r)) →
    Items close item t (.ok (a :: items, r))

/-- A closing bracket after an item. -/
theorem afterItem_closed {u r : Text} (after : afterItem close u = .ok (true, r)) :
    Space u (close :: r) := by
  have space := space_skipSpace u
  unfold afterItem at after
  split at after
  · cases after
  · rename_i c rest skipped
    split at after
    · rename_i same
      cases after
      rw [skipped, same] at space
      exact space
    · split at after
      · cases after
      · cases after

/-- A comma after an item. -/
theorem afterItem_comma {u w : Text} (after : afterItem close u = .ok (false, w)) :
    ∃ v, Space u (.ofChar ',' :: v) ∧ w = skipSpace v := by
  have space := space_skipSpace u
  unfold afterItem at after
  split at after
  · cases after
  · rename_i c rest skipped
    split at after
    · cases after
    · split at after
      · rename_i same
        cases after
        rw [skipped, same] at space
        exact ⟨rest, space, rfl⟩
      · cases after

/-- Neither follows an item. -/
theorem afterItem_error {u : Text} {e : DecodeError} (after : afterItem close u = .error e) :
    e = ⟨.comma, skipSpace u⟩ := by
  unfold afterItem at after
  split at after
  · rename_i skipped
    cases after
    rw [skipped]
  · rename_i c rest skipped
    split at after
    · cases after
    · split at after
      · cases after
      · cases after
        rw [skipped]

theorem afterItem_shorter {u w : Text} (after : afterItem close u = .ok (false, w)) :
    w.length < u.length := by
  obtain ⟨v, space, rfl⟩ := afterItem_comma after
  have less₁ := space.length_le
  have less₂ := (space_skipSpace v).length_le
  simp only [List.length_cons] at less₁
  omega

theorem Takes.shorter (takes : Takes item) {t r : Text} {a : α} (scanned : item t = .ok (a, r)) :
    r.length < t.length := (takes t a r scanned).2

/-- With enough fuel the loop ends as `Items` says. -/
theorem items_scanItems (takes : Takes item) {fuel : Nat} {t : Text} (enough : t.length < fuel) :
    Items close item t (scanItems close item fuel t) := by
  induction fuel generalizing t with
  | zero => omega
  | succ fuel ih =>
    rw [scanItems]
    cases scanned : item t with
    | error failure => exact .failed scanned
    | ok found =>
      obtain ⟨a, u⟩ := found
      have shorter := takes.shorter scanned
      cases after : afterItem close u with
      | error e =>
        simp only [after]
        exact .open scanned after
      | ok next =>
        obtain ⟨closed, w⟩ := next
        cases closed with
        | true =>
          simp only [after]
          exact .last scanned after
        | false =>
          have shorter' := afterItem_shorter after
          have rest := ih (t := w) (by omega)
          simp only [after]
          cases scanned' : scanItems close item fuel w with
          | error failure =>
            rw [scanned'] at rest
            exact .later scanned after rest
          | ok found =>
            rw [scanned'] at rest
            exact .more scanned after rest

/-- The loop has one end. -/
theorem Items.scanItems_eq {t : Text} {result : Scanned ε (List α)}
    (items : Items close item t result) (takes : Takes item) {fuel : Nat} (enough : t.length < fuel) :
    scanItems close item fuel t = result := by
  induction items generalizing fuel with
  | failed scanned =>
    cases fuel with
    | zero => omega
    | succ fuel => simp only [scanItems, scanned]
  | «open» scanned after =>
    cases fuel with
    | zero => omega
    | succ fuel => simp only [scanItems, scanned, after]
  | last scanned after =>
    cases fuel with
    | zero => omega
    | succ fuel => simp only [scanItems, scanned, after]
  | later scanned after _ ih | more scanned after _ ih =>
    cases fuel with
    | zero => omega
    | succ fuel =>
      have shorter := takes.shorter scanned
      have shorter' := afterItem_shorter after
      simp only [scanItems, scanned, after, ih (show _ < fuel by omega)]

/-- The items of a container, as the loop ends. -/
inductive Container (close : CodePoint) (item : Text → Scanned ε α) :
    Text → Scanned ε (List α) → Prop
  | empty {t r : Text} : skipSpace t = close :: r → Container close item t (.ok ([], r))
  | items {t : Text} {result : Scanned ε (List α)} : (∀ r, skipSpace t ≠ close :: r) →
    Items close item (skipSpace t) result → Container close item t result

theorem container_scanContainer (takes : Takes item) (t : Text) :
    Container close item t (scanContainer close item t) := by
  unfold scanContainer
  split
  · rename_i skipped
    refine .items (by simp [skipped]) ?_
    rw [skipped]
    exact items_scanItems takes Nat.one_pos
  · rename_i c rest skipped
    split
    · rename_i same
      exact .empty (by rw [skipped, same])
    · rename_i other
      refine .items (by simp [skipped, other]) ?_
      rw [skipped]
      exact items_scanItems takes (by simp)

theorem Container.scanContainer_eq {t : Text} {result : Scanned ε (List α)}
    (container : Container close item t result) (takes : Takes item) :
    scanContainer close item t = result := by
  unfold scanContainer
  cases container with
  | empty skipped => simp only [skipped, if_true]
  | items other items =>
    split
    · rename_i skipped
      rw [skipped] at items
      exact items.scanItems_eq takes Nat.one_pos
    · rename_i c rest skipped
      have different : c ≠ close := by
        rintro rfl
        exact other rest skipped
      rw [if_neg different]
      rw [skipped] at items
      exact items.scanItems_eq takes (by simp)

end Items

/-! ## The scanner reads the grammar -/

section Sound

variable {ε N : Type} {hooks : Hooks ε N}

/-- The hook refuses the constants `NaN` and `Infinity`. -/
def Hooks.Strict (hooks : Hooks ε N) : Prop := ∀ name, ∃ e, hooks.parseConstant name = .error e

/-- An item function reads items of the grammar. -/
def Reads {α : Type} (i : Item) (n : Nat) (item : Text → Scanned ε α) : Prop :=
  ∀ t a r, item t = .ok (a, r) → Derives (.one i) n t r

theorem Reads.takes {α : Type} {i : Item} {n : Nat} {item : Text → Scanned ε α}
    (reads : Reads i n item) : Takes item :=
  fun t a r scanned => ⟨(reads t a r scanned).suffix, (reads t a r scanned).length_lt⟩

theorem Items.derives {α : Type} {i : Item} {n : Nat} {item : Text → Scanned ε α}
    (reads : Reads i n item) {t r : Text} {l : List α}
    (items : Items i.closing item t (.ok (l, r))) : Derives (.many i) n t r := by
  generalize ended : (.ok (l, r) : Scanned ε (List α)) = result at items
  induction items generalizing l with
  | failed _ | «open» _ _ | later _ _ _ _ => cases ended
  | last scanned after =>
    cases ended
    exact .last (reads _ _ _ scanned) (afterItem_closed after)
  | more scanned after _ ih =>
    cases ended
    obtain ⟨v, space, rfl⟩ := afterItem_comma after
    exact .more (reads _ _ _ scanned) space (space_skipSpace v) (ih rfl)

theorem Container.derives {α : Type} {i : Item} {n : Nat} {item : Text → Scanned ε α}
    (reads : Reads i n item) {t r : Text} {l : List α}
    (container : Container i.closing item t (.ok (l, r))) :
    Derives (.one .value) (n + 1) (i.opening :: t) r := by
  cases container with
  | empty skipped =>
    have space := space_skipSpace t
    rw [skipped] at space
    exact .empty space
  | items _ items => exact .container (space_skipSpace t) (items.derives reads)

/-- A member of an object: its key, a colon, and its value. -/
theorem scanMember_ok {scan : Text → Scanned ε (Value N)} {t r : Text} {member : Text × Value N}
    (scanned : scanMember scan t = .ok (member, r)) : ∃ u v w, t = .ofChar '"' :: u ∧
      scanString t u = .ok (member.1, v) ∧ skipSpace v = .ofChar ':' :: w ∧
      scan (skipSpace w) = .ok (member.2, r) := by
  match t with
  | [] => cases scanned
  | c :: u =>
    simp only [scanMember] at scanned
    by_cases quote : c = .ofChar '"'
    · subst quote
      rw [if_pos rfl] at scanned
      cases key : scanString (.ofChar '"' :: u) u with
      | error e =>
        simp only [key] at scanned
        cases scanned
      | ok found =>
        obtain ⟨k, v⟩ := found
        simp only [key] at scanned
        split at scanned
        · cases scanned
        · rename_i c w skipped
          split at scanned
          · rename_i colon
            split at scanned
            · cases scanned
            · rename_i value rest found
              cases scanned
              exact ⟨u, v, w, rfl, key, by rw [skipped, colon], found⟩
          · cases scanned
    · rw [if_neg quote] at scanned
      cases scanned

theorem reads_scanMember {n : Nat} {scan : Text → Scanned ε (Value N)} (reads : Reads .value n scan) :
    Reads .member n (scanMember scan) := by
  intro t member r scanned
  obtain ⟨u, v, w, rfl, key, skipped, value⟩ := scanMember_ok scanned
  have space := space_skipSpace v
  rw [skipped] at space
  exact .member (scanString_sound key) space (space_skipSpace w) (reads _ _ _ value)

theorem mem_literals {x : Text} : x ∈ literals ↔ x = lit "null" ∨ x = lit "true" ∨ x = lit "false" := by
  simp [literals]

theorem scanLiteral_ok (strict : hooks.Strict) {t r : Text} {v : Value N}
    (scanned : scanLiteral hooks t = some (.ok (v, r))) : ∃ x ∈ literals, t = x ++ r := by
  have dropped : ∀ {x : Text}, x <+: t → ∀ n, x.length = n → t = x ++ t.drop n := by
    intro x before n size
    obtain ⟨rest, rfl⟩ := before
    rw [← size, List.drop_left]
  have refused : ∀ {name rest : Text}, some (scanConstant hooks name rest) ≠ some (.ok (v, r)) := by
    intro name rest scanned
    obtain ⟨e, refused⟩ := strict name
    simp only [scanConstant, refused] at scanned
    cases scanned
  unfold scanLiteral at scanned
  split at scanned
  · rename_i before
    cases scanned
    exact ⟨_, mem_literals.mpr (.inl rfl), dropped before 4 rfl⟩
  · split at scanned
    · rename_i before
      cases scanned
      exact ⟨_, mem_literals.mpr (.inr (.inl rfl)), dropped before 4 rfl⟩
    · split at scanned
      · rename_i before
        cases scanned
        exact ⟨_, mem_literals.mpr (.inr (.inr rfl)), dropped before 5 rfl⟩
      · split at scanned
        · exact absurd scanned refused
        · split at scanned
          · exact absurd scanned refused
          · split at scanned
            · exact absurd scanned refused
            · cases scanned

theorem scanNumber_ok {t r : Text} {v : Value N} (scanned : scanNumber hooks t = .ok (v, r)) :
    ∃ m, matchNumber t = some m ∧ m.rest = r ∧ ∃ n, v = .number n ∧
      (if m.isFloat then hooks.parseFloat m.text else hooks.parseInt m.text) = .ok n := by
  unfold scanNumber at scanned
  split at scanned
  · cases scanned
  · rename_i m found
    split at scanned
    · rename_i n parsed
      cases scanned
      exact ⟨m, found, rfl, n, rfl, parsed⟩
    · cases scanned

theorem map_ok {α β : Type} {scanned : Scanned ε α} {f : α × Text → β × Text} {y : β × Text}
    (mapped : scanned.map f = .ok y) : ∃ x, scanned = .ok x ∧ y = f x := by
  cases scanned with
  | error failure => cases mapped
  | ok x =>
    cases mapped
    exact ⟨x, rfl, rfl⟩

/-! ### What a value begins with -/

section Heads

variable {stack : Nat} {c : CodePoint} {t : Text}

theorem scanOnce_nil : scanOnce hooks stack [] = .error (.decode ⟨.value, []⟩) := by
  rw [scanOnce.eq_def]

theorem scanOnce_string : scanOnce hooks stack (.ofChar '"' :: t) =
    match scanString (.ofChar '"' :: t) t with
    | .error e => .error (.decode e)
    | .ok (text, rest) => .ok (.string text, rest) := by
  rw [scanOnce.eq_def]
  exact if_pos rfl

theorem scanOnce_deep {i : Item} : scanOnce hooks 0 (i.opening :: t) = .error .recursion := by
  rw [scanOnce.eq_def]
  cases i with
  | value => rfl
  | member => rfl

/-- What an item of a container is scanned to. -/
abbrev Item.Found (N : Type) : Item → Type
  | .value => Value N
  | .member => Text × Value N

/-- The scanner of an item, from that of values. -/
def scanItem (scan : Text → Scanned ε (Value N)) : (i : Item) → Text → Scanned ε (i.Found N)
  | .value => scan
  | .member => scanMember scan

/-- The container of the items. -/
def Item.build : (i : Item) → List (i.Found N) → Value N
  | .value, items => .array items
  | .member, members => .object (members.foldl setItem [])

/-- `_parse_array_unicode` and `_parse_object_unicode`. -/
theorem scanOnce_container {i : Item} : scanOnce hooks (stack + 1) (i.opening :: t) =
    (scanContainer i.closing (scanItem (scanOnce hooks stack) i) t).map fun found =>
      (i.build found.1, found.2) := by
  rw [scanOnce.eq_def]
  cases i with
  | value => rfl
  | member => rfl

theorem scanOnce_other (quote : c ≠ .ofChar '"') (containers : ∀ i : Item, c ≠ i.opening) :
    scanOnce hooks stack (c :: t) = (scanLiteral hooks (c :: t)).getD (scanNumber hooks (c :: t)) := by
  rw [scanOnce.eq_def]
  have object : c ≠ .ofChar '{' := containers .member
  have array : c ≠ .ofChar '[' := containers .value
  simp only [if_neg quote, if_neg object, if_neg array]

/-- The kinds of values, by their first character. -/
inductive Head : Text → Prop
  | nil : Head []
  | string (t : Text) : Head (.ofChar '"' :: t)
  | container (i : Item) (t : Text) : Head (i.opening :: t)
  | other (c : CodePoint) (t : Text) : c ≠ .ofChar '"' → (∀ i : Item, c ≠ i.opening) → Head (c :: t)

theorem head_of (t : Text) : Head t := by
  match t with
  | [] => exact .nil
  | c :: t =>
    by_cases quote : c = .ofChar '"'
    · subst quote
      exact .string t
    by_cases array : c = Item.value.opening
    · subst array
      exact .container .value t
    by_cases object : c = Item.member.opening
    · subst object
      exact .container .member t
    · refine .other c t quote fun i => ?_
      cases i with
      | value => exact array
      | member => exact object

end Heads

theorem reads_scanItem {n : Nat} {scan : Text → Scanned ε (Value N)} (reads : Reads .value n scan)
    (i : Item) : Reads i n (scanItem scan i) := by
  cases i with
  | value => exact reads
  | member => exact reads_scanMember reads

/-- A scanned value is derived, with no more nested containers than the stack has room for. -/
theorem reads_scanOnce (strict : hooks.Strict) (stack : Nat) :
    Reads .value stack (scanOnce hooks stack) := by
  have others : ∀ {stack : Nat} {c : CodePoint} {t r : Text} {v : Value N},
      (scanLiteral hooks (c :: t)).getD (scanNumber hooks (c :: t)) = .ok (v, r) →
      Derives (.one .value) stack (c :: t) r := by
    intro stack c t r v scanned
    cases literal : scanLiteral hooks (c :: t) with
    | none =>
      rw [literal, Option.getD_none] at scanned
      obtain ⟨m, found, rfl, -⟩ := scanNumber_ok scanned
      obtain ⟨eq, number⟩ := matchNumber_sound found
      exact .number number eq
    | some result =>
      rw [literal, Option.getD_some] at scanned
      subst scanned
      obtain ⟨x, member, eq⟩ := scanLiteral_ok strict literal
      exact .literal member eq
  have strings : ∀ {stack : Nat} {t r : Text} {v : Value N},
      scanOnce hooks stack (.ofChar '"' :: t) = .ok (v, r) →
      Derives (.one .value) stack (.ofChar '"' :: t) r := by
    intro stack t r v scanned
    rw [scanOnce_string] at scanned
    split at scanned
    · cases scanned
    · rename_i found
      cases scanned
      exact .string (scanString_sound found)
  induction stack with
  | zero =>
    intro t v r scanned
    cases head_of t with
    | nil =>
      rw [scanOnce_nil] at scanned
      cases scanned
    | string t => exact strings scanned
    | container i t =>
      rw [scanOnce_deep] at scanned
      cases scanned
    | other c t quote containers =>
      rw [scanOnce_other quote containers] at scanned
      exact others scanned
  | succ stack ih =>
    intro t v r scanned
    cases head_of t with
    | nil =>
      rw [scanOnce_nil] at scanned
      cases scanned
    | string t => exact strings scanned
    | container i t =>
      rw [scanOnce_container] at scanned
      obtain ⟨⟨items, r'⟩, found, same⟩ := map_ok scanned
      cases same
      have reads := reads_scanItem ih i
      have container : Container i.closing (scanItem (scanOnce hooks stack) i) t _ :=
        container_scanContainer reads.takes t
      rw [found] at container
      exact container.derives reads
    | other c t quote containers =>
      rw [scanOnce_other quote containers] at scanned
      exact others scanned

/-- Induction on the scanner: one case for each kind of value, and for a container
the loop over its items. -/
theorem scanOnce_induction (strict : hooks.Strict)
    {motive : Nat → Text → Scanned ε (Value N) → Prop}
    (nil : ∀ stack, motive stack [] (.error (.decode ⟨.value, []⟩)))
    (string : ∀ stack t, motive stack (.ofChar '"' :: t)
      (match scanString (.ofChar '"' :: t) t with
        | .error e => .error (.decode e)
        | .ok (text, rest) => .ok (.string text, rest)))
    (deep : ∀ (i : Item) t, motive 0 (i.opening :: t) (.error .recursion))
    (container : ∀ stack (i : Item) t result, (∀ t, motive stack t (scanOnce hooks stack t)) →
      Container i.closing (scanItem (scanOnce hooks stack) i) t result →
      motive (stack + 1) (i.opening :: t) (result.map fun found => (i.build found.1, found.2)))
    (other : ∀ stack c t, c ≠ .ofChar '"' → (∀ i : Item, c ≠ i.opening) →
      motive stack (c :: t) ((scanLiteral hooks (c :: t)).getD (scanNumber hooks (c :: t))))
    (stack : Nat) (t : Text) : motive stack t (scanOnce hooks stack t) := by
  induction stack generalizing t with
  | zero =>
    cases head_of t with
    | nil =>
      rw [scanOnce_nil]
      exact nil 0
    | string t =>
      rw [scanOnce_string]
      exact string 0 t
    | container i t =>
      rw [scanOnce_deep]
      exact deep i t
    | other c t quote containers =>
      rw [scanOnce_other quote containers]
      exact other 0 c t quote containers
  | succ stack ih =>
    cases head_of t with
    | nil =>
      rw [scanOnce_nil]
      exact nil _
    | string t =>
      rw [scanOnce_string]
      exact string _ t
    | container i t =>
      have takes := (reads_scanItem (reads_scanOnce strict stack) i).takes
      rw [scanOnce_container]
      exact container stack i t _ ih (container_scanContainer takes t)
    | other c t quote containers =>
      rw [scanOnce_other quote containers]
      exact other _ c t quote containers

end Sound

/-! ## The scanner reads all of the grammar -/

section Complete

variable {ε N : Type} {hooks : Hooks ε N}

/-- The hooks refuse no number. -/
structure Hooks.Total (hooks : Hooks ε N) : Prop where
  parseInt : ∀ x, ∃ n, hooks.parseInt x = .ok n
  parseFloat : ∀ x, ∃ n, hooks.parseFloat x = .ok n

/-- No character of a number is at the head of the text. -/
def Stops (r : Text) : Prop := ∀ c ∈ r.head?, isNumberChar c = false

/-- What the scanner does with a derived text. -/
def Scans (hooks : Hooks ε N) (stack : Nat) : Symbol → Text → Text → Prop
  | .one i, t, r => Stops r → ∃ a, scanItem (scanOnce hooks stack) i t = .ok (a, r)
  | .many i, t, r => ∃ l, Items i.closing (scanItem (scanOnce hooks stack) i) t (.ok (l, r))

theorem Space.stops {u r : Text} {c : CodePoint} (space : Space u (c :: r))
    (stop : isNumberChar c = false) : Stops u := by
  obtain ⟨s, rfl, spaces⟩ := space
  intro d head
  cases s with
  | nil =>
    cases head
    exact stop
  | cons e s =>
    cases head
    exact isNumberChar_of_isSpace (spaces d List.mem_cons_self)

theorem not_isSpace_closing (i : Item) : isSpace i.closing = false ∧ isNumberChar i.closing = false ∧
    i.closing ≠ .ofChar ',' := by
  cases i with
  | value => decide
  | member => decide

theorem afterItem_of_closed {i : Item} {u r : Text} (space : Space u (i.closing :: r)) :
    afterItem i.closing u = .ok (true, r) := by
  have skipped : skipSpace u = i.closing :: r := space.skipSpace_eq fun c head => by
    cases head
    exact (not_isSpace_closing i).1
  simp only [afterItem, skipped, if_true]

theorem afterItem_of_comma {i : Item} {u v : Text} (space : Space u (.ofChar ',' :: v)) :
    afterItem i.closing u = .ok (false, skipSpace v) := by
  have skipped : skipSpace u = .ofChar ',' :: v := space.skipSpace_eq fun c head => by
    cases head
    decide
  have other : CodePoint.ofChar ',' ≠ i.closing := (not_isSpace_closing i).2.2.symm
  simp only [afterItem, skipped, if_neg other, if_true]

/-- A literal is read as such. -/
theorem scanLiteral_of_mem {x : Text} (literal : x ∈ literals) :
    ∃ v, ∀ r, scanLiteral hooks (x ++ r) = some (.ok (v, r)) := by
  have nt : CodePoint.ofChar 'n' ≠ .ofChar 't' := by decide
  have nf : CodePoint.ofChar 'n' ≠ .ofChar 'f' := by decide
  have tf : CodePoint.ofChar 't' ≠ .ofChar 'f' := by decide
  rcases mem_literals.mp literal with rfl | rfl | rfl
  · exact ⟨.null, fun r => by simp [scanLiteral, lit]⟩
  · exact ⟨.bool true, fun r => by simp [scanLiteral, lit, nt]⟩
  · exact ⟨.bool false, fun r => by simp [scanLiteral, lit, nf, tf]⟩

/-- The names that `scanLiteral` looks for. -/
def constants : List Text := literals ++ [lit "NaN", lit "Infinity", lit "-Infinity"]

theorem scanLiteral_none (hooks : Hooks ε N) {t : Text} (none : ∀ x ∈ constants, ¬ x <+: t) :
    scanLiteral hooks t = Option.none := by
  simp only [constants, literals, List.cons_append, List.nil_append, List.forall_mem_cons] at none
  obtain ⟨null, true', false', nan, infinity, negative, -⟩ := none
  simp only [scanLiteral, if_neg null, if_neg true', if_neg false', if_neg nan, if_neg infinity,
    if_neg negative]

/-- A number begins with a digit, after its sign. -/
theorem IsNumber.heads {x : Text} (number : IsNumber x) : ∃ d rest, isDigit d = true ∧
    (x = d :: rest ∨ x = .ofChar '-' :: d :: rest) := by
  obtain ⟨sign, integer, fraction, exponent, rfl, signed, whole, -, -⟩ := number
  obtain ⟨d, ds, rfl, digit⟩ := whole.head
  refine ⟨d, ds ++ fraction ++ exponent, digit, ?_⟩
  rcases signed with rfl | rfl
  · exact .inl rfl
  · exact .inr rfl

/-- A number is none of the names. -/
theorem IsNumber.not_constant {x r : Text} (number : IsNumber x) :
    ∀ y ∈ constants, ¬ y <+: x ++ r := by
  have heads : ∀ y ∈ constants, ∃ c rest, isDigit c = false ∧
      (y = c :: rest ∧ c ≠ .ofChar '-' ∨ y = .ofChar '-' :: c :: rest) := by
    intro y member
    simp only [constants, literals, List.cons_append, List.nil_append, List.mem_cons,
      List.not_mem_nil, or_false] at member
    rcases member with rfl | rfl | rfl | rfl | rfl | rfl
    · exact ⟨_, _, by decide, .inl ⟨rfl, by decide⟩⟩
    · exact ⟨_, _, by decide, .inl ⟨rfl, by decide⟩⟩
    · exact ⟨_, _, by decide, .inl ⟨rfl, by decide⟩⟩
    · exact ⟨_, _, by decide, .inl ⟨rfl, by decide⟩⟩
    · exact ⟨_, _, by decide, .inl ⟨rfl, by decide⟩⟩
    · exact ⟨_, _, by decide, .inr rfl⟩
  intro y member before
  obtain ⟨c, rest, letter, kind⟩ := heads y member
  obtain ⟨d, rest', digit, kind'⟩ := number.heads
  have minus : isDigit (.ofChar '-') = false := by decide
  rcases kind with ⟨rfl, other⟩ | rfl
  · rcases kind' with rfl | rfl
    · obtain ⟨rfl, -⟩ := List.cons_prefix_cons.mp before
      rw [letter] at digit
      cases digit
    · obtain ⟨same, -⟩ := List.cons_prefix_cons.mp before
      exact other same
  · rcases kind' with rfl | rfl
    · obtain ⟨rfl, -⟩ := List.cons_prefix_cons.mp before
      rw [minus] at digit
      cases digit
    · obtain ⟨-, before⟩ := List.cons_prefix_cons.mp before
      obtain ⟨rfl, -⟩ := List.cons_prefix_cons.mp before
      rw [letter] at digit
      cases digit

/-- What begins an item is not space, and closes no container. -/
def Begins (c : CodePoint) : Prop := isSpace c = false ∧ ∀ i : Item, c ≠ i.closing

theorem begins_of_isDigit {c : CodePoint} (digit : isDigit c = true) : Begins c := by
  refine ⟨?_, fun i => ?_⟩
  · cases space : isSpace c with
    | false => rfl
    | true =>
      have stop := isNumberChar_of_isSpace space
      rw [isNumberChar_of_isDigit digit] at stop
      cases stop
  · rintro rfl
    cases i with
    | value => exact absurd digit (by decide)
    | member => exact absurd digit (by decide)

theorem begins_of_literal {x : Text} (literal : x ∈ literals) :
    ∃ c rest, x = c :: rest ∧ Begins c := by
  have ends : ∀ {c : CodePoint}, c ≠ .ofChar ']' → c ≠ .ofChar '}' → ∀ i : Item, c ≠ i.closing := by
    intro c array object i
    cases i with
    | value => exact array
    | member => exact object
  rcases mem_literals.mp literal with rfl | rfl | rfl
  · exact ⟨_, _, rfl, by decide, ends (by decide) (by decide)⟩
  · exact ⟨_, _, rfl, by decide, ends (by decide) (by decide)⟩
  · exact ⟨_, _, rfl, by decide, ends (by decide) (by decide)⟩

theorem Derives.begins {symbol : Symbol} {n : Nat} {t r : Text} (derives : Derives symbol n t r) :
    ∃ c rest, t = c :: rest ∧ Begins c := by
  have quote : Begins (.ofChar '"') := ⟨by decide, fun i => by cases i <;> decide⟩
  have opening : ∀ i : Item, Begins i.opening := by
    intro i
    cases i with
    | value => exact ⟨by decide, fun i => by cases i <;> decide⟩
    | member => exact ⟨by decide, fun i => by cases i <;> decide⟩
  induction derives with
  | string _ | member _ _ _ _ _ => exact ⟨_, _, rfl, quote⟩
  | number number eq =>
    obtain ⟨c, rest, rfl, digit | rfl⟩ := number.head
    · exact ⟨c, _, eq, begins_of_isDigit digit⟩
    · exact ⟨_, _, eq, by decide, fun i => by cases i <;> decide⟩
  | literal literal eq =>
    obtain ⟨c, rest, rfl, begins⟩ := begins_of_literal literal
    exact ⟨c, _, eq, begins⟩
  | empty _ | container _ _ _ => exact ⟨_, _, rfl, opening _⟩
  | last _ _ ih | more _ _ _ _ ih => exact ih

/-- Space ends where an item begins. -/
theorem Derives.skipSpace_eq {symbol : Symbol} {n : Nat} {t u r : Text} (space : Space t u)
    (derives : Derives symbol n u r) : skipSpace t = u := by
  obtain ⟨c, rest, rfl, begins⟩ := derives.begins
  exact space.skipSpace_eq fun d head => by
    cases head
    exact begins.1

/-- What begins a number or a literal begins nothing else. -/
theorem scanOnce_plain {stack : Nat} {c : CodePoint} {t : Text} (begins : Begins c)
    (plain : isNumberChar c = true ∨ c = .ofChar 'n' ∨ c = .ofChar 't' ∨ c = .ofChar 'f') :
    scanOnce hooks stack (c :: t) = (scanLiteral hooks (c :: t)).getD (scanNumber hooks (c :: t)) := by
  refine scanOnce_other ?_ fun i => ?_
  · rintro rfl
    revert plain
    decide
  · rintro rfl
    cases i with
    | value => exact absurd plain (by decide)
    | member => exact absurd plain (by decide)

theorem scanNumber_complete (total : hooks.Total) {x r : Text} (number : IsNumber x) (stop : Stops r) :
    ∃ v, scanNumber hooks (x ++ r) = .ok (v, r) := by
  obtain ⟨m, found, -, rest⟩ := matchNumber_complete number stop
  cases float : m.isFloat with
  | true =>
    obtain ⟨n, parsed⟩ := total.parseFloat m.text
    exact ⟨.number n, by simp [scanNumber, found, float, parsed, rest]⟩
  | false =>
    obtain ⟨n, parsed⟩ := total.parseInt m.text
    exact ⟨.number n, by simp [scanNumber, found, float, parsed, rest]⟩

/-- A derived text is read as derived. -/
theorem scans_of_derives (strict : hooks.Strict) (total : hooks.Total) {symbol : Symbol} {n : Nat}
    {t r : Text} (derives : Derives symbol n t r) {stack : Nat} (room : n ≤ stack) :
    Scans hooks stack symbol t r := by
  have takes : ∀ (stack : Nat) (i : Item), Takes (scanItem (scanOnce hooks stack) i) :=
    fun stack i => (reads_scanItem (reads_scanOnce strict stack) i).takes
  induction derives generalizing stack with
  | @string n t r body =>
    intro _
    obtain ⟨x, scanned⟩ : ∃ x, scanString (.ofChar '"' :: t) t = .ok (x, r) :=
      scanString_complete body
    exact ⟨.string x, by simp only [scanItem, scanOnce_string, scanned]⟩
  | @number n x t r number eq =>
    intro stop
    obtain ⟨v, scanned⟩ := scanNumber_complete total number stop
    obtain ⟨c, rest, rfl, begin⟩ := number.head
    have begins : Begins c ∧ isNumberChar c = true := by
      rcases begin with digit | rfl
      · exact ⟨begins_of_isDigit digit, isNumberChar_of_isDigit digit⟩
      · exact ⟨⟨by decide, fun i => by cases i <;> decide⟩, by decide⟩
    have none := scanLiteral_none hooks (number.not_constant (r := r))
    subst eq
    rw [List.cons_append] at none scanned ⊢
    exact ⟨v, by rw [scanItem, scanOnce_plain begins.1 (.inl begins.2), none, Option.getD_none, scanned]⟩
  | @literal n x t r literal eq =>
    intro _
    obtain ⟨v, found⟩ : ∃ v, ∀ r, scanLiteral hooks (x ++ r) = some (.ok (v, r)) :=
      scanLiteral_of_mem literal
    replace found := found r
    obtain ⟨c, rest, rfl, begins⟩ := begins_of_literal literal
    have letter : c = .ofChar 'n' ∨ c = .ofChar 't' ∨ c = .ofChar 'f' := by
      rcases mem_literals.mp literal with same | same | same
      · injection same with same
        exact .inl same
      · injection same with same
        exact .inr (.inl same)
      · injection same with same
        exact .inr (.inr same)
    subst eq
    rw [List.cons_append] at found ⊢
    exact ⟨v, by rw [scanItem, scanOnce_plain begins (.inr letter), found, Option.getD_some]⟩
  | @empty i n t r space =>
    intro _
    obtain ⟨stack, rfl⟩ := Nat.exists_eq_add_one.mpr (Nat.lt_of_lt_of_le n.succ_pos room)
    have skipped : skipSpace t = i.closing :: r := space.skipSpace_eq fun c head => by
      cases head
      exact (not_isSpace_closing i).1
    have scanned := (Container.empty skipped).scanContainer_eq (takes stack i)
    exact ⟨_, by rw [scanItem, scanOnce_container, scanned]; rfl⟩
  | @container i n t u r space derives ih =>
    intro _
    obtain ⟨stack, rfl⟩ := Nat.exists_eq_add_one.mpr (Nat.lt_of_lt_of_le n.succ_pos room)
    obtain ⟨l, items⟩ := ih (Nat.le_of_succ_le_succ room)
    have skipped := derives.skipSpace_eq space
    rw [← skipped] at items
    have other : ∀ r, skipSpace t ≠ i.closing :: r := by
      intro r
      obtain ⟨c, rest, rfl, begins⟩ := derives.begins
      rw [skipped]
      intro same
      injection same with same
      exact begins.2 i same
    have scanned := (Container.items other items).scanContainer_eq (takes stack i)
    exact ⟨_, by rw [scanItem, scanOnce_container, scanned]; rfl⟩
  | @member n t u v w r body space space' derives ih =>
    intro stop
    obtain ⟨a, scanned⟩ := ih room stop
    obtain ⟨key, read⟩ : ∃ x, scanString (.ofChar '"' :: t) t = .ok (x, u) :=
      scanString_complete body
    have colon : skipSpace u = .ofChar ':' :: v := space.skipSpace_eq fun c head => by
      cases head
      decide
    have skipped := derives.skipSpace_eq space'
    simp only [scanItem] at scanned
    exact ⟨(key, a), by simp only [scanItem, scanMember, if_true, read, colon, skipped, scanned]⟩
  | last _ space ih =>
    obtain ⟨a, scanned⟩ := ih room (space.stops (not_isSpace_closing _).2.1)
    exact ⟨[a], .last scanned (afterItem_of_closed space)⟩
  | @more i n t u v w r _ space space' derives ih₁ ih₂ =>
    obtain ⟨a, scanned⟩ := ih₁ room (space.stops (by decide))
    obtain ⟨l, items⟩ := ih₂ room
    have after := afterItem_of_comma (i := i) space
    rw [derives.skipSpace_eq space'] at after
    exact ⟨a :: l, .more scanned after items⟩

end Complete

/-! ## The stack and the hooks -/

section Stack

variable {ε N : Type} {hooks hooks' : Hooks ε N}

/-- An item function that agrees with another one, but for its `RecursionError`s. -/
def Deeper {α : Type} (item item' : Text → Scanned ε α) : Prop :=
  ∀ t, item t = .error .recursion ∨ item' t = item t

theorem Items.deeper {α : Type} {close : CodePoint} {item item' : Text → Scanned ε α}
    (deeper : Deeper item item') {t : Text} {result : Scanned ε (List α)}
    (items : Items close item t result) :
    result = .error .recursion ∨ Items close item' t result := by
  induction items with
  | @failed t failure scanned =>
    rcases deeper t with deep | same
    · rw [deep] at scanned
      cases scanned
      exact .inl rfl
    · exact .inr (.failed (same.trans scanned))
  | @«open» t u a e scanned after =>
    rcases deeper t with deep | same
    · rw [deep] at scanned
      cases scanned
    · exact .inr (.open (same.trans scanned) after)
  | @last t u r a scanned after =>
    rcases deeper t with deep | same
    · rw [deep] at scanned
      cases scanned
    · exact .inr (.last (same.trans scanned) after)
  | @later t u w a failure scanned after _ ih =>
    rcases deeper t with deep | same
    · rw [deep] at scanned
      cases scanned
    · rcases ih with deep | items
      · cases deep
        exact .inl rfl
      · exact .inr (.later (same.trans scanned) after items)
  | @more t u w r a l scanned after _ ih =>
    rcases deeper t with deep | same
    · rw [deep] at scanned
      cases scanned
    · rcases ih with deep | items
      · cases deep
      · exact .inr (.more (same.trans scanned) after items)

theorem Container.deeper {α : Type} {close : CodePoint} {item item' : Text → Scanned ε α}
    (deeper : Deeper item item') {t : Text} {result : Scanned ε (List α)}
    (container : Container close item t result) :
    result = .error .recursion ∨ Container close item' t result := by
  cases container with
  | empty skipped => exact .inr (.empty skipped)
  | items other items =>
    rcases items.deeper deeper with deep | items
    · exact .inl deep
    · exact .inr (.items other items)

theorem deeper_scanItem {scan scan' : Text → Scanned ε (Value N)} (deeper : Deeper scan scan')
    (i : Item) : Deeper (scanItem scan i) (scanItem scan' i) := by
  cases i with
  | value => exact deeper
  | member =>
    intro t
    match t with
    | [] => exact .inr rfl
    | c :: t =>
      simp only [scanItem, scanMember]
      split
      · split
        · exact .inr rfl
        · split
          · exact .inr rfl
          · rename_i c w _
            split
            · rcases deeper (skipSpace w) with deep | same
              · rw [deep]
                exact .inl rfl
              · rw [same]
                exact .inr rfl
            · exact .inr rfl
      · exact .inr rfl

/-- A larger stack changes nothing but a `RecursionError`. -/
theorem deeper_scanOnce (strict : hooks.Strict) {stack stack' : Nat} (room : stack ≤ stack') :
    Deeper (scanOnce hooks stack) (scanOnce hooks stack') := by
  intro t
  refine scanOnce_induction strict (motive := fun stack t result => ∀ stack', stack ≤ stack' →
    result = .error .recursion ∨ scanOnce hooks stack' t = result) ?_ ?_ ?_ ?_ ?_ stack t stack' room
  · exact fun _ _ _ => .inr scanOnce_nil
  · exact fun _ _ _ _ => .inr scanOnce_string
  · exact fun _ _ _ _ => .inl rfl
  · intro stack i t result ih container stack' room
    obtain ⟨stack', rfl⟩ := Nat.exists_eq_add_one.mpr (Nat.lt_of_lt_of_le stack.succ_pos room)
    have deeper : Deeper (scanOnce hooks stack) (scanOnce hooks stack') :=
      fun t => ih t stack' (Nat.le_of_succ_le_succ room)
    have takes := (reads_scanItem (reads_scanOnce strict stack') i).takes
    rcases container.deeper (deeper_scanItem deeper i) with deep | same
    · rw [deep]
      exact .inl rfl
    · rw [scanOnce_container, same.scanContainer_eq takes]
      exact .inr rfl
  · exact fun _ _ _ quote containers _ _ => .inr (scanOnce_other quote containers)

/-- What a hook refuses with satisfies `P`. -/
def Hooks.Refuses (hooks : Hooks ε N) (P : ε → Prop) : Prop :=
  ∀ x e, hooks.parseInt x = .error e ∨ hooks.parseFloat x = .error e ∨
    hooks.parseConstant x = .error e → P e

/-- An item function refuses with exceptions that satisfy `P`. -/
def Refuses {α : Type} (P : ε → Prop) (item : Text → Scanned ε α) : Prop :=
  ∀ t e, item t = .error (.refused e) → P e

theorem Items.refuses {α : Type} {P : ε → Prop} {close : CodePoint} {item : Text → Scanned ε α}
    (refuses : Refuses P item) {t : Text} {e : ε} (items : Items close item t (.error (.refused e))) :
    P e := by
  generalize ended : (.error (.refused e) : Scanned ε (List α)) = result at items
  induction items with
  | failed scanned =>
    cases ended
    exact refuses _ _ scanned
  | later _ _ _ ih =>
    cases ended
    exact ih rfl
  | «open» _ _ | last _ _ | more _ _ _ _ => cases ended

/-- A member fails with its value, but for what its key and its colon can be. -/
theorem scanMember_error {scan : Text → Scanned ε (Value N)} {t : Text} {failure : Failure ε}
    (failed : scanMember scan t = .error failure) : (∃ e, failure = .decode e) ∨
      ∃ u x v w, t = .ofChar '"' :: u ∧ scanString t u = .ok (x, v) ∧
        skipSpace v = .ofChar ':' :: w ∧ scan (skipSpace w) = .error failure := by
  match t with
  | [] =>
    cases failed
    exact .inl ⟨_, rfl⟩
  | c :: u =>
    simp only [scanMember] at failed
    split at failed
    · rename_i quote
      subst quote
      split at failed
      · cases failed
        exact .inl ⟨_, rfl⟩
      · rename_i x v key
        split at failed
        · cases failed
          exact .inl ⟨_, rfl⟩
        · rename_i c w skipped
          split at failed
          · rename_i colon
            subst colon
            split at failed
            · rename_i failure' scanned
              cases failed
              exact .inr ⟨u, x, v, w, rfl, key, skipped, scanned⟩
            · cases failed
          · cases failed
            exact .inl ⟨_, rfl⟩
    · cases failed
      exact .inl ⟨_, rfl⟩

theorem refuses_scanMember {P : ε → Prop} {scan : Text → Scanned ε (Value N)}
    (refuses : Refuses P scan) : Refuses P (scanMember scan) := by
  intro t e failed
  rcases scanMember_error failed with ⟨e', impossible⟩ | ⟨_, _, _, _, -, -, -, failed⟩
  · cases impossible
  · exact refuses _ _ failed

theorem refuses_scanItem {P : ε → Prop} {scan : Text → Scanned ε (Value N)}
    (refuses : Refuses P scan) (i : Item) : Refuses P (scanItem scan i) := by
  cases i with
  | value => exact refuses
  | member => exact refuses_scanMember refuses

theorem map_error {α β : Type} {scanned : Scanned ε α} {f : α × Text → β × Text}
    {failure : Failure ε} (mapped : scanned.map f = .error failure) : scanned = .error failure := by
  cases scanned with
  | error failure' =>
    cases mapped
    rfl
  | ok x => cases mapped

theorem scanConstant_error {name rest : Text} {failure : Failure ε}
    (failed : scanConstant hooks name rest = .error failure) :
    ∃ e, failure = .refused e ∧ hooks.parseConstant name = .error e := by
  unfold scanConstant at failed
  split at failed
  · cases failed
  · rename_i e refused
    cases failed
    exact ⟨e, rfl, refused⟩

/-- A literal fails as one of the constants only. -/
theorem scanLiteral_error {t : Text} {failure : Failure ε}
    (failed : scanLiteral hooks t = some (.error failure)) :
    ∃ e name, failure = .refused e ∧ hooks.parseConstant name = .error e := by
  have constant : ∀ {name rest : Text},
      some (scanConstant hooks name rest) = some (.error failure) →
      ∃ e name, failure = .refused e ∧ hooks.parseConstant name = .error e := by
    intro name rest same
    obtain ⟨e, refused, parsed⟩ := scanConstant_error (Option.some.inj same)
    exact ⟨e, name, refused, parsed⟩
  unfold scanLiteral at failed
  split at failed
  · cases failed
  · split at failed
    · cases failed
    · split at failed
      · cases failed
      · split at failed
        · exact constant failed
        · split at failed
          · exact constant failed
          · split at failed
            · exact constant failed
            · cases failed

theorem scanNumber_error {t : Text} {failure : Failure ε}
    (failed : scanNumber hooks t = .error failure) :
    failure = .decode ⟨.value, t⟩ ∧ matchNumber t = none ∨ ∃ e m, failure = .refused e ∧
      matchNumber t = some m ∧
      (if m.isFloat then hooks.parseFloat m.text else hooks.parseInt m.text) = .error e := by
  unfold scanNumber at failed
  split at failed
  · rename_i none
    cases failed
    exact .inl ⟨rfl, none⟩
  · rename_i m found
    split at failed
    · cases failed
    · rename_i e refused
      cases failed
      exact .inr ⟨e, m, rfl, found, refused⟩

theorem refuses_scanOnce {P : ε → Prop} (strict : hooks.Strict) (refuses : hooks.Refuses P)
    (stack : Nat) : Refuses P (scanOnce hooks stack) := by
  have others : ∀ {t : Text} {e : ε},
      (scanLiteral hooks t).getD (scanNumber hooks t) = .error (.refused e) → P e := by
    intro t e failed
    cases literal : scanLiteral hooks t with
    | none =>
      rw [literal, Option.getD_none] at failed
      rcases scanNumber_error failed with ⟨impossible, -⟩ | ⟨e', m, same, -, refused⟩
      · cases impossible
      · cases same
        split at refused
        · exact refuses _ _ (.inr (.inl refused))
        · exact refuses _ _ (.inl refused)
    | some result =>
      rw [literal, Option.getD_some] at failed
      subst failed
      obtain ⟨e', name, same, refused⟩ := scanLiteral_error literal
      cases same
      exact refuses _ _ (.inr (.inr refused))
  intro t
  refine scanOnce_induction strict
    (motive := fun _ t result => ∀ e, result = .error (.refused e) → P e) ?_ ?_ ?_ ?_ ?_ stack t
  · intro _ e failed
    cases failed
  · intro _ t e failed
    split at failed
    · cases failed
    · cases failed
  · intro i t e failed
    cases failed
  · intro stack i t result ih container e failed
    rw [map_error failed] at container
    cases container with
    | items _ items => exact items.refuses (refuses_scanItem ih i)
  · exact fun _ _ _ _ _ _ => others

end Stack

end DataBridge.Json
