import Mathlib.Data.List.Basic
import Mathlib.Data.List.Nodup
import Mathlib.Tactic.SplitIfs

/-!
# Dictionaries

A Python `dict` as the list of its items, in the order in which the keys were first set.
-/

/-- The items of a `dict`. -/
abbrev Dict (κ α : Type) : Type := List (κ × α)

namespace Dict

variable {κ α : Type} [DecidableEq κ]

/-- `d.get(key)`. -/
def get? (key : κ) : Dict κ α → Option α
  | [] => none
  | (k, value) :: d => if k = key then some value else get? key d

/-- `d[key] = value`. -/
def set (key : κ) (value : α) : Dict κ α → Dict κ α
  | [] => [(key, value)]
  | (k, old) :: d => if k = key then (k, value) :: d else (k, old) :: set key value d

/-- `d.setdefault(key, value)`. -/
def setDefault (key : κ) (value : α) (d : Dict κ α) : Dict κ α :=
  if (get? key d).isSome then d else set key value d

/-- `{key: value for key in keys}`. -/
def fromKeys (value : α) (keys : List κ) : Dict κ α :=
  keys.foldl (fun d key => set key value d) []

@[simp] theorem get?_nil (key : κ) : get? key ([] : Dict κ α) = none := rfl

theorem get?_set (key : κ) (value : α) (d : Dict κ α) (other : κ) :
    get? other (set key value d) = if key = other then some value else get? other d := by
  induction d with
  | nil => rfl
  | cons item d ih =>
    obtain ⟨k, old⟩ := item
    unfold set
    split
    · rename_i same
      subst same
      by_cases hit : k = other
      · simp [get?, hit]
      · simp [get?, hit]
    · rename_i differs
      by_cases hit : k = other
      · subst hit
        simp [get?, Ne.symm differs]
      · simp [get?, hit, ih]

theorem get?_setDefault (key : κ) (value : α) (d : Dict κ α) (other : κ) :
    get? other (setDefault key value d) =
      if key = other then some ((get? key d).getD value) else get? other d := by
  unfold setDefault
  split
  · rename_i present
    obtain ⟨old, same⟩ := Option.isSome_iff_exists.mp present
    split
    · rename_i hit
      subst hit
      rw [same, Option.getD_some]
    · rfl
  · rename_i absent
    rw [get?_set, Option.not_isSome_iff_eq_none.mp absent, Option.getD_none]

theorem get?_fromKeys (value : α) (keys : List κ) (key : κ) :
    get? key (fromKeys value keys) = if key ∈ keys then some value else none := by
  suffices go : ∀ d : Dict κ α, get? key (keys.foldl (fun d key => set key value d) d) =
      if key ∈ keys then some value else get? key d from go []
  induction keys with
  | nil =>
    intro d
    rfl
  | cons k keys ih =>
    intro d
    rw [List.foldl_cons, ih, get?_set]
    by_cases inRest : key ∈ keys
    · rw [if_pos inRest, if_pos (List.mem_cons_of_mem k inRest)]
    · by_cases same : k = key
      · subst same
        rw [if_neg inRest, if_pos rfl, if_pos List.mem_cons_self]
      · have absent : key ∉ k :: keys := by
          intro member
          rcases List.mem_cons.mp member with rfl | member
          · exact same rfl
          · exact inRest member
        rw [if_neg inRest, if_neg same, if_neg absent]

/-- The keys of a dictionary. -/
def keys (d : Dict κ α) : List κ := d.map Prod.fst

omit [DecidableEq κ] in
@[simp] theorem keys_cons (item : κ × α) (d : Dict κ α) :
    keys (item :: d) = item.1 :: keys d := rfl

theorem mem_keys_iff (d : Dict κ α) (key : κ) : key ∈ keys d ↔ (get? key d).isSome := by
  induction d with
  | nil => simp [keys]
  | cons item d ih =>
    obtain ⟨k, value⟩ := item
    rw [keys_cons, List.mem_cons, ih, get?]
    by_cases same : k = key
    · simp [same]
    · simp [same, Ne.symm same]

/-- `dict(items)`. -/
def ofItems (items : List (κ × α)) : Dict κ α :=
  items.foldl (fun d item => set item.1 item.2 d) []

theorem set_of_notMem {key : κ} {d : Dict κ α} (absent : key ∉ keys d) (value : α) :
    set key value d = d ++ [(key, value)] := by
  induction d with
  | nil => rfl
  | cons item d ih =>
    obtain ⟨k, old⟩ := item
    rw [keys_cons, List.mem_cons, not_or] at absent
    rw [set, if_neg (Ne.symm absent.1), ih absent.2]
    rfl

theorem mem_of_mem_set {key : κ} {value : α} {d : Dict κ α} {item : κ × α}
    (member : item ∈ set key value d) : item = (key, value) ∨ item ∈ d := by
  induction d with
  | nil => exact .inl (List.mem_singleton.mp member)
  | cons first d ih =>
    obtain ⟨k, old⟩ := first
    rw [set] at member
    split_ifs at member with same
    · rcases List.mem_cons.mp member with rfl | later
      · exact .inl (by rw [same])
      · exact .inr (List.mem_cons_of_mem _ later)
    · rcases List.mem_cons.mp member with rfl | later
      · exact .inr List.mem_cons_self
      · exact (ih later).imp_right (List.mem_cons_of_mem _)

theorem keys_set (key : κ) (value : α) (d : Dict κ α) :
    keys (set key value d) = if key ∈ keys d then keys d else keys d ++ [key] := by
  induction d with
  | nil => rfl
  | cons item d ih =>
    obtain ⟨k, old⟩ := item
    rw [set]
    by_cases same : k = key
    · rw [if_pos same, if_pos (by rw [keys_cons, same]; exact List.mem_cons_self)]
      rfl
    · rw [if_neg same, keys_cons, ih, keys_cons]
      by_cases later : key ∈ keys d
      · rw [if_pos later, if_pos (List.mem_cons_of_mem k later)]
      · rw [if_neg later, if_neg (by simp [later, Ne.symm same])]
        rfl

theorem nodup_keys_set {key : κ} {value : α} {d : Dict κ α} (distinct : (keys d).Nodup) :
    (keys (set key value d)).Nodup := by
  rw [keys_set]
  split_ifs with present
  · exact distinct
  · exact List.Nodup.append distinct (List.nodup_singleton key) (by simpa using present)

/-- Items with distinct keys are the dictionary they make. -/
theorem ofItems_of_nodup {items : List (κ × α)} (distinct : (keys items).Nodup) :
    ofItems items = items := by
  suffices go : ∀ d : Dict κ α, (keys (d ++ items)).Nodup →
      items.foldl (fun d item => set item.1 item.2 d) d = d ++ items from go [] distinct
  clear distinct
  induction items with
  | nil =>
    intro d _
    exact (List.append_nil d).symm
  | cons item items ih =>
    intro d distinct
    have absent : item.1 ∉ keys d := by
      intro member
      rw [keys, List.map_append, List.map_cons, List.nodup_append] at distinct
      exact distinct.2.2 item.1 member item.1 List.mem_cons_self rfl
    rw [List.append_cons] at distinct
    rw [List.foldl_cons, set_of_notMem absent, ih _ distinct, ← List.append_cons]

end Dict
