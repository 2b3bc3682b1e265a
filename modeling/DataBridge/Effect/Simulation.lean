import Mathlib.Logic.Relation

/-!
# Forward simulation

Runs of a labelled transition relation, and that a simulation carries a run of one
relation to a run of another with the same labels.
-/

namespace Effect

variable {ι S T : Type}

/-- A run with its labels. -/
inductive Trace (step : ι → S → S → Prop) : S → List ι → S → Prop
  | nil {s : S} : Trace step s [] s
  | cons {s s' s'' : S} {i : ι} {l : List ι} :
    step i s s' → Trace step s' l s'' → Trace step s (i :: l) s''

theorem Trace.concat {step : ι → S → S → Prop} {s s' s'' : S} {i : ι} {l : List ι}
    (run : Trace step s l s') (last : step i s' s'') : Trace step s (l ++ [i]) s'' := by
  induction run with
  | nil => exact .cons last .nil
  | cons first _ ih => exact .cons first (ih last)

/-- Every step from related states can be answered by a step with the same label. -/
def Simulates (step : ι → S → S → Prop) (step' : ι → T → T → Prop) (R : S → T → Prop) : Prop :=
  ∀ i s s' t, R s t → step i s s' → ∃ t', step' i t t' ∧ R s' t'

variable {step : ι → S → S → Prop} {step' : ι → T → T → Prop} {R : S → T → Prop}

theorem Simulates.trace (simulates : Simulates step step' R) {s s' : S} {t : T} {l : List ι}
    (run : Trace step s l s') (related : R s t) : ∃ t', Trace step' t l t' ∧ R s' t' := by
  induction run generalizing t with
  | nil => exact ⟨t, .nil, related⟩
  | cons first _ ih =>
    obtain ⟨t₁, first', related₁⟩ := simulates _ _ _ _ related first
    obtain ⟨t', rest', related'⟩ := ih related₁
    exact ⟨t', .cons first' rest', related'⟩

end Effect
