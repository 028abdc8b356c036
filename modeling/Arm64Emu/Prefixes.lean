import Mathlib.Data.List.Infix

/-! Runs of a deterministic system, and which of them keep a property all along. -/

namespace Prefixes

variable {S A : Type} {step : S → A → S} {P : S → Prop} {ok : A → Prop} {bad : S → A → Prop}

theorem forall_prefix_iff (hstep : ∀ s a, ok a → P s → (P (step s a) ↔ ¬ bad s a)) {s : S} (hs : P s) {l : List A}
    (hl : ∀ a ∈ l, ok a) :
    (∀ pre, pre <+: l → P (pre.foldl step s)) ↔ ∀ pre a, pre ++ [a] <+: l → ¬ bad (pre.foldl step s) a := by
  constructor
  · intro h pre a hpre
    have hlast := h (pre ++ [a]) hpre
    rw [List.foldl_append] at hlast
    exact (hstep _ _ (hl a (hpre.subset (by simp))) (h pre ((List.prefix_append pre [a]).trans hpre))).1 hlast
  · intro h pre
    -- over the prefix from its end: the last step is not a bad one
    induction pre using List.reverseRecOn with
    | nil => exact fun _ => hs
    | append_singleton pre a ih =>
      intro hpre
      have hbefore := ih ((List.prefix_append pre [a]).trans hpre)
      rw [List.foldl_append]
      exact (hstep _ _ (hl a (hpre.subset (by simp))) hbefore).2 (h pre a hpre)

end Prefixes
