import Mathlib.Logic.Basic

/-!
# Traces and simulations

The general layer under the refinement results. Nothing here names the game backend.

A machine acts, which can be observed as an event, or it takes a quiet step. `Trace` says
which events lead from one state to another. A map of states under which every act is an
act of another machine, with the same event, and every quiet step a quiet step, takes
traces to traces (`Trace.simulate`).
-/

namespace GameBackend

section Trace

variable {S T E : Type} {act : S → E → S → Prop} {quiet : S → S → Prop}
  {act' : T → E → T → Prop} {quiet' : T → T → Prop} {s₀ s : S} {es : List E}

/-- The events `es`, newest first, lead from `s₀` to `s`. -/
inductive Trace (act : S → E → S → Prop) (quiet : S → S → Prop) (s₀ : S) : List E → S → Prop where
  | nil : Trace act quiet s₀ [] s₀
  | act {es : List E} {s s' : S} {e : E} (before : Trace act quiet s₀ es s) (acts : act s e s') :
      Trace act quiet s₀ (e :: es) s'
  | quiet {es : List E} {s s' : S} (before : Trace act quiet s₀ es s) (steps : quiet s s') :
      Trace act quiet s₀ es s'

/-- **Simulation**, on states that satisfy an invariant. -/
theorem Trace.simulate {I : S → Prop} (f : S → T) (h₀ : I s₀)
    (hact : ∀ s e s', I s → act s e s' → I s' ∧ act' (f s) e (f s'))
    (hquiet : ∀ s s', I s → quiet s s' → I s' ∧ quiet' (f s) (f s'))
    (h : Trace act quiet s₀ es s) : I s ∧ Trace act' quiet' (f s₀) es (f s) := by
  induction h with
  | nil => exact ⟨h₀, .nil⟩
  | act before acts ih =>
    obtain ⟨hI, hacts⟩ := hact _ _ _ ih.1 acts
    exact ⟨hI, ih.2.act hacts⟩
  | quiet before steps ih =>
    obtain ⟨hI, hsteps⟩ := hquiet _ _ ih.1 steps
    exact ⟨hI, ih.2.quiet hsteps⟩

end Trace

end GameBackend
