import GameBackend.Computation
import Mathlib.Logic.Relation
import Mathlib.Order.WellFounded

/-!
# Waiting and coming to an end

The general layer under the liveness results. Nothing here names the game backend.

* `WaitsFor holder wants` — the **wait-for graph** of processes that hold locks and
  want one more. With *ordered acquisition* (`Ascending`: who waits wants a lock that
  comes after all those it holds) it has no cycle, and every chain of waiting
  processes ends at one that does not wait.
* `Reach.descend` — a run that goes on as long as there is something left to do comes
  to an end.
-/

namespace GameBackend

/-! ## The wait-for graph -/

section Waiting

variable {ι κ : Type}

/-- Process `i` wants a lock that process `j` holds. -/
def WaitsFor (holder : κ → Option ι) (wants : ι → Option κ) (i j : ι) : Prop :=
  i ≠ j ∧ ∃ k, wants i = some k ∧ holder k = some j

variable {holder : κ → Option ι} {wants : ι → Option κ} {i j : ι} {k : κ}

variable {α : Type} [Preorder α]

/-- **Ordered acquisition**: a process that waits wants a lock that comes after all
those it holds. -/
def Ascending (holder : κ → Option ι) (wants : ι → Option κ) (rank : κ → α) : Prop :=
  ∀ i j k k', WaitsFor holder wants i j → wants i = some k → holder k' = some i →
    rank k' < rank k

variable {rank : κ → α}

/-- Along a chain of waiting processes the locks that are wanted rise to the last one
that is held. -/
theorem Ascending.rank_le (h : Ascending holder wants rank)
    (hij : Relation.TransGen (WaitsFor holder wants) i j) (hk : wants i = some k) :
    ∃ k', holder k' = some j ∧ rank k ≤ rank k' := by
  induction hij with
  | single hwaits =>
    obtain ⟨-, k', hk', hheld⟩ := hwaits
    obtain rfl := Option.some.inj (hk.symm.trans hk')
    exact ⟨k, hheld, le_rfl⟩
  | tail _ hwaits ih =>
    obtain ⟨k', hheld, hle⟩ := ih
    obtain ⟨k'', hwants, hheld'⟩ := hwaits.2
    exact ⟨k'', hheld', hle.trans (h _ _ k'' k' hwaits hwants hheld).le⟩

/-- **No deadlock**: with ordered acquisition the wait-for graph has no cycle. -/
theorem Ascending.acyclic (h : Ascending holder wants rank) :
    ¬Relation.TransGen (WaitsFor holder wants) i i := by
  intro hcycle
  obtain ⟨j, hwaits, -⟩ := Relation.TransGen.head'_iff.mp hcycle
  obtain ⟨k, hk, -⟩ := hwaits.2
  obtain ⟨k', hheld, hle⟩ := h.rank_le hcycle hk
  exact lt_irrefl _ ((h i j k k' hwaits hk hheld).trans_le hle)

/-- Every process waits, over some others, for one that does not wait. -/
theorem Ascending.exists_unblocked [WellFoundedGT α] (h : Ascending holder wants rank) (i : ι) :
    ∃ j, Relation.ReflTransGen (WaitsFor holder wants) i j ∧
      ∀ j', ¬WaitsFor holder wants j j' := by
  -- the lock that is wanted rises from one process to the next
  suffices hchain : ∀ a, ∀ i k, wants i = some k → rank k = a →
      ∃ j, Relation.ReflTransGen (WaitsFor holder wants) i j ∧
        ∀ j', ¬WaitsFor holder wants j j' by
    by_cases hi : ∃ j, WaitsFor holder wants i j
    · obtain ⟨j, -, k, hk, -⟩ := hi
      exact hchain _ i k hk rfl
    · exact ⟨i, .refl, fun j' hwaits => hi ⟨j', hwaits⟩⟩
  intro a
  induction a using WellFoundedGT.induction with
  | ind a ih =>
    rintro i k hk rfl
    by_cases hi : ∃ j, WaitsFor holder wants i j
    · obtain ⟨j, hij⟩ := hi
      by_cases hj : ∃ j', WaitsFor holder wants j j'
      · obtain ⟨j', hjj'⟩ := hj
        obtain ⟨k₀, hk₀, hheld⟩ := hij.2
        obtain rfl := Option.some.inj (hk.symm.trans hk₀)
        obtain ⟨k', hk', -⟩ := hjj'.2
        obtain ⟨m, hjm, hm⟩ := ih _ (h j j' k' k hjj' hk' hheld) j k' hk' rfl
        exact ⟨m, .head hij hjm, hm⟩
      · exact ⟨j, .single hij, fun j' hwaits => hj ⟨j', hwaits⟩⟩
    · exact ⟨i, .refl, fun j' hwaits => hi ⟨j', hwaits⟩⟩

end Waiting

/-! ## Runs that come to an end -/

section Descend

variable {S L : Type} {step : S → L → Option S} {ok ok' : S → L → Prop} {s s' s'' : S}

theorem Reach.trans (h : Reach step ok s s') (h' : Reach step ok s' s'') :
    Reach step ok s s'' := by
  induction h' with
  | refl => exact h
  | tail _ hok hs ih => exact ih.tail hok hs

theorem Reach.mono (hok : ∀ s l, ok s l → ok' s l) (h : Reach step ok s s') :
    Reach step ok' s s' := by
  induction h with
  | refl => exact .refl
  | tail _ hl hs ih => exact ih.tail (hok _ _ hl) hs

/-- If in every state with `n` left to do there is nothing to do, or a step after which
less is left, then a run comes to a state with nothing to do. -/
theorem Reach.descend {Left : S → ℕ → Prop} {Done : S → Prop}
    (h : ∀ s n, Left s n → ¬Done s →
      ∃ l s' n', ok s l ∧ step s l = some s' ∧ n' < n ∧ Left s' n') :
    ∀ n s, Left s n → ∃ s' n', Reach step ok s s' ∧ Left s' n' ∧ Done s' := by
  intro n
  induction n using Nat.strong_induction_on with
  | _ n ih =>
    intro s hs
    by_cases hdone : Done s
    · exact ⟨s, n, .refl, hs, hdone⟩
    · obtain ⟨l, s', n', hl, hstep, hlt, hs'⟩ := h s n hs hdone
      obtain ⟨s'', n'', hreach, hleft, hend⟩ := ih n' hlt s' hs'
      exact ⟨s'', n'', Reach.trans (.tail .refl hl hstep) hreach, hleft, hend⟩

end Descend

end GameBackend
