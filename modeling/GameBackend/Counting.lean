import Mathlib.Data.List.Pairwise
import Mathlib.Data.UInt
import Mathlib.Logic.Function.Basic

/-!
# Counters that start again

Processes count their calls with counters of 64 bits. A process that is started again
counts from the beginning again.

* `Place` — where a call is made: in which run of which process, and behind how many
  other calls of this run.
* `Tally` — where the next call of every process will be made. It counts starts and
  calls, and knows nothing of the counters.
* `Apart` — calls that no two counters give the same number, if they are for the same
  key; calls of one run are apart for a long time (`apart_of_one_run`).
* `Tally.Counts` — the counters go with the tally.
-/

namespace GameBackend

variable {ι κ : Type}

/-- Where a call is made. -/
structure Place (ι : Type) where
  process : ι
  /-- how often the process was started again before -/
  start : ℕ
  /-- how many calls it has made since -/
  position : ℕ
  deriving DecidableEq, Repr

namespace Place

/-- The two calls are made by the same run of the same process. -/
def SameRun (a b : Place ι) : Prop := a.process = b.process ∧ a.start = b.start

/-- A counter of 64 bits that starts again with its process stands alike at both. -/
def Clash (a b : Place ι) : Prop := a.position % 2 ^ 64 = b.position % 2 ^ 64

instance (a b : Place ι) : Decidable (a.Clash b) := inferInstanceAs (Decidable (_ = _))

/-- What a counter that starts at 1 says there. -/
def number (a : Place ι) : UInt64 := UInt64.ofNat (a.position + 1)

theorem number_eq_iff {a b : Place ι} : a.number = b.number ↔ a.Clash b := by
  rw [← UInt64.toNat_inj, number, number, UInt64.toNat_ofNat', UInt64.toNat_ofNat', Clash]
  omega

end Place

/-- How often every process was started again, and how many calls it has made since. -/
structure Tally (ι : Type) where
  starts : ι → ℕ := fun _ => 0
  calls : ι → ℕ := fun _ => 0

/-- No two calls for the same key clash. -/
def Apart (calls : List (κ × Place ι)) : Prop :=
  calls.Pairwise fun a b => a.1 = b.1 → ¬a.2.Clash b.2

instance [DecidableEq κ] (calls : List (κ × Place ι)) : Decidable (Apart calls) :=
  inferInstanceAs (Decidable (List.Pairwise _ _))

namespace Tally

variable [DecidableEq ι] {t : Tally ι} {i : ι} {a : Place ι}

/-- Where process `i` makes its next call. -/
def place (t : Tally ι) (i : ι) : Place ι := ⟨i, t.starts i, t.calls i⟩

/-- Process `i` makes a call. -/
def call (t : Tally ι) (i : ι) : Tally ι :=
  { t with calls := Function.update t.calls i (t.calls i + 1) }

/-- Process `i` is started again. -/
def restart (t : Tally ι) (i : ι) : Tally ι where
  starts := Function.update t.starts i (t.starts i + 1)
  calls := Function.update t.calls i 0

variable {j : ι}

@[simp] theorem starts_call : (t.call i).starts = t.starts := rfl

@[simp] theorem calls_call_self : (t.call i).calls i = t.calls i + 1 := Function.update_self ..

theorem calls_call_ne (h : j ≠ i) : (t.call i).calls j = t.calls j := Function.update_of_ne h ..

@[simp] theorem starts_restart_self : (t.restart i).starts i = t.starts i + 1 :=
  Function.update_self ..

@[simp] theorem calls_restart_self : (t.restart i).calls i = 0 := Function.update_self ..

theorem starts_restart_ne (h : j ≠ i) : (t.restart i).starts j = t.starts j :=
  Function.update_of_ne h ..

theorem calls_restart_ne (h : j ≠ i) : (t.restart i).calls j = t.calls j :=
  Function.update_of_ne h ..

/-- The call was made before. -/
def Past (t : Tally ι) (a : Place ι) : Prop :=
  a.start < t.starts a.process ∨ a.start = t.starts a.process ∧ a.position < t.calls a.process

theorem Past.call (h : t.Past a) (i : ι) : (t.call i).Past a := by
  refine h.imp_right fun ⟨hstart, hposition⟩ => ⟨hstart, hposition.trans_le ?_⟩
  by_cases hi : a.process = i
  · rw [hi, calls_call_self]
    exact Nat.le_succ _
  · rw [calls_call_ne hi]

theorem past_place : (t.call i).Past (t.place i) := by
  refine .inr ⟨rfl, ?_⟩
  rw [place, calls_call_self]
  exact Nat.lt_succ_self _

theorem Past.restart (h : t.Past a) (i : ι) : (t.restart i).Past a := by
  by_cases hi : a.process = i
  · refine .inl ?_
    rw [hi, starts_restart_self]
    rcases h with h | ⟨h, -⟩
    · exact Nat.lt_succ_of_lt (hi ▸ h)
    · exact Nat.lt_succ_of_le (hi ▸ h).le
  · rwa [Past, starts_restart_ne hi, calls_restart_ne hi]

omit [DecidableEq ι] in
/-- Nothing was called before where the next call of a process is made. -/
theorem Past.ne_place (h : t.Past a) : t.place i ≠ a := by
  rintro rfl
  rcases h with h | ⟨-, h⟩
  · exact lt_irrefl _ h
  · exact lt_irrefl _ h

/-- The counters of some processes go with the tally. -/
def Counts (t : Tally ι) (counted : ι → Prop) (counters : ι → UInt64) : Prop :=
  ∀ i, counted i → counters i = (t.place i).number

variable {counted : ι → Prop} {counters counters' : ι → UInt64}

omit [DecidableEq ι] in
theorem Counts.init (h : ∀ i, counted i → counters i = 1) :
    ({} : Tally ι).Counts counted counters := h

omit [DecidableEq ι] in
/-- Only counters of other processes have changed. -/
theorem Counts.congr (h : t.Counts counted counters)
    (hsame : ∀ i, counted i → counters' i = counters i) : t.Counts counted counters' :=
  fun i hi => (hsame i hi).trans (h i hi)

theorem Counts.call (h : t.Counts counted counters) (i : ι) :
    (t.call i).Counts counted (Function.update counters i (counters i + 1)) := by
  intro j hj
  by_cases hji : j = i
  · subst hji
    rw [Function.update_self, h j hj, place, place, Place.number, Place.number, calls_call_self,
      UInt64.ofNat_add (t.calls j + 1) 1]
    rfl
  · rw [Function.update_of_ne hji, h j hj, place, place, calls_call_ne hji]
    rfl

theorem Counts.restart (h : t.Counts counted counters) (i : ι) :
    (t.restart i).Counts counted (Function.update counters i 1) := by
  intro j hj
  by_cases hji : j = i
  · subst hji
    rw [Function.update_self, place, Place.number, calls_restart_self]
    rfl
  · rw [Function.update_of_ne hji, h j hj, place, place, starts_restart_ne hji,
      calls_restart_ne hji]

/-- All of these calls were made before, each at another place. -/
structure Recorded (t : Tally ι) (calls : List (κ × Place ι)) : Prop where
  past : ∀ call ∈ calls, t.Past call.2
  distinct : calls.Pairwise fun a b => a.2 ≠ b.2

variable {calls : List (κ × Place ι)}

omit [DecidableEq ι] in
theorem Recorded.init : ({} : Tally ι).Recorded ([] : List (κ × Place ι)) := ⟨nofun, .nil⟩

/-- A call that is not recorded. -/
theorem Recorded.skip (h : t.Recorded calls) (i : ι) : (t.call i).Recorded calls :=
  ⟨fun call hcall => (h.past call hcall).call i, h.distinct⟩

theorem Recorded.call (h : t.Recorded calls) (i : ι) (key : κ) :
    (t.call i).Recorded ((key, t.place i) :: calls) where
  past := List.forall_mem_cons.mpr ⟨past_place, (h.skip i).past⟩
  distinct := .cons (fun call hcall => (h.past call hcall).ne_place) h.distinct

theorem Recorded.restart (h : t.Recorded calls) (i : ι) : (t.restart i).Recorded calls :=
  ⟨fun call hcall => (h.past call hcall).restart i, h.distinct⟩

/-- A call that a process makes at last. -/
theorem Recorded.call_restart (h : t.Recorded calls) (i : ι) (key : κ) :
    (t.restart i).Recorded ((key, t.place i) :: calls) := by
  have hsame : (t.call i).restart i = t.restart i := by
    rw [Tally.restart, Tally.restart, Tally.call, Function.update_idem]
  exact hsame ▸ (h.call i key).restart i

omit [DecidableEq ι] in
/-- Calls are apart if those for the same key are made by one run, and no run makes
2 ^ 64 calls. -/
theorem Recorded.apart_of_one_run (h : t.Recorded calls)
    (hrun : ∀ a ∈ calls, ∀ b ∈ calls, a.1 = b.1 → a.2.SameRun b.2)
    (hshort : ∀ a ∈ calls, a.2.position < 2 ^ 64) : Apart calls := by
  refine h.distinct.imp_of_mem fun {a b} ha hb hne hkey hclash => hne ?_
  obtain ⟨hprocess, hstart⟩ := hrun a ha b hb hkey
  rw [Place.Clash, Nat.mod_eq_of_lt (hshort a ha), Nat.mod_eq_of_lt (hshort b hb)] at hclash
  obtain ⟨key, process, start, position⟩ := a
  obtain ⟨key', process', start', position'⟩ := b
  obtain ⟨rfl, rfl, rfl⟩ : process = process' ∧ start = start' ∧ position = position' :=
    ⟨hprocess, hstart, hclash⟩
  rfl

end Tally

end GameBackend
