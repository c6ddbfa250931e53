import GameBackend.Simulation
import Mathlib.Data.List.Nodup
import Mathlib.Data.List.Perm.Subperm
import Mathlib.Logic.Function.Basic

/-!
# Atomic objects

The general layer under the results on requests that are served together. Nothing here names
the game backend.

An object serves operations, which others call by a number of their own. `Atomic` is the
object together with where each operation stands: what can be seen are calls, returns and
operations that stop (`Acts`), and an operation that was called is served at one instant of its
own (`Works`), so that it returns, if it does, what it was served.

Whoever can be taken for an atomic object has histories that are linearizable
(`Atomic.linearizes`): the operations were served one after the other, each at most once, every
one that returned, and in an order in which those that returned come before those that were
called later.
-/

namespace GameBackend

section Atomic

variable {N Q A S : Type}

/-- What can be seen of operations. -/
inductive Interaction (N Q A : Type) where
  | call (n : N) (q : Q)
  | ret (n : N) (q : Q) (a : A)
  /-- the operation will not return -/
  | stop (n : N)

/-- What an operation returned. -/
def Interaction.answer : Interaction N Q A → Option (N × Q × A)
  | .ret n q a => some (n, q, a)
  | _ => none

/-- What was returned, newest first. -/
abbrev answers (history : List (Interaction N Q A)) : List (N × Q × A) :=
  history.filterMap Interaction.answer

theorem mem_answers {history : List (Interaction N Q A)} {n : N} {q : Q} {a : A} :
    (n, q, a) ∈ answers history ↔ .ret n q a ∈ history := by
  rw [List.mem_filterMap]
  constructor
  · rintro ⟨e, he, heq⟩
    cases e with
    | ret m r b => cases heq; exact he
    | _ => cases heq
  · exact fun h => ⟨_, h, rfl⟩

/-- Where an operation stands. -/
inductive Standing (Q A : Type) where
  | idle
  | called (q : Q)
  | served (q : Q) (a : A)
  | over

/-- An object and the operations on it. -/
structure Atomic (N Q A S : Type) where
  object : S
  standing : N → Standing Q A

/-- An object that no operation was called on. -/
def Atomic.rest (s : S) : Atomic N Q A S := ⟨s, fun _ => .idle⟩

variable [DecidableEq N] {Serves : S → Q × A → S → Prop} {Drifts : S → S → Prop} {s₀ s : S}
  {a : Atomic N Q A S}

namespace Atomic

/-- The operation stands somewhere else now. -/
def put (a : Atomic N Q A S) (n : N) (x : Standing Q A) : Atomic N Q A S :=
  { a with standing := Function.update a.standing n x }

@[simp] theorem put_object {n : N} {x : Standing Q A} : (a.put n x).object = a.object := rfl

@[simp] theorem put_self {n : N} {x : Standing Q A} : (a.put n x).standing n = x :=
  Function.update_self ..

theorem put_ne {n m : N} {x : Standing Q A} (h : m ≠ n) :
    (a.put n x).standing m = a.standing m := Function.update_of_ne h ..

inductive Acts (a : Atomic N Q A S) : Interaction N Q A → Atomic N Q A S → Prop where
  | call {n : N} {q : Q} (idle : a.standing n = .idle) : Acts a (.call n q) (a.put n (.called q))
  | ret {n : N} {q : Q} {x : A} (served : a.standing n = .served q x) :
      Acts a (.ret n q x) (a.put n .over)
  | stop {n : N} (called : a.standing n ≠ .idle) : Acts a (.stop n) (a.put n .over)

/-- The object serves an operation, or it changes by itself. -/
inductive Works (Serves : S → Q × A → S → Prop) (Drifts : S → S → Prop) (a : Atomic N Q A S) :
    Atomic N Q A S → Prop where
  | serve {n : N} {q : Q} {x : A} {s : S} (called : a.standing n = .called q)
      (serves : Serves a.object (q, x) s) :
      Works Serves Drifts a ({ a with object := s }.put n (.served q x))
  | drift {s : S} (drifts : Drifts a.object s) : Works Serves Drifts a { a with object := s }

end Atomic

/-! ## Linearizations -/

/-- The operations of a history were served in this order, newest first. -/
structure Linearizes (Serves : S → Q × A → S → Prop) (Drifts : S → S → Prop) (s₀ : S)
    (history : List (Interaction N Q A)) (order : List (N × Q × A)) (s : S) : Prop where
  /-- one after the other -/
  runs : Trace Serves Drifts s₀ (order.map Prod.snd) s
  once : (order.map Prod.fst).Nodup
  /-- an operation returns once -/
  answered : ((answers history).map Prod.fst).Nodup
  called : ∀ n q x, (n, q, x) ∈ order → .call n q ∈ history
  /-- what an operation returned it was served -/
  told : ∀ n q x, .ret n q x ∈ history → (n, q, x) ∈ order
  /-- what was called after a return was served after it -/
  later : ∀ n q x after before, history = after ++ .ret n q x :: before →
    ∀ m r y, .call m r ∈ after → (m, r, y) ∈ order → [(m, r, y), (n, q, x)].Sublist order

/-- The order tells where the operations stand. -/
structure Ordered (a : Atomic N Q A S) (history : List (Interaction N Q A))
    (order : List (N × Q × A)) : Prop where
  idle : ∀ n, a.standing n = .idle → n ∉ order.map Prod.fst
  called : ∀ n q, a.standing n = .called q → n ∉ order.map Prod.fst ∧ .call n q ∈ history
  served : ∀ n q x, a.standing n = .served q x → (n, q, x) ∈ order
  answered : ∀ n ∈ (answers history).map Prod.fst, a.standing n = .over

/-- An operation stands somewhere else now, which the order allows. -/
theorem Ordered.put {history : List (Interaction N Q A)} {order : List (N × Q × A)}
    (h : Ordered a history order) {n : N} {x : Standing Q A} {e : Interaction N Q A}
    (hidle : x ≠ .idle) (hcalled : ∀ q, x = .called q → n ∉ order.map Prod.fst ∧ e = .call n q)
    (hserved : ∀ q y, x ≠ .served q y) (hover : a.standing n = .over → x = .over)
    (hanswer : ∀ o, e.answer = some o → o.1 = n ∧ x = .over) :
    Ordered (a.put n x) (e :: history) order where
  idle m hm := by
    by_cases hmn : m = n
    · subst hmn
      rw [Atomic.put_self] at hm
      exact absurd hm hidle
    · rw [Atomic.put_ne hmn] at hm
      exact h.idle m hm
  called m q hm := by
    by_cases hmn : m = n
    · subst hmn
      rw [Atomic.put_self] at hm
      obtain ⟨hfresh, rfl⟩ := hcalled q hm
      exact ⟨hfresh, List.mem_cons_self⟩
    · rw [Atomic.put_ne hmn] at hm
      obtain ⟨hfresh, hcall⟩ := h.called m q hm
      exact ⟨hfresh, List.mem_cons_of_mem _ hcall⟩
  served m q y hm := by
    by_cases hmn : m = n
    · subst hmn
      rw [Atomic.put_self] at hm
      exact absurd hm (hserved q y)
    · rw [Atomic.put_ne hmn] at hm
      exact h.served m q y hm
  answered m hm := by
    have hold : m ∈ (answers history).map Prod.fst → (a.put n x).standing m = .over := by
      intro hm
      by_cases hmn : m = n
      · subst hmn
        rw [Atomic.put_self]
        exact hover (h.answered m hm)
      · rw [Atomic.put_ne hmn]
        exact h.answered m hm
    rcases heq : e.answer with _ | o
    · rw [answers, List.filterMap_cons_none heq] at hm
      exact hold hm
    · rw [answers, List.filterMap_cons_some heq, List.map_cons, List.mem_cons] at hm
      obtain ⟨rfl, rfl⟩ := hanswer o heq
      rcases hm with rfl | hm
      · exact Atomic.put_self
      · exact hold hm

/-- The order goes on when an operation that was called is served. -/
theorem Ordered.serve {history : List (Interaction N Q A)} {order : List (N × Q × A)}
    (h : Ordered a history order) {n : N} {q : Q} {x : A} {s : S}
    (hcalled : a.standing n = .called q) :
    Ordered ({ a with object := s }.put n (.served q x)) history ((n, q, x) :: order) where
  idle m hm := by
    by_cases hmn : m = n
    · subst hmn
      rw [Atomic.put_self] at hm
      cases hm
    · rw [Atomic.put_ne hmn] at hm
      simp [hmn, h.idle m hm]
  called m r hm := by
    by_cases hmn : m = n
    · subst hmn
      rw [Atomic.put_self] at hm
      cases hm
    · rw [Atomic.put_ne hmn] at hm
      obtain ⟨hfresh, hcall⟩ := h.called m r hm
      exact ⟨by simp [hmn, hfresh], hcall⟩
  served m r y hm := by
    by_cases hmn : m = n
    · subst hmn
      rw [Atomic.put_self] at hm
      cases hm
      exact List.mem_cons_self
    · rw [Atomic.put_ne hmn] at hm
      exact List.mem_cons_of_mem _ (h.served m r y hm)
  answered m hm := by
    have hover := h.answered m hm
    rw [Atomic.put_ne]
    · exact hover
    · rintro rfl
      rw [hcalled] at hover
      cases hover

omit [DecidableEq N] in
/-- The history goes on with an event that returns nothing new. -/
theorem Linearizes.act {history : List (Interaction N Q A)} {order : List (N × Q × A)}
    (h : Linearizes Serves Drifts s₀ history order s) {e : Interaction N Q A}
    (hcall : ∀ n q, e = .call n q → n ∉ order.map Prod.fst)
    (hret : ∀ n q x, e = .ret n q x →
      (n, q, x) ∈ order ∧ n ∉ (answers history).map Prod.fst) :
    Linearizes Serves Drifts s₀ (e :: history) order s where
  runs := h.runs
  once := h.once
  answered := by
    cases e with
    | ret n q x => exact List.nodup_cons.mpr ⟨(hret n q x rfl).2, h.answered⟩
    | _ => exact h.answered
  called n q x hmem := List.mem_cons_of_mem _ (h.called n q x hmem)
  told n q x hmem := by
    rcases List.mem_cons.mp hmem with heq | hmem
    · exact (hret n q x heq.symm).1
    · exact h.told n q x hmem
  later n q x after before heq m r y hmem hserved := by
    cases after with
    | nil => cases hmem
    | cons e' after =>
      obtain ⟨rfl, rfl⟩ := List.cons.inj heq
      rcases List.mem_cons.mp hmem with heq | hmem
      · have hfresh := hcall m r heq.symm
        exact absurd (List.mem_map_of_mem hserved) hfresh
      · exact h.later n q x after before rfl m r y hmem hserved

omit [DecidableEq N] in
/-- The order goes on with an operation that was called and not served yet. -/
theorem Linearizes.serve {history : List (Interaction N Q A)} {order : List (N × Q × A)}
    (h : Linearizes Serves Drifts s₀ history order s) {n : N} {q : Q} {x : A} {s' : S}
    (hfresh : n ∉ order.map Prod.fst) (hcall : .call n q ∈ history) (hserves : Serves s (q, x) s') :
    Linearizes Serves Drifts s₀ history ((n, q, x) :: order) s' where
  runs := h.runs.act hserves
  once := List.nodup_cons.mpr ⟨hfresh, h.once⟩
  answered := h.answered
  called m r y hmem := by
    rcases List.mem_cons.mp hmem with heq | hmem
    · cases heq
      exact hcall
    · exact h.called m r y hmem
  told m r y hmem := List.mem_cons_of_mem _ (h.told m r y hmem)
  later m r y after before heq k t z hmem hserved := by
    rcases List.mem_cons.mp hserved with hnew | hserved
    · cases hnew
      refine List.Sublist.cons_cons _ (List.singleton_sublist.mpr ?_)
      apply h.told
      rw [heq]
      exact List.mem_append_right _ List.mem_cons_self
    · exact (h.later m r y after before heq k t z hmem hserved).cons _

/-- **Linearizability** of atomic objects. -/
theorem Atomic.linearizes {history : List (Interaction N Q A)}
    (h : Trace Atomic.Acts (Atomic.Works Serves Drifts) (.rest s₀) history a) :
    ∃ order, Linearizes Serves Drifts s₀ history order a.object := by
  suffices hboth : ∃ order, Linearizes Serves Drifts s₀ history order a.object ∧
      Ordered a history order by
    obtain ⟨order, hlinearizes, -⟩ := hboth
    exact ⟨order, hlinearizes⟩
  induction h with
  | nil => exact 
    ⟨[], ⟨.nil, List.nodup_nil, List.nodup_nil, nofun, nofun, by simp⟩,
      ⟨by simp, nofun, nofun, by simp⟩⟩
  | act before acts ih =>
    obtain ⟨order, hlinearizes, hordered⟩ := ih
    refine ⟨order, ?_⟩
    cases acts with
    | call idle =>
      have hfresh := hordered.idle _ idle
      refine ⟨hlinearizes.act ?_ nofun, hordered.put nofun ?_ nofun ?_ nofun⟩
      · rintro n q heq
        cases heq
        exact hfresh
      · rintro q heq
        cases heq
        exact ⟨hfresh, rfl⟩
      · intro hover
        rw [idle] at hover
        cases hover
    | ret served =>
      refine ⟨hlinearizes.act nofun ?_, hordered.put nofun nofun nofun (fun _ => rfl) ?_⟩
      · rintro n q x heq
        cases heq
        refine ⟨hordered.served _ _ _ served, fun hmem => ?_⟩
        have hover := hordered.answered _ hmem
        rw [served] at hover
        cases hover
      · rintro o heq
        cases heq
        exact ⟨rfl, rfl⟩
    | stop called =>
      exact ⟨hlinearizes.act nofun nofun, hordered.put nofun nofun nofun (fun _ => rfl) nofun⟩
  | quiet before steps ih =>
    obtain ⟨order, hlinearizes, hordered⟩ := ih
    cases steps with
    | serve called serves =>
      obtain ⟨hfresh, hcall⟩ := hordered.called _ _ called
      exact ⟨_, hlinearizes.serve hfresh hcall serves, hordered.serve called⟩
    | drift drifts =>
      exact ⟨order, { hlinearizes with runs := hlinearizes.runs.quiet drifts },
        ⟨hordered.idle, hordered.called, hordered.served, hordered.answered⟩⟩

omit [DecidableEq N] in
/-- What was served is what was returned and what was served to operations that have not
returned. -/
theorem Linearizes.lost {history : List (Interaction N Q A)} {order : List (N × Q × A)}
    (h : Linearizes Serves Drifts s₀ history order s) :
    ∃ lost, order.Perm (answers history ++ lost) ∧ ∀ n q x, (n, q, x) ∈ lost →
      .call n q ∈ history ∧ ∀ r y, .ret n r y ∉ history := by
  have hsubset : answers history ⊆ order := fun o ho =>
    h.told o.1 o.2.1 o.2.2 (mem_answers.mp ho)
  obtain ⟨told, htold, hsublist⟩ := List.subperm_of_subset (h.answered.of_map _) hsubset
  obtain ⟨lost, horder⟩ := hsublist.exists_perm_append
  have hperm := horder.trans (htold.append_right lost)
  refine ⟨lost, hperm, fun n q x hmem => ⟨?_, fun r y hret => ?_⟩⟩
  · exact h.called n q x (hperm.mem_iff.mpr (List.mem_append_right _ hmem))
  · -- the number would be in the order twice
    have honce := (hperm.map Prod.fst).nodup_iff.mp h.once
    rw [List.map_append] at honce
    exact (List.nodup_append.mp honce).2.2 n
      (List.mem_map_of_mem (f := Prod.fst) (mem_answers.mpr hret)) n
      (List.mem_map_of_mem (f := Prod.fst) hmem) rfl

end Atomic

end GameBackend
