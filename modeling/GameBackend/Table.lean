import Mathlib.Data.List.Nodup
import Mathlib.Algebra.BigOperators.Group.List.Basic
import Mathlib.Algebra.Order.Group.Int
import Mathlib.Algebra.Ring.Int.Defs

/-!
# Keyed tables

A table is a list of rows with pairwise distinct keys. The uniqueness of the
key is a field, so a table with a duplicate key cannot be built and no later
proof has to re-establish it. Rows keep their insertion order.

* `find` reads the row at a key, `insert` appends a row whose key is free,
  `modify` rewrites the row at a key without changing the key.
* `find_insert`, `find_modify` say what a lookup sees after a write;
  `sum_insert`, `sum_modify` what a write does to a sum over the rows; counts
  are sums of indicators (`count_eq_sum`).
-/

namespace GameBackend

/-- Rows of type `ρ` with pairwise distinct keys `key row`. -/
structure Table {ρ κ : Type} (key : ρ → κ) : Type where
  /-- the rows, oldest first -/
  rows : List ρ
  /-- the key is unique -/
  unique : (rows.map key).Nodup

namespace Table

variable {ρ κ : Type} {key : ρ → κ}

/-- Tables are determined by their rows. -/
@[ext] theorem ext {t u : Table key} (h : t.rows = u.rows) : t = u := by
  cases t; cases u
  cases h
  rfl

instance [DecidableEq ρ] : DecidableEq (Table key) := fun t u =>
  decidable_of_iff (t.rows = u.rows) ⟨ext, fun h => by rw [h]⟩

/-- The table without rows. -/
def empty : Table key := ⟨[], List.nodup_nil⟩

/-- The sum of `g` over the rows. -/
def sum (t : Table key) (g : ρ → ℤ) : ℤ := (t.rows.map g).sum

/-- The number of rows with property `P`. -/
def count (t : Table key) (P : ρ → Bool) : ℕ := t.rows.countP P

/-- A count is the sum of an indicator. -/
theorem count_eq_sum (t : Table key) (P : ρ → Bool) :
    (t.count P : ℤ) = t.sum fun r => if P r then 1 else 0 := by
  simp only [count, sum]
  induction t.rows with
  | nil => simp
  | cons r rest ih =>
    rw [List.countP_cons, List.map_cons, List.sum_cons, ← ih]
    split <;> simp [add_comm]

variable [DecidableEq κ]

/-- The row at key `k`. -/
def find (t : Table key) (k : κ) : Option ρ := t.rows.find? fun r => key r = k

/-- Append a row; nothing happens when its key is taken. -/
def insert (t : Table key) (r : ρ) : Table key :=
  if h : key r ∈ t.rows.map key then t
  else ⟨t.rows ++ [r], by
    rw [List.map_append, List.map_singleton]
    exact List.nodup_append.mpr ⟨t.unique, List.nodup_singleton _, by
      intro a ha b hb hab
      rw [List.mem_singleton] at hb
      exact h (hb ▸ hab ▸ ha)⟩⟩

/-- Rewrite the row at key `k` by `f`, which keeps the key. -/
def modify (t : Table key) (k : κ) (f : ρ → ρ) (hf : ∀ r, key (f r) = key r) : Table key :=
  ⟨t.rows.map fun r => if key r = k then f r else r, by
    have hkeys : (t.rows.map fun r => if key r = k then f r else r).map key = t.rows.map key := by
      rw [List.map_map]
      refine List.map_congr_left fun r _ => ?_
      simp only [Function.comp]
      split
      · exact hf r
      · rfl
    rw [hkeys]
    exact t.unique⟩

/-! ### Lookups -/

theorem find_eq_some_iff {t : Table key} {k : κ} {r : ρ} :
    t.find k = some r ↔ r ∈ t.rows ∧ key r = k := by
  constructor
  · intro h
    exact ⟨List.mem_of_find?_eq_some h, by simpa using List.find?_some h⟩
  · rintro ⟨hmem, hk⟩
    rcases hf : t.find k with _ | r'
    · have := List.find?_eq_none.mp hf r hmem
      simp [hk] at this
    · have hmem' := List.mem_of_find?_eq_some hf
      have hk' : key r' = k := by simpa using List.find?_some hf
      exact congrArg some (List.inj_on_of_nodup_map t.unique hmem' hmem (hk'.trans hk.symm))

theorem key_of_find {t : Table key} {k : κ} {r : ρ} (h : t.find k = some r) : key r = k :=
  (find_eq_some_iff.mp h).2

theorem mem_of_find {t : Table key} {k : κ} {r : ρ} (h : t.find k = some r) : r ∈ t.rows :=
  (find_eq_some_iff.mp h).1

theorem find_of_mem {t : Table key} {r : ρ} (h : r ∈ t.rows) : t.find (key r) = some r :=
  find_eq_some_iff.mpr ⟨h, rfl⟩

theorem find_eq_none_iff {t : Table key} {k : κ} : t.find k = none ↔ k ∉ t.rows.map key := by
  simp [find, List.find?_eq_none]

/-! ### Insertion -/

/-- Inserting at a free key appends the row. -/
theorem rows_insert {t : Table key} {r : ρ} (h : t.find (key r) = none) :
    (t.insert r).rows = t.rows ++ [r] := by
  rw [insert, dif_neg (find_eq_none_iff.mp h)]

theorem find_insert {t : Table key} {r : ρ} (h : t.find (key r) = none) (k : κ) :
    (t.insert r).find k = if key r = k then some r else t.find k := by
  rw [find, rows_insert h, List.find?_append]
  by_cases hk : key r = k
  · rw [if_pos hk]
    have hnone : t.rows.find? (fun r => key r = k) = none := by rw [← hk]; exact h
    rw [hnone]
    simp [hk]
  · rw [if_neg hk]
    simp [hk, find]

theorem find_insert_ne (t : Table key) {r : ρ} {k : κ} (hk : key r ≠ k) :
    (t.insert r).find k = t.find k := by
  rcases h : t.find (key r) with _ | r'
  · rw [find_insert h, if_neg hk]
  · rw [insert, dif_pos]
    by_contra hn
    rw [← find_eq_none_iff, h] at hn
    cases hn

/-- A filter that the new row does not pass sees no insertion. -/
theorem filter_insert (t : Table key) {r : ρ} {P : ρ → Bool} (hr : P r = false) :
    (t.insert r).rows.filter P = t.rows.filter P := by
  rcases h : t.find (key r) with _ | r'
  · rw [rows_insert h, List.filter_append]
    simp [hr]
  · have hmem : key r ∈ t.rows.map key :=
      not_not.mp fun hn => Option.some_ne_none r' (h.symm.trans (find_eq_none_iff.mpr hn))
    rw [insert, dif_pos hmem]

theorem sum_insert {t : Table key} {r : ρ} (h : t.find (key r) = none) (g : ρ → ℤ) :
    (t.insert r).sum g = t.sum g + g r := by
  simp [sum, rows_insert h]

/-! ### Modification -/

variable {f : ρ → ρ} {hf : ∀ r, key (f r) = key r}

theorem find_modify (t : Table key) (k k' : κ) :
    (t.modify k f hf).find k' = (t.find k').map fun r => if k' = k then f r else r := by
  rw [find, modify, List.find?_map]
  have hkey : (fun r => decide (key r = k')) ∘ (fun r => if key r = k then f r else r) =
      fun r => decide (key r = k') := by
    funext r
    simp only [Function.comp]
    split
    · rw [hf r]
    · rfl
  rw [hkey]
  rcases h : t.rows.find? (fun r => decide (key r = k')) with _ | r
  · simp [find, h]
  · have hk : key r = k' := by simpa using List.find?_some h
    simp [find, h, hk]

theorem find_modify_ne (t : Table key) {k k' : κ} (h : k' ≠ k) :
    (t.modify k f hf).find k' = t.find k' := by
  rw [find_modify]
  simp [h]

/-- A filter that the row passes neither before nor after sees no rewriting. -/
theorem filter_modify (t : Table key) {k : κ} {P : ρ → Bool}
    (hP : ∀ r, key r = k → P r = false ∧ P (f r) = false) :
    (t.modify k f hf).rows.filter P = t.rows.filter P := by
  change (t.rows.map fun r => if key r = k then f r else r).filter P = _
  induction t.rows with
  | nil => rfl
  | cons r rest ih =>
    rw [List.map_cons, List.filter_cons, List.filter_cons, ih]
    by_cases hk : key r = k
    · rw [if_pos hk, (hP r hk).1, (hP r hk).2]
      rfl
    · rw [if_neg hk]

/-- Rewriting one row changes a sum by the difference at that row. -/
theorem sum_modify {t : Table key} {k : κ} {r : ρ} (h : t.find k = some r) (g : ρ → ℤ) :
    (t.modify k f hf).sum g = t.sum g + (g (f r) - g r) := by
  obtain ⟨hmem, hk⟩ := find_eq_some_iff.mp h
  obtain ⟨l₁, l₂, hsplit⟩ := List.append_of_mem hmem
  have hnd := t.unique
  rw [hsplit, List.map_append, List.map_cons, List.nodup_append] at hnd
  obtain ⟨-, hcons, hdis⟩ := hnd
  have hl₁ : ∀ x ∈ l₁, key x ≠ k := fun x hx hxk =>
    hdis (key x) (List.mem_map_of_mem hx) (key r) (by simp) (hxk.trans hk.symm)
  have hl₂ : ∀ x ∈ l₂, key x ≠ k := fun x hx hxk =>
    (List.nodup_cons.mp hcons).1 (hk.trans hxk.symm ▸ List.mem_map_of_mem hx)
  have hmap : ∀ l : List ρ, (∀ x ∈ l, key x ≠ k) →
      l.map (fun r => if key r = k then f r else r) = l := by
    intro l hl
    refine (List.map_congr_left fun x hx => ?_).trans (List.map_id l)
    rw [if_neg (hl x hx)]
    rfl
  simp only [sum, modify, hsplit, List.map_append, List.map_cons, hmap l₁ hl₁, hmap l₂ hl₂,
    if_pos hk, List.sum_append, List.sum_cons]
  omega

end Table

end GameBackend
