import Mathlib.Data.List.TakeWhile
import Mathlib.Data.List.Infix
import Mathlib.Data.List.DropRight

/-!
# Searching and cutting strings

The members of the C++ string class that a hand-written parser is made of, over
lists of any characters: `find`, `substr`, `replace`, and the trimming idiom.

* `search` — where a pattern first stands in a text, as its own recursion; `find`
  starts at a position.
* `search_append` — text without a first character of the pattern in front does not
  change what is found behind it.
* `splitFirst_drop` — cutting at a character again and again is what a parser does that
  keeps positions.
* `cut_trim` — for a pattern without blanks it does not matter whether a text is
  trimmed before it is cut at the pattern.
-/

namespace GameBackend

namespace StdString

variable {α : Type} [DecidableEq α]

/-! ## Search -/

/-- Where a nonempty pattern first stands in a text. -/
def search (pattern : List α) : List α → Option ℕ
  | [] => none
  | c :: cs => if pattern <+: c :: cs then some 0 else (search pattern cs).map (· + 1)

/-- `find(pattern, position)`; `none` is `npos`. -/
def find (text pattern : List α) (position : ℕ) : Option ℕ :=
  (search pattern (text.drop position)).map (position + ·)

omit [DecidableEq α] in
/-- `substr(position, count)` -/
def substr (text : List α) (position count : ℕ) : List α := (text.drop position).take count

omit [DecidableEq α] in
/-- `replace(position, count, replacement)` -/
def replace (text : List α) (position count : ℕ) (replacement : List α) : List α :=
  text.take position ++ (replacement ++ text.drop (position + count))

variable {pattern text front back : List α}

@[simp] theorem search_nil : search pattern [] = none := rfl

/-- The pattern stands where it is found. -/
theorem search_eq_some {i : ℕ} (h : search pattern text = some i) :
    text = text.take i ++ (pattern ++ text.drop (i + pattern.length)) := by
  induction text generalizing i with
  | nil => cases h
  | cons c cs ih =>
    rw [search] at h
    split_ifs at h with hhead
    · obtain rfl := Option.some.inj h
      obtain ⟨rest, hrest⟩ := hhead
      rw [List.take_zero, List.nil_append, Nat.zero_add, ← hrest, List.drop_left]
    · obtain ⟨j, hj, rfl⟩ := Option.map_eq_some_iff.mp h
      have hcs := ih hj
      rw [Nat.add_right_comm, List.take_succ_cons, List.drop_succ_cons, List.cons_append, ← hcs]

theorem search_le {i : ℕ} (h : search pattern text = some i) :
    i + pattern.length ≤ text.length := by
  have hlength := congrArg List.length (search_eq_some h)
  simp only [List.length_append, List.length_take, List.length_drop] at hlength
  have hi : i < text.length := by
    clear hlength
    induction text generalizing i with
    | nil => cases h
    | cons c cs ih =>
      rw [search] at h
      split_ifs at h
      · obtain rfl := Option.some.inj h
        exact Nat.succ_pos _
      · obtain ⟨j, hj, rfl⟩ := Option.map_eq_some_iff.mp h
        exact Nat.succ_lt_succ (ih hj)
  omega

theorem find_bounds {position i : ℕ} (h : find text pattern position = some i) :
    position ≤ i ∧ i + pattern.length ≤ text.length ∧ position ≤ text.length := by
  obtain ⟨j, hj, rfl⟩ := Option.map_eq_some_iff.mp h
  have hle := search_le hj
  rw [List.length_drop] at hle
  have hpos : position ≤ text.length := by
    by_contra hgt
    rw [List.drop_eq_nil_of_le (by omega)] at hj
    cases hj
  omega

/-- The pattern stands where `find` finds it. -/
theorem drop_of_find {position i : ℕ} (h : find text pattern position = some i) :
    text.drop i = pattern ++ text.drop (i + pattern.length) := by
  obtain ⟨j, hj, rfl⟩ := Option.map_eq_some_iff.mp h
  have hle := search_le hj
  have hsplit := congrArg (List.drop j) (search_eq_some hj)
  rw [List.drop_left' (List.length_take_of_le (by omega)), List.drop_drop, List.drop_drop,
    ← Nat.add_assoc] at hsplit
  exact hsplit

omit [DecidableEq α] in
/-- A replacement comes behind what is in front of its position. -/
theorem take_replace {position : ℕ} (h : position ≤ text.length) (count : ℕ)
    (replacement : List α) :
    (replace text position count replacement).take (position + replacement.length) =
      text.take position ++ replacement := by
  have hfront : (text.take position).length = position := List.length_take_of_le h
  rw [replace, ← List.append_assoc, List.take_left']
  rw [List.length_append, hfront]

omit [DecidableEq α] in
/-- Behind it comes what follows the text that it replaces. -/
theorem drop_replace {position : ℕ} (h : position ≤ text.length) (count : ℕ)
    (replacement : List α) :
    (replace text position count replacement).drop (position + replacement.length) =
      text.drop (position + count) := by
  have hfront : (text.take position).length = position := List.length_take_of_le h
  rw [replace, ← List.append_assoc, List.drop_left']
  rw [List.length_append, hfront]

/-- Characters that no pattern starts with are passed over. -/
theorem search_append {first : α} (h : first ∉ front) (pattern' back : List α) :
    search (first :: pattern') (front ++ back) =
      (search (first :: pattern') back).map (front.length + ·) := by
  induction front with
  | nil =>
    simp only [List.nil_append, List.length_nil, Nat.zero_add]
    exact (Option.map_id' ..).symm
  | cons c cs ih =>
    have hc : ¬(first :: pattern' <+: c :: (cs ++ back)) :=
      fun hhead => h ((List.cons_prefix_cons.mp hhead).1.symm ▸ List.mem_cons_self)
    rw [List.cons_append, search, if_neg hc, ih fun hmem => h (List.mem_cons_of_mem _ hmem),
      Option.map_map]
    refine congrArg (fun f => Option.map f _) (funext fun n => ?_)
    simp only [Function.comp_apply, List.length_cons]
    omega

/-- The text up to the first character `c`, and the text behind it. -/
def splitFirst (c : α) : List α → Option (List α × List α)
  | [] => none
  | d :: rest =>
    if d = c then some ([], rest)
    else (splitFirst c rest).map fun (front, back) => (d :: front, back)

theorem splitFirst_eq (c : α) (text : List α) :
    splitFirst c text = (search [c] text).map fun i => (text.take i, text.drop (i + 1)) := by
  induction text with
  | nil => rfl
  | cons d rest ih =>
    have hhead : [c] <+: d :: rest ↔ d = c := by
      rw [List.cons_prefix_cons, and_iff_left List.nil_prefix, eq_comm]
    rw [splitFirst, search, ih]
    simp only [hhead]
    split_ifs with hd
    · rfl
    · rw [Option.map_map, Option.map_map]
      rfl

/-- Cutting what stands behind a position at the next `c` is `find`, `substr` and another
position. -/
theorem splitFirst_drop (c : α) (text : List α) (position : ℕ) :
    splitFirst c (text.drop position) = (find text [c] position).map fun i =>
      (substr text position (i - position), text.drop (i + 1)) := by
  rw [splitFirst_eq, find, Option.map_map]
  refine congrArg (fun f => Option.map f _) (funext fun i => ?_)
  rw [Function.comp_apply, substr, List.drop_drop, Nat.add_sub_cancel_left, Nat.add_assoc]

theorem splitFirst_eq_some {c : α} :
    splitFirst c text = some (front, back) ↔ text = front ++ c :: back ∧ c ∉ front := by
  constructor
  · intro h
    induction text generalizing front with
    | nil => cases h
    | cons d rest ih =>
      rw [splitFirst] at h
      split_ifs at h with hd
      · obtain ⟨rfl, rfl⟩ := Prod.mk.inj (Option.some.inj h)
        exact ⟨congrArg (· :: rest) hd, List.not_mem_nil⟩
      · obtain ⟨⟨front', back'⟩, hrest, heq⟩ := Option.map_eq_some_iff.mp h
        obtain ⟨rfl, rfl⟩ := Prod.mk.inj heq
        obtain ⟨rfl, hnot⟩ := ih hrest
        exact ⟨rfl, List.not_mem_cons_of_ne_of_not_mem (Ne.symm hd) hnot⟩
  · rintro ⟨rfl, hnot⟩
    induction front with
    | nil => exact if_pos rfl
    | cons d front ih =>
      have hd : d ≠ c := Ne.symm (List.ne_of_not_mem_cons hnot)
      rw [List.cons_append, splitFirst, if_neg hd, ih (List.not_mem_of_not_mem_cons hnot)]
      rfl

/-- A pattern does not reach into characters that are none of its own. -/
theorem search_append_right (hne : pattern ≠ []) (h : ∀ c ∈ back, c ∉ pattern) :
    search pattern (front ++ back) = search pattern front := by
  induction front with
  | nil =>
    obtain ⟨first, rest, rfl⟩ := List.exists_cons_of_ne_nil hne
    have hfirst : first ∉ back := fun hmem => h first hmem List.mem_cons_self
    simpa using search_append hfirst rest []
  | cons c cs ih =>
    have hhead : pattern <+: c :: cs ++ back ↔ pattern <+: c :: cs := by
      refine ⟨fun hp => ?_, fun hp => hp.trans (List.prefix_append _ _)⟩
      obtain hp' | ⟨tail, rfl⟩ :=
        List.prefix_or_prefix_of_prefix hp (List.prefix_append (c :: cs) back)
      · exact hp'
      · -- what hangs over belongs to the pattern and to the back
        cases tail with
        | nil => rw [List.append_nil]
        | cons d ds =>
          have hd : d ∈ back :=
            ((List.prefix_append_right_inj _).mp hp).subset List.mem_cons_self
          exact absurd (List.mem_append_right _ List.mem_cons_self) (h d hd)
    rw [List.cons_append] at hhead ⊢
    rw [search, search, ih]
    simp only [hhead]

/-! ## Trimming -/

omit [DecidableEq α] in
/-- Erase the blanks at both ends. -/
def trim (blank : α → Bool) (text : List α) : List α :=
  (text.dropWhile blank).rdropWhile blank

section Trim

variable {blank : α → Bool}

omit [DecidableEq α] in
theorem trim_append_left (h : ∀ c ∈ front, blank c = true) :
    trim blank (front ++ back) = trim blank back := by
  rw [trim, List.dropWhile_append_of_pos h, trim]

omit [DecidableEq α] in
theorem trim_append_right (h : ∀ c ∈ back, blank c = true) :
    trim blank (front ++ back) = trim blank front := by
  have hback : back.dropWhile blank = [] := List.dropWhile_eq_nil_iff.mpr h
  have hrback (cs : List α) : (cs ++ back).rdropWhile blank = cs.rdropWhile blank := by
    rw [List.rdropWhile, List.reverse_append, List.dropWhile_append_of_pos fun c hc =>
      h c (List.mem_reverse.mp hc), ← List.rdropWhile]
  rw [trim, List.dropWhile_append, trim]
  split_ifs with hfront
  · rw [hback, List.isEmpty_iff.mp hfront]
  · exact hrback _

omit [DecidableEq α] in
/-- A text is its trimmed text between blanks. -/
theorem trim_split (blank : α → Bool) (text : List α) :
    ∃ before after, text = before ++ (trim blank text ++ after) ∧
      (∀ c ∈ before, blank c = true) ∧ ∀ c ∈ after, blank c = true := by
  refine ⟨text.takeWhile blank, (text.dropWhile blank).rtakeWhile blank, ?_,
    fun c hc => List.mem_takeWhile_imp hc, fun c hc => ?_⟩
  · rw [trim, List.rdropWhile_append_rtakeWhile, List.takeWhile_append_dropWhile]
  · exact List.mem_rtakeWhile_imp hc

/-- What stands before and behind the first occurrence of a pattern, the latter if there is
one, each trimmed. -/
def cut (blank : α → Bool) (pattern text : List α) : List α × Option (List α) :=
  match search pattern text with
  | none => (trim blank text, none)
  | some i => (trim blank (text.take i), some (trim blank (text.drop (i + pattern.length))))

/-- A pattern without blanks cuts a text as it cuts the trimmed text. -/
theorem cut_trim (hne : pattern ≠ []) (hblank : ∀ c ∈ pattern, blank c = false)
    (text : List α) : cut blank pattern (trim blank text) = cut blank pattern text := by
  obtain ⟨before, after, htext, hbefore, hafter⟩ := trim_split blank text
  have hdisjoint : ∀ c, blank c = true → c ∉ pattern := fun c hc hmem => by
    rw [hblank c hmem] at hc
    cases hc
  have hsearch : search pattern text =
      (search pattern (trim blank text)).map (before.length + ·) := by
    obtain ⟨first, rest, rfl⟩ := List.exists_cons_of_ne_nil hne
    have hfirst : first ∉ before := fun hmem => hdisjoint first (hbefore _ hmem)
      List.mem_cons_self
    conv_lhs => rw [htext]
    rw [search_append hfirst rest, search_append_right hne fun c hc => hdisjoint c (hafter c hc)]
  have htrim : trim blank (trim blank text) = trim blank text := by
    conv_rhs => rw [htext]
    rw [trim_append_left hbefore, trim_append_right hafter]
  rw [cut, cut, hsearch]
  cases hcut : search pattern (trim blank text) with
  | none => exact congrArg (·, none) htrim
  | some i =>
    have hle := search_le hcut
    -- in front of the pattern the text has more leading blanks, behind it more trailing ones
    have hfront : text.take (before.length + i) = before ++ (trim blank text).take i := by
      conv_lhs => rw [htext]
      rw [List.take_length_add_append, List.take_append_of_le_length (by omega)]
    have hback : text.drop (before.length + i + pattern.length) =
        (trim blank text).drop (i + pattern.length) ++ after := by
      conv_lhs => rw [htext]
      rw [Nat.add_assoc, List.drop_length_add_append, List.drop_append_of_le_length hle]
    simp only [Option.map_some, hfront, hback, trim_append_left hbefore,
      trim_append_right hafter]

end Trim

end StdString

end GameBackend
