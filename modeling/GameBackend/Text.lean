import Mathlib.Data.List.TakeWhile
import Mathlib.Data.Int.Basic
import Mathlib.Tactic.Ring

/-!
# Decimal text

The general facts about printed integers that the Redis encodings rest on.

* `stoll` — the lenient reader of the C++ standard library: leading blanks, an
  optional sign, as many digits as there are, the rest ignored; an exception
  (`none`) when there is no digit. The exception for a number that is out of
  range is left out. What the servers write into Redis was printed from an
  integer in range and never raises it; a text that something else has left
  there can.
* `stoll_toString` — reading back what was printed.
* `toString_append_inj` — a printed integer followed by a non-digit can be read
  off the front of a text in one way only.
-/

namespace GameBackend

/-- The blanks `std::isspace` accepts. -/
def isSpace (c : Char) : Bool := c ∈ [' ', '\t', '\n', '\x0b', '\x0c', '\r']

/-- The value of the longest digit prefix, if there is one. -/
def readDigits (cs : List Char) : Option ℤ :=
  match cs.takeWhile Char.isDigit with
  | [] => none
  | ds => some (Nat.ofDigitChars 10 ds 0)

/-- `std::stoll` (and `std::stoi`), without `std::out_of_range`; `none` is
`std::invalid_argument`. -/
def stoll (s : String) : Option ℤ :=
  match s.toList.dropWhile isSpace with
  | '-' :: cs => (readDigits cs).map Neg.neg
  | '+' :: cs => readDigits cs
  | cs => readDigits cs

/-! ## The characters of a printed integer -/

theorem toList_toString_natCast (n : ℕ) : (toString (n : ℤ)).toList = Nat.toDigits 10 n := by
  change (Nat.repr n).toList = _
  exact Nat.toList_repr

theorem toList_toString_negSucc (n : ℕ) :
    (toString (Int.negSucc n)).toList = '-' :: Nat.toDigits 10 (n + 1) := by
  change ("-" ++ Nat.repr (n + 1)).toList = _
  rw [String.toList_append, Nat.toList_repr]
  rfl

theorem isDigit_toDigits {n : ℕ} {c : Char} (h : c ∈ Nat.toDigits 10 n) : c.isDigit :=
  Nat.isDigit_of_mem_toDigits (by decide) (by decide) h

/-- Digits in front of a non-digit are exactly the digit prefix. -/
theorem takeWhile_toDigits_append (n : ℕ) {r : List Char}
    (h : ∀ c ∈ r.head?, c.isDigit = false) :
    (Nat.toDigits 10 n ++ r).takeWhile Char.isDigit = Nat.toDigits 10 n := by
  rw [List.takeWhile_append_of_pos fun c hc => isDigit_toDigits hc]
  cases r with
  | nil => simp
  | cons c cs => simp [h c rfl]

theorem readDigits_toDigits (n : ℕ) : readDigits (Nat.toDigits 10 n) = some (n : ℤ) := by
  have h := takeWhile_toDigits_append n (r := []) (by simp)
  rw [List.append_nil] at h
  rw [readDigits, h]
  split
  · rename_i hnil
    exact absurd hnil Nat.toDigits_ne_nil
  · rw [Nat.ofDigitChars_ten_toDigits]

/-- The first character of printed digits is a digit. -/
theorem toDigits_eq_cons (n : ℕ) :
    ∃ c cs, Nat.toDigits 10 n = c :: cs ∧ c.isDigit = true := by
  rcases h : Nat.toDigits 10 n with _ | ⟨c, cs⟩
  · exact absurd h Nat.toDigits_ne_nil
  · exact ⟨c, cs, rfl, isDigit_toDigits (n := n) (by rw [h]; exact List.mem_cons_self ..)⟩

theorem not_isSpace_of_isDigit {c : Char} (h : c.isDigit = true) : isSpace c = false := by
  simp only [isSpace, List.mem_cons, List.not_mem_nil, or_false, decide_eq_false_iff_not]
  rintro (rfl | rfl | rfl | rfl | rfl | rfl) <;> exact absurd h (by decide)

/-- A printed integer consists of digits and a sign. -/
theorem mem_toString {n : ℤ} {c : Char} (h : c ∈ (toString n).toList) :
    c.isDigit = true ∨ c = '-' := by
  rcases n with n | n
  · rw [Int.ofNat_eq_natCast, toList_toString_natCast] at h
    exact .inl (isDigit_toDigits h)
  · rw [toList_toString_negSucc] at h
    rcases List.mem_cons.mp h with rfl | h
    · exact .inr rfl
    · exact .inl (isDigit_toDigits h)

theorem toString_ne_empty (n : ℤ) : (toString n).toList ≠ [] := by
  rcases n with n | n
  · rw [Int.ofNat_eq_natCast, toList_toString_natCast]
    exact Nat.toDigits_ne_nil
  · rw [toList_toString_negSucc]
    exact List.cons_ne_nil _ _

/-! ## Reading back -/

/-- `std::stoll` reads back what `std::to_string` printed. -/
theorem stoll_toString (n : ℤ) : stoll (toString n) = some n := by
  rcases n with n | n
  · obtain ⟨c, cs, hcs, hc⟩ := toDigits_eq_cons n
    have hne : c ≠ '-' ∧ c ≠ '+' := by
      constructor <;> rintro rfl <;> exact absurd hc (by decide)
    have hread := readDigits_toDigits n
    rw [hcs] at hread
    rw [stoll, Int.ofNat_eq_natCast, toList_toString_natCast, hcs,
      List.dropWhile_cons_of_neg (by simp [not_isSpace_of_isDigit hc])]
    split
    · rename_i heq
      exact absurd (List.cons.inj heq).1 hne.1
    · rename_i heq
      exact absurd (List.cons.inj heq).1 hne.2
    · exact hread
  · rw [stoll, toList_toString_negSucc, List.dropWhile_cons_of_neg (by decide)]
    simp only [readDigits_toDigits, Option.map_some, Option.some.injEq]
    omega

/-- The same for the form `simp` gives a printed integer. -/
@[simp] theorem stoll_repr (n : ℤ) : stoll n.repr = some n := stoll_toString n

/-- Printing is injective. -/
theorem toString_inj {m n : ℤ} (h : toString m = toString n) : m = n := by
  have := stoll_toString m
  rw [h, stoll_toString] at this
  exact (Option.some.inj this).symm

/-! ## Reading off the front -/

theorem toDigits_append_inj {m n : ℕ} {r s : List Char}
    (hr : ∀ c ∈ r.head?, c.isDigit = false) (hs : ∀ c ∈ s.head?, c.isDigit = false)
    (h : Nat.toDigits 10 m ++ r = Nat.toDigits 10 n ++ s) : m = n ∧ r = s := by
  have hd : Nat.toDigits 10 m = Nat.toDigits 10 n := by
    rw [← takeWhile_toDigits_append m hr, h, takeWhile_toDigits_append n hs]
  constructor
  · rw [← Nat.ofDigitChars_ten_toDigits (n := m), hd, Nat.ofDigitChars_ten_toDigits]
  · rw [hd] at h
    exact List.append_cancel_left h

/-- A printed integer followed by a non-digit determines the integer and the
rest of the text. -/
theorem toString_append_inj {m n : ℤ} {r s : List Char}
    (hr : ∀ c ∈ r.head?, c.isDigit = false) (hs : ∀ c ∈ s.head?, c.isDigit = false)
    (h : (toString m).toList ++ r = (toString n).toList ++ s) : m = n ∧ r = s := by
  have hclash : ∀ (k : ℕ) (t u : List Char), Nat.toDigits 10 k ++ t ≠ '-' :: u := by
    intro k t u heq
    obtain ⟨c, cs, hcs, hc⟩ := toDigits_eq_cons k
    rw [hcs, List.cons_append] at heq
    rw [(List.cons.inj heq).1] at hc
    exact absurd hc (by decide)
  rcases m with m | m <;> rcases n with n | n
  · rw [Int.ofNat_eq_natCast, Int.ofNat_eq_natCast, toList_toString_natCast,
      toList_toString_natCast] at h
    obtain ⟨rfl, hrs⟩ := toDigits_append_inj hr hs h
    exact ⟨rfl, hrs⟩
  · rw [Int.ofNat_eq_natCast, toList_toString_natCast, toList_toString_negSucc] at h
    exact absurd h (hclash _ _ _)
  · rw [Int.ofNat_eq_natCast, toList_toString_natCast, toList_toString_negSucc] at h
    exact absurd h.symm (hclash _ _ _)
  · rw [toList_toString_negSucc, toList_toString_negSucc] at h
    obtain ⟨hmn, hrs⟩ := toDigits_append_inj hr hs (List.cons.inj h).2
    obtain rfl : m = n := by omega
    exact ⟨rfl, hrs⟩

/-- A text made of a fixed front and three printed numbers tells the numbers. -/
theorem idText_inj {front : String} {a b p q : ℤ} {m n : ℕ}
    (h : front ++ toString a ++ "-" ++ toString p ++ "-" ++ toString m =
      front ++ toString b ++ "-" ++ toString q ++ "-" ++ toString n) : a = b ∧ p = q ∧ m = n := by
  have hlist := congrArg String.toList h
  simp only [String.append_assoc, String.toList_append] at hlist
  obtain ⟨rfl, hplayer⟩ := toString_append_inj (by simp) (by simp) (List.append_cancel_left hlist)
  obtain ⟨rfl, hnumber⟩ :=
    toString_append_inj (by simp) (by simp) (List.append_cancel_left hplayer)
  have hdigits : Nat.toDigits 10 m = Nat.toDigits 10 n := by
    rw [← toList_toString_natCast, ← toList_toString_natCast]
    exact List.append_cancel_left hnumber
  refine ⟨rfl, rfl, ?_⟩
  rw [← Nat.ofDigitChars_ten_toDigits (n := m), hdigits, Nat.ofDigitChars_ten_toDigits]

end GameBackend
