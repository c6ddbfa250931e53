import GameBackend.StdString
import GameBackend.Text

/-!
# Environment references in configuration values

`SimpleConfig::ExpandEnvironmentVariables` replaces every `${name:-fallback}` in a value.
It edits the string it is searching and goes on behind what it has just inserted.

`expansion` is what that comes to: one pass over the value from left to right
(`expandEnvironmentVariables_eq`). The loop keeps a front of its string that it never looks
at again; what follows this front is always a rest of the original value.
-/

namespace GameBackend

namespace SimpleConfig

open StdString

/-- What `std::getenv(name.c_str())` answers: the value of a variable, unless there is
none. -/
abbrev Environment : Type := List Char → Option (List Char)

def trim (value : List Char) : List Char := StdString.trim isSpace value

/-! ## The loop -/

def resolveEnvironmentReference (environment : Environment) (expression : List Char) :
    List Char :=
  let expression := trim expression
  let fallbackSeparator := find expression [':', '-'] 0
  let variableName := trim (substr expression 0 (fallbackSeparator.getD expression.length))
  let envValue := if variableName.isEmpty then none else environment variableName
  match envValue with
  | some (c :: cs) => c :: cs
  | _ =>
    match fallbackSeparator with
    | some separator => trim (expression.drop (separator + 2))
    | none => []

/-- A round of the loop leaves less behind its position than there was before. -/
theorem replace_shorter (replacement : List Char) {expanded : List Char}
    {position start stop : ℕ}
    (hstart : find expanded ['$', '{'] position = some start)
    (hstop : find expanded ['}'] (start + 2) = some stop) :
    (replace expanded start (stop - start + 1) replacement).length -
      (start + replacement.length) < expanded.length - position := by
  have hs := find_bounds hstart
  have ht := find_bounds hstop
  simp only [List.length_cons, List.length_nil] at hs ht
  simp only [replace, List.length_append, List.length_take, List.length_drop]
  omega

/-- The loop of `ExpandEnvironmentVariables`. -/
def expandLoop (environment : Environment) (expanded : List Char) (position : ℕ) : List Char :=
  match hstart : find expanded ['$', '{'] position with
  | none => expanded
  | some start =>
    match hstop : find expanded ['}'] (start + 2) with
    | none => expanded
    | some stop =>
      let replacement := resolveEnvironmentReference environment
        (substr expanded (start + 2) (stop - start - 2))
      have := replace_shorter replacement hstart hstop
      expandLoop environment (replace expanded start (stop - start + 1) replacement)
        (start + replacement.length)
termination_by expanded.length - position

def expandEnvironmentVariables (environment : Environment) (value : List Char) : List Char :=
  expandLoop environment value 0

/-! ## One pass -/

/-- What a reference stands for: the value of the variable in front of the first `:-`, if it
is not empty, or else what follows the `:-`, or else nothing. No variable has an empty
name. -/
def meaning (environment : Environment) (expression : List Char) : List Char :=
  let (name, fallback) := cut isSpace [':', '-'] expression
  let value := if name = [] then none else environment name
  (value.filter fun text => text ≠ []).getD (fallback.getD [])

/-- The text up to the first closing brace, and the text behind the brace. -/
def closing (text : List Char) : Option (List Char × List Char) := splitFirst '}' text

theorem closing_shorter {text expression after : List Char}
    (h : closing text = some (expression, after)) : after.length < text.length := by
  rw [(splitFirst_eq_some.mp h).1, List.length_append, List.length_cons]
  omega

/-- The value of a configuration text: literal text is copied, a reference is replaced by
its meaning, and what is behind its brace comes next. -/
def expansion (environment : Environment) : List Char → List Char
  | '$' :: '{' :: rest =>
    match h : closing rest with
    | some (expression, after) =>
      have := closing_shorter h
      meaning environment expression ++ expansion environment after
    | none => '$' :: '{' :: rest
  | c :: rest => c :: expansion environment rest
  | [] => []
termination_by text => text.length

variable {environment : Environment}

/-- A character that starts no reference is copied. -/
theorem expansion_copy {c : Char} {rest : List Char} (h : ¬['$', '{'] <+: c :: rest) :
    expansion environment (c :: rest) = c :: expansion environment rest := by
  rw [expansion]
  rintro tail rfl rfl
  exact h ⟨tail, rfl⟩

/-- A text is copied up to its first reference. -/
theorem expansion_search (environment : Environment) (text : List Char) :
    expansion environment text =
      match search ['$', '{'] text with
      | none => text
      | some i => text.take i ++ expansion environment (text.drop i) := by
  induction text with
  | nil => rw [expansion, search_nil]
  | cons c rest ih =>
    rw [search]
    split_ifs with hhead
    · rfl
    · rw [expansion_copy hhead, ih]
      cases search ['$', '{'] rest with
      | none => rfl
      | some i => rfl

theorem getD_filter (value : Option (List Char)) (fallback : List Char) :
    (value.filter fun text => text ≠ []).getD fallback =
      match value with
      | some (c :: cs) => c :: cs
      | _ => fallback := by
  rcases value with _ | _ | ⟨c, cs⟩ <;> rfl

/-- `ResolveEnvironmentReference` trims the expression first, which changes nothing. -/
theorem resolveEnvironmentReference_eq (environment : Environment) (expression : List Char) :
    resolveEnvironmentReference environment expression = meaning environment expression := by
  have hblank : ∀ c ∈ [':', '-'], isSpace c = false := by
    simp only [List.forall_mem_cons]
    exact ⟨rfl, rfl, nofun⟩
  have hfind (text : List Char) : find text [':', '-'] 0 = search [':', '-'] text := by
    rw [find, List.drop_zero]
    simp only [Nat.zero_add, Option.map_id']
  rw [meaning, ← cut_trim (List.cons_ne_nil _ _) hblank expression]
  simp only [resolveEnvironmentReference, trim, hfind, cut, substr, List.drop_zero,
    List.isEmpty_iff, getD_filter]
  generalize StdString.trim isSpace expression = trimmed
  obtain hsearch | ⟨i, hsearch⟩ := (search [':', '-'] trimmed).eq_none_or_eq_some
  · simp only [hsearch, Option.getD_none, List.take_length]
  · simp only [hsearch, Option.getD_some, List.length_cons, List.length_nil]

theorem expansion_open {rest : List Char} (h : closing rest = none) :
    expansion environment ('$' :: '{' :: rest) = '$' :: '{' :: rest := by
  rw [expansion]
  split
  · rename_i hsome
    rw [h] at hsome
    cases hsome
  · rfl

theorem expansion_reference {rest expression after : List Char}
    (h : closing rest = some (expression, after)) :
    expansion environment ('$' :: '{' :: rest) =
      meaning environment expression ++ expansion environment after := by
  rw [expansion]
  split
  · rename_i expression' after' hsome
    obtain ⟨rfl, rfl⟩ := Prod.mk.inj (Option.some.inj (h.symm.trans hsome))
    rfl
  · rename_i hnone
    rw [h] at hnone
    cases hnone

/-- Without a reference behind a position the text is copied. -/
theorem expansion_plain {expanded : List Char} {position : ℕ}
    (h : find expanded ['$', '{'] position = none) :
    expansion environment (expanded.drop position) = expanded.drop position := by
  rw [expansion_search, Option.map_eq_none_iff.mp h]

/-- With one the text is copied up to it. -/
theorem expansion_find {expanded : List Char} {position start : ℕ}
    (h : find expanded ['$', '{'] position = some start) :
    expanded.take position ++ expansion environment (expanded.drop position) =
      expanded.take start ++ expansion environment (expanded.drop start) := by
  obtain ⟨i, hi, rfl⟩ := Option.map_eq_some_iff.mp h
  rw [expansion_search, hi]
  simp only [List.drop_drop, List.take_add, List.append_assoc]

/-- What is in front of its position the loop has made for good; what is behind it is a rest
of the value. -/
theorem expandLoop_eq (environment : Environment) (expanded : List Char) (position : ℕ) :
    expandLoop environment expanded position =
      expanded.take position ++ expansion environment (expanded.drop position) := by
  fun_induction expandLoop environment expanded position with
  | case1 expanded position hstart =>
    rw [expansion_plain hstart, List.take_append_drop]
  | case2 expanded position start hstart hstop =>
    -- no brace closes the reference, and the rest stays as it is
    have hclosing : closing (expanded.drop (start + 2)) = none := by
      rw [closing, splitFirst_drop, hstop]
      rfl
    rw [expansion_find hstart, drop_of_find hstart]
    refine Eq.trans ?_ (congrArg (_ ++ ·) (expansion_open hclosing).symm)
    have hwhole := List.take_append_drop start expanded
    rw [drop_of_find hstart] at hwhole
    exact hwhole.symm
  | case3 expanded position start hstart stop hstop replacement hshorter ih =>
    have hclosing : closing (expanded.drop (start + 2)) =
        some (substr expanded (start + 2) (stop - (start + 2)), expanded.drop (stop + 1)) := by
      rw [closing, splitFirst_drop, hstop]
      rfl
    have hstarts : start ≤ expanded.length := by
      have hle := (find_bounds hstart).2.1
      omega
    have hbrace : start + (stop - start + 1) = stop + 1 := by
      have hle := (find_bounds hstop).1
      omega
    have hmeaning : replacement =
        meaning environment (substr expanded (start + 2) (stop - (start + 2))) := by
      rw [← Nat.sub_sub]
      exact resolveEnvironmentReference_eq environment _
    rw [expansion_find hstart, drop_of_find hstart]
    refine Eq.trans ?_ (congrArg (_ ++ ·) (expansion_reference hclosing).symm)
    rw [ih, take_replace hstarts, drop_replace hstarts, hbrace, ← hmeaning, List.append_assoc]

/-- Expanding the references of a value in place, one after the other, is one pass over
the value; what a reference is replaced by is not looked at again. -/
theorem expandEnvironmentVariables_eq (environment : Environment) (value : List Char) :
    expandEnvironmentVariables environment value = expansion environment value :=
  expandLoop_eq environment value 0

end SimpleConfig

end GameBackend
