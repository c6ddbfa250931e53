import GameBackend.PasswordHasher
import GameBackend.SimpleConfig
import GameBackend.World
import Mathlib.Logic.Function.Basic

/-!
# Configuration files

`SimpleConfig::LoadFromFile` reads `key = value` line by line, and the servers take their
numbers from what it has read.

`Line` is the grammar of these files: settings, with blanks around the key and the value, and
the lines that set nothing. Every text is a list of such lines, and what is loaded is the last
setting of each key, with its references expanded (`configuration_file`). The numbers of a
dungeon server come back from every file that has them (`configure_written`).
-/

namespace GameBackend

namespace SimpleConfig

open StdString

/-! ## The file -/

/-- `values_`; `none` is a key that is not there. -/
abbrev Values : Type := List Char → Option (List Char)

/-- `std::getline`: the next line without its newline, and what is left to read. -/
def getline : List Char → Option (List Char × List Char)
  | [] => none
  | c :: input => some ((splitFirst '\n' (c :: input)).getD (c :: input, []))

theorem getline_shorter {input line rest : List Char} (h : getline input = some (line, rest)) :
    rest.length < input.length := by
  cases input with
  | nil => cases h
  | cons c input =>
    obtain hnone | ⟨⟨front, back⟩, hsome⟩ := (splitFirst '\n' (c :: input)).eq_none_or_eq_some
    · rw [getline, hnone] at h
      obtain ⟨rfl, rfl⟩ := Prod.mk.inj (Option.some.inj h)
      exact Nat.succ_pos _
    · rw [getline, hsome] at h
      obtain ⟨rfl, rfl⟩ := Prod.mk.inj (Option.some.inj h)
      rw [(splitFirst_eq_some.mp hsome).1, List.length_append, List.length_cons]
      omega

/-- A round of the loop of `LoadFromFile`. -/
def loadLine (environment : Environment) (values : Values) (line : List Char) : Values :=
  let line := trim line
  if line.isEmpty ∨ line.head? = some '#' then values
  else
    match find line ['='] 0 with
    | none => values
    | some separator =>
      let key := trim (substr line 0 separator)
      let value := expandEnvironmentVariables environment (trim (line.drop (separator + 1)))
      if key.isEmpty then values else Function.update values key (some value)

/-- The loop of `LoadFromFile`. -/
def loadLoop (environment : Environment) (values : Values) (input : List Char) : Values :=
  match h : getline input with
  | none => values
  | some (line, rest) =>
    have := getline_shorter h
    loadLoop environment (loadLine environment values line) rest
termination_by input.length

/-- `LoadFromFile`, what it returns and what `values_` is afterwards; `none` is a file that
cannot be opened. -/
def loadFromFile (environment : Environment) (file : Option (List Char)) (values : Values) :
    Bool × Values :=
  match file with
  | none => (false, values)
  | some text => (true, loadLoop environment (fun _ => none) text)

def getInt (values : Values) (key : String) (defaultValue : ℤ) : ℤ :=
  match values key.toList with
  | none => defaultValue
  | some text => (PasswordHasher.stoi text).getD defaultValue

/-! ## Lines -/

/-- Text on one line. -/
abbrev Text : Type := {cs : List Char // '\n' ∉ cs}

/-- Blanks on one line. -/
abbrev Padding : Type := {cs : List Char // (∀ c ∈ cs, isSpace c = true) ∧ '\n' ∉ cs}

/-- One blank. -/
def Padding.of (c : Char) (h : isSpace c = true ∧ c ≠ '\n') : Padding :=
  ⟨[c], by simpa using h.1, by simpa using h.2.symm⟩

/-- A key and a value as they can stand in a file. -/
structure Setting where
  key : Text
  value : Text
  named : key.1 ≠ []
  key_trimmed : trim key.1 = key.1
  value_trimmed : trim value.1 = value.1
  plain : '=' ∉ key.1
  /-- it is no comment -/
  uncommented : key.1.head? ≠ some '#'

/-- The setting, if the key and the value can stand in a file. -/
def Setting.of (key value : List Char) : Option Setting :=
  if h : ('\n' ∉ key ∧ '\n' ∉ value ∧ key ≠ []) ∧
      (trim key = key ∧ trim value = value) ∧ '=' ∉ key ∧ key.head? ≠ some '#' then
    some ⟨⟨key, h.1.1⟩, ⟨value, h.1.2.1⟩, h.1.2.2, h.2.1.1, h.2.1.2, h.2.2.1, h.2.2.2⟩
  else none

/-- A line of a configuration file. -/
inductive Line where
  | setting (s : Setting) (indent before after trailing : Padding)
  | comment (indent : Padding) (text : Text)
  /-- no key -/
  | unnamed (indent : Padding) (text : Text)
  /-- no `=` -/
  | other (text : Text) (plain : '=' ∉ text.1)

namespace Line

def text : Line → List Char
  | setting s indent before after trailing =>
    indent.1 ++ (s.key.1 ++ before.1) ++ '=' :: (after.1 ++ (s.value.1 ++ trailing.1))
  | comment indent text => indent.1 ++ '#' :: text.1
  | unnamed indent text => indent.1 ++ '=' :: text.1
  | other text _ => text.1

def sets : Line → Option Setting
  | setting s _ _ _ _ => some s
  | _ => none

theorem newline_not_mem (line : Line) : '\n' ∉ line.text := by
  cases line with
  | setting s indent before after trailing =>
    simp [text, indent.2.2, s.key.2, before.2.2, after.2.2, s.value.2, trailing.2.2]
  | comment indent text => simp [Line.text, indent.2.2, text.2]
  | unnamed indent text => simp [Line.text, indent.2.2, text.2]
  | other text plain => exact text.2

end Line

/-- The text of a file with these lines. A newline at the end is an empty line more. -/
def render (lines : List Line) : List Char := ['\n'].intercalate (lines.map Line.text)

/-- What the last line that sets a key says. -/
def lastSetting (lines : List Line) (key : List Char) : Option Setting :=
  (lines.filterMap Line.sets).reverse.find? fun s => s.key.1 = key

/-! ## What a line declares -/

section Declared

variable {environment : Environment} {line : List Char}

/-- The key and the value that a line sets. -/
def declared (line : List Char) : Option (List Char × List Char) :=
  match cut isSpace ['='] line with
  | (key, some value) => if key = [] ∨ key.head? = some '#' then none else some (key, value)
  | (_, none) => none

theorem cut_eq (line : List Char) : cut isSpace ['='] line =
    match search ['='] line with
    | none => (trim line, none)
    | some i => (trim (line.take i), some (trim (line.drop (i + 1)))) := rfl

/-- A line declares what is in front of its first `=` and what is behind it. -/
theorem declared_of_split {front back : List Char} (h : '=' ∉ front) :
    declared (front ++ '=' :: back) =
      if trim front = [] ∨ (trim front).head? = some '#' then none
      else some (trim front, trim back) := by
  have hsplit : splitFirst '=' (front ++ '=' :: back) = some (front, back) :=
    splitFirst_eq_some.mpr ⟨rfl, h⟩
  rw [splitFirst_eq] at hsplit
  obtain ⟨i, hi, heq⟩ := Option.map_eq_some_iff.mp hsplit
  obtain ⟨hfront, hback⟩ := Prod.mk.inj heq
  simp only [declared, cut_eq, hi, hfront, hback]

/-- A line without `=` declares nothing. -/
theorem declared_of_plain (h : '=' ∉ line) : declared line = none := by
  have hsearch : search ['='] line = none := by
    rcases hline : search ['='] line with _ | i
    · rfl
    · rw [search_eq_some hline] at h
      simp at h
  rw [declared, cut_eq, hsearch]

theorem Padding.plain (padding : Padding) : '=' ∉ padding.1 := fun hmem =>
  absurd (padding.2.1 _ hmem) (by decide)

/-- A text whose first character is no blank keeps it. -/
theorem trim_head {c : Char} {cs : List Char} (h : isSpace c = false) :
    (trim (c :: cs)).head? = some c := by
  obtain ⟨before, after, htext, hbefore, hafter⟩ := trim_split isSpace (c :: cs)
  cases before with
  | cons d before =>
    obtain ⟨rfl, -⟩ := List.cons.inj htext
    have hc := hbefore c List.mem_cons_self
    rw [h] at hc
    cases hc
  | nil =>
    rw [List.nil_append] at htext
    change (StdString.trim isSpace (c :: cs)).head? = some c
    cases htrim : StdString.trim isSpace (c :: cs) with
    | nil =>
      rw [htrim, List.nil_append] at htext
      have hc := hafter c (htext ▸ List.mem_cons_self)
      rw [h] at hc
      cases hc
    | cons d ds =>
      rw [htrim] at htext
      obtain ⟨rfl, -⟩ := List.cons.inj htext
      rfl

theorem trim_trim (text : List Char) : trim (trim text) = trim text := by
  obtain ⟨before, after, htext, hbefore, hafter⟩ := trim_split isSpace text
  have hwhole : trim text = trim (trim text) := by
    conv_lhs => rw [htext]
    exact (trim_append_left hbefore).trans (trim_append_right hafter)
  exact hwhole.symm

/-- The first character of a trimmed text is no blank. -/
theorem head_of_trimmed {c : Char} {cs : List Char} (h : trim (c :: cs) = c :: cs) :
    isSpace c = false := by
  rw [Bool.eq_false_iff]
  intro hc
  have hshort : (trim (c :: cs)).length ≤ cs.length := by
    change (StdString.trim isSpace ([c] ++ cs)).length ≤ cs.length
    rw [trim_append_left (by simpa using hc)]
    obtain ⟨before, after, htext, -⟩ := trim_split isSpace cs
    conv_rhs => rw [htext]
    simp only [List.length_append]
    omega
  rw [h] at hshort
  exact absurd hshort (by simp)

/-- A round of the loop sets what the line declares. The loop trims the line first, which does
not matter. -/
theorem loadLine_eq (environment : Environment) (values : Values) (line : List Char) :
    loadLine environment values line =
      match declared line with
      | none => values
      | some (key, value) => Function.update values key (some (expansion environment value)) := by
  have hblank : ∀ c ∈ ['='], isSpace c = false := by
    intro c hc
    obtain rfl := List.mem_singleton.mp hc
    rfl
  have hcut : cut isSpace ['='] (trim line) = cut isSpace ['='] line :=
    cut_trim (List.cons_ne_nil _ _) hblank line
  have hfind (text : List Char) : find text ['='] 0 = search ['='] text := by
    rw [find, List.drop_zero]
    simp only [Nat.zero_add, Option.map_id']
  rw [declared, ← hcut]
  simp only [loadLine, hfind, substr, expandEnvironmentVariables, expandLoop_eq, List.take_zero,
    List.drop_zero, List.nil_append]
  have htrimmed := trim_trim line
  generalize trim line = text at htrimmed
  cases text with
  | nil => rfl
  | cons c cs =>
    have hc := head_of_trimmed htrimmed
    simp only [cut_eq, List.isEmpty_cons, Bool.false_eq_true, false_or, List.head?_cons,
      Option.some.injEq, List.isEmpty_iff]
    cases search ['='] (c :: cs) with
    | none => exact ite_self _
    | some i =>
      -- the key starts as the line does, unless it is empty
      have hhead : trim ((c :: cs).take i) = [] ∨ (trim ((c :: cs).take i)).head? = some c := by
        cases i with
        | zero => exact .inl rfl
        | succ i => exact .inr (trim_head hc)
      dsimp only
      generalize trim ((c :: cs).take i) = key at hhead
      obtain rfl | hhead := hhead
      · rw [if_pos rfl, if_pos (Or.inl rfl), ite_self]
      · have hne : key ≠ [] := by
          rintro rfl
          cases hhead
        by_cases hcomment : c = '#'
        · rw [if_pos hcomment, if_pos (Or.inr (hhead.trans (congrArg some hcomment)))]
        · rw [if_neg hcomment, if_neg hne, if_neg]
          rw [hhead, Option.some.injEq]
          exact not_or.mpr ⟨hne, hcomment⟩

/-- What a line of the grammar declares. -/
theorem declared_text (line : Line) :
    declared line.text = line.sets.map fun s => (s.key.1, s.value.1) := by
  cases line with
  | setting s indent before after trailing =>
    have hplain : '=' ∉ indent.1 ++ (s.key.1 ++ before.1) := by
      simp [indent.plain, s.plain, before.plain]
    have hkey : trim (indent.1 ++ (s.key.1 ++ before.1)) = s.key.1 :=
      (trim_append_left indent.2.1).trans ((trim_append_right before.2.1).trans s.key_trimmed)
    have hvalue : trim (after.1 ++ (s.value.1 ++ trailing.1)) = s.value.1 :=
      (trim_append_left after.2.1).trans ((trim_append_right trailing.2.1).trans s.value_trimmed)
    rw [Line.text, declared_of_split hplain, hkey, hvalue]
    exact if_neg (not_or.mpr ⟨s.named, s.uncommented⟩)
  | comment indent text =>
    by_cases hplain : '=' ∈ text.1
    · -- what is in front of the `=` starts as the comment does
      obtain ⟨front, back, htext, hfront⟩ := List.eq_append_cons_of_mem hplain
      have hsplit : '=' ∉ indent.1 ++ '#' :: front := by
        simp [indent.plain, hfront]
      have hindent : trim (indent.1 ++ '#' :: front) = trim ('#' :: front) :=
        trim_append_left indent.2.1
      have hline : indent.1 ++ '#' :: text.1 = indent.1 ++ '#' :: front ++ '=' :: back := by
        rw [htext, List.append_assoc]
        rfl
      rw [Line.text, hline, declared_of_split hsplit, hindent]
      exact if_pos (.inr (trim_head rfl))
    · exact declared_of_plain (by simp [Line.text, indent.plain, hplain])
  | unnamed indent text =>
    have hkey : trim indent.1 = [] := by
      have hall : trim (indent.1 ++ []) = trim [] := trim_append_left indent.2.1
      rwa [List.append_nil] at hall
    rw [Line.text, declared_of_split indent.plain, hkey]
    rfl
  | other text plain => exact declared_of_plain plain

/-- A round of the loop on a line of the grammar. -/
theorem loadLine_text (environment : Environment) (values : Values) (line : Line) :
    loadLine environment values line.text =
      match line.sets with
      | none => values
      | some s => Function.update values s.key.1 (some (expansion environment s.value.1)) := by
  rw [loadLine_eq, declared_text]
  cases line.sets with
  | none => rfl
  | some s => rfl

end Declared

/-! ## What is loaded -/

section Load

variable {environment : Environment} {values : Values}

theorem loadLoop_nil : loadLoop environment values [] = values := by
  rw [loadLoop]
  rfl

theorem loadLoop_getline {input line rest : List Char} (h : getline input = some (line, rest)) :
    loadLoop environment values input =
      loadLoop environment (loadLine environment values line) rest := by
  rw [loadLoop]
  split
  · rename_i hnone
    rw [h] at hnone
    cases hnone
  · rename_i line' rest' hsome
    obtain ⟨rfl, rfl⟩ := Prod.mk.inj (Option.some.inj (h.symm.trans hsome))
    rfl

theorem getline_append {line rest : List Char} (h : '\n' ∉ line) :
    getline (line ++ '\n' :: rest) = some (line, rest) := by
  have hsplit : splitFirst '\n' (line ++ '\n' :: rest) = some (line, rest) :=
    splitFirst_eq_some.mpr ⟨rfl, h⟩
  generalize line ++ '\n' :: rest = input at hsplit
  cases input with
  | nil => cases hsplit
  | cons c cs => rw [getline, hsplit, Option.getD_some]

theorem getline_last {line : List Char} (hne : line ≠ []) (h : '\n' ∉ line) :
    getline line = some (line, []) := by
  cases line with
  | nil => exact absurd rfl hne
  | cons c cs =>
    rw [getline]
    rcases hsplit : splitFirst '\n' (c :: cs) with _ | ⟨front, back⟩
    · rfl
    · rw [(splitFirst_eq_some.mp hsplit).1] at h
      exact absurd (List.mem_append_right _ List.mem_cons_self) h

/-- The loop goes through the lines of the file. -/
theorem loadLoop_render (environment : Environment) (values : Values) (line : Line)
    (lines : List Line) : loadLoop environment values (render (line :: lines)) =
      ((line :: lines).map Line.text).foldl (loadLine environment) values := by
  induction lines generalizing line values with
  | nil =>
    have hrender : render [line] = line.text := List.intercalate_singleton
    rw [hrender]
    by_cases hne : line.text = []
    · simp only [List.map_cons, List.map_nil, List.foldl_cons, List.foldl_nil, hne]
      exact loadLoop_nil
    · rw [loadLoop_getline (getline_last hne line.newline_not_mem), loadLoop_nil]
      rfl
  | cons next lines ih =>
    have hrender : render (line :: next :: lines) =
        line.text ++ '\n' :: render (next :: lines) := by
      simp only [render, List.map_cons, List.intercalate_cons_cons, List.append_assoc,
        List.singleton_append]
    rw [hrender, loadLoop_getline (getline_append line.newline_not_mem), ih]
    rfl

/-- After the loop a key has the value of the last line that sets it. -/
theorem foldl_loadLine (environment : Environment) (lines : List Line) (key : List Char) :
    (lines.map Line.text).foldl (loadLine environment) (fun _ => none) key =
      (lastSetting lines key).map fun s => expansion environment s.value.1 := by
  induction lines using List.reverseRecOn with
  | nil => rfl
  | append_singleton lines line ih =>
    rw [List.map_append, List.foldl_append, List.map_singleton, List.foldl_cons, List.foldl_nil,
      loadLine_text, lastSetting, List.filterMap_append, List.reverse_append]
    cases hsets : line.sets with
    | none =>
      rw [List.filterMap_cons_none hsets]
      exact ih
    | some s =>
      rw [List.filterMap_cons_some hsets]
      dsimp only
      by_cases hkey : s.key.1 = key
      · subst hkey
        simp
      · rw [Function.update_of_ne (Ne.symm hkey), ih]
        simp [hkey, lastSetting]

/-- What a file of the grammar loads. -/
theorem loadFromFile_render (environment : Environment) (lines : List Line) (values : Values) :
    loadFromFile environment (some (render lines)) values =
      (true, fun key => (lastSetting lines key).map fun s => expansion environment s.value.1) := by
  rw [loadFromFile]
  refine congrArg (Prod.mk true) (funext fun key => ?_)
  rw [← foldl_loadLine]
  cases lines with
  | nil => exact congrFun loadLoop_nil key
  | cons line lines => rw [loadLoop_render]

/-- Every line is one of the grammar. -/
theorem exists_line {text : List Char} (h : '\n' ∉ text) : ∃ line : Line, line.text = text := by
  rcases hsplit : splitFirst '=' text with _ | ⟨front, back⟩
  · refine ⟨.other ⟨text, h⟩ fun hmem => ?_, rfl⟩
    obtain ⟨front, back, htext, hfront⟩ := List.eq_append_cons_of_mem hmem
    rw [splitFirst_eq_some.mpr ⟨htext, hfront⟩] at hsplit
    cases hsplit
  obtain ⟨rfl, hplain⟩ := splitFirst_eq_some.mp hsplit
  obtain ⟨indent, before, hfront, hindent, hbefore⟩ := trim_split isSpace front
  obtain ⟨after, trailing, hback, hafter, htrailing⟩ := trim_split isSpace back
  have hkeys := trim_trim front
  have hvalues := trim_trim back
  change front = indent ++ (trim front ++ before) at hfront
  change back = after ++ (trim back ++ trailing) at hback
  generalize trim front = key at hfront hkeys
  generalize trim back = value at hback hvalues
  subst hfront hback
  simp only [List.mem_append, List.mem_cons, not_or] at h hplain
  obtain ⟨⟨hnindent, hnkey, hnbefore⟩, -, hnafter, hnvalue, hntrailing⟩ := h
  by_cases hnamed : key = []
  · subst hnamed
    refine ⟨.unnamed ⟨indent ++ before, ?_, ?_⟩
      ⟨after ++ (value ++ trailing), ?_⟩, by simp [Line.text]⟩
    · intro c hc
      exact (List.mem_append.mp hc).elim (hindent c) (hbefore c)
    · simp [hnindent, hnbefore]
    · simp [hnafter, hnvalue, hntrailing]
  by_cases hcomment : key.head? = some '#'
  · obtain ⟨rest, rfl⟩ : ∃ rest, key = '#' :: rest := by
      cases key with
      | nil => cases hcomment
      | cons c rest => exact ⟨rest, congrArg (· :: rest) (Option.some.inj hcomment)⟩
    refine ⟨.comment ⟨indent, hindent, hnindent⟩
      ⟨rest ++ before ++ '=' :: (after ++ (value ++ trailing)), ?_⟩, by simp [Line.text]⟩
    simp only [List.mem_cons, not_or] at hnkey
    simp [hnkey.2, hnbefore, hnafter, hnvalue, hntrailing]
  · exact ⟨.setting ⟨⟨key, hnkey⟩, ⟨value, hnvalue⟩, hnamed, hkeys, hvalues, hplain.2.1, hcomment⟩
      ⟨indent, hindent, hnindent⟩ ⟨before, hbefore, hnbefore⟩ ⟨after, hafter, hnafter⟩
      ⟨trailing, htrailing, hntrailing⟩, by simp [Line.text]⟩

/-- Every text is a file of the grammar. -/
theorem exists_lines (text : List Char) : ∃ lines, render lines = text := by
  suffices hcons : ∀ n, ∀ text : List Char, text.length = n →
      ∃ line lines, render (line :: lines) = text by
    obtain ⟨line, lines, hrender⟩ := hcons _ text rfl
    exact ⟨line :: lines, hrender⟩
  intro n
  induction n using Nat.strongRecOn with
  | ind n ih =>
    intro text hlength
    by_cases hnewline : '\n' ∈ text
    · obtain ⟨front, back, rfl, hfront⟩ := List.eq_append_cons_of_mem hnewline
      obtain ⟨line, hline⟩ := exists_line hfront
      obtain ⟨next, lines, hrender⟩ := ih back.length (by simp at hlength; omega) back rfl
      refine ⟨line, next :: lines, ?_⟩
      rw [← hline, ← hrender]
      simp only [render, List.map_cons, List.intercalate_cons_cons, List.append_assoc,
        List.singleton_append]
    · obtain ⟨line, hline⟩ := exists_line hnewline
      exact ⟨line, [], List.intercalate_singleton.trans hline⟩

/-- **Configuration files.** Every text is a file of settings, comments and other lines; and
what is loaded of a file is the last setting of each key, its value without the blanks around it
and with its references expanded. -/
theorem configuration_file : (∀ text, ∃ lines, render lines = text) ∧
    ∀ (environment : Environment) (lines : List Line) (values : Values),
      loadFromFile environment (some (render lines)) values =
        (true, fun key => (lastSetting lines key).map fun s => expansion environment s.value.1) :=
  ⟨exists_lines, loadFromFile_render⟩

end Load

/-! ## Numbers -/

section Numbers

variable {environment : Environment} {name : List Char}

/-- `${name:-n}` -/
def reference (name : List Char) (n : ℤ) : List Char :=
  '$' :: '{' :: (name ++ ':' :: '-' :: ((toString n).toList ++ ['}']))

/-- The name of a variable, which ends where the reference goes on. -/
structure Named (name : List Char) : Prop where
  nonempty : name ≠ []
  trimmed : trim name = name
  colon : ':' ∉ name
  brace : '}' ∉ name

/-- What a number is configured to be: the variable, if it is set, or else the number in the
file. A variable that is set to something else does not fall back to the file. -/
def configured (environment : Environment) (name : List Char) (n defaultValue : ℤ) : ℤ :=
  match environment name with
  | some (c :: cs) => (PasswordHasher.stoi (c :: cs)).getD defaultValue
  | _ => n

theorem trim_toString (n : ℤ) : trim (toString n).toList = (toString n).toList := by
  obtain ⟨before, after, htext, hbefore, hafter⟩ := trim_split isSpace (toString n).toList
  have hblank : ∀ c ∈ (toString n).toList, isSpace c = false := by
    intro c hc
    obtain hdigit | rfl := mem_toString hc
    · exact not_isSpace_of_isDigit hdigit
    · rfl
  obtain rfl : before = [] := by
    refine List.eq_nil_iff_forall_not_mem.mpr fun c hc => ?_
    have hfalse := hblank c (htext ▸ List.mem_append_left _ hc)
    rw [hbefore c hc] at hfalse
    cases hfalse
  obtain rfl : after = [] := by
    refine List.eq_nil_iff_forall_not_mem.mpr fun c hc => ?_
    have hfalse := hblank c (htext ▸ List.mem_append_right _ (List.mem_append_right _ hc))
    rw [hafter c hc] at hfalse
    cases hfalse
  rw [List.nil_append, List.append_nil] at htext
  exact htext.symm

/-- What a reference with a number stands for. -/
theorem meaning_number (hname : Named name) (n : ℤ) :
    meaning environment (name ++ ':' :: '-' :: (toString n).toList) =
      ((environment name).filter fun text => text ≠ []).getD (toString n).toList := by
  have hsearch : search [':', '-'] (name ++ ':' :: '-' :: (toString n).toList) =
      some name.length := by
    rw [search_append hname.colon, search, if_pos ⟨(toString n).toList, rfl⟩]
    rfl
  have hcut : cut isSpace [':', '-'] (name ++ ':' :: '-' :: (toString n).toList) =
      (name, some (toString n).toList) := by
    rw [cut, hsearch]
    refine Prod.ext ?_ (congrArg some ?_)
    · change trim ((name ++ _).take name.length) = name
      rw [List.take_left]
      exact hname.trimmed
    · change trim ((name ++ _).drop (name.length + 2)) = _
      rw [List.drop_length_add_append]
      exact trim_toString n
  rw [meaning, hcut]
  simp only [if_neg hname.nonempty, Option.getD_some]

theorem expansion_number (hname : Named name) (n : ℤ) :
    expansion environment (reference name n) =
      ((environment name).filter fun text => text ≠ []).getD (toString n).toList := by
  have hbrace : '}' ∉ name ++ ':' :: '-' :: (toString n).toList := by
    have hdigits : '}' ∉ (toString n).toList := fun hmem =>
      (mem_toString hmem).elim (by decide) (by decide)
    simp only [List.mem_append, List.mem_cons, not_or]
    exact ⟨hname.brace, by decide, by decide, hdigits⟩
  have hclosing : closing (name ++ ':' :: '-' :: ((toString n).toList ++ ['}'])) =
      some (name ++ ':' :: '-' :: (toString n).toList, []) :=
    splitFirst_eq_some.mpr ⟨by simp, hbrace⟩
  rw [reference, expansion_reference hclosing, meaning_number hname, expansion, List.append_nil]

/-- A number that the file has with a variable. -/
theorem getInt_reference (hname : Named name) {lines : List Line} {key : String} {s : Setting}
    {n : ℤ} (hlast : lastSetting lines key.toList = some s) (hvalue : s.value.1 = reference name n)
    (hn : inInt n = true) (values : Values) (defaultValue : ℤ) :
    getInt (loadFromFile environment (some (render lines)) values).2 key defaultValue =
      configured environment name n defaultValue := by
  have hint : -2 ^ 31 ≤ n ∧ n < 2 ^ 31 := of_decide_eq_true hn
  rw [loadFromFile_render, getInt, configured]
  dsimp only
  rw [hlast, Option.map_some, hvalue, expansion_number hname]
  rcases environment name with _ | _ | ⟨c, cs⟩
  · exact congrArg (Option.getD · _) (PasswordHasher.stoi_toString hint.1 hint.2)
  · exact congrArg (Option.getD · _) (PasswordHasher.stoi_toString hint.1 hint.2)
  · rfl

end Numbers

end SimpleConfig

/-! ## The dungeon server -/

open SimpleConfig

def InMemoryDungeonConfigRepository.fromConfig (config : Values) : DungeonConfig where
  dungeonId := getInt config "demo.dungeon_id" 1001
  requiredLevel := getInt config "demo.dungeon_required_level" 1
  costStamina := getInt config "demo.dungeon_cost_stamina" 10
  maxStar := getInt config "demo.dungeon_max_star" 3
  normalGoldReward := getInt config "demo.dungeon_normal_gold_reward" 100
  firstClearDiamondReward := getInt config "demo.dungeon_first_clear_diamond_reward" 50

namespace DungeonNetworkServer

/-- The numbers that `Initialize` takes from its configuration. -/
def configure (config : Values) (env : Env) : Env :=
  { env with
    dungeonConfig := InMemoryDungeonConfigRepository.fromConfig config
    sessionTtl :=
      getInt config "ttl.session_seconds" (getInt config "session.ttl_seconds" 3600)
    snapshotTtl :=
      getInt config "ttl.player_snapshot_seconds" (getInt config "player.snapshot_ttl_seconds" 300)
    battleContextTtl :=
      getInt config "ttl.battle_context_seconds" (getInt config "battle.context_ttl_seconds" 3600)
    playerLockTtl := getInt config "ttl.player_lock_seconds" 10 }

/-- A number in a configuration file, with the variable that goes before it. -/
structure Number where
  key : String
  name : String
  value : ℤ

/-- The numbers in the configuration files of the repository, for any values. -/
def numbers (env : Env) : List Number :=
  [⟨"ttl.session_seconds", "SESSION_TTL_SECONDS", env.sessionTtl⟩,
    ⟨"ttl.player_snapshot_seconds", "PLAYER_SNAPSHOT_TTL_SECONDS", env.snapshotTtl⟩,
    ⟨"ttl.battle_context_seconds", "BATTLE_CONTEXT_TTL_SECONDS", env.battleContextTtl⟩,
    ⟨"ttl.player_lock_seconds", "PLAYER_LOCK_TTL_SECONDS", env.playerLockTtl⟩,
    ⟨"demo.dungeon_id", "DEMO_DUNGEON_ID", env.dungeonConfig.dungeonId⟩,
    ⟨"demo.dungeon_required_level", "DEMO_DUNGEON_REQUIRED_LEVEL",
      env.dungeonConfig.requiredLevel⟩,
    ⟨"demo.dungeon_cost_stamina", "DEMO_DUNGEON_COST_STAMINA", env.dungeonConfig.costStamina⟩,
    ⟨"demo.dungeon_max_star", "DEMO_DUNGEON_MAX_STAR", env.dungeonConfig.maxStar⟩,
    ⟨"demo.dungeon_normal_gold_reward", "DEMO_DUNGEON_GOLD_REWARD",
      env.dungeonConfig.normalGoldReward⟩,
    ⟨"demo.dungeon_first_clear_diamond_reward", "DEMO_DUNGEON_FIRST_CLEAR_DIAMOND_REWARD",
      env.dungeonConfig.firstClearDiamondReward⟩]

theorem named_numbers (env : Env) : ∀ number ∈ numbers env, Named number.name.toList := by
  have hnamed (name : String) (h : (name.toList ≠ [] ∧ trim name.toList = name.toList) ∧
      ':' ∉ name.toList ∧ '}' ∉ name.toList) : Named name.toList :=
    ⟨h.1.1, h.1.2, h.2.1, h.2.2⟩
  simp only [numbers, List.forall_mem_cons]
  refine ⟨?_, ?_, ?_, ?_, ?_, ?_, ?_, ?_, ?_, ?_, nofun⟩
  all_goals
    apply hnamed
    decide +kernel

/-- The file sets the numbers, each with its variable, last of all that set its key. -/
def Written (env : Env) (lines : List Line) : Prop :=
  ∀ number ∈ numbers env, ∃ s, lastSetting lines number.key.toList = some s ∧
    s.value.1 = reference number.name.toList number.value

/-- **A configured server.** When a file has all numbers of a dungeon server, in any order and
layout and among any other lines, every number is configured to be the variable or else what the
file has; and without the variables the server runs with exactly these numbers. -/
theorem configure_written {env : Env} {lines : List Line} (h : Written env lines)
    (hint : ∀ number ∈ numbers env, inInt number.value = true) (environment : Environment)
    (values : Values) :
    (∀ number ∈ numbers env, ∀ defaultValue,
      getInt (loadFromFile environment (some (render lines)) values).2 number.key defaultValue =
        configured environment number.name.toList number.value defaultValue) ∧
    ((∀ number ∈ numbers env, (environment number.name.toList).getD [] = []) →
      configure (loadFromFile environment (some (render lines)) values).2 env = env) := by
  have hget : ∀ number ∈ numbers env, ∀ defaultValue,
      getInt (loadFromFile environment (some (render lines)) values).2 number.key defaultValue =
        configured environment number.name.toList number.value defaultValue := by
    intro number hnumber defaultValue
    obtain ⟨s, hlast, hvalue⟩ := h number hnumber
    exact getInt_reference (named_numbers env number hnumber) hlast hvalue (hint number hnumber)
      values defaultValue
  refine ⟨hget, fun hunset => ?_⟩
  have hfile : ∀ number ∈ numbers env, ∀ defaultValue,
      getInt (loadFromFile environment (some (render lines)) values).2 number.key defaultValue =
        number.value := by
    intro number hnumber defaultValue
    have hempty := hunset number hnumber
    rw [hget number hnumber, configured]
    generalize environment number.name.toList = text at hempty
    rcases text with _ | _ | ⟨c, cs⟩
    · rfl
    · rfl
    · cases hempty
  simp only [numbers, List.forall_mem_cons] at hfile
  obtain ⟨hsession, hsnapshot, hcontext, hlock, hid, hlevel, hcost, hstar, hgold, hdiamond, -⟩ :=
    hfile
  simp only [configure, InMemoryDungeonConfigRepository.fromConfig, hsession, hsnapshot, hcontext,
    hlock, hid, hlevel, hcost, hstar, hgold, hdiamond]

/-- A file with the numbers of the demo, below an older one that counts no more. -/
def demoFile : List Line :=
  let set (key : String) (value : List Char) : Option Line := (Setting.of key.toList value).map
    fun s => .setting s (.of '\t' (by decide)) (.of ' ' (by decide)) (.of ' ' (by decide))
      (.of '\r' (by decide))
  .comment (.of ' ' (by decide)) ⟨" the dungeon of today=1002".toList, by decide +kernel⟩ ::
    (set "demo.dungeon_id" ['7']).toList ++
    (numbers demoEnv).filterMap fun number =>
      set number.key (reference number.name.toList number.value)

theorem configure_written_demo :
    Written demoEnv demoFile ∧
    (∀ values, configure (loadFromFile (fun _ => none) (some (render demoFile)) values).2 demoEnv =
      demoEnv) ∧
    ∀ values, getInt (loadFromFile (fun name =>
        if name = "DEMO_DUNGEON_ID".toList then some "2002".toList else none)
      (some (render demoFile)) values).2 "demo.dungeon_id" 1001 = 2002 := by
  have hwritten : ∀ number ∈ numbers demoEnv, (lastSetting demoFile number.key.toList).any
      (fun s => s.value.1 = reference number.name.toList number.value) = true := by
    decide +kernel
  have hfile : Written demoEnv demoFile := by
    intro number hnumber
    obtain ⟨s, hlast, hvalue⟩ := (Option.any_eq_true _ _).mp (hwritten number hnumber)
    exact ⟨s, hlast, of_decide_eq_true hvalue⟩
  have hint : ∀ number ∈ numbers demoEnv, inInt number.value = true := by decide +kernel
  refine ⟨hfile, fun values => ?_, fun values => ?_⟩
  · exact (configure_written hfile hint _ values).2 fun _ _ => rfl
  · have hid := (configure_written hfile hint (fun name =>
      if name = "DEMO_DUNGEON_ID".toList then some "2002".toList else none) values).1
      ⟨"demo.dungeon_id", "DEMO_DUNGEON_ID", 1001⟩ (by simp [numbers, demoEnv]) 1001
    refine hid.trans ?_
    decide +kernel

end DungeonNetworkServer

end GameBackend
