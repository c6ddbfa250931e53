import Mathlib.Data.List.Basic

/-!
# Quoted literals

`escape` marks with a backslash every character that means something inside a quoted
literal, as `mysql_real_escape_string` does. `read` is the other side: how a server
reads a literal whose opening quote it has seen, up to the closing quote.

* `read_escape` — an escaped text is read as the text, whatever it is, and the reader
  goes on behind the quote that closes it.
-/

namespace SqlLiteral

/-- The quote around a literal. -/
def quote : Char := '\x27'

/-- What stands for a character of the text. -/
def escapeChar (c : Char) : List Char :=
  if c = '\x00' then ['\\', '0']
  else if c = '\n' then ['\\', 'n']
  else if c = '\r' then ['\\', 'r']
  else if c = '\x1a' then ['\\', 'Z']
  else if c = '\\' ∨ c = '\"' ∨ c = quote then ['\\', c]
  else [c]

/-- What stands for a text. -/
def escape (text : List Char) : List Char := text.flatMap escapeChar

/-- What a backslash and the character after it stand for. -/
def unescape (c : Char) : List Char :=
  if c = '0' then ['\x00']
  else if c = 'b' then ['\x08']
  else if c = 'n' then ['\n']
  else if c = 'r' then ['\r']
  else if c = 't' then ['\t']
  else if c = 'Z' then ['\x1a']
  else if c = '%' ∨ c = '_' then ['\\', c]
  else [c]

/-- Put characters in front of the text that is read next. -/
def prepend (front : List Char) : Option (List Char × List Char) → Option (List Char × List Char) :=
  Option.map fun p => (front ++ p.1, p.2)

/-- The text of a literal and what follows its closing quote, if there is one. Two quotes
stand for one. -/
def read : List Char → Option (List Char × List Char)
  | [] => none
  | c :: rest =>
    if c = '\\' then
      match rest with
      | [] => none
      | d :: rest => prepend (unescape d) (read rest)
    else if c = quote then
      match rest with
      | [] => some ([], [])
      | d :: rest => if d = quote then prepend [quote] (read rest) else some ([], d :: rest)
    else prepend [c] (read rest)

theorem escape_cons (c : Char) (text : List Char) :
    escape (c :: text) = escapeChar c ++ escape text := rfl

theorem read_backslash (c : Char) (rest : List Char) :
    read ('\\' :: c :: rest) = prepend (unescape c) (read rest) := by
  rw [read.eq_def]
  simp only [if_pos]

theorem read_plain {c : Char} (hbackslash : c ≠ '\\') (hquote : c ≠ quote) (rest : List Char) :
    read (c :: rest) = prepend [c] (read rest) := by
  rw [read.eq_def]
  simp only [if_neg hbackslash, if_neg hquote]

/-- A quote that none follows closes the literal. -/
theorem read_quote {rest : List Char} (hrest : rest.head? ≠ some quote) :
    read (quote :: rest) = some ([], rest) := by
  rw [read.eq_def]
  cases rest with
  | nil => rfl
  | cons d rest =>
    have hd : d ≠ quote := fun h => hrest (congrArg some h)
    simp only [if_neg (show quote ≠ '\\' by decide), if_pos, if_neg hd]

/-- An escaped character is read as the character. -/
theorem read_escapeChar (c : Char) (rest : List Char) :
    read (escapeChar c ++ rest) = prepend [c] (read rest) := by
  unfold escapeChar
  split_ifs with hnul hline hreturn hend hmarked
  · exact (read_backslash '0' rest).trans (by rw [hnul]; rfl)
  · exact (read_backslash 'n' rest).trans (by rw [hline]; rfl)
  · exact (read_backslash 'r' rest).trans (by rw [hreturn]; rfl)
  · exact (read_backslash 'Z' rest).trans (by rw [hend]; rfl)
  · -- the three characters that stand for themselves behind a backslash
    refine (read_backslash c rest).trans ?_
    rcases hmarked with rfl | rfl | rfl <;> rfl
  · obtain ⟨hbackslash, hrest⟩ := not_or.mp hmarked
    exact read_plain hbackslash (not_or.mp hrest).2 rest

/-- **What is escaped stays inside its literal**: between quotes an escaped text is read
as the text, and the rest of the statement is read as without it. -/
theorem read_escape (text : List Char) {rest : List Char} (hrest : rest.head? ≠ some quote) :
    read (escape text ++ quote :: rest) = some (text, rest) := by
  induction text with
  | nil => exact read_quote hrest
  | cons c text ih =>
    rw [escape_cons, List.append_assoc, read_escapeChar, ih]
    rfl

end SqlLiteral
