import Directory.Text.Basic

namespace Directory.Text

/-! # Cutting at separators

Names use the escaped forms, in which a backslash takes the meaning from the character
after it. -/

/-- What stands before and after the first `separator`. -/
def cut? (separator : Char) : Text → Option (Text × Text)
  | [] => none
  | c :: rest =>
    if c = separator then some ([], rest)
    else (cut? separator rest).map fun (before, after) => (c :: before, after)

/-- What stands before and after the first occurrence of a text that is not empty. -/
def cutAt? (separator : Text) : Text → Option (Text × Text)
  | [] => none
  | c :: rest =>
    if separator.isPrefixOf (c :: rest) then some ([], (c :: rest).drop separator.length)
    else (cutAt? separator rest).map fun (before, after) => (c :: before, after)

/-- Puts characters in front of the first of several pieces. -/
def putFirst (front : Text) : List Text → List Text
  | [] => [front]
  | first :: others => (front ++ first) :: others

/-- Every stretch between two separators that no backslash escapes; the backslashes
stay. -/
def splitUnescaped (separator : Char) : Text → List Text
  | [] => [[]]
  | ['\\'] => [['\\']]
  | '\\' :: c :: rest => putFirst ['\\', c] (splitUnescaped separator rest)
  | c :: rest =>
    if c = separator then [] :: splitUnescaped separator rest
    else putFirst [c] (splitUnescaped separator rest)

/-- What stands before and after the first separator that no backslash escapes. -/
def cutUnescaped? (separator : Char) : Text → Option (Text × Text)
  | [] => none
  | ['\\'] => none
  | '\\' :: c :: rest =>
    (cutUnescaped? separator rest).map fun (before, after) => ('\\' :: c :: before, after)
  | c :: rest =>
    if c = separator then some ([], rest)
    else (cutUnescaped? separator rest).map fun (before, after) => (c :: before, after)

theorem eq_append_of_cut? {separator : Char} {text before after : Text}
    (found : cut? separator text = some (before, after)) :
    text = before ++ separator :: after ∧ separator ∉ before := by
  induction text generalizing before with
  | nil => simp [cut?] at found
  | cons c rest ih =>
    unfold cut? at found
    split at found
    · simp only [Option.some.injEq, Prod.mk.injEq] at found
      obtain ⟨rfl, rfl⟩ := found
      simp_all
    · next other =>
      simp only [Option.map_eq_some_iff, Prod.mk.injEq] at found
      obtain ⟨⟨first, last⟩, inner, rfl, rfl⟩ := found
      obtain ⟨rfl, absent⟩ := ih inner
      refine ⟨rfl, ?_⟩
      intro member
      rcases List.mem_cons.mp member with same | member
      · exact other same.symm
      · exact absent member

end Directory.Text
