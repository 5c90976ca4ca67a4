/-
  Chip8.Text.Fields — the fields of a text between separators.

  A text always has one field more than it has separators, so the empty text is one empty field.
-/

namespace Chip8.Text

def fields (separator : Char) : List Char → List (List Char)
  | [] => [[]]
  | c :: rest =>
    if c = separator then [] :: fields separator rest
    else match fields separator rest with
      | [] => [[c]]
      | f :: more => (c :: f) :: more

theorem fields_ne_nil (separator : Char) (cs : List Char) : fields separator cs ≠ [] := by
  cases cs with
  | nil => simp [fields]
  | cons c rest =>
    simp only [fields]
    split
    · simp
    · split <;> simp

/-- Joining the fields with separators gives the text back. -/
theorem intercalate_fields (separator : Char) (cs : List Char) :
    List.intercalate [separator] (fields separator cs) = cs := by
  induction cs with
  | nil => rfl
  | cons c rest ih =>
    simp only [fields]
    split
    · subst_vars
      cases h : fields c rest with
      | nil => exact absurd h (fields_ne_nil c rest)
      | cons f more => rw [h] at ih; simpa [List.intercalate] using ih
    · cases h : fields separator rest with
      | nil => exact absurd h (fields_ne_nil separator rest)
      | cons f more =>
        rw [h] at ih
        cases more with
        | nil => simpa [List.intercalate] using ih
        | cons g more => simpa [List.intercalate] using ih

end Chip8.Text
