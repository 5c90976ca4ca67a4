/-
  Chip8.Text.Latin — lower case of character codes below 256.

  Typed characters select the same key in either case. The first 256 codes are Latin letters and
  signs; a capital stands 32 below its small letter. Codes beyond are terminal key codes and have
  no case.
-/

namespace Chip8.Text.Latin

/-- Is the code a capital letter of the Latin-1 range? The multiplication sign is not one. -/
def isCapital (code : Int) : Bool :=
  (0x41 ≤ code && code ≤ 0x5A) || (0xC0 ≤ code && code ≤ 0xDE && code != 0xD7)

def lower (code : Int) : Int := if isCapital code then code + 32 else code

/-- The small letter of a capital is not a capital. -/
theorem not_isCapital_add {code : Int} (h : isCapital code = true) : isCapital (code + 32) = false := by
  simp only [isCapital, Bool.or_eq_true, Bool.and_eq_true, decide_eq_true_eq, bne_iff_ne, ne_eq] at h
  simp only [isCapital, Bool.or_eq_false_iff, Bool.and_eq_false_iff, decide_eq_false_iff_not, bne_eq_false_iff_eq]
  omega

/-- Lower case is reached in one step. -/
theorem lower_lower (code : Int) : lower (lower code) = lower code := by
  by_cases h : isCapital code = true
  · simp [lower, h, not_isCapital_add h]
  · simp [lower, h]

end Chip8.Text.Latin
