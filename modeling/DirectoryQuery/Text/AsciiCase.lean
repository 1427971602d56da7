/-!
# Names up to ASCII case

Attribute names are compared with the letters `A` to `Z` folded and all other characters as they
are.
-/

namespace DirectoryQuery.Text

/-- The name with its ASCII capitals in lower case. -/
def asciiFold (s : String) : List Char :=
  s.toList.map Char.toLower

/-- Whether two names differ at most in the case of ASCII letters. -/
def sameName (a b : String) : Bool :=
  asciiFold a == asciiFold b

theorem sameName_iff {a b : String} : sameName a b = true ↔ asciiFold a = asciiFold b := by
  simp [sameName]

@[simp] theorem sameName_refl (a : String) : sameName a a = true := by
  simp [sameName]

theorem sameName_comm (a b : String) : sameName a b = sameName b a := by
  rw [Bool.eq_iff_iff, sameName_iff, sameName_iff, eq_comm]

theorem sameName_trans {a b c : String} (h : sameName a b = true) (k : sameName b c = true) :
    sameName a c = true := by
  rw [sameName_iff] at *
  exact h.trans k

end DirectoryQuery.Text
