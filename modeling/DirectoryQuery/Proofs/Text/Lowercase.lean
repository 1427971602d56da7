import DirectoryQuery.Text.Lowercase
import Mathlib.Tactic.Lemma

/-!
# What lower-casing leaves alone

No character up to the backslash is the lower case of another one (`eq_of_mem_lowerChar`).  Digits,
signs and most marks are therefore the lower case of themselves and of nothing else, and so is a
text of them (`lowerChars_eq_iff`).
-/

namespace DirectoryQuery.Text

lemma toNat_ofNat (n : Nat) : (Char.ofNat n).toNat = n ∨ (Char.ofNat n).toNat = 0 := by
  unfold Char.ofNat
  by_cases h : n.isValidChar
  · rw [dif_pos h]
    exact .inl rfl
  · rw [dif_neg h]
    exact .inr rfl

/-- What stands in a lower-case form: an ASCII letter, a part of the one form of two characters, the
character that a run of the table shifts to (or zero, where there is none), or what stood before. -/
lemma mem_lowerChar_cases {c d : Char} (h : d ∈ lowerChar c) :
    (c.toNat < 0x80 ∧ d = c.toLower) ∨ (d = 'i' ∨ d = '\u0307') ∨
      (∃ run ∈ lowerRuns, run.first ≤ c.toNat ∧ c.toNat ≤ run.last ∧
        ((d.toNat : Int) = c.toNat + run.shift ∨ d.toNat = 0)) ∨ d = c := by
  unfold lowerChar at h
  split at h
  · rename_i hascii
    exact .inl ⟨hascii, List.mem_singleton.1 h⟩
  split at h
  · exact .inr (.inl (by simpa using h))
  split at h
  · rename_i run hrun
    have hcovers := List.find?_some hrun
    simp only [CaseRun.covers, Bool.and_eq_true, decide_eq_true_eq] at hcovers
    refine .inr (.inr (.inl ⟨run, List.mem_of_find?_eq_some hrun, by omega, by omega, ?_⟩))
    rw [List.mem_singleton.1 h]
    obtain hnat | hnat := toNat_ofNat ((c.toNat : Int) + run.shift).toNat
    · omega
    · exact .inr hnat
  · exact .inr (.inr (.inr (List.mem_singleton.1 h)))

/-- A lower-case form holds a character up to the backslash only where it stood before. -/
lemma eq_of_mem_lowerChar {c d : Char} (hpos : 0 < d.toNat) (hle : d.toNat ≤ 0x5C)
    (h : d ∈ lowerChar c) : c = d := by
  obtain ⟨hascii, rfl⟩ | (rfl | rfl) | ⟨run, hrun, hfirst, -, hshift⟩ | rfl :=
    mem_lowerChar_cases h
  · have hlower : ∀ n < 0x80, (Char.ofNat n).toLower.toNat ≤ 0x5C →
        (Char.ofNat n).toLower = Char.ofNat n := by decide
    have hsame := hlower c.toNat hascii
    rw [Char.ofNat_toNat] at hsame
    exact (hsame hle).symm
  · exact absurd hle (by decide)
  · exact absurd hle (by decide)
  · have hruns : ∀ run ∈ lowerRuns, 0x5C < (run.first : Int) + run.shift := by decide +kernel
    have hbeyond := hruns run hrun
    omega
  · rfl

lemma lowerChar_ne_nil (c : Char) : lowerChar c ≠ [] := by
  unfold lowerChar
  split
  · exact List.cons_ne_nil _ _
  split
  · exact List.cons_ne_nil _ _
  split <;> exact List.cons_ne_nil _ _

/-- A text of characters below the letters is the lower case of itself and of nothing else. -/
lemma lowerChars_eq_iff {s t : List Char} (ht : ∀ d ∈ t, 0 < d.toNat ∧ d.toNat ≤ 0x40) :
    lowerChars s = t ↔ s = t := by
  constructor
  · rw [lowerChars]
    generalize false = inWord
    intro h
    induction s generalizing inWord t with
    | nil => exact h
    | cons c s ih =>
      -- the first characters of `t` come from `c`, and they can come from themselves only
      rw [lowerFrom] at h
      split at h
      · split at h
        · exact absurd (ht 'ς' (h ▸ List.mem_cons_self)).2 (by decide)
        · exact absurd (ht 'σ' (h ▸ List.mem_cons_self)).2 (by decide)
      · have hmem : ∀ d ∈ lowerChar c, c = d ∧ d ∈ t := fun d hd =>
          have hd' : d ∈ t := h ▸ List.mem_append_left _ hd
          ⟨eq_of_mem_lowerChar (ht d hd').1 (by have := ht d hd'; omega) hd, hd'⟩
        obtain ⟨d, ds, hd⟩ := List.exists_cons_of_ne_nil (lowerChar_ne_nil c)
        obtain ⟨rfl, hc⟩ := hmem d (hd ▸ List.mem_cons_self)
        have hascii : c.toNat < 0x80 := by have := ht c hc; omega
        have hlower := lowerChar_of_ascii hascii
        have hsame := (hmem c.toLower (hlower ▸ List.mem_singleton_self _)).1
        rw [hlower, ← hsame] at h
        subst h
        exact congrArg (c :: ·) (ih (fun d hd => ht d (List.mem_cons_of_mem c hd)) _ rfl)
  · rintro rfl
    have hlower : ∀ n < 0x41, (Char.ofNat n).toLower = Char.ofNat n := by decide
    have hsame : ∀ d ∈ s, d.toLower = d := fun d hd => by
      have h := hlower d.toNat (by have := ht d hd; omega)
      rwa [Char.ofNat_toNat] at h
    have hascii : ∀ d ∈ s, d.toNat < 0x80 := fun d hd => by have := ht d hd; omega
    rw [lowerChars, lowerFrom_of_ascii false hascii]
    exact (List.map_congr_left hsame).trans (List.map_id s)

end DirectoryQuery.Text
