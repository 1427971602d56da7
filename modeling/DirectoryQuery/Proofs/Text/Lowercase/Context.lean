import DirectoryQuery.Proofs.Text.Lowercase
import DirectoryQuery.Text.Blank
import Mathlib.Data.List.Induction
import Mathlib.Data.List.Infix

/-!
# Lower case in its context

Lower-casing goes through a text with one bit of memory, whether a cased letter precedes, and looks
ahead at capital sigmas only.  A part of a text therefore has the lower case that it has on its own,
but for its capital sigmas, and these agree if each is final in the text exactly when it is final in
the part (`keepsSigmas_iff`).  That decides whether a text still begins, or ends, with a part of it
once both are lower-cased (`isPrefix_lowerChars_iff`, `isSuffix_lowerChars_iff`).

Some characters cut a text so that neither side sees the other: those that are neither letters with
case nor passed over (`IsBreak`).  Blanks are such, so trimming and lower-casing can change places
(`trimChars_lowerChars`).
-/

namespace DirectoryQuery.Text

variable {inWord : Bool} {before behind piece s t : List Char} {c : Char}

/-! ## Part by part -/

lemma startsCased_cons (c : Char) (s : List Char) :
    startsCased (c :: s) = if isCaseIgnorable c then startsCased s else isCased c := by
  rw [startsCased, List.dropWhile_cons]
  split_ifs
  · rfl
  · rfl

/-- Whether a cased letter precedes what stands behind a text. -/
def wordAfter (inWord : Bool) (s : List Char) : Bool :=
  s.foldl (fun inWord c => if isCaseIgnorable c then inWord else isCased c) inWord

/-- The lower case of a text that stands in front of another one. -/
def lowerBefore (behind : List Char) (inWord : Bool) : List Char → List Char
  | [] => []
  | c :: rest =>
    (if c = capitalSigma then [if inWord && !startsCased (rest ++ behind) then 'ς' else 'σ']
      else lowerChar c) ++ lowerBefore behind (wordAfter inWord [c]) rest

lemma wordAfter_append (inWord : Bool) (s t : List Char) :
    wordAfter inWord (s ++ t) = wordAfter (wordAfter inWord s) t :=
  List.foldl_append

lemma lowerFrom_append (inWord : Bool) (s t : List Char) :
    lowerFrom inWord (s ++ t) = lowerBefore t inWord s ++ lowerFrom (wordAfter inWord s) t := by
  induction s generalizing inWord with
  | nil => rfl
  | cons c s ih => rw [List.cons_append, lowerFrom, lowerBefore, ih, List.append_assoc]; rfl

lemma lowerBefore_nil (inWord : Bool) (s : List Char) :
    lowerBefore [] inWord s = lowerFrom inWord s := by
  rw [← List.append_nil s, lowerFrom_append]
  simp [lowerFrom]

/-- What precedes is the same read from either end. -/
lemma wordAfter_false (s : List Char) : wordAfter false s = startsCased s.reverse := by
  induction s using List.reverseRecOn with
  | nil => rfl
  | append_singleton s c ih =>
    rw [wordAfter_append, List.reverse_concat, startsCased_cons, ← ih]
    rfl

/-! ## Capital sigmas -/

/-- Whether a capital sigma between two texts is one at the end of a word. -/
def isFinalSigma (before behind : List Char) : Bool :=
  startsCased before.reverse && !startsCased behind

/-- Each capital sigma of a part is final in the text exactly when it is final in the part. -/
def KeepsSigmas (before piece behind : List Char) : Prop :=
  ∀ a b, piece = a ++ capitalSigma :: b →
    isFinalSigma (before ++ a) (b ++ behind) = isFinalSigma a b

lemma forall_cons_eq_append {p : List Char → List Char → Prop} {d : Char} :
    (∀ a b, c :: s = a ++ d :: b → p a b) ↔
      (c = d → p [] s) ∧ ∀ a b, s = a ++ d :: b → p (c :: a) b := by
  constructor
  · intro h
    exact ⟨fun hc => h [] s (by rw [hc]; rfl), fun a b hs => h (c :: a) b (by rw [hs]; rfl)⟩
  · rintro ⟨hnil, hcons⟩ a b hs
    cases a with
    | nil =>
      obtain ⟨hc, rfl⟩ := List.cons.inj hs
      exact hnil hc
    | cons a as =>
      obtain ⟨rfl, rfl⟩ := List.cons.inj hs
      exact hcons as b rfl

/-- In two places, a text has the same lower case if its capital sigmas have. -/
lemma lowerBefore_eq_iff {inWord' : Bool} {behind' : List Char} :
    lowerBefore behind inWord s = lowerBefore behind' inWord' s ↔
      ∀ a b, s = a ++ capitalSigma :: b →
        (wordAfter inWord a && !startsCased (b ++ behind)) =
          (wordAfter inWord' a && !startsCased (b ++ behind')) := by
  induction s generalizing inWord inWord' with
  | nil => exact iff_of_true rfl fun a b h => absurd h.symm (by simp)
  | cons c s ih =>
    have hrest : lowerBefore behind (wordAfter inWord [c]) s =
        lowerBefore behind' (wordAfter inWord' [c]) s ↔ _ := ih
    rw [forall_cons_eq_append, lowerBefore, lowerBefore]
    by_cases hsigma : c = capitalSigma
    · have hform (f g : Bool) : ((if f then 'ς' else 'σ') = if g then 'ς' else 'σ') ↔ f = g := by
        revert f g
        decide
      rw [if_pos hsigma, if_pos hsigma, List.singleton_append, List.singleton_append,
        List.cons.injEq, hrest, hform]
      exact and_congr_left fun _ => ⟨fun h _ => h, fun h => h hsigma⟩
    · rw [if_neg hsigma, if_neg hsigma, List.append_cancel_left_eq, hrest]
      exact ⟨fun h => ⟨fun hc => absurd hc hsigma, h⟩, fun h => h.2⟩

lemma length_lowerBefore (behind : List Char) (inWord : Bool) (s : List Char) :
    (lowerBefore behind inWord s).length = (lowerChars s).length := by
  have hlength : ∀ inWord',
      (lowerBefore behind inWord s).length = (lowerFrom inWord' s).length := by
    induction s generalizing inWord with
    | nil => exact fun _ => rfl
    | cons c s ih =>
      intro inWord'
      rw [lowerBefore, lowerFrom, List.length_append, List.length_append, ih]
      split <;> rfl
  exact hlength false

/-- A part keeps its lower case where it keeps its capital sigmas. -/
lemma keepsSigmas_iff : KeepsSigmas before piece behind ↔
    lowerBefore behind (wordAfter false before) piece = lowerChars piece := by
  rw [lowerChars, ← lowerBefore_nil, lowerBefore_eq_iff]
  simp only [KeepsSigmas, isFinalSigma, ← wordAfter_false, wordAfter_append, List.append_nil]

instance : Decidable (KeepsSigmas before piece behind) :=
  decidable_of_iff _ keepsSigmas_iff.symm

lemma keepsSigmas_of_not_mem (h : capitalSigma ∉ piece) : KeepsSigmas before piece behind := by
  rintro a b rfl
  exact absurd (List.mem_append_right a List.mem_cons_self) h

/-- The lower case of a text around a part. -/
lemma lowerChars_around (before piece behind : List Char) : ∃ front back,
    lowerChars (before ++ (piece ++ behind)) =
      front ++ (lowerBefore behind (wordAfter false before) piece ++ back) := by
  rw [lowerChars, lowerFrom_append, lowerFrom_append]
  exact ⟨_, _, rfl⟩

/-- A part that keeps its capital sigmas is found in the text once both are lower-cased. -/
lemma isInfix_lowerChars (h : KeepsSigmas before piece behind) :
    lowerChars piece <:+: lowerChars (before ++ (piece ++ behind)) := by
  obtain ⟨front, back, htext⟩ := lowerChars_around before piece behind
  rw [htext, keepsSigmas_iff.1 h, ← List.append_assoc]
  exact List.infix_append front (lowerChars piece) back

/-- A text begins with a part of it, once both are lower-cased, just if that keeps its sigmas. -/
lemma isPrefix_lowerChars_iff :
    lowerChars piece <+: lowerChars (piece ++ behind) ↔ KeepsSigmas [] piece behind := by
  have htext : lowerChars (piece ++ behind) = lowerBefore behind false piece ++ _ :=
    lowerFrom_append false piece behind
  have hlength := length_lowerBefore behind false piece
  rw [keepsSigmas_iff, htext]
  constructor
  · intro h
    have hbegins := List.prefix_of_prefix_length_le h (List.prefix_append _ _) hlength.ge
    exact (hbegins.eq_of_length hlength.symm).symm
  · intro h
    exact ⟨_, congrArg (· ++ _) h.symm⟩

/-- A text ends with a part of it, once both are lower-cased, just if that keeps its sigmas. -/
lemma isSuffix_lowerChars_iff :
    lowerChars piece <:+ lowerChars (before ++ piece) ↔ KeepsSigmas before piece [] := by
  have htext : lowerChars (before ++ piece) = _ ++ lowerFrom (wordAfter false before) piece :=
    lowerFrom_append false before piece
  have hlength := length_lowerBefore [] (wordAfter false before) piece
  rw [keepsSigmas_iff, htext, ← lowerBefore_nil]
  constructor
  · intro h
    have hends := List.suffix_of_suffix_length_le h (List.suffix_append _ _) hlength.ge
    exact (hends.eq_of_length hlength.symm).symm
  · intro h
    exact ⟨_, congrArg (_ ++ ·) h.symm⟩

/-! ## Breaks -/

/-- A character that is no letter with case and is not passed over in looking for one. -/
def IsBreak (c : Char) : Prop :=
  isCaseIgnorable c = false ∧ isCased c = false

lemma IsBreak.startsCased_append (hc : IsBreak c) (s t : List Char) :
    startsCased (s ++ c :: t) = startsCased s := by
  induction s with
  | nil =>
    rw [List.nil_append, startsCased_cons, if_neg (ne_true_of_eq_false hc.1)]
    exact hc.2
  | cons d s ih => rw [List.cons_append, startsCased_cons, startsCased_cons, ih]

lemma IsBreak.lowerBefore (hc : IsBreak c) (t : List Char) (inWord : Bool) (s : List Char) :
    lowerBefore (c :: t) inWord s = lowerFrom inWord s := by
  rw [← lowerBefore_nil, lowerBefore_eq_iff]
  intro a b _
  rw [hc.startsCased_append, List.append_nil]

/-- Neither side of a break sees the other. -/
lemma IsBreak.lowerChars_append (hc : IsBreak c) (s t : List Char) :
    lowerChars (s ++ c :: t) = lowerChars s ++ (lowerChar c ++ lowerChars t) := by
  have hsigma : c ≠ capitalSigma := by
    rintro rfl
    exact absurd hc.2 (by decide +kernel)
  rw [lowerChars, lowerFrom_append, hc.lowerBefore, lowerFrom, if_neg hsigma, hc.1, hc.2]
  rfl

/-! ## Blanks -/

lemma mem_range_of_isBlank (h : isBlank c = true) :
    ∃ r ∈ blanks, c.toNat ∈ List.range' r.1 (r.2 + 1 - r.1) := by
  obtain ⟨r, hr, hle⟩ := CodePoints.contains_iff.1 h
  exact ⟨r, hr, List.mem_range'_1.2 (by omega)⟩

/-- Blanks are breaks, and they have no case. -/
lemma isBreak_of_isBlank (h : isBlank c = true) : IsBreak c ∧ lowerChar c = [c] := by
  have hblanks : ∀ r ∈ blanks, ∀ n ∈ List.range' r.1 (r.2 + 1 - r.1),
      (isCaseIgnorable (Char.ofNat n) = false ∧ isCased (Char.ofNat n) = false) ∧
        lowerChar (Char.ofNat n) = [Char.ofNat n] := by
    decide +kernel
  obtain ⟨r, hr, hn⟩ := mem_range_of_isBlank h
  have hc := hblanks r hr c.toNat hn
  rwa [Char.ofNat_toNat] at hc

/-- Nothing but a blank has a blank in its lower case. -/
lemma isBlank_of_mem_lowerChar {d : Char} (hd : d ∈ lowerChar c) (h : isBlank d = true) :
    isBlank c = true := by
  obtain ⟨hascii, rfl⟩ | (rfl | rfl) | ⟨run, hrun, hfirst, hlast, hshift⟩ | rfl :=
    mem_lowerChar_cases hd
  · have hlower : ∀ n < 0x80, isBlank (Char.ofNat n).toLower = true →
        isBlank (Char.ofNat n) = true := by decide +kernel
    have hsame := hlower c.toNat hascii
    rw [Char.ofNat_toNat] at hsame
    exact hsame h
  · exact absurd h (by decide)
  · exact absurd h (by decide)
  · -- no run of the table reaches a range of blanks
    have hruns : ∀ run ∈ lowerRuns, ∀ r ∈ blanks, 0 < r.1 ∧
        ((run.last : Int) + run.shift < r.1 ∨ (r.2 : Int) < run.first + run.shift) := by
      decide +kernel
    obtain ⟨r, hr, hle⟩ := CodePoints.contains_iff.1 h
    have happart := hruns run hrun r hr
    omega
  · exact h

lemma trimLeft_append (hne : s ≠ []) (h : ∀ d ∈ s, isBlank d = false) (t : List Char) :
    trimLeft (s ++ t) = s ++ t := by
  obtain ⟨d, ds, rfl⟩ := List.exists_cons_of_ne_nil hne
  exact List.dropWhile_cons_of_neg (ne_true_of_eq_false (h d List.mem_cons_self))

lemma trimRight_append (hne : s ≠ []) (h : ∀ d ∈ s, isBlank d = false) (t : List Char) :
    trimRight (t ++ s) = t ++ s := by
  have hreverse : ∀ d ∈ s.reverse, isBlank d = false := fun d hd => h d (List.mem_reverse.1 hd)
  have htrim := trimLeft_append (mt List.reverse_eq_nil_iff.1 hne) hreverse t.reverse
  rw [trimLeft, ← List.reverse_append] at htrim
  rw [trimRight, htrim, List.reverse_reverse]

/-- What is not blank is not lower-cased to blanks, or to nothing. -/
lemma lowerBefore_singleton (hc : isBlank c = false) (behind : List Char) (inWord : Bool) :
    lowerBefore behind inWord [c] ≠ [] ∧
      ∀ d ∈ lowerBefore behind inWord [c], isBlank d = false := by
  rw [lowerBefore, lowerBefore, List.append_nil]
  split
  · have hsigmas : ∀ final : Bool, isBlank (if final then 'ς' else 'σ') = false := by decide
    exact ⟨List.cons_ne_nil _ _, List.forall_mem_singleton.2 (hsigmas _)⟩
  · refine ⟨lowerChar_ne_nil c, fun d hd => ?_⟩
    by_contra hblank
    rw [isBlank_of_mem_lowerChar hd (eq_true_of_ne_false hblank)] at hc
    cases hc

lemma trimLeft_lowerChars (s : List Char) :
    trimLeft (lowerChars s) = lowerChars (trimLeft s) := by
  induction s with
  | nil => rfl
  | cons c s ih =>
    by_cases hc : isBlank c = true
    · obtain ⟨hbreak, hlower⟩ := isBreak_of_isBlank hc
      have hsplit := hbreak.lowerChars_append [] s
      rw [List.nil_append, hlower] at hsplit
      rw [hsplit, trimLeft, trimLeft, List.dropWhile_cons_of_pos hc]
      exact (List.dropWhile_cons_of_pos hc).trans ih
    · obtain ⟨hne, hblank⟩ := lowerBefore_singleton (eq_false_of_ne_true hc) s false
      have hsplit : lowerChars (c :: s) = _ := lowerFrom_append false [c] s
      have htrim : trimLeft (c :: s) = c :: s := List.dropWhile_cons_of_neg hc
      rw [htrim, hsplit, trimLeft_append hne hblank]

lemma trimRight_lowerChars (s : List Char) :
    trimRight (lowerChars s) = lowerChars (trimRight s) := by
  induction s using List.reverseRecOn with
  | nil => rfl
  | append_singleton s c ih =>
    by_cases hc : isBlank c = true
    · obtain ⟨hbreak, hlower⟩ := isBreak_of_isBlank hc
      have hdrop (t : List Char) : trimRight (t ++ [c]) = trimRight t := by
        rw [trimRight, List.reverse_concat, List.dropWhile_cons_of_pos hc, trimRight]
      rw [hbreak.lowerChars_append, hlower, lowerChars_nil, List.append_nil, hdrop, hdrop, ih]
    · have hblank := eq_false_of_ne_true hc
      obtain ⟨hne, hlower⟩ := lowerBefore_singleton hblank [] (wordAfter false s)
      have hsplit : lowerChars (s ++ [c]) = _ := lowerFrom_append false s [c]
      rw [trimRight_append (List.cons_ne_nil c []) (List.forall_mem_singleton.2 hblank), hsplit,
        ← lowerBefore_nil, trimRight_append hne hlower]

/-- Trimming and lower-casing can change places. -/
lemma trimChars_lowerChars (s : List Char) :
    trimChars (lowerChars s) = lowerChars (trimChars s) := by
  rw [trimChars, trimLeft_lowerChars, trimRight_lowerChars, trimChars]

end DirectoryQuery.Text
