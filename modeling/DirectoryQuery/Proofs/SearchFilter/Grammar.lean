import DirectoryQuery.Directory.Basic
import DirectoryQuery.Proofs.Filter.Induction
import DirectoryQuery.Proofs.SearchFilter.Reading
import Mathlib.Data.List.TakeWhile

/-!
# The grammar of search filters

The language of search filters as derivations: `Derives rule raw f` says that the bytes `raw` are a
filter, and `f` is what they mean.  Nothing in the derivations follows the reader; they speak of
concatenations only.  The rule says which two bytes behind a backslash stand for which byte.

The reader takes exactly what is derived when a rule lets a plus sign stand in place of a leading
zero (`IsEscape`), and it then returns what was derived (`parse_eq_ok_iff`): soundness is an
induction on the steps of the reader (`exists_derivation`), completeness one on the derivation
(`Derives.readsAs`).  Two hexadecimal digits alone (`IsHexPair`) are the rule of the language.  The
two rules differ only where a plus sign follows a backslash (`Derives.strict`), which is what a
directory makes of a text that comes to it (`readFilter_exact`).
-/

namespace DirectoryQuery.SearchFilter

/-! ## Escapes -/

/-- Two hexadecimal digits stand for a byte. -/
def IsHexPair (a b byte : UInt8) : Prop :=
  ∃ high low, Text.hexValue? a.toNat = some high ∧ Text.hexValue? b.toNat = some low ∧
    byte = UInt8.ofNat (16 * high + low)

/-- Two bytes stand for a byte: two hexadecimal digits, or a plus sign and one. -/
def IsEscape (a b byte : UInt8) : Prop :=
  IsHexPair a b byte ∨ a = code '+' ∧ IsHexPair (code '0') b byte

/-- Bytes are spelled by themselves, and by a backslash with two bytes behind it.  A backslash
spells nothing by itself. -/
inductive Spells (rule : UInt8 → UInt8 → UInt8 → Prop) : List UInt8 → List UInt8 → Prop where
  | nil : Spells rule [] []
  | plain {b : UInt8} {raw bytes : List UInt8} (hb : b ≠ code '\\') (h : Spells rule raw bytes) :
    Spells rule (b :: raw) (b :: bytes)
  | escape {a b byte : UInt8} {raw bytes : List UInt8} (hab : rule a b byte)
    (h : Spells rule raw bytes) : Spells rule (code '\\' :: a :: b :: raw) (byte :: bytes)

/-! ## Derivations -/

section Derivation

variable (rule : UInt8 → UInt8 → UInt8 → Prop)

/-- What a value asks of an attribute: presence for a single star, equality without a star, and
otherwise the pieces between the stars, of which the empty ones are dropped. -/
inductive DerivesValue (name : String) : List UInt8 → SearchFilter → Prop where
  | present : DerivesValue name [code '*'] (.present name)
  | equal {raw bytes : List UInt8} (hstar : code '*' ∉ raw) (h : Spells rule raw bytes) :
    DerivesValue name raw (.equal name bytes)
  | pattern {first last initial final : List UInt8} {others middle : List (List UInt8)}
    (hstar : ∀ piece ∈ first :: (others ++ [last]), code '*' ∉ piece)
    (hne : [code '*'].intercalate (first :: (others ++ [last])) ≠ [code '*'])
    (hfirst : Spells rule first initial) (hothers : List.Forall₂ (Spells rule) others middle)
    (hlast : Spells rule last final) :
    DerivesValue name ([code '*'].intercalate (first :: (others ++ [last])))
      (.pattern name
        ⟨if initial = [] then none else some initial, middle.filter (· ≠ []),
          if final = [] then none else some final⟩)

mutual

/-- The bytes are a filter of this meaning. -/
inductive Derives : List UInt8 → SearchFilter → Prop where
  | all {raw : List UInt8} {fs : List SearchFilter} (h : DerivesEach raw fs) :
    Derives (enclosed (code '&' :: raw)) (.all fs)
  | any {raw : List UInt8} {fs : List SearchFilter} (h : DerivesEach raw fs) :
    Derives (enclosed (code '|' :: raw)) (.any fs)
  | not {raw : List UInt8} {f : SearchFilter} (h : Derives raw f) :
    Derives (enclosed (code '!' :: raw)) (.not f)
  | item {attr value : List UInt8} {f : SearchFilter} (hattr : IsAttribute attr)
    (hvalue : ∀ b ∈ value, isValueByte b = true)
    (h : DerivesValue rule (attributeName attr) value f) :
    Derives (enclosed (attr ++ code '=' :: value)) f

/-- The bytes are filters of these meanings, one behind the other. -/
inductive DerivesEach : List UInt8 → List SearchFilter → Prop where
  | nil : DerivesEach [] []
  | cons {raw more : List UInt8} {f : SearchFilter} {fs : List SearchFilter} (h : Derives raw f)
    (hs : DerivesEach more fs) : DerivesEach (raw ++ more) (f :: fs)

end

end Derivation

/-! ## Escapes are read by the rule -/

lemma byteOfDigits?_eq_some_iff {a b byte : UInt8} :
    Text.byteOfDigits? a.toNat b.toNat = some byte ↔ IsHexPair a b byte := by
  constructor
  · intro h
    obtain ⟨high, hhigh, hrest⟩ := Option.bind_eq_some_iff.1 h
    obtain ⟨low, hlow, rfl⟩ := Option.map_eq_some_iff.1 hrest
    exact ⟨high, low, hhigh, hlow, rfl⟩
  · rintro ⟨high, low, hhigh, hlow, rfl⟩
    rw [Text.byteOfDigits?, hhigh, hlow]
    rfl

lemma not_isHexPair_plus (b byte : UInt8) : ¬ IsHexPair (code '+') b byte := by
  rintro ⟨high, low, hhigh, -⟩
  have hnone : Text.hexValue? (code '+').toNat = none := by decide
  rw [hnone] at hhigh
  cases hhigh

lemma escapedByte?_eq_some_iff {a b byte : UInt8} :
    escapedByte? a b = some byte ↔ IsEscape a b byte := by
  rw [escapedByte?, IsEscape]
  split
  · rename_i ha
    subst ha
    rw [show '0'.toNat = (code '0').toNat from rfl, byteOfDigits?_eq_some_iff]
    simp [not_isHexPair_plus]
  · rename_i ha
    rw [byteOfDigits?_eq_some_iff]
    simp [ha]

/-- The reader undoes escapes by the rule. -/
lemma unescape?_eq_some_iff {raw bytes : List UInt8} :
    unescape? raw = some bytes ↔ Spells IsEscape raw bytes := by
  constructor
  · intro h
    fun_induction unescape? raw generalizing bytes with
    | case1 =>
      cases h
      exact .nil
    | case2 a b rest ih =>
      obtain ⟨byte, hbyte, hmore⟩ := Option.bind_eq_some_iff.1 h
      obtain ⟨more, hrest, rfl⟩ := Option.map_eq_some_iff.1 hmore
      exact .escape (escapedByte?_eq_some_iff.1 hbyte) (ih hrest)
    | case3 => cases h
    | case4 b rest hb ih =>
      obtain ⟨bytes', hbytes, rfl⟩ := Option.map_eq_some_iff.1 h
      exact .plain hb (ih hbytes)
  · intro h
    induction h with
    | nil => rfl
    | plain hb _ ih => rw [unescape?_cons hb, ih]; rfl
    | escape hab _ ih => rw [unescape?_escape (escapedByte?_eq_some_iff.2 hab), ih]; rfl

/-! ## Values -/

section Pieces

variable {α : Type} [BEq α]

lemma splitAtEach_eq_splitOn (separator : α) (s : List α) :
    Text.splitAtEach separator s = s.splitOn separator := by
  induction s with
  | nil => rfl
  | cons c s ih =>
    rw [Text.splitAtEach, ih, List.splitOn_cons_eq_if_modifyHead]
    cases hs : s.splitOn separator with
    | nil => simp at hs
    | cons part parts => rfl

lemma not_mem_of_mem_splitAtEach [LawfulBEq α] {separator : α} {s part : List α}
    (h : part ∈ Text.splitAtEach separator s) : separator ∉ part := by
  induction s generalizing part with
  | nil =>
    rw [List.mem_singleton.1 h]
    exact List.not_mem_nil
  | cons c s ih =>
    cases hs : Text.splitAtEach separator s with
    | nil => exact absurd hs (Text.splitAtEach_ne_nil separator s)
    | cons first others =>
      simp only [Text.splitAtEach, hs] at h
      rw [hs] at ih
      split at h
      · rcases List.mem_cons.1 h with rfl | h
        · exact List.not_mem_nil
        · exact ih h
      · rename_i hc
        rcases List.mem_cons.1 h with rfl | h
        · intro hmem
          rcases List.mem_cons.1 hmem with heq | hmem
          · exact hc (beq_iff_eq.2 heq.symm)
          · exact ih List.mem_cons_self hmem
        · exact ih (List.mem_cons_of_mem first h)

end Pieces

lemma mapM_pieces_eq_some_iff {first last : List UInt8} {others decoded : List (List UInt8)} :
    (first :: (others ++ [last])).mapM unescape? = some decoded ↔
      ∃ initial middle final, unescape? first = some initial ∧ others.mapM unescape? = some middle ∧
        unescape? last = some final ∧ decoded = initial :: (middle ++ [final]) := by
  rw [List.mapM_cons, List.mapM_append, List.mapM_cons, List.mapM_nil]
  simp only [Option.bind_eq_bind, Option.bind_eq_some_iff, Option.pure_def, Option.some.injEq]
  constructor
  · rintro ⟨initial, hinitial, tail, ⟨middle, hmiddle, _, ⟨final, hfinal, _, rfl, rfl⟩, rfl⟩, rfl⟩
    exact ⟨initial, middle, final, hinitial, hmiddle, hfinal, rfl⟩
  · rintro ⟨initial, middle, final, hinitial, hmiddle, hfinal, rfl⟩
    exact ⟨initial, hinitial, _, ⟨middle, hmiddle, _, ⟨final, hfinal, _, rfl, rfl⟩, rfl⟩, rfl⟩

lemma nonEmpty?_eq (piece : List UInt8) :
    nonEmpty? piece = if piece = [] then none else some piece := by
  cases piece <;> rfl

lemma ofPieces_concat (name : String) (initial final : List UInt8) (middle : List (List UInt8)) :
    ofPieces name (initial :: (middle ++ [final])) =
      .pattern name
        ⟨if initial = [] then none else some initial, middle.filter (· ≠ []),
          if final = [] then none else some final⟩ := by
  have hmiddle : middle.filterMap nonEmpty? = middle.filter (· ≠ []) := by
    rw [← List.filterMap_eq_filter]
    exact congrArg (List.filterMap · middle) (funext fun piece => by cases piece <;> rfl)
  rw [ofPieces.eq_3 _ _ _ (by simp), List.dropLast_concat, List.getLastD_concat, nonEmpty?_eq,
    nonEmpty?_eq, hmiddle]

/-- A value without a star spells bytes. -/
lemma DerivesValue.exists_spells {rule : UInt8 → UInt8 → UInt8 → Prop} {name : String}
    {raw : List UInt8} {f : SearchFilter} (h : DerivesValue rule name raw f)
    (hstar : code '*' ∉ raw) : ∃ bytes, Spells rule raw bytes := by
  cases h with
  | present => exact absurd (List.mem_singleton_self _) hstar
  | equal _ hspells => exact ⟨_, hspells⟩
  | @pattern first last _ _ others =>
    obtain ⟨second, more, hmore⟩ := List.exists_cons_of_ne_nil (l := others ++ [last]) (by simp)
    rw [hmore] at hstar
    exact absurd (by simp [List.intercalate]) hstar

/-- The reader makes of a value what is derived for it. -/
lemma ofValue?_eq_some_iff {name : String} {raw : List UInt8} {f : SearchFilter} :
    ofValue? name raw = some f ↔ DerivesValue IsEscape name raw f := by
  constructor
  · intro h
    rw [ofValue?] at h
    split at h
    · rename_i hstar
      cases h
      rw [hstar]
      exact .present
    · rename_i hstar
      obtain ⟨decoded, hdecoded, rfl⟩ := Option.map_eq_some_iff.1 h
      have hfree : ∀ piece ∈ Text.splitAtEach (code '*') raw, code '*' ∉ piece :=
        fun piece => not_mem_of_mem_splitAtEach
      have hraw : [code '*'].intercalate (Text.splitAtEach (code '*') raw) = raw := by
        rw [splitAtEach_eq_splitOn, List.intercalate_splitOn]
      have hne := Text.splitAtEach_ne_nil (code '*') raw
      generalize Text.splitAtEach (code '*') raw = pieces at *
      subst hraw
      obtain ⟨first, more, rfl⟩ := List.exists_cons_of_ne_nil hne
      obtain rfl | ⟨others, last, hothers⟩ := List.eq_nil_or_concat more
      · obtain ⟨bytes, hbytes, rfl⟩ :
            ∃ bytes, unescape? first = some bytes ∧ [bytes] = decoded := by
          simpa [Option.bind_eq_some_iff] using hdecoded
        rw [List.intercalate_singleton]
        exact .equal (hfree first List.mem_cons_self) (unescape?_eq_some_iff.1 hbytes)
      · rw [List.concat_eq_append] at hothers
        rw [hothers] at hfree hstar hdecoded ⊢
        obtain ⟨initial, middle, final, hinitial, hmiddle, hfinal, rfl⟩ :=
          mapM_pieces_eq_some_iff.1 hdecoded
        rw [ofPieces_concat]
        refine .pattern hfree hstar (unescape?_eq_some_iff.1 hinitial) ?_
          (unescape?_eq_some_iff.1 hfinal)
        exact (mapM_eq_some_iff.1 hmiddle).imp fun _ _ => unescape?_eq_some_iff.1
  · intro h
    cases h with
    | present => rfl
    | equal hstar hspells =>
      have hne : raw ≠ [code '*'] := by
        rintro rfl
        exact hstar (List.mem_singleton_self _)
      rw [ofValue?, if_neg hne, Text.splitAtEach_of_not_mem hstar, List.mapM_cons,
        unescape?_eq_some_iff.2 hspells]
      rfl
    | @pattern first last initial final others middle hstar hne hfirst hothers hlast =>
      have hothers' : others.mapM unescape? = some middle :=
        mapM_eq_some_iff.2 (hothers.imp fun _ _ => unescape?_eq_some_iff.2)
      have hpieces : (first :: (others ++ [last])).mapM unescape? =
          some (initial :: (middle ++ [final])) :=
        mapM_pieces_eq_some_iff.2 ⟨initial, middle, final, unescape?_eq_some_iff.2 hfirst, hothers',
          unescape?_eq_some_iff.2 hlast, rfl⟩
      rw [ofValue?, if_neg hne, splitAtEach_eq_splitOn, List.splitOn_intercalate _ hstar (by simp),
        hpieces, Option.map_some, ofPieces_concat]

/-! ## Filters -/

lemma expect_eq_ok_iff {c : Char} {input rest : List UInt8} :
    expect c input = .ok rest ↔ input = code c :: rest := by
  cases input with
  | nil => simp [expect]
  | cons b input =>
    rw [expect]
    by_cases hb : b = code c
    · simp [hb]
    · simp [hb]

mutual

/-- The reader takes what is derived. -/
lemma Derives.readsAs {raw : List UInt8} {f : SearchFilter} :
    Derives IsEscape raw f → ReadsAs raw f
  | .all h => by
    obtain ⟨inputs, rfl, hreads⟩ := h.readsAs
    exact readsAs_all hreads
  | .any h => by
    obtain ⟨inputs, rfl, hreads⟩ := h.readsAs
    exact readsAs_any hreads
  | .not h => readsAs_not h.readsAs
  | .item hattr hvalue h => readsAs_attribute hattr hvalue (ofValue?_eq_some_iff.2 h)

lemma DerivesEach.readsAs {raw : List UInt8} {fs : List SearchFilter} :
    DerivesEach IsEscape raw fs → ∃ inputs, raw = inputs.flatten ∧ List.Forall₂ ReadsAs inputs fs
  | .nil => ⟨[], rfl, .nil⟩
  | .cons h hs => by
    obtain ⟨inputs, rfl, hreads⟩ := hs.readsAs
    exact ⟨_ :: inputs, rfl, .cons h.readsAs hreads⟩

end

/-- What the reader takes for an item consists of an attribute and a value. -/
lemma exists_of_readItem {input rest : List UInt8} {f : SearchFilter}
    (h : readItem input = .ok (f, rest))
    (hstart : ∀ b ∈ input.head?, b ≠ code '&' ∧ b ≠ code '|' ∧ b ≠ code '!') :
    ∃ attr value, input = attr ++ code '=' :: (value ++ rest) ∧ IsAttribute attr ∧
      (∀ b ∈ value, isValueByte b = true) ∧
      DerivesValue IsEscape (attributeName attr) value f := by
  have hattr := List.takeWhile_append_dropWhile (p := isNameByte) (l := input)
  have hfree : ∀ b ∈ input.takeWhile isNameByte, isNameByte b = true :=
    fun b => List.mem_takeWhile_imp
  rw [readItem] at h
  split at h
  · cases h
  rename_i hname
  obtain ⟨behind, hequals, h⟩ := bind_eq_ok_iff.1 h
  have hbehind := expect_eq_ok_iff.1 hequals
  have hvalue := List.takeWhile_append_dropWhile (p := isValueByte) (l := behind)
  have hvalues : ∀ b ∈ behind.takeWhile isValueByte, isValueByte b = true :=
    fun b => List.mem_takeWhile_imp
  rw [hbehind] at hattr
  generalize input.takeWhile isNameByte = attr at *
  generalize behind.takeWhile isValueByte = value at *
  have hnonblank : Text.trimChars (Text.decodeLossy attr) ≠ [] :=
    fun heq => hname (List.isEmpty_iff.2 heq)
  split at h
  · rename_i g hg
    cases h
    refine ⟨attr, value, by rw [hvalue, hattr], ⟨hfree, fun b hb => hstart b ?_, hnonblank⟩,
      hvalues, ofValue?_eq_some_iff.1 hg⟩
    rw [← hattr, List.head?_append, Option.mem_def.1 hb]
    rfl
  · cases h

lemma closed_eq_ok_iff {x : Except ParseFailure (SearchFilter × List UInt8)} {f : SearchFilter}
    {rest : List UInt8} :
    (do let r ← x; let rest ← expect ')' r.2; pure (r.1, rest)) = .ok (f, rest) ↔
      x = .ok (f, code ')' :: rest) := by
  constructor
  · intro h
    obtain ⟨⟨f', behind⟩, hx, h⟩ := bind_eq_ok_iff.1 h
    obtain ⟨rest', hclose, h⟩ := bind_eq_ok_iff.1 h
    cases h
    have hbehind : behind = code ')' :: rest := expect_eq_ok_iff.1 hclose
    rw [hx, hbehind]
  · rintro rfl
    simp only [bind, Except.bind, expect_code, pure, Except.pure]

/-- What the reader takes for filters is derived, whatever its bound. -/
lemma exists_derivation (steps : Nat) :
    (∀ {input f rest}, readFilter steps input = .ok (f, rest) →
        ∃ raw, input = raw ++ rest ∧ Derives IsEscape raw f) ∧
      ∀ {input fs rest}, readFilters steps input = .ok (fs, rest) →
        ∃ raw, input = raw ++ rest ∧ DerivesEach IsEscape raw fs := by
  induction steps with
  | zero =>
    refine ⟨fun h => (by cases h), fun h => ?_⟩
    cases h
    exact ⟨[], rfl, .nil⟩
  | succ steps ih =>
    obtain ⟨ihone, iheach⟩ := ih
    refine ⟨fun {input f rest} h => ?_, fun {input fs rest} h => ?_⟩
    · simp only [readFilter] at h
      obtain ⟨body, hopen, hbody⟩ := bind_eq_ok_iff.1 h
      rw [expect_eq_ok_iff.1 hopen]
      have hitem : readItem body = .ok (f, code ')' :: rest) →
          (∀ b ∈ body.head?, b ≠ code '&' ∧ b ≠ code '|' ∧ b ≠ code '!') →
          ∃ raw, code '(' :: body = raw ++ rest ∧ Derives IsEscape raw f := by
        intro hread hstart
        obtain ⟨attr, value, rfl, hattr, hvalue, hderives⟩ := exists_of_readItem hread hstart
        exact ⟨_, by simp [enclosed], .item hattr hvalue hderives⟩
      split at hbody
      · exact hitem (closed_eq_ok_iff.1 hbody) (by simp)
      rename_i b behind
      split_ifs at hbody with hand hor hnot
      · obtain ⟨⟨fs, tail⟩, hparts, hclosed⟩ := bind_eq_ok_iff.1 hbody
        obtain ⟨raw, rfl, hderives⟩ := iheach hparts
        cases closed_eq_ok_iff.1 hclosed
        exact ⟨_, by simp [enclosed, hand], .all hderives⟩
      · obtain ⟨⟨fs, tail⟩, hparts, hclosed⟩ := bind_eq_ok_iff.1 hbody
        obtain ⟨raw, rfl, hderives⟩ := iheach hparts
        cases closed_eq_ok_iff.1 hclosed
        exact ⟨_, by simp [enclosed, hor], .any hderives⟩
      · obtain ⟨⟨g, tail⟩, hpart, hclosed⟩ := bind_eq_ok_iff.1 hbody
        obtain ⟨raw, rfl, hderives⟩ := ihone hpart
        cases closed_eq_ok_iff.1 hclosed
        exact ⟨_, by simp [enclosed, hnot], .not hderives⟩
      · refine hitem (closed_eq_ok_iff.1 hbody) fun c hc => ?_
        obtain rfl := Option.some.inj hc
        exact ⟨hand, hor, hnot⟩
    · rw [readFilters] at h
      split_ifs at h
      · obtain ⟨⟨f, behind⟩, hone, h⟩ := bind_eq_ok_iff.1 h
        obtain ⟨⟨more, tail⟩, heach, h⟩ := bind_eq_ok_iff.1 h
        cases h
        obtain ⟨raw, rfl, hf⟩ := ihone hone
        obtain ⟨raw', rfl, hfs⟩ := iheach heach
        exact ⟨raw ++ raw', (List.append_assoc ..).symm, .cons hf hfs⟩
      · cases h
        exact ⟨[], rfl, .nil⟩

/-- A text is parsed as what it derives, and as nothing else. -/
theorem parse_eq_ok_iff {text : String} {f : SearchFilter} :
    parse text = .ok f ↔ Derives IsEscape (Text.bytesOf text) f := by
  constructor
  · intro h
    rw [parse] at h
    split at h
    · rename_i g hread
      cases h
      obtain ⟨⟨g, rest⟩, hfilter, hrest⟩ := bind_eq_ok_iff.1 hread
      dsimp only at hrest
      split_ifs at hrest with hempty
      cases hrest
      obtain ⟨raw, hraw, hderives⟩ := (exists_derivation _).1 hfilter
      rw [hraw, List.isEmpty_iff.1 hempty, List.append_nil]
      exact hderives
    · cases h
  · exact fun h => parse_of_readsAs h.readsAs

/-! ## The two rules for escapes -/

section Rules

variable {rule rule' : UInt8 → UInt8 → UInt8 → Prop} {raw part : List UInt8}

/-- Wherever the bytes hold an escape, what the first rule says of it the second one says. -/
def Carries (rule rule' : UInt8 → UInt8 → UInt8 → Prop) (raw : List UInt8) : Prop :=
  ∀ a b byte, [code '\\', a, b] <:+: raw → rule a b byte → rule' a b byte

lemma Carries.of_infix (h : Carries rule rule' raw) (hpart : part <:+: raw) :
    Carries rule rule' part :=
  fun a b byte hescape => h a b byte (hescape.trans hpart)

lemma Carries.of_enclosed {head : UInt8} (h : Carries rule rule' (enclosed (head :: raw))) :
    Carries rule rule' raw :=
  h.of_infix ⟨[code '(', head], [code ')'], by simp [enclosed]⟩

@[simp] lemma enclosed_inj {body body' : List UInt8} :
    enclosed body = enclosed body' ↔ body = body' := by
  simp [enclosed]

lemma infix_enclosed (attr value : List UInt8) :
    value <:+: enclosed (attr ++ code '=' :: value) :=
  ⟨code '(' :: (attr ++ [code '=']), [code ')'], by simp [enclosed]⟩

lemma Spells.mono_on {bytes : List UInt8} (h : Spells rule raw bytes)
    (hrule : Carries rule rule' raw) : Spells rule' raw bytes := by
  induction h with
  | nil => exact .nil
  | plain hb _ ih => exact .plain hb (ih (hrule.of_infix (List.suffix_cons ..).isInfix))
  | @escape a b byte raw bytes hab _ ih =>
    refine .escape (hrule a b byte ⟨[], raw, rfl⟩ hab) (ih (hrule.of_infix ?_))
    exact ⟨[code '\\', a, b], [], by simp⟩

lemma infix_intercalate {α : Type} {separator piece : List α} {pieces : List (List α)}
    (h : piece ∈ pieces) : piece <:+: separator.intercalate pieces := by
  refine List.infix_of_mem_flatten ?_
  induction pieces with
  | nil => cases h
  | cons first others ih =>
    cases others with
    | nil => exact h
    | cons second others =>
      rw [List.intersperse_cons_cons]
      rcases List.mem_cons.1 h with rfl | h
      · exact List.mem_cons_self
      · exact List.mem_cons_of_mem _ (List.mem_cons_of_mem _ (ih h))

lemma DerivesValue.mono_on {name : String} {f : SearchFilter} (h : DerivesValue rule name raw f)
    (hrule : Carries rule rule' raw) : DerivesValue rule' name raw f := by
  cases h with
  | present => exact .present
  | equal hstar hspells => exact .equal hstar (hspells.mono_on hrule)
  | @pattern first last initial final others middle hstar hne hfirst hothers hlast =>
    have hpiece : ∀ piece ∈ first :: (others ++ [last]), Carries rule rule' piece :=
      fun piece hmem => hrule.of_infix (infix_intercalate hmem)
    refine .pattern hstar hne (hfirst.mono_on (hpiece _ (by simp))) ?_
      (hlast.mono_on (hpiece _ (by simp)))
    have hmiddle := (List.forall₂_and_left others middle).2
      ⟨fun piece hmem => hpiece piece (by simp [hmem]), hothers⟩
    exact hmiddle.imp fun _ _ h => h.2.mono_on h.1

mutual

/-- A derivation is one under every rule that says the same of the escapes in the bytes. -/
lemma Derives.mono_on {raw : List UInt8} {f : SearchFilter} :
    Derives rule raw f → Carries rule rule' raw → Derives rule' raw f
  | .all h, hrule => .all (h.mono_on hrule.of_enclosed)
  | .any h, hrule => .any (h.mono_on hrule.of_enclosed)
  | .not h, hrule => .not (h.mono_on hrule.of_enclosed)
  | .item hattr hvalue h, hrule =>
    .item hattr hvalue (h.mono_on (hrule.of_infix (infix_enclosed ..)))

lemma DerivesEach.mono_on {raw : List UInt8} {fs : List SearchFilter} :
    DerivesEach rule raw fs → Carries rule rule' raw → DerivesEach rule' raw fs
  | .nil, _ => .nil
  | .cons h hs, hrule =>
    .cons (h.mono_on (hrule.of_infix (List.prefix_append ..).isInfix))
      (hs.mono_on (hrule.of_infix (List.suffix_append ..).isInfix))

end

/-- Two hexadecimal digits are an escape for the reader too. -/
lemma Derives.lenient {f : SearchFilter} (h : Derives IsHexPair raw f) : Derives IsEscape raw f :=
  h.mono_on fun _ _ _ _ => .inl

/-- Without a plus sign behind a backslash the reader knows no other escapes. -/
lemma Derives.strict {f : SearchFilter} (h : Derives IsEscape raw f)
    (hfree : ¬ [code '\\', code '+'] <:+: raw) : Derives IsHexPair raw f := by
  refine h.mono_on fun a b byte hescape hab => ?_
  rcases hab with hpair | ⟨rfl, -⟩
  · exact hpair
  · have hstart : [code '\\', code '+'] <+: [code '\\', code '+', b] := ⟨[b], rfl⟩
    exact absurd (hstart.isInfix.trans hescape) hfree

end Rules

/-! ## The reader of a directory -/

/-- A directory takes a text for a filter exactly if the text derives it, and refuses any other text
as a fault of the protocol.  Escapes of two hexadecimal digits are never refused, and they are the
only ones where no plus sign stands behind a backslash. -/
theorem readFilter_exact (text : String) :
    (∀ f, Directory.readFilter text = .ok f ↔ Derives IsEscape (Text.bytesOf text) f) ∧
      ((∃ f, Directory.readFilter text = .ok f) ∨
        ∃ why, Directory.readFilter text = .error (.protocol why)) ∧
      (∀ f, Derives IsHexPair (Text.bytesOf text) f → Directory.readFilter text = .ok f) ∧
      (¬ [code '\\', code '+'] <:+: Text.bytesOf text →
        ∀ f, Directory.readFilter text = .ok f ↔ Derives IsHexPair (Text.bytesOf text) f) := by
  have hread : ∀ f, Directory.readFilter text = .ok f ↔ Derives IsEscape (Text.bytesOf text) f := by
    intro f
    rw [← parse_eq_ok_iff, Directory.readFilter]
    cases parse text <;> simp [Except.mapError]
  refine ⟨hread, ?_, fun f h => (hread f).2 h.lenient, fun hfree f => ?_⟩
  · rw [Directory.readFilter]
    cases parse text with
    | error e => exact .inr ⟨e.message, rfl⟩
    | ok f => exact .inl ⟨f, rfl⟩
  · exact ⟨fun h => ((hread f).1 h).strict hfree, fun h => (hread f).2 h.lenient⟩

/-- An escaped star is a byte of the value. -/
theorem readFilter_escapedStar :
    Directory.readFilter "(cn=a\\2Ab)" = .ok (.equal "cn" [0x61, 0x2A, 0x62]) := by
  refine (readFilter_exact "(cn=a\\2Ab)").2.2.1 _ ?_
  have hname : IsPlainName "cn" := by decide
  have hvalue : DerivesValue IsHexPair "cn" (Text.bytesOf "a\\2Ab")
      (.equal "cn" [0x61, 0x2A, 0x62]) :=
    .equal (by decide) (.plain (by decide) (.escape ⟨2, 10, by decide, by decide, by decide⟩
      (.plain (by decide) .nil)))
  have hbytes : ∀ b ∈ Text.bytesOf "a\\2Ab", isValueByte b = true :=
    List.all_eq_true.1 (by decide)
  have hattr := attributeName_bytesOf hname
  exact .item (isAttribute_bytesOf hname) hbytes (hattr.symm ▸ hvalue)

/-- A plus sign and a digit are taken for an escape, which two hexadecimal digits would not be. -/
theorem readFilter_signed_escape :
    Directory.readFilter "(cn=\\+4)" = .ok (.equal "cn" [0x04]) ∧
      ¬ ∃ f, Derives IsHexPair (Text.bytesOf "(cn=\\+4)") f := by
  refine ⟨rfl, ?_⟩
  rintro ⟨f, h⟩
  have hraw : Text.bytesOf "(cn=\\+4)" = enclosed (Text.bytesOf "cn=\\+4") := rfl
  generalize Text.bytesOf "(cn=\\+4)" = raw at hraw h
  cases h with
  | all | any | not => exact absurd (List.cons.inj (enclosed_inj.1 hraw)).1 (by decide)
  | @item attr value _ hattr _ h =>
    have hbody := enclosed_inj.1 hraw
    have hname : attr = Text.bytesOf "cn" := by
      have htake := congrArg (List.takeWhile isNameByte) hbody
      rw [List.takeWhile_append_of_pos hattr.free, List.takeWhile_cons_of_neg (by decide),
        List.append_nil] at htake
      exact htake
    subst hname
    have hsplit : Text.bytesOf "cn" ++ code '=' :: value =
        Text.bytesOf "cn" ++ code '=' :: Text.bytesOf "\\+4" := hbody
    obtain rfl := (List.cons.inj (List.append_cancel_left hsplit)).2
    obtain ⟨bytes, hspells⟩ := h.exists_spells (by decide)
    cases hspells with
    | plain hb => exact hb rfl
    | escape hab => exact not_isHexPair_plus _ _ hab

end DirectoryQuery.SearchFilter
