import DirectoryQuery.Filter.Condition
import Mathlib.Data.List.Infix

/-!
# Keys of conditions

A key is the name of an attribute, alone or with the name of a lookup behind two underscores.  Every
text is one unless a part of it is empty or two more underscores follow the leftmost two
(`Condition.IsKey`).  Keys are read, and what was read is written as the key again; all other texts
are refused (`Condition.parse_exact`).

Separators can overlap.  In `uid___gte` they stand at two places, and the one further to the left
counts: the lookup is `_gte`.  So the argument goes by the first place of a separator
(`Text.StandsFirst`): the parts of a text are what stands before that place and the parts of what
stands behind it (`Condition.keyParts_of_standsFirst`).
-/

namespace DirectoryQuery

/-! ## The first place of a piece -/

namespace Text

variable {α : Type} {piece s before behind : List α}

/-- The piece stands between these two parts of the sequence, and nowhere further to the left. -/
structure StandsFirst (piece s before behind : List α) : Prop where
  eq : s = before ++ (piece ++ behind)
  first : ∀ before' behind', s = before' ++ (piece ++ behind') → before.length ≤ before'.length

/-- The piece does not stand before its first place. -/
lemma StandsFirst.not_infix (h : StandsFirst piece s before behind) (hne : piece ≠ []) :
    ¬ piece <:+: before := by
  rintro ⟨front, back, rfl⟩
  have hle := h.first front (back ++ (piece ++ behind)) (by simp [h.eq])
  have hpos := List.length_pos_of_ne_nil hne
  simp only [List.length_append] at hle
  omega

/-- An element put in front, where the piece does not begin, leaves its first place the first. -/
lemma StandsFirst.cons {c : α} (h : StandsFirst piece s before behind)
    (hstart : ¬ piece <+: c :: s) : StandsFirst piece (c :: s) (c :: before) behind where
  eq := by rw [h.eq, List.cons_append]
  first front back heq := by
    cases front with
    | nil => exact absurd ⟨back, heq.symm⟩ hstart
    | cons d front =>
      have htail := h.first front back (List.cons.inj heq).2
      simpa using htail

lemma StandsFirst.tail {c : α} (h : StandsFirst piece (c :: s) (c :: before) behind) :
    StandsFirst piece s before behind where
  eq := (List.cons.inj h.eq).2
  first front back heq := by
    have hle := h.first (c :: front) back (by rw [heq, List.cons_append])
    simpa using hle

/-- A piece that stands somewhere in a sequence has a first place there. -/
lemma exists_standsFirst (h : piece <:+: s) :
    ∃ before behind, StandsFirst piece s before behind := by
  induction s with
  | nil =>
    obtain rfl := List.infix_nil.1 h
    exact ⟨[], [], rfl, fun _ _ _ => Nat.zero_le _⟩
  | cons c s ih =>
    by_cases hstart : piece <+: c :: s
    · obtain ⟨behind, heq⟩ := hstart
      exact ⟨[], behind, heq.symm, fun _ _ _ => Nat.zero_le _⟩
    · have hinfix := (List.infix_cons_iff.1 h).resolve_left hstart
      obtain ⟨before, behind, hfirst⟩ := ih hinfix
      exact ⟨c :: before, behind, hfirst.cons hstart⟩

end Text

namespace Condition

/-! ## The parts of a key -/

section Parts

variable {s before behind : List Char}

lemma keyParts_cons {c : Char} (hstart : ¬ separator.toList <+: c :: s) :
    keyParts (c :: s) = (keyParts s).modifyHead (c :: ·) := by
  have hother : ∀ rest, c = '_' → s = '_' :: rest → False := by
    rintro rest rfl rfl
    exact hstart ⟨rest, rfl⟩
  obtain ⟨part, parts, hparts⟩ := List.exists_cons_of_ne_nil (keyParts_ne_nil s)
  rw [keyParts]
  · rw [hparts, List.modifyHead_cons]
  · exact hother

/-- Without a separator there is one part. -/
lemma keyParts_of_not_infix (h : ¬ separator.toList <:+: s) : keyParts s = [s] := by
  induction s with
  | nil => rfl
  | cons c s ih =>
    obtain ⟨hstart, hrest⟩ := not_or.1 (mt List.infix_cons_iff.2 h)
    rw [keyParts_cons hstart, ih hrest, List.modifyHead_cons]

/-- The first part ends where the first separator begins. -/
lemma keyParts_of_standsFirst (h : Text.StandsFirst separator.toList s before behind) :
    keyParts s = before :: keyParts behind := by
  induction before generalizing s with
  | nil =>
    rw [h.eq]
    rfl
  | cons c before ih =>
    obtain rfl : s = c :: (before ++ (separator.toList ++ behind)) := h.eq
    have hstart : ¬ separator.toList <+: c :: (before ++ (separator.toList ++ behind)) := by
      rintro ⟨rest, heq⟩
      exact absurd (h.first [] rest heq.symm) (by simp)
    rw [keyParts_cons hstart, ih h.tail, List.modifyHead_cons]

end Parts

/-! ## Reading a key -/

/-- Two underscores stand somewhere in the text. -/
def HasSeparator (text : String) : Prop :=
  separator.toList <:+: text.toList

instance (text : String) : Decidable (HasSeparator text) :=
  inferInstanceAs (Decidable (separator.toList <:+: text.toList))

/-- The text falls apart into these two at its leftmost two underscores. -/
def SplitsInto (text field rest : String) : Prop :=
  Text.StandsFirst separator.toList text.toList field.toList rest.toList

/-- The text is a name, or it falls apart into two at its leftmost two underscores, where neither
part is empty and the rest has no other two underscores. -/
def IsKey (key : String) : Prop :=
  key ≠ "" ∧ (¬ HasSeparator key ∨
    ∃ field rest, SplitsInto key field rest ∧ field ≠ "" ∧ rest ≠ "" ∧ ¬ HasSeparator rest)

/-- The condition that a key and an operand make. -/
inductive MadeOf (key : String) (operand : Operand) : Condition → Prop where
  | name (hne : key ≠ "") (hsep : ¬ HasSeparator key) : MadeOf key operand ⟨key, none, operand⟩
  | lookup {field rest : String} (hsplit : SplitsInto key field rest) (hfield : field ≠ "")
    (hrest : rest ≠ "") (hsep : ¬ HasSeparator rest) :
    MadeOf key operand ⟨field, some rest, operand⟩

variable {key field rest : String} {operand : Operand} {c : Condition}

namespace SplitsInto

lemma eq (h : SplitsInto key field rest) : field ++ separator ++ rest = key := by
  rw [← String.toList_inj, String.toList_append, String.toList_append, Text.StandsFirst.eq h,
    List.append_assoc]

lemma hasSeparator (h : SplitsInto key field rest) : HasSeparator key :=
  ⟨field.toList, rest.toList, (List.append_assoc ..).trans (Text.StandsFirst.eq h).symm⟩

lemma not_hasSeparator (h : SplitsInto key field rest) : ¬ HasSeparator field :=
  h.not_infix (by decide)

end SplitsInto

lemma exists_splitsInto (h : HasSeparator key) : ∃ field rest, SplitsInto key field rest := by
  obtain ⟨before, behind, hfirst⟩ := Text.exists_standsFirst h
  refine ⟨String.ofList before, String.ofList behind, ?_⟩
  rw [SplitsInto, String.toList_ofList, String.toList_ofList]
  exact hfirst

lemma exists_madeOf_iff : (∃ c, MadeOf key operand c) ↔ IsKey key := by
  constructor
  · rintro ⟨c, hmade⟩
    cases hmade with
    | name hne hsep => exact ⟨hne, .inl hsep⟩
    | lookup hsplit hfield hrest hsep =>
      refine ⟨?_, .inr ⟨_, _, hsplit, hfield, hrest, hsep⟩⟩
      rintro rfl
      exact absurd hsplit.hasSeparator (by decide)
  · rintro ⟨hne, hsep | ⟨field, rest, hsplit, hfield, hrest, hsep⟩⟩
    · exact ⟨_, .name hne hsep⟩
    · exact ⟨_, .lookup hsplit hfield hrest hsep⟩

/-- The reader finds the condition that a key makes. -/
lemma MadeOf.parse_eq (h : MadeOf key operand c) : parse key operand = .ok c := by
  cases h with
  | name hne hsep => simp [parse, keyParts_of_not_infix hsep, hne]
  | lookup hsplit hfield hrest hsep =>
    simp [parse, keyParts_of_standsFirst hsplit, keyParts_of_not_infix hsep, hfield, hrest]

/-- The reader refuses a text that makes no condition. -/
lemma parse_of_not_madeOf (h : ∀ c, ¬ MadeOf key operand c) :
    parse key operand = .error (.malformedKey key) := by
  by_cases hsep : HasSeparator key
  · obtain ⟨field, rest, hsplit⟩ := exists_splitsInto hsep
    by_cases hrest : HasSeparator rest
    · -- the rest falls apart again, so there are three parts or more
      obtain ⟨second, behind, hagain⟩ := exists_splitsInto hrest
      obtain ⟨third, more, hparts⟩ := List.exists_cons_of_ne_nil (keyParts_ne_nil behind.toList)
      rw [parse, keyParts_of_standsFirst hsplit, keyParts_of_standsFirst hagain, hparts]
    · have hempty : field = "" ∨ rest = "" := by
        by_contra hne
        obtain ⟨hfield, hlookup⟩ := not_or.1 hne
        exact h _ (.lookup hsplit hfield hlookup hrest)
      rw [parse, keyParts_of_standsFirst hsplit, keyParts_of_not_infix hrest]
      simp [hempty]
  · have hempty : key = "" := by
      by_contra hne
      exact h _ (.name hne hsep)
    rw [hempty]
    rfl

/-- A condition that a key makes is written with the key. -/
lemma MadeOf.key_eq (h : MadeOf key operand c) : c.key = key := by
  cases h with
  | name => rfl
  | lookup hsplit => exact hsplit.eq

lemma parse_eq_ok_iff : parse key operand = .ok c ↔ MadeOf key operand c := by
  refine ⟨fun hc => ?_, MadeOf.parse_eq⟩
  by_cases h : ∃ c', MadeOf key operand c'
  · obtain ⟨c', hmade⟩ := h
    rw [hmade.parse_eq] at hc
    cases hc
    exact hmade
  · rw [parse_of_not_madeOf (not_exists.1 h)] at hc
    cases hc

/-- A key is read and any other text is refused, with the text in the error.  What was read from a
key is written as the key again: the name and, where the key falls apart at its leftmost two
underscores, the lookup behind these, none of them with two underscores in it. -/
theorem parse_exact (key : String) (operand : Operand) :
    ((∃ c, parse key operand = .ok c) ↔ IsKey key) ∧
      (parse key operand = .error (.malformedKey key) ↔ ¬ IsKey key) ∧
      ∀ c, parse key operand = .ok c →
        c.key = key ∧ ¬ HasSeparator c.field ∧
        (∀ lookup ∈ c.lookup, SplitsInto key c.field lookup ∧ ¬ HasSeparator lookup) ∧
        c.operand = operand ∧ c.text = key ++ "=" ++ operand.display := by
  simp only [parse_eq_ok_iff]
  refine ⟨exists_madeOf_iff, ⟨fun herror hkey => ?_, fun hkey => ?_⟩, fun c hmade => ?_⟩
  · obtain ⟨c, hmade⟩ := exists_madeOf_iff.2 hkey
    rw [hmade.parse_eq] at herror
    cases herror
  · exact parse_of_not_madeOf (not_exists.1 (mt exists_madeOf_iff.1 hkey))
  · have hkey : c.key = key := hmade.key_eq
    cases hmade with
    | name hne hsep => exact ⟨hkey, hsep, by simp, rfl, rfl⟩
    | lookup hsplit hfield hrest hsep =>
      refine ⟨hkey, hsplit.not_hasSeparator, ?_, rfl, by rw [text, hkey]⟩
      rintro lookup ⟨⟩
      exact ⟨hsplit, hsep⟩

/-- Of three underscores the first two separate; four are two separators. -/
theorem parse_exact_three_underscores :
    parse "uid___gte" (.one (.int 5)) = .ok ⟨"uid", some "_gte", .one (.int 5)⟩ ∧
      IsKey "uid___gte" ∧ SplitsInto "uid___gte" "uid" "_gte" ∧ ¬ HasSeparator "_gte" ∧
      text ⟨"uid", some "_gte", .one (.int 5)⟩ = "uid___gte=5" ∧ ¬ IsKey "uid____gte" := by
  have hread : parse "uid___gte" (.one (.int 5)) = .ok ⟨"uid", some "_gte", .one (.int 5)⟩ := rfl
  have hrefused : parse "uid____gte" (.one (.int 5)) = .error (.malformedKey "uid____gte") := rfl
  obtain ⟨hkey, -, hmade⟩ := parse_exact "uid___gte" (.one (.int 5))
  obtain ⟨-, -, hlookup, -, htext⟩ := hmade _ hread
  obtain ⟨hsplit, hsep⟩ := hlookup "_gte" rfl
  have hno : ¬ IsKey "uid____gte" := (parse_exact "uid____gte" (.one (.int 5))).2.1.1 hrefused
  exact ⟨hread, hkey.1 ⟨_, hread⟩, hsplit, hsep, htext, hno⟩

end Condition

end DirectoryQuery
