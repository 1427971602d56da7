import DirectoryQuery.Proofs.Filter.Split

/-!
# Reconciling pinned conditions

The pinned conditions of a filter each name an entry, in some spelling, and reconciling them
compares all names with the first.  Naming the same entry is an equivalence, so the comparison with
the first decides for all: what comes out describes the names (`Pin.describes_resolve`), and two
pins that describe the same names agree (`Pin.Describes.agrees`).  The order of the conditions
therefore decides no more than the spelling of the name that is taken.

`Filter.pins_exact` says what that means for entries.
-/

namespace DirectoryQuery

open DistinguishedName DirectoryQuery.Filter

namespace Pin

/-- Pins of one kind, which name the same entry if they name one. -/
inductive Agrees : Pin → Pin → Prop
  | unpinned : Agrees .unpinned .unpinned
  | entry {dn dn' : String} {checks checks' : Option Filter} (h : same dn dn' = true) :
    Agrees (.entry dn checks) (.entry dn' checks')
  | conflict : Agrees .conflict .conflict

/-- What a pin says of names: that there is none, that they all name the entry that it takes from
among them, or that two of them name different entries. -/
def Describes (pin : Pin) (dns : List String) : Prop :=
  match pin with
  | .unpinned => dns = []
  | .entry dn _ => dn ∈ dns ∧ ∀ dn' ∈ dns, same dn dn' = true
  | .conflict => ∃ dn ∈ dns, ∃ dn' ∈ dns, same dn dn' = false

variable {pin pin' : Pin} {pinned shuffled : List Condition} {dns dns' : List String}
  {dn dn' : String} {checks : Option Filter} {e : Entry}

/-! ## Describing names -/

lemma describes_resolve (pinned : List Condition) : (resolve pinned).Describes (names pinned) := by
  unfold resolve
  rw [← names]
  cases names pinned with
  | nil => rfl
  | cons first others =>
    simp only
    split_ifs with hall
    · refine ⟨List.mem_cons_self, List.forall_mem_cons.2 ⟨same_refl first, ?_⟩⟩
      exact List.all_eq_true.1 hall
    · obtain ⟨other, hother, hdiffer⟩ := List.all_eq_false.1 (eq_false_of_ne_true hall)
      exact ⟨first, List.mem_cons_self, other, List.mem_cons_of_mem _ hother,
        eq_false_of_ne_true hdiffer⟩

lemma Describes.perm (h : pin.Describes dns) (hperm : dns'.Perm dns) : pin.Describes dns' := by
  cases pin with
  | unpinned =>
    obtain rfl : dns = [] := h
    exact hperm.eq_nil
  | entry dn checks =>
    exact ⟨hperm.mem_iff.2 h.1, fun dn' hdn' => h.2 dn' (hperm.mem_iff.1 hdn')⟩
  | conflict =>
    obtain ⟨dn, hdn, dn', hdn', hdiffer⟩ := h
    exact ⟨dn, hperm.mem_iff.2 hdn, dn', hperm.mem_iff.2 hdn', hdiffer⟩

/-- Names of one entry do not conflict. -/
lemma not_describes_conflict (h : ∀ dn' ∈ dns, same dn dn' = true) : ¬ conflict.Describes dns := by
  rintro ⟨dn₁, hdn₁, dn₂, hdn₂, hdiffer⟩
  have hsame : same dn₁ dn₂ = true := same_trans (same_comm .. ▸ h dn₁ hdn₁) (h dn₂ hdn₂)
  rw [hsame] at hdiffer
  cases hdiffer

/-- Names are described in one way only, up to the spelling that is taken. -/
lemma Describes.agrees (h : pin.Describes dns) (h' : pin'.Describes dns) : pin.Agrees pin' := by
  match pin, pin' with
  | .unpinned, .unpinned => exact .unpinned
  | .entry dn _, .entry dn' _ => exact .entry (h.2 dn' h'.1)
  | .conflict, .conflict => exact .conflict
  | .entry _ _, .conflict => exact absurd h' (not_describes_conflict h.2)
  | .conflict, .entry _ _ => exact absurd h (not_describes_conflict h'.2)
  -- the other two take a name from among those that there are
  | .unpinned, .entry _ _ =>
    obtain rfl : dns = [] := h
    exact absurd h'.1 List.not_mem_nil
  | .unpinned, .conflict =>
    obtain rfl : dns = [] := h
    obtain ⟨_, hdn, -⟩ := h'
    exact absurd hdn List.not_mem_nil
  | .entry _ _, .unpinned =>
    obtain rfl : dns = [] := h'
    exact absurd h.1 List.not_mem_nil
  | .conflict, .unpinned =>
    obtain rfl : dns = [] := h'
    obtain ⟨_, hdn, -⟩ := h
    exact absurd hdn List.not_mem_nil

/-- Other orders of the conditions give the same kind of pin, and a name of the same entry. -/
theorem agrees_of_perm (h : shuffled.Perm pinned) : (resolve pinned).Agrees (resolve shuffled) :=
  ((describes_resolve pinned).perm (h.filterMap _)).agrees (describes_resolve shuffled)

/-! ## Names and entries -/

section Pinned

variable (h : ∀ c ∈ pinned, directoryPlacement c = .pinned)
include h

lemma names_eq_nil_iff : names pinned = [] ↔ pinned = [] := by
  rw [names, List.filterMap_eq_nil_iff]
  constructor
  · intro hnone
    refine List.eq_nil_iff_forall_not_mem.2 fun c hc => ?_
    obtain ⟨-, -, dn, hoperand⟩ := eq_of_pinned (h c hc)
    have hname := hnone c hc
    rw [hoperand] at hname
    cases hname
  · rintro rfl
    exact List.forall_mem_nil _

/-- An entry passes pinned conditions if all of them name it. -/
lemma forall_accepts_iff (he : e.Built) :
    (∀ c ∈ pinned, (leaf c).accepts e = true) ↔ ∀ dn ∈ names pinned, same e.dn dn = true := by
  rw [← List.all_eq_true, ← List.all_eq_true, ← all_names h he]

lemma resolve_eq_unpinned_iff : resolve pinned = .unpinned ↔ pinned = [] := by
  have hdescribes := describes_resolve pinned
  rw [← names_eq_nil_iff h]
  constructor
  · intro hresolve
    rw [hresolve] at hdescribes
    exact hdescribes
  · intro hnone
    rw [resolve, ← names, hnone]

/-- Conditions that conflict leave no entry, and others leave one. -/
lemma resolve_eq_conflict_iff :
    resolve pinned = .conflict ↔
      ∀ e : Entry, e.Built → ∃ c ∈ pinned, (leaf c).accepts e = false := by
  have hdescribes := describes_resolve pinned
  constructor
  · intro hresolve e he
    rw [hresolve] at hdescribes
    by_contra! hall
    refine not_describes_conflict ((forall_accepts_iff h he).1 fun c hc => ?_) hdescribes
    exact eq_true_of_ne_false (hall c hc)
  · intro hnone
    cases hresolve : resolve pinned with
    | unpinned =>
      obtain ⟨c, hc, -⟩ := hnone _ (.named "")
      rw [(resolve_eq_unpinned_iff h).1 hresolve] at hc
      cases hc
    | entry dn checks =>
      rw [hresolve] at hdescribes
      obtain ⟨c, hc, hrejects⟩ := hnone _ (.named dn)
      have haccepts := (forall_accepts_iff h (.named dn)).2 (by simpa using hdescribes.2) c hc
      rw [haccepts] at hrejects
      cases hrejects
    | conflict => rfl

/-- Conditions that leave a name leave the entries of this name. -/
lemma forall_accepts_iff_same (hresolve : resolve pinned = .entry dn checks) (he : e.Built) :
    (∀ c ∈ pinned, (leaf c).accepts e = true) ↔ same e.dn dn = true := by
  have hdescribes := describes_resolve pinned
  rw [hresolve] at hdescribes
  rw [forall_accepts_iff h he]
  exact ⟨fun hall => hall dn hdescribes.1, fun hsame dn' hdn' =>
    same_trans hsame (hdescribes.2 dn' hdn')⟩

/-- What is left to check compiles, and it accepts every entry that the conditions name. -/
lemma checks_of_resolve (hresolve : resolve pinned = .entry dn checks) {f : Filter}
    (hf : f ∈ checks) :
    f.Compiles ∧ ∀ e : Entry, e.Built → same e.dn dn = true → f.accepts e = true := by
  obtain rfl := Option.mem_def.1 hf
  obtain ⟨-, hconditions⟩ := entry_of_resolve h hresolve
  rw [conditions?_some] at hconditions
  refine ⟨compiles_iff.2 hconditions, fun e he hsame => ?_⟩
  have haccepts := accepts_resolve h he
  rw [List.all_eq_true.2 ((forall_accepts_iff_same h hresolve he).2 hsame), hresolve, accepts,
    hsame, Bool.true_and] at haccepts
  exact haccepts

end Pinned

end Pin

/-- Reconciling the pinned conditions of a filter loses nothing and takes nothing away.  There is no
pin just if there is no condition, and a conflict just if no entry passes all conditions.  If there
is a name, the entries of this name pass them and no others do, and they also pass what is left to
check.  Conditions in another order give the same kind of pin, and a name of the same entry. -/
theorem Filter.pins_exact (f : Filter) :
    let pinned := f.splitForDirectory.pinned
    (∀ c ∈ pinned, (leaf c).Compiles) ∧
    (Pin.resolve pinned = .unpinned ↔ pinned = []) ∧
    (Pin.resolve pinned = .conflict ↔
      ∀ e : Entry, e.Built → ∃ c ∈ pinned, (leaf c).accepts e = false) ∧
    (∀ dn checks, Pin.resolve pinned = .entry dn checks →
      (∀ e : Entry, e.Built →
        ((∀ c ∈ pinned, (leaf c).accepts e = true) ↔ same e.dn dn = true)) ∧
      ∀ check ∈ checks, check.Compiles ∧
        ∀ e : Entry, e.Built → same e.dn dn = true → check.accepts e = true) ∧
    ∀ shuffled, shuffled.Perm pinned → (Pin.resolve pinned).Agrees (Pin.resolve shuffled) := by
  intro pinned
  have h : ∀ c ∈ pinned, directoryPlacement c = .pinned :=
    fun c hc => ((isSplitOf_split directoryPlacement f).pinned c hc).2
  refine ⟨fun c hc => Pin.compiles_of_pinned (h c hc), Pin.resolve_eq_unpinned_iff h,
    Pin.resolve_eq_conflict_iff h,
    fun dn checks hresolve => ⟨fun e he => ?_, fun check hcheck => ?_⟩,
    fun shuffled hperm => Pin.agrees_of_perm hperm⟩
  · exact Pin.forall_accepts_iff_same h hresolve he
  · exact Pin.checks_of_resolve h hresolve hcheck

/-- Two spellings of one name leave one name and a check, and an entry in a third one passes. -/
theorem Filter.pins_exact_two_spellings :
    let naming (dn : String) : Condition := ⟨"dn", none, .one (.text dn)⟩
    let f : Filter := .all [.leaf (naming "cn=Ann,dc=org"), .leaf (naming "CN=Ann, DC=org")]
    let e : Entry := (Entry.named "cn=ann ,dc=org").insert "mail" []
    Pin.resolve f.splitForDirectory.pinned =
        .entry "cn=Ann,dc=org" (some (Pin.check "CN=Ann, DC=org")) ∧
      (∀ c ∈ f.splitForDirectory.pinned, (leaf c).accepts e = true) ∧
      (Pin.check "CN=Ann, DC=org").accepts e = true ∧
      (Pin.resolve f.splitForDirectory.pinned).Agrees
        (Pin.resolve [naming "CN=Ann, DC=org", naming "cn=Ann,dc=org"]) := by
  intro naming f e
  have he : e.Built := (Entry.Built.named _).insert _ _
  have hsame : same e.dn "cn=Ann,dc=org" = true := by decide +kernel
  have hpinned : f.splitForDirectory.pinned =
      [naming "cn=Ann,dc=org", naming "CN=Ann, DC=org"] := by decide +kernel
  have hall : (["CN=Ann, DC=org"].all fun other => same "cn=Ann,dc=org" other) = true := by
    decide +kernel
  have hresolve : Pin.resolve f.splitForDirectory.pinned =
      .entry "cn=Ann,dc=org" (some (Pin.check "CN=Ann, DC=org")) := by
    rw [hpinned]
    exact if_pos (e := .conflict) hall
  obtain ⟨-, -, -, hentry, hperm⟩ := pins_exact f
  obtain ⟨hpass, hchecks⟩ := hentry _ _ hresolve
  refine ⟨hresolve, (hpass e he).2 hsame, (hchecks _ rfl).2 e he hsame, hperm _ ?_⟩
  rw [hpinned]
  exact .swap _ _ []

end DirectoryQuery
