import DirectoryQuery.Proofs.Entry.Lookup

/-!
# The name of an entry among its attributes

Entries are made by naming one and setting attributes.  Such an entry stores every attribute, its
name among them, under one spelling only (`Entry.Built.namesDiffer`), so whoever asks for the name
in another case finds the same name (`Entry.Built.get_identity`).  An entry that was taken from a
map need not be like that: it may store something else under another spelling.
-/

namespace DirectoryQuery.Entry

/-- The entry was made by naming it and setting attributes. -/
inductive Built : Entry → Prop where
  | named (dn : String) : Built (.named dn)
  | insert {e : Entry} (h : Built e) (name : String) (values : List Value) :
    Built (e.insert name values)

variable {e : Entry}

/-- No two names of the entry differ in case only. -/
lemma Built.namesDiffer (h : e.Built) : e.NamesDiffer := by
  induction h with
  | named dn =>
    intro key hkey other hother _
    rw [List.mem_singleton.1 hkey, List.mem_singleton.1 hother]
  | insert _ name values ih =>
    intro key hkey other hother hsame
    obtain heq | ⟨hkey, hother⟩ := mem_keys_of_insert hkey hother hsame
    · exact heq
    · exact ih key hkey other hother hsame

/-- Under every spelling of the identity attribute stands the name of the entry. -/
theorem Built.get_identity (h : e.Built) {name : String} (hid : isIdentity name = true) :
    e.get name = [.text e.dn] :=
  h.namesDiffer.namesAgree.get_identity hid

end DirectoryQuery.Entry
