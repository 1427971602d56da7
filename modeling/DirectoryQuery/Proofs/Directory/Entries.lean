import DirectoryQuery.Proofs.Query.Readers
import DirectoryQuery.Proofs.Query.Readiness

/-!
# The entries of a directory

A directory holds one entry under each name that was added to it, the last one, and its entries
stand in the order in which their names came up first (`Directory.Keeps`).  Names are the same
however they are spelled, so an entry can be replaced by one that spells its name in another way.

Adding an entry keeps this up (`Directory.Keeps.place`).  Either the name is new and the entry goes
behind all others, or it takes the place of the one entry that has its name; every name then has its
entry where it had it before, up to the spelling.  Nothing else that happens to a directory changes
its entries (`Scene.Keeps.stay`).
-/

namespace DirectoryQuery

open DistinguishedName

/-! ## Names of entries -/

namespace Entry

/-- Whether the entry has the name, in some spelling. -/
def isNamed (e : Entry) (name : String) : Bool :=
  same e.dn name

/-- The entry, or the one that is added if it has the same name. -/
def replacedBy (o e : Entry) : Entry :=
  if o.isNamed e.dn then e else o

variable {e o : Entry} {name name' : String}

lemma isNamed_dn (e : Entry) : e.isNamed e.dn = true :=
  same_refl e.dn

lemma isNamed_congr (h : same name name' = true) (e : Entry) :
    e.isNamed name = e.isNamed name' := by
  rw [isNamed, isNamed, Bool.eq_iff_iff, same_iff, same_iff, same_iff.1 h]

lemma isNamed_eq_of_isNamed (h : o.isNamed e.dn = true) (name : String) :
    o.isNamed name = e.isNamed name := by
  have hnormal : normalize o.dn = normalize e.dn := same_iff.1 h
  rw [isNamed, isNamed, Bool.eq_iff_iff, same_iff, same_iff, hnormal]

lemma replacedBy_of_isNamed (h : o.isNamed e.dn = true) : o.replacedBy e = e :=
  if_pos h

lemma replacedBy_of_not_isNamed (h : o.isNamed e.dn = false) : o.replacedBy e = o :=
  if_neg (Bool.eq_false_iff.1 h)

/-- What stands in place of an entry has its name. -/
lemma isNamed_replacedBy (o e : Entry) (name : String) :
    (o.replacedBy e).isNamed name = o.isNamed name := by
  cases h : o.isNamed e.dn with
  | true => rw [replacedBy_of_isNamed h, isNamed_eq_of_isNamed h]
  | false => rw [replacedBy_of_not_isNamed h]

lemma same_dn_replacedBy (o e : Entry) : same (o.replacedBy e).dn o.dn = true := by
  rw [← isNamed, isNamed_replacedBy, isNamed_dn]

end Entry

namespace Directory

open Entry

/-! ## What was added -/

/-- The entry that was added last under a name. -/
def latest? (added : List Entry) (name : String) : Option Entry :=
  (added.filter fun o => o.isNamed name).getLast?

/-- When a name was added first. -/
def firstAt (added : List Entry) (name : String) : Nat :=
  added.findIdx fun o => o.isNamed name

variable {added entries : List Entry} {e : Entry} {name name' : String}

lemma latest?_eq_none_iff :
    latest? added name = none ↔ ∀ o ∈ added, o.isNamed name = false := by
  simp [latest?]

lemma mem_of_latest? (h : latest? added name = some e) : e ∈ added ∧ e.isNamed name = true :=
  List.mem_filter.1 (List.mem_of_getLast? h)

lemma latest?_concat_of_isNamed (h : e.isNamed name = true) :
    latest? (added ++ [e]) name = some e := by
  simp [latest?, h]

lemma latest?_concat_of_not_isNamed (h : e.isNamed name = false) :
    latest? (added ++ [e]) name = latest? added name := by
  simp [latest?, h]

lemma latest?_concat_of_latest? {o : Entry} (h : latest? added name = some o) (e : Entry) :
    latest? (added ++ [e]) name = some (o.replacedBy e) := by
  have ho : o.isNamed name = true := (mem_of_latest? h).2
  cases hsame : o.isNamed e.dn with
  | true =>
    rw [replacedBy_of_isNamed hsame]
    rw [isNamed_eq_of_isNamed hsame] at ho
    exact latest?_concat_of_isNamed ho
  | false =>
    have he : e.isNamed name = false := Bool.eq_false_iff.2 fun hnamed => by
      rw [isNamed_congr hnamed, ho] at hsame
      cases hsame
    rw [replacedBy_of_not_isNamed hsame, latest?_concat_of_not_isNamed he, h]

lemma firstAt_congr (h : same name name' = true) : firstAt added name = firstAt added name' :=
  congrArg added.findIdx (funext (isNamed_congr h))

lemma firstAt_lt_iff :
    firstAt added name < added.length ↔ ∃ o ∈ added, o.isNamed name = true :=
  List.findIdx_lt_length

lemma firstAt_concat (added : List Entry) (e : Entry) (name : String) :
    firstAt (added ++ [e]) name = if firstAt added name < added.length then firstAt added name
      else firstAt [e] name + added.length :=
  List.findIdx_append

/-! ## Placing an entry -/

lemma place_cons (e o : Entry) (rest : List Entry) :
    place e (o :: rest) = if o.isNamed e.dn then e :: rest else o :: place e rest := rfl

lemma place_of_new (h : ∀ o ∈ entries, o.isNamed e.dn = false) :
    place e entries = entries ++ [e] := by
  induction entries with
  | nil => rfl
  | cons o rest ih =>
    obtain ⟨ho, hrest⟩ := List.forall_mem_cons.1 h
    rw [place_cons, if_neg (Bool.eq_false_iff.1 ho), ih hrest, List.cons_append]

/-- Where no two entries have one name, an entry takes the place of the one that has its name. -/
lemma place_of_mem (hdistinct : entries.Pairwise fun a b => a.isNamed b.dn = false)
    (h : ∃ o ∈ entries, o.isNamed e.dn = true) :
    place e entries = entries.map fun o => o.replacedBy e := by
  induction entries with
  | nil => simp at h
  | cons o rest ih =>
    obtain ⟨ho, hrest⟩ := List.pairwise_cons.1 hdistinct
    rw [place_cons, List.map_cons]
    split_ifs with hsame
    · have hothers : ∀ other ∈ rest, other.replacedBy e = other := by
        intro other hother
        refine replacedBy_of_not_isNamed (Bool.eq_false_iff.2 fun hnamed => ?_)
        rw [← isNamed_congr hnamed, ho other hother] at hsame
        cases hsame
      rw [replacedBy_of_isNamed hsame, List.map_congr_left hothers, List.map_id']
    · have hrest' : ∃ other ∈ rest, other.isNamed e.dn = true := by
        simpa [hsame] using h
      rw [replacedBy_of_not_isNamed (Bool.eq_false_iff.2 hsame), ih hrest hrest']

/-! ## What a directory keeps -/

/-- The entries are what is left of those that were added one after the other: no two of one name,
under each name the last one, in the order in which the names came up. -/
structure Keeps (entries added : List Entry) : Prop where
  distinct : entries.Pairwise fun a b => a.isNamed b.dn = false
  latest (name : String) : (entries.filter fun o => o.isNamed name) = (latest? added name).toList
  ordered : entries.Pairwise fun a b => firstAt added a.dn < firstAt added b.dn

namespace Keeps

lemma exists_isNamed_iff (h : Keeps entries added) (name : String) :
    (∃ o ∈ entries, o.isNamed name = true) ↔ ∃ o ∈ added, o.isNamed name = true := by
  have hnone : (entries.filter fun o => o.isNamed name) = [] ↔
      (added.filter fun o => o.isNamed name) = [] := by
    rw [h.latest, Option.toList_eq_nil_iff, latest?, List.getLast?_eq_none_iff]
  rw [← not_iff_not]
  simpa [List.filter_eq_nil_iff] using hnone

lemma firstAt_lt (h : Keeps entries added) {o : Entry} (ho : o ∈ entries) :
    firstAt added o.dn < added.length :=
  firstAt_lt_iff.2 ((h.exists_isNamed_iff o.dn).1 ⟨o, ho, o.isNamed_dn⟩)

/-- The names that were there keep their order. -/
lemma ordered_concat (h : Keeps entries added) (e : Entry) :
    entries.Pairwise fun a b => firstAt (added ++ [e]) a.dn < firstAt (added ++ [e]) b.dn := by
  refine h.ordered.imp_of_mem fun ha hb hlt => ?_
  rw [firstAt_concat, firstAt_concat, if_pos (h.firstAt_lt ha), if_pos (h.firstAt_lt hb)]
  exact hlt

/-- An entry of a new name goes behind all others. -/
lemma append (h : Keeps entries added) (hnew : ¬ ∃ o ∈ entries, o.isNamed e.dn = true) :
    Keeps (entries ++ [e]) (added ++ [e]) where
  distinct := by
    refine List.pairwise_append.2
      ⟨h.distinct, List.pairwise_singleton _ _, fun o ho => List.forall_mem_singleton.2 ?_⟩
    exact Bool.eq_false_iff.2 fun hnamed => hnew ⟨o, ho, hnamed⟩
  latest name := by
    rw [List.filter_append]
    cases hnamed : e.isNamed name with
    | true =>
      have hnone : (entries.filter fun o => o.isNamed name) = [] :=
        List.filter_eq_nil_iff.2 fun o ho ho' => hnew ⟨o, ho, (isNamed_congr hnamed o).trans ho'⟩
      simp [hnone, hnamed, latest?_concat_of_isNamed hnamed]
    | false => simp [h.latest, hnamed, latest?_concat_of_not_isNamed hnamed]
  ordered := by
    have hlast : ¬ firstAt added e.dn < added.length := by
      rwa [firstAt_lt_iff, ← h.exists_isNamed_iff]
    refine List.pairwise_append.2
      ⟨h.ordered_concat e, List.pairwise_singleton _ _, fun o ho => List.forall_mem_singleton.2 ?_⟩
    rw [firstAt_concat, firstAt_concat, if_pos (h.firstAt_lt ho), if_neg hlast]
    exact Nat.lt_of_lt_of_le (h.firstAt_lt ho) (Nat.le_add_left _ _)

/-- An entry of a known name takes the place of the one that has it. -/
lemma replace (h : Keeps entries added) (hknown : ∃ o ∈ entries, o.isNamed e.dn = true) :
    Keeps (entries.map fun o => o.replacedBy e) (added ++ [e]) where
  distinct := by
    refine List.pairwise_map.2 (h.distinct.imp fun {a b} hab => ?_)
    rw [isNamed_replacedBy, isNamed_congr (same_dn_replacedBy b e), hab]
  latest name := by
    simp only [List.filter_map, Function.comp_def, isNamed_replacedBy, h.latest]
    rcases hlatest : latest? added name with - | o
    · obtain ⟨o, ho, hnamed⟩ := (h.exists_isNamed_iff e.dn).1 hknown
      have he : e.isNamed name = false := by
        rw [← isNamed_eq_of_isNamed hnamed]
        exact latest?_eq_none_iff.1 hlatest o ho
      rw [latest?_concat_of_not_isNamed he, hlatest]
      rfl
    · rw [latest?_concat_of_latest? hlatest]
      rfl
  ordered := by
    refine List.pairwise_map.2 ((h.ordered_concat e).imp fun {a b} hlt => ?_)
    rwa [firstAt_congr (same_dn_replacedBy a e), firstAt_congr (same_dn_replacedBy b e)]

/-- Adding an entry. -/
lemma place (h : Keeps entries added) (e : Entry) :
    Keeps (place e entries) (added ++ [e]) := by
  by_cases hknown : ∃ o ∈ entries, o.isNamed e.dn = true
  · rw [place_of_mem h.distinct hknown]
    exact h.replace hknown
  · rw [place_of_new (by simpa using hknown)]
    exact h.append hknown

lemma addAll {d : Directory} (h : Keeps d.entries added) (es : List Entry) :
    Keeps (d.addAll es).entries (added ++ es) := by
  induction es generalizing d added with
  | nil => rwa [List.append_nil]
  | cons e es ih =>
    have hrest := ih (d := d.add e) (h.place e)
    rwa [List.append_assoc] at hrest

end Keeps

lemma keeps_empty : Keeps empty.entries [] :=
  ⟨.nil, fun _ => rfl, .nil⟩

/-- What adding an entry does to a directory that keeps one entry for each name. -/
lemma entries_add {d : Directory} (h : d.entries.Pairwise fun a b => a.isNamed b.dn = false)
    (e : Entry) :
    (d.add e).entries = if d.entries.any fun o => o.isNamed e.dn
      then d.entries.map fun o => o.replacedBy e else d.entries ++ [e] := by
  rw [add]
  split_ifs with hknown
  · exact place_of_mem h (List.any_eq_true.1 hknown)
  · exact place_of_new (by simpa using hknown)

end Directory

/-! ## Whatever else happens -/

/-- The entry that a move adds to the directory. -/
def Move.added? : Move → Option Entry
  | .add e => some e
  | _ => none

namespace Scene

variable {s s' : Scene} {added : List Entry}

/-- The directory keeps what was added to it. -/
def Keeps (s : Scene) (added : List Entry) : Prop :=
  Directory.Keeps s.workspace.service.directory.entries added

namespace Keeps

lemma of_entries (h : s.Keeps added)
    (hentries : s'.workspace.service.directory.entries = s.workspace.service.directory.entries) :
    s'.Keeps added := by
  rwa [Keeps, hentries]

lemma poll (h : s.Keeps added) (i : Nat) : (s.poll i).Keeps added := by
  unfold Scene.poll
  split
  · exact h
  · split
    · exact h
    · exact h.of_entries (Results.covers_next Stake.covers_spares rfl).entries

lemma drop (h : s.Keeps added) (i : Nat) : (s.drop i).Keeps added := by
  unfold Scene.drop
  split
  · exact h
  · split
    · exact h
    · exact h.of_entries (Stream.covers_close Stake.covers_spares _).entries

lemma evaluate (h : s.Keeps added) {q : Query} {w : Workspace} {error : Option QueryError}
    (hq : q.Evaluates s.workspace error w) : Keeps { s with workspace := w } added :=
  h.of_entries (hq.covers Stake.covers_spares).entries

/-- No move changes the entries but the one that adds one. -/
lemma stay {m : Move} (h : s.Keeps added) (hm : m.added? = none) : (s.move m).Keeps added := by
  match m with
  | .create q => exact h
  | .poll i => exact h.poll i
  | .drop i => exact h.drop i
  | .fetch q => exact h.evaluate (q.evaluates_fetch s.workspace)
  | .count q => exact h.evaluate (q.evaluates_count s.workspace)
  | .one q => exact h.evaluate (q.evaluates_one s.workspace)
  | .get q index => exact h.evaluate (q.evaluates_get s.workspace index)
  | .aggregate q as => exact h.evaluate (q.evaluates_aggregate s.workspace as)
  | .add e => cases hm
  | .setDown _ _ | .failNextSearch _ | .failNextAbandon _ => exact h

lemma move (h : s.Keeps added) (m : Move) : (s.move m).Keeps (added ++ m.added?.toList) := by
  rcases hm : m.added? with - | e
  · rw [Option.toList_none, List.append_nil]
    exact h.stay hm
  · obtain rfl : m = .add e := by
      cases m <;> cases hm
      rfl
    exact h.place e

lemma moves (h : s.Keeps added) (moves : List Move) :
    (moves.foldl Scene.move s).Keeps (added ++ moves.filterMap Move.added?) := by
  induction moves generalizing s added with
  | nil => rwa [List.filterMap_nil, List.append_nil]
  | cons m moves ih =>
    have hadded : (m :: moves).filterMap Move.added? =
        m.added?.toList ++ moves.filterMap Move.added? := by
      rw [List.filterMap_cons]
      cases m.added? <;> rfl
    rw [hadded, ← List.append_assoc]
    exact ih (h.move m)

end Keeps

end Scene

/-! ## The entries after any additions -/

namespace Directory

/-- Entries are added to a fresh directory, at first and while all kinds of queries are evaluated.
No two of its entries have names that are the same.  Under the name of each added entry there is one
entry, the one that was added last under that name, and nothing else is there.  The entries stand in
the order in which their names were added first: a further entry takes the place of the one that has
its name and leaves all others as they are, or it goes behind them if its name is new. -/
theorem entries_exact (es : List Entry) (pool : Pool) (snapshots : Snapshots)
    (moves : List Move) :
    let start : Scene := ⟨⟨⟨Directory.empty.addAll es, pool⟩, snapshots⟩, []⟩
    let d := (moves.foldl Scene.move start).workspace.service.directory
    let added := es ++ moves.filterMap Move.added?
    d.entries.Pairwise (fun a b => DistinguishedName.same a.dn b.dn = false) ∧
    (∀ e ∈ added, ∃ last, latest? added e.dn = some last ∧
      d.entries.filter (fun o => o.isNamed e.dn) = [last]) ∧
    (∀ e ∈ d.entries, e ∈ added) ∧
    d.entries.Pairwise (fun a b => firstAt added a.dn < firstAt added b.dn) ∧
    ∀ e, (d.add e).entries = if d.entries.any fun o => o.isNamed e.dn
      then d.entries.map fun o => o.replacedBy e else d.entries ++ [e] := by
  intro start d added
  have hstart : start.Keeps es := keeps_empty.addAll es
  have hkeeps : Keeps d.entries added := hstart.moves moves
  refine ⟨hkeeps.distinct, fun e he => ?_, fun e he => ?_, hkeeps.ordered,
    entries_add hkeeps.distinct⟩
  · rcases hlast : latest? added e.dn with - | last
    · have hother := latest?_eq_none_iff.1 hlast e he
      rw [e.isNamed_dn] at hother
      cases hother
    · exact ⟨last, rfl, by rw [hkeeps.latest, hlast, Option.toList_some]⟩
  · have hfound : e ∈ d.entries.filter fun o => o.isNamed e.dn :=
      List.mem_filter.2 ⟨he, e.isNamed_dn⟩
    rw [hkeeps.latest] at hfound
    exact (mem_of_latest? (Option.mem_toList.1 hfound)).1

/-- Ann's entry is replaced before a search and Bob's after it, both under another spelling of the
name. -/
theorem entries_exact_respelled :
    let ann := Entry.named "uid=ann,dc=org"
    let ann' := (Entry.named "UID=Ann, DC=org").insert "mail" [.text "ann@org"]
    let bob := Entry.named "uid=bob,dc=org"
    let bob' := Entry.named "uid=bob , dc=ORG"
    let cyd := Entry.named "uid=cyd,dc=org"
    let all : Query := .search ⟨0, .default⟩ ⟨"", .subtree, none⟩
    let start : Scene := ⟨⟨⟨Directory.empty.addAll [ann, bob, ann'],
      .ofConfig (.ofPrimary "localhost")⟩, .empty⟩, []⟩
    let d := ([.add cyd, .fetch all, .add bob'].foldl Scene.move start).workspace.service.directory
    d.entries = [ann', bob', cyd] ∧ bob ∈ [ann, bob, ann', cyd, bob'] ∧
      latest? [ann, bob, ann', cyd, bob'] bob.dn = some bob' ∧
      d.entries.filter (fun o => o.isNamed bob.dn) = [bob'] := by
  intro ann ann' bob bob' cyd all start d
  have hadded : bob ∈ [ann, bob, ann', cyd, bob'] := by decide
  have hlatest : latest? [ann, bob, ann', cyd, bob'] bob.dn = some bob' := by decide +kernel
  have hentries : d.entries = [ann', bob', cyd] := by decide +kernel
  obtain ⟨-, hone, -⟩ := entries_exact [ann, bob, ann'] (.ofConfig (.ofPrimary "localhost"))
    .empty [.add cyd, .fetch all, .add bob']
  obtain ⟨last, hlast, hfilter⟩ := hone bob hadded
  have hbob : last = bob' := Option.some.inj (hlast.symm.trans hlatest)
  rw [hbob] at hfilter
  subst d start
  exact ⟨hentries, hadded, hlatest, hfilter⟩

end Directory

end DirectoryQuery
