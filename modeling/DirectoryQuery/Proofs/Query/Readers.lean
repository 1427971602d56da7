import DirectoryQuery.Proofs.Query.Custody

/-!
# Many readers on one pool

A `Scene` is a workspace with any number of readers, each going through the results of some query.
Moves create readers, ask them for their next entry and drop them, in any order, and evaluate
queries, change the directory and set up failures in between.  A reader is written an account as the
moves go: how often it was asked, whether it has come to its end, how many searches it started, and
how many sessions it took and gave back.  The account is read off the counters of the pool and the
directory and takes no part in what happens.

`Scene.Sound` is the invariant: the books of the service are in order with what the readers hold,
and every account is sound.  Each move keeps it (`Scene.sound_move`), hence each sequence of moves,
and `Scene.custody_of_moves` says what this comes to.
-/

namespace DirectoryQuery

/-- Results that somebody goes through, and the account of it. -/
structure Reader where
  /-- The results, none once they were dropped. -/
  results : Option Results
  polls : Nat
  /-- Whether the results came to their end or failed. -/
  isOver : Bool
  searches : Nat
  taken : Nat
  returned : Nat

namespace Reader

/-- The reader of results that were not asked for anything yet. -/
def ofResults (r : Results) : Reader where
  results := some r
  polls := 0
  isOver := false
  searches := 0
  taken := 0
  returned := 0

def isLive (r : Reader) : Bool :=
  r.results.isSome

/-- What the reader holds and may still do. -/
def stake (r : Reader) : Stake :=
  match r.results with
  | some results => results.stream.stake
  | none => .settled

/-- The sessions that the reader holds. -/
def held (r : Reader) : List Session :=
  r.stake.held

/-- The reader with new results, its account brought up to date by what the service counted. -/
def update (r : Reader) (results : Option Results) (before after : Service) : Reader :=
  { r with
    results
    searches := r.searches + (after.directory.searches.length - before.directory.searches.length)
    taken := r.taken + (after.pool.handedOut - before.pool.handedOut)
    returned := r.returned + (after.pool.handedBack - before.pool.handedBack) }

/-- Whether an answer is an entry. -/
def isEntry : Option (Except QueryError Entry) → Bool
  | some (.ok _) => true
  | _ => false

/-- The reader after it got an answer. -/
def polled (r : Reader) (answer : Option (Except QueryError Entry)) (results : Results)
    (before after : Service) : Reader :=
  { r.update (some results) before after with
    polls := r.polls + 1
    isOver := r.isOver || !isEntry answer }

end Reader

/-- A workspace and all readers that were ever created on it. -/
structure Scene where
  workspace : Workspace
  readers : List Reader

/-- What can happen in a scene. -/
inductive Move where
  /-- A reader of the results of a query is created. -/
  | create (q : Query)
  /-- A reader is asked for its next entry. -/
  | poll (i : Nat)
  | drop (i : Nat)
  | fetch (q : Query)
  | count (q : Query)
  | one (q : Query)
  | get (q : Query) (index : Nat)
  | aggregate (q : Query) (as : Aggregations)
  | add (e : Entry)
  | setDown (server : String) (isDown : Bool)
  | failNextSearch (e : DirectoryError)
  | failNextAbandon (e : DirectoryError)

namespace Scene

/-- The sessions that the readers hold. -/
def held (s : Scene) : List Session :=
  s.readers.flatMap Reader.held

/-- Asks a reader for its next entry.  Nothing happens when there is none or it was dropped. -/
def poll (s : Scene) (i : Nat) : Scene :=
  match s.readers[i]? with
  | none => s
  | some reader =>
    match reader.results with
    | none => s
    | some results =>
      let (answer, results, workspace) := results.next s.workspace
      ⟨workspace, s.readers.set i
        (reader.polled answer results s.workspace.service workspace.service)⟩

/-- Drops a reader, which closes its results. -/
def drop (s : Scene) (i : Nat) : Scene :=
  match s.readers[i]? with
  | none => s
  | some reader =>
    match reader.results with
    | none => s
    | some results =>
      let workspace := results.close s.workspace
      ⟨workspace,
        s.readers.set i (reader.update none s.workspace.service workspace.service)⟩

/-- Changes the directory. -/
def onDirectory (s : Scene) (change : Directory → Directory) : Scene :=
  { s with workspace.service.directory := change s.workspace.service.directory }

/-- The scene after a move. -/
def move (s : Scene) : Move → Scene
  | .create q => { s with readers := s.readers ++ [.ofResults (q.results s.workspace.snapshots)] }
  | .poll i => s.poll i
  | .drop i => s.drop i
  | .fetch q => { s with workspace := (q.fetch s.workspace).2 }
  | .count q => { s with workspace := (q.count s.workspace).2 }
  | .one q => { s with workspace := (q.one s.workspace).2 }
  | .get q index => { s with workspace := (q.get index s.workspace).2 }
  | .aggregate q as => { s with workspace := (q.aggregate as s.workspace).2.2 }
  | .add e => s.onDirectory (·.add e)
  | .setDown server isDown => s.onDirectory (·.setDown server isDown)
  | .failNextSearch e => s.onDirectory (·.failNextSearch e)
  | .failNextAbandon e => s.onDirectory (·.failNextAbandon e)

end Scene

/-! ## Sound accounts -/

/-- The account of a reader agrees with what it holds and may still do. -/
structure Reader.Sound (r : Reader) : Prop where
  searches : r.searches + r.stake.asks ≤ 1
  taken : r.taken + r.stake.takes ≤ 1
  returned : r.taken = r.returned + r.held.length
  evenly : r.stake.takes = r.stake.asks
  opened : r.held.length ≤ r.searches
  unpolled : r.polls = 0 → r.held = []
  atEnd : r.isOver = true → r.stake = .settled

namespace Reader

variable {r r' : Reader} {before after : Service}

lemma sound_ofResults (q : Query) (snapshots : Snapshots) :
    (ofResults (q.results snapshots)).Sound := by
  have hpending : (q.stream snapshots).pending ≤ 1 := Stream.pending_stream_le q
  have hheld : (ofResults (q.results snapshots)).held = [] :=
    congrArg Stake.held (Stream.stake_stream q)
  exact
    { searches := by
        show 0 + (q.stream snapshots).pending ≤ 1
        omega
      taken := by
        show 0 + (q.stream snapshots).pending ≤ 1
        omega
      returned := by
        rw [hheld]
        rfl
      evenly := rfl
      opened := by
        rw [hheld]
        exact Nat.zero_le _
      unpolled := fun _ => hheld
      atEnd := fun h => by cases h }

/-- Who was dropped holds nothing. -/
lemma held_of_dropped (h : r.isLive = false) : r.held = [] := by
  have hresults : r.results = none := by simpa [isLive] using h
  rw [held, stake, hresults]
  rfl

/-- A session is held only between the call that opened the search and the end. -/
lemma Sound.of_held (h : r.Sound) (hheld : r.held ≠ []) :
    0 < r.polls ∧ r.searches = 1 ∧ r.isOver = false ∧ r.isLive = true := by
  have hsearches := h.searches
  have hopened := h.opened
  have hlength : r.held.length ≠ 0 := mt List.length_eq_zero_iff.1 hheld
  refine ⟨Nat.pos_of_ne_zero (mt h.unpolled hheld), by omega, ?_, ?_⟩
  · apply eq_false_of_ne_true
    intro hover
    exact hheld (congrArg Stake.held (h.atEnd hover))
  · apply eq_true_of_ne_false
    intro hdropped
    exact hheld (held_of_dropped hdropped)

/-- An account that is brought up to date stays sound. -/
lemma Sound.next (h : r.Sound) (results : Option Results)
    (hdealings : r.stake.Dealings before (r.update results before after).stake after)
    (hevenly : (r.update results before after).stake.takes =
      (r.update results before after).stake.asks)
    {polls : Nat} {isOver : Bool}
    (hpolls : polls = 0 → (r.update results before after).held = [])
    (hover : isOver = true →
      r.isOver = true ∨ (r.update results before after).stake = .settled) :
    Sound { r.update results before after with polls, isOver } := by
  have hheld : r.held = r.stake.held := rfl
  have hheld' : (r.update results before after).held =
    (r.update results before after).stake.held := rfl
  have hreturned := h.returned
  rw [hheld] at hreturned
  have hopened := h.opened
  rw [hheld] at hopened
  exact
    { searches := by
        show r.searches + (after.directory.searches.length - before.directory.searches.length) +
          (r.update results before after).stake.asks ≤ 1
        have hsearches := h.searches
        have hasks := hdealings.asks
        have hle := hdealings.searches_le
        omega
      taken := by
        show r.taken + (after.pool.handedOut - before.pool.handedOut) +
          (r.update results before after).stake.takes ≤ 1
        have htaken := h.taken
        have htakes := hdealings.takes
        have hle := hdealings.out_le
        omega
      returned := by
        show r.taken + (after.pool.handedOut - before.pool.handedOut) =
          r.returned + (after.pool.handedBack - before.pool.handedBack) +
            (r.update results before after).stake.held.length
        have hhanded := hdealings.handed
        have hout := hdealings.out_le
        have hback := hdealings.back_le
        omega
      evenly := hevenly
      opened := by
        show (r.update results before after).stake.held.length ≤
          r.searches + (after.directory.searches.length - before.directory.searches.length)
        have heven := h.evenly
        have hopens := hdealings.opens
        have hle := hdealings.searches_le
        omega
      unpolled := hpolls
      atEnd := by
        intro hisOver
        obtain hbefore | hnow := hover hisOver
        · rw [h.atEnd hbefore] at hdealings
          exact hdealings.eq_settled
        · exact hnow }

end Reader

namespace Scene

/-- The books are in order with what the readers hold, and so are the accounts of the readers. -/
structure Sound (s : Scene) : Prop where
  balanced : s.workspace.service.Balanced s.held
  readers : ∀ r ∈ s.readers, r.Sound

variable {s : Scene}

lemma exists_split {i : Nat} {reader : Reader} (h : s.readers[i]? = some reader) :
    ∃ l₁ l₂, s.readers = l₁ ++ reader :: l₂ ∧
      ∀ reader', s.readers.set i reader' = l₁ ++ reader' :: l₂ := by
  obtain ⟨hi, rfl⟩ := List.getElem?_eq_some_iff.1 h
  refine ⟨s.readers.take i, s.readers.drop (i + 1), ?_, fun reader' => ?_⟩
  · simp
  · rw [List.set_eq_take_append_cons_drop, if_pos hi]

/-- The sessions of all readers are those of one of them and those of the others. -/
lemma perm_held {l₁ l₂ : List Reader} (reader : Reader) :
    ((l₁ ++ reader :: l₂).flatMap Reader.held).Perm
      (reader.held ++ (l₁ ++ l₂).flatMap Reader.held) := by
  rw [List.flatMap_append, List.flatMap_cons, List.flatMap_append, ← List.append_assoc,
    ← List.append_assoc]
  exact List.perm_append_comm.append_right _

/-- A scene stays sound when one reader deals with the service. -/
lemma Sound.replace (hs : s.Sound) {i : Nat} {reader reader' : Reader} {w : Workspace}
    (h : s.readers[i]? = some reader)
    (hkeeps : reader.stake.Keeps s.workspace.service reader'.stake w.service)
    (hreader : reader.stake.Dealings s.workspace.service reader'.stake w.service →
      reader'.Sound) : Sound ⟨w, s.readers.set i reader'⟩ := by
  obtain ⟨l₁, l₂, hsplit, hset⟩ := exists_split h
  have hheld : s.held.Perm (reader.held ++ (l₁ ++ l₂).flatMap Reader.held) := by
    rw [held, hsplit]
    exact perm_held reader
  obtain ⟨hbalanced, hdealings⟩ := hkeeps _ (hs.balanced.perm hheld)
  constructor
  · show w.service.Balanced ((s.readers.set i reader').flatMap Reader.held)
    rw [hset]
    exact hbalanced.perm (perm_held reader').symm
  · show ∀ r ∈ s.readers.set i reader', r.Sound
    intro r hr
    rcases List.mem_or_eq_of_mem_set hr with hr | rfl
    · exact hs.readers r hr
    · exact hreader hdealings

lemma sound_poll (hs : s.Sound) (i : Nat) : (s.poll i).Sound := by
  cases hreader : s.readers[i]? with
  | none =>
    simp only [poll, hreader]
    exact hs
  | some reader =>
    cases hresults : reader.results with
    | none =>
      simp only [poll, hreader, hresults]
      exact hs
    | some results =>
      rcases hnext : results.next s.workspace with ⟨answer, results', w⟩
      have hstake : reader.stake = results.stream.stake := by
        rw [Reader.stake, hresults]
      have hkeeps : reader.stake.Keeps s.workspace.service
          (reader.polled answer results' s.workspace.service w.service).stake w.service :=
        hstake ▸ Results.covers_next Stake.covers_keeps hnext
      have hsound := hs.readers reader (List.mem_of_getElem? hreader)
      simp only [poll, hreader, hresults, hnext]
      apply hs.replace hreader hkeeps
      intro hdealings
      apply hsound.next (some results') hdealings rfl (fun h => absurd h (Nat.succ_ne_zero _))
      intro hisOver
      rw [Bool.or_eq_true] at hisOver
      apply hisOver.imp_right
      intro hanswer
      refine (Results.isSpent_next hnext ?_).stake_eq
      rintro e rfl
      cases hanswer

lemma sound_drop (hs : s.Sound) (i : Nat) : (s.drop i).Sound := by
  cases hreader : s.readers[i]? with
  | none =>
    simp only [drop, hreader]
    exact hs
  | some reader =>
    cases hresults : reader.results with
    | none =>
      simp only [drop, hreader, hresults]
      exact hs
    | some results =>
      have hstake : reader.stake = results.stream.stake := by
        rw [Reader.stake, hresults]
      have hkeeps : reader.stake.Keeps s.workspace.service
          (reader.update none s.workspace.service (results.close s.workspace).service).stake
            (results.close s.workspace).service :=
        hstake ▸ Stream.covers_close Stake.covers_keeps results.stream
      have hsound := hs.readers reader (List.mem_of_getElem? hreader)
      simp only [drop, hreader, hresults]
      apply hs.replace hreader hkeeps
      intro hdealings
      exact hsound.next none hdealings rfl (fun _ => rfl) fun _ => .inr rfl

/-- An evaluation leaves the readers alone and nothing behind. -/
lemma sound_evaluate (hs : s.Sound) {q : Query} {w : Workspace} {error : Option QueryError}
    (h : q.Evaluates s.workspace error w) : Sound { s with workspace := w } :=
  ⟨(h.covers Stake.covers_keeps s.held hs.balanced).1, hs.readers⟩

lemma sound_onDirectory (hs : s.Sound) (change : Directory → Directory)
    (h : ∀ d : Directory, d.openSessions = (change d).openSessions ∧
      d.sessionsBound = (change d).sessionsBound) : (s.onDirectory change).Sound := by
  obtain ⟨hopen, hbound⟩ := h s.workspace.service.directory
  refine ⟨?_, hs.readers⟩
  exact
    { allOpen := hs.balanced.allOpen
      distinct := hs.balanced.distinct
      known := fun t ht => hbound ▸ hs.balanced.known t ht
      openSessions := hopen ▸ hs.balanced.openSessions
      created := hs.balanced.created }

lemma sound_create (hs : s.Sound) (q : Query) : (s.move (.create q)).Sound := by
  have hheld : (Reader.ofResults (q.results s.workspace.snapshots)).held = [] :=
    congrArg Stake.held (Stream.stake_stream q)
  constructor
  · show s.workspace.service.Balanced
      ((s.readers ++ [Reader.ofResults (q.results s.workspace.snapshots)]).flatMap Reader.held)
    rw [List.flatMap_append, List.flatMap_singleton, hheld, List.append_nil]
    exact hs.balanced
  · intro r hr
    rcases List.mem_append.1 hr with hr | hr
    · exact hs.readers r hr
    · rw [List.mem_singleton.1 hr]
      exact Reader.sound_ofResults q _

/-- Every move keeps a scene sound. -/
theorem sound_move (hs : s.Sound) (m : Move) : (s.move m).Sound := by
  cases m with
  | create q => exact sound_create hs q
  | poll i => exact sound_poll hs i
  | drop i => exact sound_drop hs i
  | fetch q => exact sound_evaluate hs (q.evaluates_fetch s.workspace)
  | count q => exact sound_evaluate hs (q.evaluates_count s.workspace)
  | one q => exact sound_evaluate hs (q.evaluates_one s.workspace)
  | get q index => exact sound_evaluate hs (q.evaluates_get s.workspace index)
  | aggregate q as => exact sound_evaluate hs (q.evaluates_aggregate s.workspace as)
  | add e => exact sound_onDirectory hs (·.add e) fun _ => ⟨rfl, rfl⟩
  | setDown server isDown =>
    exact sound_onDirectory hs (·.setDown server isDown) fun _ => ⟨rfl, rfl⟩
  | failNextSearch e => exact sound_onDirectory hs (·.failNextSearch e) fun _ => ⟨rfl, rfl⟩
  | failNextAbandon e => exact sound_onDirectory hs (·.failNextAbandon e) fun _ => ⟨rfl, rfl⟩

lemma sound_moves (hs : s.Sound) (moves : List Move) : (moves.foldl move s).Sound := by
  induction moves generalizing s with
  | nil => exact hs
  | cons m moves ih => exact ih (sound_move hs m)

lemma sound_start {config : PoolConfig} {d : Directory} {svc : Service}
    (hservice : Service.ofConfig config d = .ok svc) (hopen : d.openSessions = 0)
    (snapshots : Snapshots) : Sound ⟨⟨svc, snapshots⟩, []⟩ := by
  unfold Service.ofConfig at hservice
  split at hservice
  · cases hservice
  · cases hservice
    refine ⟨?_, fun r hr => absurd hr List.not_mem_nil⟩
    exact
      { allOpen := fun t ht => absurd ht List.not_mem_nil
        distinct := List.nodup_nil
        known := fun t ht => absurd ht List.not_mem_nil
        openSessions := hopen
        created := rfl }

/-- Whatever happens on a fresh service, and in whatever order: a reader holds at most one session,
for the one search that it started, and only between the call that opened the search and its end;
it gives back what it took, once; and the open sessions are those that are idle or held. -/
theorem custody_of_moves {config : PoolConfig} {d : Directory} {svc : Service}
    (hservice : Service.ofConfig config d = .ok svc) (hopen : d.openSessions = 0)
    (snapshots : Snapshots) (moves : List Move) :
    let s := moves.foldl move ⟨⟨svc, snapshots⟩, []⟩
    let pool := s.workspace.service.pool
    let openSessions := s.workspace.service.directory.openSessions
    (∀ r ∈ s.readers, r.held.length ≤ 1 ∧ r.searches ≤ 1 ∧ r.taken ≤ 1 ∧
        r.taken = r.returned + r.held.length ∧
        (r.held ≠ [] → 0 < r.polls ∧ r.searches = 1 ∧ r.isOver = false ∧ r.isLive = true)) ∧
      (∀ t ∈ pool.idle ++ s.held, t.isOpen = true) ∧
      ((pool.idle ++ s.held).map Session.id).Nodup ∧
      openSessions = pool.idle.length + s.held.length ∧
      pool.created = pool.closed + pool.idle.length + s.held.length ∧
      ((∀ r ∈ s.readers, r.isLive = false) → openSessions = pool.idle.length) := by
  intro s pool openSessions
  have hs : s.Sound := sound_moves (sound_start hservice hopen snapshots) moves
  refine ⟨fun r hr => ?_, hs.balanced.allOpen, hs.balanced.distinct, hs.balanced.openSessions,
    hs.balanced.created, fun hdropped => ?_⟩
  · have hsound := hs.readers r hr
    have hsearches := hsound.searches
    have htaken := hsound.taken
    have hopened := hsound.opened
    exact ⟨by omega, by omega, by omega, hsound.returned, hsound.of_held⟩
  · have hheld : s.held = [] :=
      List.flatMap_eq_nil_iff.2 fun r hr => Reader.held_of_dropped (hdropped r hr)
    have hbooks := hs.balanced.openSessions
    rw [hheld, List.length_nil, Nat.add_zero] at hbooks
    exact hbooks

/-- With two entries on the page, a reader that was asked once holds the one open session. -/
theorem custody_of_one_reader :
    let s := [Move.create (.search ⟨0, .default⟩ ⟨"", .subtree, none⟩), .poll 0].foldl move
      ⟨⟨⟨Directory.empty.addAll [.named "cn=a", .named "cn=b"], .ofConfig (.ofPrimary "localhost")⟩,
        .empty⟩, []⟩
    s.held.length = 1 ∧
      s.workspace.service.directory.openSessions =
        s.workspace.service.pool.idle.length + s.held.length := by
  refine ⟨by decide +kernel, ?_⟩
  have hservice : Service.ofConfig (.ofPrimary "localhost")
      (Directory.empty.addAll [.named "cn=a", .named "cn=b"]) =
        .ok ⟨Directory.empty.addAll [.named "cn=a", .named "cn=b"],
          .ofConfig (.ofPrimary "localhost")⟩ := rfl
  obtain ⟨-, -, -, hopen, -⟩ := custody_of_moves hservice rfl .empty
    [.create (.search ⟨0, .default⟩ ⟨"", .subtree, none⟩), .poll 0]
  exact hopen

end Scene

end DirectoryQuery
