import DirectoryQuery.Proofs.Query.Custody
import DirectoryQuery.Proofs.Query.Search

/-!
# Services that stay ready

Reading queries changes nothing that decides whether a service can answer: the settings of the pool,
the entries, the servers that are down and the credentials stay, no failure is set up, and every
session that comes back to the pool is open.  `Stake.Spares` says so of any dealings with a service
and bounds the searches that they run, and it covers all that a stream does (`Stake.covers_spares`).
A service that is ready therefore stays so (`Stake.Endures.ready`), as long as the searches that are
still to come can be numbered.
-/

namespace DirectoryQuery

/-! ## Requests -/

/-- Servers can be reached as before, a bind has to present the same, and no failure was set up. -/
structure Directory.Spared (d d' : Directory) : Prop where
  down : d'.down = d.down
  credentials : d'.credentials = d.credentials
  failure : ∀ e, d'.searchFailure = some e → d.searchFailure = some e

namespace Directory

variable {d d' d'' : Directory}

lemma Spared.refl (d : Directory) : d.Spared d := ⟨rfl, rfl, fun _ => id⟩

lemma Spared.trans (h : d.Spared d') (k : d'.Spared d'') : d.Spared d'' :=
  ⟨k.down.trans h.down, k.credentials.trans h.credentials, fun e => h.failure e ∘ k.failure e⟩

lemma Spared.healthy (h : d.Spared d') (hd : d.Healthy) : d'.Healthy := by
  rw [Healthy, Option.eq_none_iff_forall_ne_some]
  intro e he
  have hfailure : d.searchFailure = some e := h.failure e he
  rw [hd] at hfailure
  cases hfailure

lemma Spared.accepts_eq (h : d.Spared d') (identity secret : String) :
    d'.accepts identity secret = d.accepts identity secret := by
  rw [accepts, accepts, h.credentials]

lemma spared_bind (d : Directory) (server identity secret : String) :
    d.Spared (d.bind server identity secret).2 := by
  rw [bind]
  simp only
  split
  · exact ⟨rfl, rfl, fun _ => id⟩
  · split <;> exact ⟨rfl, rfl, fun _ => id⟩

lemma spared_bindFirst (d : Directory) (identity secret : String) (tried : Nat)
    (servers : List String) : d.Spared (d.bindFirst identity secret tried servers).2 := by
  induction servers generalizing d with
  | nil => exact .refl d
  | cons server servers ih =>
    have hbind := d.spared_bind server identity secret
    unfold bindFirst
    split
    · rename_i h
      rw [h] at hbind
      exact hbind
    · rename_i h
      rw [h] at hbind
      exact hbind
    · rename_i h
      rw [h] at hbind
      exact hbind.trans (ih _)

lemma spared_search (d : Directory) (request : SearchRequest) :
    d.Spared (d.search request).2 ∧ (d.search request).2.searchesRun = d.searchesRun := by
  unfold search
  simp only
  split
  · exact ⟨⟨rfl, rfl, nofun⟩, rfl⟩
  split
  · exact ⟨⟨rfl, rfl, fun _ => id⟩, rfl⟩
  split <;> exact ⟨⟨rfl, rfl, fun _ => id⟩, rfl⟩

end Directory

namespace Session

variable {s s' : Session} {request : SearchRequest} {d d' : Directory}

lemma spared_close (s : Session) (d : Directory) : d.Spared (s.close d).2 := by
  rw [close]
  split <;> exact ⟨rfl, rfl, fun _ he => he⟩

lemma spared_abandon {cookie : Cookie} {result : Except DirectoryError Unit}
    (h : s.abandon cookie d = (result, s', d')) : d.Spared d' := by
  unfold abandon at h
  split at h
  · simp only at h
    split at h <;> cases h <;> exact ⟨rfl, rfl, fun _ he => he⟩
  · cases h
    exact .refl d

/-- A first page runs one search at most. -/
lemma spared_page_none {result : Except DirectoryError Page}
    (h : s.page request none d = (result, s', d')) :
    d.Spared d' ∧ d'.searchesRun ≤ d.searchesRun + 1 := by
  rw [page.eq_def] at h
  split at h
  · obtain ⟨hspared, hsearches⟩ := d.spared_search request
    rcases hfound : d.search request with ⟨e | results, d₁⟩
    all_goals
      rw [hfound] at hspared hsearches
      simp only [firstPage, hfound] at h
      cases h
      refine ⟨⟨hspared.down, hspared.credentials, hspared.failure⟩, ?_⟩
    · exact Nat.le_succ_of_le (Nat.le_of_eq hsearches)
    · exact Nat.le_of_eq (congrArg (· + 1) hsearches)
  · cases h
    exact ⟨.refl d, Nat.le_succ _⟩

/-- A further page runs none. -/
lemma spared_page_some {cookie : Cookie} {result : Except DirectoryError Page}
    (h : s.page request (some cookie) d = (result, s', d')) :
    d.Spared d' ∧ d'.searchesRun = d.searchesRun := by
  rw [page.eq_def] at h
  split at h
  · simp only [nextPage] at h
    split at h
    · cases h
      exact ⟨⟨rfl, rfl, by simp⟩, rfl⟩
    split at h
    · cases h
      exact ⟨.refl d, rfl⟩
    split at h <;> cases h <;> exact ⟨.refl d, rfl⟩
  · cases h
    exact ⟨.refl d, rfl⟩

end Session

namespace Service

variable {svc svc' : Service}

lemma spared_checkOut {result : Except DirectoryError Lease} (h : svc.checkOut = (result, svc')) :
    svc'.pool.config = svc.pool.config ∧ svc.directory.Spared svc'.directory ∧
      svc'.pool.idle ⊆ svc.pool.idle := by
  rw [checkOut, acquire, acquireFrom] at h
  cases hidle : svc.pool.idle with
  | cons s rest =>
    simp only [hidle] at h
    cases h
    exact ⟨rfl, .refl _, List.subset_cons_self s rest⟩
  | nil =>
    have hspared := svc.directory.spared_bindFirst svc.pool.config.bindName
      svc.pool.config.password svc.pool.config.candidates.length svc.pool.config.candidates
    rcases hbind : svc.directory.bindFirst svc.pool.config.bindName svc.pool.config.password
      svc.pool.config.candidates.length svc.pool.config.candidates with ⟨e | s, d⟩
    all_goals
      rw [hbind] at hspared
      simp only [hidle, hbind] at h
      cases h
      exact ⟨rfl, hspared, by simp [hidle]⟩

/-- A session that is handed out is open if all idle ones are. -/
lemma isOpen_checkOut {l : Lease} (h : svc.checkOut = (.ok l, svc'))
    (hopen : ∀ s ∈ svc.pool.idle, s.isOpen = true) : l.session.isOpen = true := by
  rw [checkOut, acquire, acquireFrom] at h
  cases hidle : svc.pool.idle with
  | cons s rest =>
    simp only [hidle] at h
    cases h
    exact hopen s (hidle ▸ List.mem_cons_self)
  | nil =>
    rcases hbind : svc.directory.bindFirst svc.pool.config.bindName svc.pool.config.password
      svc.pool.config.candidates.length svc.pool.config.candidates with ⟨e | s, d⟩
    · simp only [hidle, hbind] at h
      cases h
    · simp only [hidle, hbind] at h
      cases h
      exact (Directory.bindFirst_ok hbind).isOpen

end Service

/-! ## Dealings -/

/-- The dealings leave the settings and the entries alone, close no session that is kept, and run no
more searches than they may. -/
structure Stake.Endures (a : Stake) (svc : Service) (b : Stake) (svc' : Service) : Prop where
  config : svc'.pool.config = svc.pool.config
  entries : svc'.directory.entries = svc.directory.entries
  allOpen : (∀ s ∈ svc.pool.idle ++ a.held, s.isOpen = true) →
    ∀ s ∈ svc'.pool.idle ++ b.held, s.isOpen = true
  searchesRun : svc'.directory.searchesRun + b.asks ≤ svc.directory.searchesRun + a.asks

/-- The dealings leave alone all that a service needs to answer. -/
structure Stake.Spares (a : Stake) (svc : Service) (b : Stake) (svc' : Service) : Prop
    extends a.Endures svc b svc' where
  spared : svc.directory.Spared svc'.directory
  asks_le : b.asks ≤ a.asks

namespace Stake

variable {a b c : Stake} {svc svc' svc'' : Service}

lemma Endures.refl (a : Stake) (svc : Service) : a.Endures svc a svc :=
  ⟨rfl, rfl, id, Nat.le_refl _⟩

lemma Endures.trans (h : a.Endures svc b svc') (k : b.Endures svc' c svc'') :
    a.Endures svc c svc'' where
  config := k.config.trans h.config
  entries := k.entries.trans h.entries
  allOpen := k.allOpen ∘ h.allOpen
  searchesRun := Nat.le_trans k.searchesRun h.searchesRun

lemma Spares.refl (a : Stake) (svc : Service) : a.Spares svc a svc :=
  ⟨.refl a svc, .refl _, Nat.le_refl _⟩

lemma Spares.trans (h : a.Spares svc b svc') (k : b.Spares svc' c svc'') :
    a.Spares svc c svc'' :=
  ⟨h.toEndures.trans k.toEndures, h.spared.trans k.spared, Nat.le_trans k.asks_le h.asks_le⟩

/-- A ready service is ready afterwards, if it can be reached as before, the sessions in hand are
open, and there is room for one more search than may still be run. -/
lemma Endures.ready (h : a.Endures svc b svc') (hspared : svc.directory.Spared svc'.directory)
    (hsvc : svc.Ready) (hheld : ∀ s ∈ a.held, s.isOpen = true)
    (hroom : svc.directory.searchesRun + a.asks < Text.maxSize) : svc'.Ready where
  healthy := hspared.healthy hsvc.healthy
  idleOpen s hs :=
    h.allOpen (List.forall_mem_append.2 ⟨hsvc.idleOpen, hheld⟩) s (List.mem_append_left _ hs)
  reachable := by
    rw [h.config, hspared.down]
    exact hsvc.reachable
  accepted := by
    rw [h.config, hspared.accepts_eq]
    exact hsvc.accepted
  entries_le := by
    rw [h.entries]
    exact hsvc.entries_le
  searchesRun_lt := by
    have hsearches := h.searchesRun
    omega

/-- A request on a session that leaves it open. -/
lemma spares_request {s s' : Session} {d : Directory} (hsession : s.SameConnection s')
    (hstock : svc.directory.SameStock d) (hspared : svc.directory.Spared d) {m n : Nat}
    (hle : n ≤ m) (hsearches : d.searchesRun + n ≤ svc.directory.searchesRun + m) :
    Spares ⟨[s], 0, m⟩ svc ⟨[s'], 0, n⟩ { svc with directory := d } where
  config := rfl
  spared := hspared
  entries := hstock.entries
  allOpen hopen := by
    obtain ⟨hidle, hheld⟩ := List.forall_mem_append.1 hopen
    refine List.forall_mem_append.2 ⟨hidle, fun t ht => ?_⟩
    rw [List.mem_singleton.1 ht, hsession.isOpen]
    exact hheld s List.mem_cons_self
  asks_le := hle
  searchesRun := hsearches

lemma spares_closeSession (svc : Service) (s : Session) :
    Spares ⟨[s], 0, 0⟩ svc .settled (svc.closeSession s) where
  config := rfl
  spared := s.spared_close _
  entries := Service.entries_closeSession s
  allOpen hopen := by
    rw [settled, List.append_nil]
    exact (List.forall_mem_append.1 hopen).1
  asks_le := Nat.le_refl _
  searchesRun := Nat.le_of_eq (s.unasked_close _).searchesRun

lemma spares_giveBack (svc : Service) (l : Lease) :
    Spares ⟨[l.session], 0, 0⟩ svc .settled (svc.giveBack l) := by
  unfold Service.giveBack
  cases l.disposition with
  | evict =>
    have hmark : Spares ⟨[l.session], 0, 0⟩ svc ⟨[l.session], 0, 0⟩
        { svc with pool := { svc.pool with evicted := svc.pool.evicted + 1 } } :=
      { Spares.refl ⟨[l.session], 0, 0⟩ svc with config := rfl }
    exact hmark.trans (spares_closeSession _ l.session)
  | release =>
    rw [Service.takeBack, Service.release]
    split
    · exact
        { Spares.refl .settled svc with
          allOpen := fun hopen s hs => by
            rw [settled, List.append_nil] at hs
            exact hopen s (List.perm_append_comm.mem_iff.1 hs) }
    · exact spares_closeSession svc l.session

lemma spares_checkOut {l : Lease} (h : svc.checkOut = (.ok l, svc')) :
    Spares ⟨[], 1, 1⟩ svc ⟨[l.session], 0, 1⟩ svc' where
  config := (Service.spared_checkOut h).1
  spared := (Service.spared_checkOut h).2.1
  entries := Service.entries_checkOut h
  allOpen hopen := by
    rw [List.append_nil] at hopen
    refine List.forall_mem_append.2 ⟨fun t ht => ?_, fun t ht => ?_⟩
    · exact hopen t ((Service.spared_checkOut h).2.2 ht)
    · rw [List.mem_singleton.1 ht]
      exact Service.isOpen_checkOut h hopen
  asks_le := Nat.le_refl _
  searchesRun := Nat.le_of_eq (congrArg (· + 1) (Service.unasked_checkOut h).searchesRun)

lemma spares_checkOut_error {e : DirectoryError} (h : svc.checkOut = (.error e, svc')) :
    Spares ⟨[], 1, 1⟩ svc ⟨[], 1, 1⟩ svc' where
  config := (Service.spared_checkOut h).1
  spared := (Service.spared_checkOut h).2.1
  entries := Service.entries_checkOut h
  allOpen hopen := by
    rw [List.append_nil] at hopen ⊢
    exact fun t ht => hopen t ((Service.spared_checkOut h).2.2 ht)
  asks_le := Nat.le_refl _
  searchesRun := Nat.le_of_eq (congrArg (· + 1) (Service.unasked_checkOut h).searchesRun)

/-- All that a stream does leaves alone what a service needs to answer. -/
lemma covers_spares : Covers Spares where
  refl := .refl
  trans := .trans
  fewer h :=
    { Spares.refl ⟨[], 0, 0⟩ _ with asks_le := h, searchesRun := Nat.add_le_add_left h _ }
  checkOut := spares_checkOut
  checkOut_error := spares_checkOut_error
  giveBack := spares_giveBack
  firstPage h := by
    obtain ⟨hsession, hstock⟩ := Session.page_changes h
    obtain ⟨hspared, hsearches⟩ := Session.spared_page_none h
    exact spares_request hsession hstock hspared (Nat.zero_le 1) hsearches
  nextPage h := by
    obtain ⟨hsession, hstock⟩ := Session.page_changes h
    obtain ⟨hspared, hsearches⟩ := Session.spared_page_some h
    exact spares_request hsession hstock hspared (Nat.le_refl 0) (Nat.le_of_eq hsearches)
  abandon h := by
    obtain ⟨hsession, hstock, -⟩ := Session.abandon_changes h
    exact spares_request hsession hstock (Session.spared_abandon h) (Nat.le_refl 0)
      (Nat.le_of_eq (Session.searchesRun_abandon h))

end Stake

end DirectoryQuery
