import DirectoryQuery.Pool.Lease
import DirectoryQuery.Proofs.Directory.Paging

/-!
# Who holds the sessions of a pool

`Service.Balanced` says that the books of a service are in order when certain sessions are held
outside of the pool: every open session is idle or held, no session is in two places, and the
counters add up.

Somebody who uses sessions has a `Stake`: the sessions held at the moment, and bounds on how many
more may be taken and how many searches may still be started.  `Stake.Keeps` relates what is at
stake before and after some dealings with a service.  Whatever others hold besides, the books stay
in order, what was taken is held or was handed back, and the bounds shrink by what was used up.
These dealings compose (`Stake.Keeps.trans`), so it is enough to look at one request at a time.
-/

namespace DirectoryQuery

/-- The number of times that a session was handed out. -/
def Pool.handedOut (p : Pool) : Nat :=
  p.created + p.reused

/-- The number of times that a session was taken back. -/
def Pool.handedBack (p : Pool) : Nat :=
  p.released + p.closed

/-- The books are in order when these sessions are held outside of the pool. -/
structure Service.Balanced (svc : Service) (held : List Session) : Prop where
  allOpen : ∀ s ∈ svc.pool.idle ++ held, s.isOpen = true
  distinct : ((svc.pool.idle ++ held).map Session.id).Nodup
  known : ∀ s ∈ svc.pool.idle ++ held, s.id < svc.directory.sessionsBound
  openSessions : svc.directory.openSessions = svc.pool.idle.length + held.length
  created : svc.pool.created = svc.pool.closed + svc.pool.idle.length + held.length

/-- What somebody holds and may still do. -/
structure Stake where
  held : List Session
  /-- The most sessions that may still be taken. -/
  takes : Nat
  /-- The most searches that may still be started. -/
  asks : Nat

/-- Nothing held and nothing to come. -/
def Stake.settled : Stake :=
  ⟨[], 0, 0⟩

/-- What the counters say about dealings that turn one stake into another. -/
structure Stake.Dealings (a : Stake) (svc : Service) (b : Stake) (svc' : Service) : Prop where
  handed : svc'.pool.handedOut + a.held.length + svc.pool.handedBack =
    svc.pool.handedOut + b.held.length + svc'.pool.handedBack
  takes : svc'.pool.handedOut + b.takes ≤ svc.pool.handedOut + a.takes
  asks : svc'.directory.searches.length + b.asks ≤ svc.directory.searches.length + a.asks
  /-- No session is taken but for a search that is then started. -/
  opens : b.held.length + b.takes + a.asks + svc.directory.searches.length ≤
    a.held.length + a.takes + b.asks + svc'.directory.searches.length
  out_le : svc.pool.handedOut ≤ svc'.pool.handedOut
  back_le : svc.pool.handedBack ≤ svc'.pool.handedBack
  searches_le : svc.directory.searches.length ≤ svc'.directory.searches.length

/-- The dealings turn one stake into another and keep the books in order, whatever others hold. -/
def Stake.Keeps (a : Stake) (svc : Service) (b : Stake) (svc' : Service) : Prop :=
  ∀ others, svc.Balanced (a.held ++ others) →
    svc'.Balanced (b.held ++ others) ∧ a.Dealings svc b svc'

namespace Stake

lemma Dealings.refl (a : Stake) (svc : Service) : a.Dealings svc a svc where
  handed := rfl
  takes := Nat.le_refl _
  asks := Nat.le_refl _
  opens := Nat.le_refl _
  out_le := Nat.le_refl _
  back_le := Nat.le_refl _
  searches_le := Nat.le_refl _

lemma Dealings.trans {a b c : Stake} {svc svc' svc'' : Service} (h : a.Dealings svc b svc')
    (k : b.Dealings svc' c svc'') : a.Dealings svc c svc'' where
  handed := by
    have h₁ := h.handed
    have h₂ := k.handed
    omega
  takes := by
    have h₁ := h.takes
    have h₂ := k.takes
    omega
  asks := by
    have h₁ := h.asks
    have h₂ := k.asks
    omega
  opens := by
    have h₁ := h.opens
    have h₂ := k.opens
    omega
  out_le := Nat.le_trans h.out_le k.out_le
  back_le := Nat.le_trans h.back_le k.back_le
  searches_le := Nat.le_trans h.searches_le k.searches_le

/-- Who has nothing at stake takes nothing and starts nothing. -/
lemma Dealings.eq_settled {b : Stake} {svc svc' : Service}
    (h : settled.Dealings svc b svc') : b = settled := by
  have htakes := h.takes
  have hasks := h.asks
  have hopens := h.opens
  have hout := h.out_le
  have hsearches := h.searches_le
  obtain ⟨held, takes, asks⟩ := b
  simp only [settled, List.length_nil] at htakes hasks hopens
  obtain rfl : takes = 0 := by omega
  obtain rfl : asks = 0 := by omega
  obtain rfl : held = [] := List.length_eq_zero_iff.1 (by omega)
  rfl

lemma Keeps.refl (a : Stake) (svc : Service) : a.Keeps svc a svc :=
  fun _ h => ⟨h, .refl a svc⟩

lemma Keeps.trans {a b c : Stake} {svc svc' svc'' : Service} (h : a.Keeps svc b svc')
    (k : b.Keeps svc' c svc'') : a.Keeps svc c svc'' := by
  intro others hbalanced
  obtain ⟨hmiddle, hfirst⟩ := h others hbalanced
  obtain ⟨hend, hsecond⟩ := k others hmiddle
  exact ⟨hend, hfirst.trans hsecond⟩

end Stake

/-! ## Binding -/

namespace Directory

variable {d d' : Directory} {identity secret : String}

/-- A bind opens one session, under a number that no session had before and with no search. -/
structure Opens (d : Directory) (s : Session) (d' : Directory) : Prop where
  id : s.id = d.sessionsBound
  paged : s.paged = []
  isOpen : s.isOpen = true
  entries : d'.entries = d.entries
  openSessions : d'.openSessions = d.openSessions + 1
  sessionsBound : d'.sessionsBound = d.sessionsBound + 1
  searches : d'.searches = d.searches

lemma bind_error {server : String} {e : DirectoryError}
    (h : d.bind server identity secret = (.error e, d')) :
    d.SameStock d' ∧ d'.searches = d.searches := by
  rw [bind] at h
  simp only at h
  split at h
  · cases h
    exact ⟨⟨rfl, rfl, rfl⟩, rfl⟩
  split at h
  · cases h
  · cases h
    exact ⟨⟨rfl, rfl, rfl⟩, rfl⟩

lemma bind_ok {server : String} {s : Session}
    (h : d.bind server identity secret = (.ok s, d')) : d.Opens s d' := by
  rw [bind] at h
  simp only at h
  split at h
  · cases h
  split at h
  · cases h
    exact ⟨rfl, rfl, rfl, rfl, rfl, rfl, rfl⟩
  · cases h

lemma SameStock.trans {d₁ d₂ d₃ : Directory} (h : d₁.SameStock d₂) (k : d₂.SameStock d₃) :
    d₁.SameStock d₃ :=
  ⟨k.entries.trans h.entries, k.openSessions.trans h.openSessions,
    k.sessionsBound.trans h.sessionsBound⟩

lemma bindFirst_error {tried : Nat} {servers : List String} {e : DirectoryError}
    (h : d.bindFirst identity secret tried servers = (.error e, d')) :
    d.SameStock d' ∧ d'.searches = d.searches := by
  induction servers generalizing d with
  | nil =>
    cases h
    exact ⟨⟨rfl, rfl, rfl⟩, rfl⟩
  | cons server servers ih =>
    unfold bindFirst at h
    split at h
    · cases h
    · rename_i hbind
      cases h
      exact bind_error hbind
    · rename_i hbind
      obtain ⟨hstock, hsearches⟩ := bind_error hbind
      obtain ⟨hstock', hsearches'⟩ := ih h
      exact ⟨hstock.trans hstock', hsearches'.trans hsearches⟩

lemma bindFirst_ok {tried : Nat} {servers : List String} {s : Session}
    (h : d.bindFirst identity secret tried servers = (.ok s, d')) : d.Opens s d' := by
  induction servers generalizing d with
  | nil => cases h
  | cons server servers ih =>
    unfold bindFirst at h
    split at h
    · rename_i hbind
      cases h
      exact bind_ok hbind
    · cases h
    · rename_i hbind
      obtain ⟨hstock, hsearches⟩ := bind_error hbind
      have hopens := ih h
      exact
        { id := hopens.id.trans hstock.sessionsBound
          paged := hopens.paged
          isOpen := hopens.isOpen
          entries := hopens.entries.trans hstock.entries
          openSessions := by rw [hopens.openSessions, hstock.openSessions]
          sessionsBound := by rw [hopens.sessionsBound, hstock.sessionsBound]
          searches := hopens.searches.trans hsearches }

end Directory

namespace Service

variable {svc : Service}

/-! ## Handing out -/

/-- Sessions may go to and fro between the idle ones and those that are held. -/
lemma Balanced.move {svc' : Service} {held held' : List Session} (h : svc.Balanced held)
    (hperm : (svc.pool.idle ++ held).Perm (svc'.pool.idle ++ held'))
    (hstock : svc.directory.SameStock svc'.directory)
    (hcreated : svc'.pool.created = svc.pool.created)
    (hclosed : svc'.pool.closed = svc.pool.closed) : svc'.Balanced held' := by
  have hlength := hperm.length_eq
  rw [List.length_append, List.length_append] at hlength
  have hopen := h.openSessions
  have hbooks := h.created
  exact
    { allOpen := fun s hs => h.allOpen s (hperm.mem_iff.2 hs)
      distinct := (hperm.map Session.id).nodup_iff.1 h.distinct
      known := fun s hs => hstock.sessionsBound ▸ h.known s (hperm.mem_iff.2 hs)
      openSessions := by
        rw [hstock.openSessions]
        omega
      created := by
        rw [hcreated, hclosed]
        omega }

lemma Balanced.perm {held held' : List Session} (h : svc.Balanced held) (hperm : held.Perm held') :
    svc.Balanced held' :=
  h.move (hperm.append_left _) ⟨rfl, rfl, rfl⟩ rfl rfl

/-- Work on a session leaves the books as they are. -/
lemma Balanced.replace {s s' : Session} {others : List Session} {d : Directory}
    (h : svc.Balanced (s :: others)) (hsession : s.SameConnection s')
    (hstock : svc.directory.SameStock d) : Service.Balanced ⟨d, svc.pool⟩ (s' :: others) where
  allOpen t ht := by
    rcases List.mem_append.1 ht with ht | ht
    · exact h.allOpen t (List.mem_append_left _ ht)
    rcases List.mem_cons.1 ht with rfl | ht
    · rw [hsession.isOpen]
      exact h.allOpen s (List.mem_append_right _ List.mem_cons_self)
    · exact h.allOpen t (List.mem_append_right _ (List.mem_cons_of_mem s ht))
  distinct := by
    have hids : (svc.pool.idle ++ s' :: others).map Session.id =
        (svc.pool.idle ++ s :: others).map Session.id := by
      simp [hsession.id]
    exact hids ▸ h.distinct
  known t ht := by
    show t.id < d.sessionsBound
    rw [hstock.sessionsBound]
    rcases List.mem_append.1 ht with ht | ht
    · exact h.known t (List.mem_append_left _ ht)
    rcases List.mem_cons.1 ht with rfl | ht
    · rw [hsession.id]
      exact h.known s (List.mem_append_right _ List.mem_cons_self)
    · exact h.known t (List.mem_append_right _ (List.mem_cons_of_mem s ht))
  openSessions := hstock.openSessions.trans h.openSessions
  created := h.created

/-- A fresh session is one more that is open and held. -/
lemma Balanced.opens {s : Session} {others : List Session} {d : Directory} {pool : Pool}
    (h : svc.Balanced others) (hopens : svc.directory.Opens s d)
    (hidle : pool.idle = svc.pool.idle) (hcreated : pool.created = svc.pool.created + 1)
    (hclosed : pool.closed = svc.pool.closed) : Service.Balanced ⟨d, pool⟩ (s :: others) := by
  have hperm : (pool.idle ++ s :: others).Perm (s :: (svc.pool.idle ++ others)) := by
    rw [hidle]
    exact List.perm_middle
  have hopen := h.openSessions
  have hbooks := h.created
  exact
    { allOpen := by
        intro t ht
        rcases List.mem_cons.1 (hperm.mem_iff.1 ht) with rfl | ht
        · exact hopens.isOpen
        · exact h.allOpen t ht
      distinct := by
        rw [(hperm.map Session.id).nodup_iff, List.map_cons, List.nodup_cons]
        refine ⟨fun hmem => ?_, h.distinct⟩
        obtain ⟨t, ht, hid⟩ := List.mem_map.1 hmem
        have hknown := h.known t ht
        rw [hid, hopens.id] at hknown
        exact Nat.lt_irrefl _ hknown
      known := by
        intro t ht
        show t.id < d.sessionsBound
        rw [hopens.sessionsBound]
        rcases List.mem_cons.1 (hperm.mem_iff.1 ht) with rfl | ht
        · rw [hopens.id]
          exact Nat.lt_succ_self _
        · exact Nat.lt_succ_of_lt (h.known t ht)
      openSessions := by
        show d.openSessions = pool.idle.length + (s :: others).length
        rw [hopens.openSessions, hidle, List.length_cons]
        omega
      created := by
        show pool.created = pool.closed + pool.idle.length + (s :: others).length
        rw [hcreated, hclosed, hidle, List.length_cons]
        omega }

/-- Checking out takes one session. -/
lemma keeps_checkOut {l : Lease} {svc' : Service} (h : svc.checkOut = (.ok l, svc'))
    (takes asks : Nat) : Stake.Keeps ⟨[], takes + 1, asks⟩ svc ⟨[l.session], takes, asks⟩ svc' := by
  intro others hbalanced
  rw [List.nil_append] at hbalanced
  rw [checkOut, acquire, acquireFrom] at h
  cases hidle : svc.pool.idle with
  | cons s rest =>
    simp only [hidle] at h
    cases h
    constructor
    · refine hbalanced.move ?_ ⟨rfl, rfl, rfl⟩ rfl rfl
      rw [hidle]
      exact List.perm_middle.symm
    · constructor <;> simp only [Pool.handedOut, Pool.handedBack, List.length_cons,
        List.length_nil] <;> omega
  | nil =>
    rcases hbind : svc.directory.bindFirst svc.pool.config.bindName svc.pool.config.password
      svc.pool.config.candidates.length svc.pool.config.candidates with ⟨e | s, d⟩
    · simp only [hidle, hbind] at h
      cases h
    · simp only [hidle, hbind] at h
      cases h
      have hopens := Directory.bindFirst_ok hbind
      constructor
      · exact hbalanced.opens hopens hidle.symm rfl rfl
      · constructor <;> simp only [Pool.handedOut, Pool.handedBack, List.length_cons,
          List.length_nil, hopens.searches] <;> omega

lemma keeps_checkOut_error {e : DirectoryError} {svc' : Service}
    (h : svc.checkOut = (.error e, svc')) (a : Stake) :
    a.Keeps svc a svc' := by
  intro others hbalanced
  rw [checkOut, acquire, acquireFrom] at h
  cases hidle : svc.pool.idle with
  | cons s rest =>
    simp only [hidle] at h
    cases h
  | nil =>
    rcases hbind : svc.directory.bindFirst svc.pool.config.bindName svc.pool.config.password
      svc.pool.config.candidates.length svc.pool.config.candidates with ⟨e' | s, d⟩
    · simp only [hidle, hbind] at h
      cases h
      obtain ⟨hstock, hsearches⟩ := Directory.bindFirst_error hbind
      constructor
      · exact hbalanced.move (.refl _) hstock rfl rfl
      · constructor <;> simp only [hsearches] <;> omega
    · simp only [hidle, hbind] at h
      cases h

/-! ## Taking back -/

/-- A held session that is closed is gone from the books. -/
lemma Balanced.closeSession {s : Session} {others : List Session}
    (h : svc.Balanced (s :: others)) : (svc.closeSession s).Balanced others := by
  have hperm : (svc.pool.idle ++ s :: others).Perm (s :: (svc.pool.idle ++ others)) :=
    List.perm_middle
  have hisOpen := h.allOpen s (List.mem_append_right _ List.mem_cons_self)
  have hopen := h.openSessions
  have hbooks := h.created
  have hdistinct := (hperm.map Session.id).nodup_iff.1 h.distinct
  rw [List.map_cons, List.nodup_cons] at hdistinct
  rw [List.length_cons] at hopen hbooks
  have hclose : (s.close svc.directory).2 =
      { svc.directory with openSessions := svc.directory.openSessions - 1 } := by
    rw [Session.close, if_pos hisOpen]
  rw [Service.closeSession, hclose]
  exact
    { allOpen := fun t ht => h.allOpen t (hperm.mem_iff.2 (List.mem_cons_of_mem s ht))
      distinct := hdistinct.2
      known := fun t ht => h.known t (hperm.mem_iff.2 (List.mem_cons_of_mem s ht))
      openSessions := by
        show svc.directory.openSessions - 1 = svc.pool.idle.length + others.length
        omega
      created := by
        show svc.pool.created = svc.pool.closed + 1 + svc.pool.idle.length + others.length
        omega }

lemma searches_close (s : Session) (d : Directory) : (s.close d).2.searches = d.searches := by
  unfold Session.close
  split <;> rfl

lemma keeps_closeSession (s : Session) (takes asks : Nat) :
    Stake.Keeps ⟨[s], takes, asks⟩ svc ⟨[], takes, asks⟩ (svc.closeSession s) := by
  intro others hbalanced
  refine ⟨hbalanced.closeSession, ?_⟩
  constructor <;> simp only [Service.closeSession, Pool.handedOut, Pool.handedBack,
    searches_close, List.length_cons, List.length_nil] <;> omega

/-- Handing back ends the custody of one session, whatever becomes of the session. -/
lemma keeps_giveBack (svc : Service) (l : Lease) (takes asks : Nat) :
    Stake.Keeps ⟨[l.session], takes, asks⟩ svc ⟨[], takes, asks⟩ (svc.giveBack l) := by
  unfold giveBack
  cases l.disposition with
  | evict =>
    have hmark : Stake.Keeps ⟨[l.session], takes, asks⟩ svc ⟨[l.session], takes, asks⟩
        { svc with pool := { svc.pool with evicted := svc.pool.evicted + 1 } } := by
      intro others hbalanced
      refine ⟨hbalanced.move (.refl _) ⟨rfl, rfl, rfl⟩ rfl rfl, ?_⟩
      constructor <;> simp only [Pool.handedOut, Pool.handedBack] <;> omega
    exact hmark.trans (keeps_closeSession l.session takes asks)
  | release =>
    rw [takeBack, release]
    split
    · intro others hbalanced
      constructor
      · refine hbalanced.move ?_ ⟨rfl, rfl, rfl⟩ rfl rfl
        exact List.perm_middle
      · constructor <;> simp only [Pool.handedOut, Pool.handedBack, List.length_cons,
          List.length_nil] <;> omega
    · exact keeps_closeSession l.session takes asks

/-! ## Requests on a session -/

/-- A first page uses up one search. -/
lemma keeps_firstPage {s s' : Session} {request : SearchRequest} {d : Directory}
    {result : Except DirectoryError Page}
    (h : s.page request none svc.directory = (result, s', d)) (takes asks : Nat) :
    Stake.Keeps ⟨[s], takes, asks + 1⟩ svc ⟨[s'], takes, asks⟩ { svc with directory := d } := by
  intro others hbalanced
  have hisOpen := hbalanced.allOpen s (List.mem_append_right _ List.mem_cons_self)
  rw [Session.page, if_pos hisOpen] at h
  obtain ⟨hsession, hstock, hsearches⟩ := Session.firstPage_changes h
  refine ⟨hbalanced.replace hsession hstock, ?_⟩
  constructor <;> simp only [hsearches, List.length_append, List.length_cons,
    List.length_nil] <;> omega

/-- Other requests on a session leave custody as it is. -/
lemma keeps_request {s s' : Session} {d : Directory} (hsession : s.SameConnection s')
    (hstock : svc.directory.SameStock d) (hsearches : d.searches = svc.directory.searches)
    (takes asks : Nat) :
    Stake.Keeps ⟨[s], takes, asks⟩ svc ⟨[s'], takes, asks⟩ { svc with directory := d } := by
  intro others hbalanced
  refine ⟨hbalanced.replace hsession hstock, ?_⟩
  have hlength : d.searches.length = svc.directory.searches.length := congrArg List.length hsearches
  exact
    { handed := rfl
      takes := Nat.le_refl _
      asks := Nat.le_of_eq (congrArg (· + asks) hlength)
      opens := by
        rw [hlength]
        exact Nat.le_refl _
      out_le := Nat.le_refl _
      back_le := Nat.le_refl _
      searches_le := Nat.le_of_eq hlength.symm }

/-- What might still have been done need not be. -/
lemma keeps_fewer {m n : Nat} (h : n ≤ m) : Stake.Keeps ⟨[], m, m⟩ svc ⟨[], n, n⟩ svc := by
  intro others hbalanced
  exact
    ⟨hbalanced,
      { handed := rfl
        takes := Nat.add_le_add_left h _
        asks := Nat.add_le_add_left h _
        opens := by
          show 0 + n + m + _ ≤ 0 + m + n + _
          omega
        out_le := Nat.le_refl _
        back_le := Nat.le_refl _
        searches_le := Nat.le_refl _ }⟩

end Service

end DirectoryQuery
