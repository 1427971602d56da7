import DirectoryQuery.Proofs.Pool.Desk
import Mathlib.Algebra.GroupWithZero.Nat
import Mathlib.Data.List.Nodup

/-!
# Searches that nobody goes on with

A session remembers the results of a search until its last page was handed out or the search was
abandoned.  Whoever reads the search has the cookie for its next page.  What the session remembers
besides are searches that nobody goes on with (`Session.aside`), and of an idle session that is all
that it remembers (`Service.strays`).

Requests for pages add nothing to them, as long as they succeed and their numbers fit in a cookie
(`Session.aside_of_page_ok`).  A session that goes back to the pool takes along what it remembers,
unless it is closed (`Service.idle_giveBack`).
-/

namespace DirectoryQuery

/-- Cookies can be made for all searches that were started, and for all of their results. -/
structure Directory.FitsCookies (d : Directory) : Prop where
  entries_le : d.entries.length ≤ Text.maxSize
  searchesRun_le : d.searchesRun ≤ Text.maxSize

/-! ## Sessions -/

namespace Session

/-- The number of searches that the session remembers besides the one that a cookie belongs to. -/
def aside (s : Session) (cookie : Option Cookie) : Nat :=
  match cookie.bind Cookie.decode? with
  | some (search, _) => (s.forget search).paged.length
  | none => s.paged.length

/-- The session remembers a search once, and cookies can be made for all of its results. -/
structure Orderly (s : Session) : Prop where
  nodup : (s.paged.map Prod.fst).Nodup
  fits : ∀ p ∈ s.paged, p.2.length ≤ Text.maxSize

variable {s s' : Session} {search : Nat} {results : List Entry}

@[simp] lemma aside_none : s.aside none = s.paged.length := rfl

lemma orderly_of_paged_nil (h : s.paged = []) : s.Orderly where
  nodup := by
    rw [h]
    exact List.nodup_nil
  fits p hp := by
    rw [h] at hp
    cases hp

lemma length_forget_le (s : Session) (search : Nat) :
    (s.forget search).paged.length ≤ s.paged.length :=
  List.length_filter_le _ _

/-- To forget a search is to forget one at most. -/
lemma Orderly.length_le_forget (hs : s.Orderly) (search : Nat) :
    s.paged.length ≤ (s.forget search).paged.length + 1 := by
  have hcount : s.paged.countP (fun p => p.1 == search) ≤ 1 := by
    have h := List.nodup_iff_count_le_one.1 hs.nodup search
    rwa [List.count, List.countP_map] at h
  rw [List.countP_eq_length_filter] at hcount
  have hsplit : s.paged.length =
      (s.paged.filter fun p => p.1 == search).length + (s.forget search).paged.length :=
    List.length_eq_length_filter_add fun p : Nat × List Entry => p.1 == search
  omega

/-- A cookie belongs to one search at most. -/
lemma Orderly.length_le_aside (hs : s.Orderly) (cookie : Option Cookie) :
    s.paged.length ≤ s.aside cookie + 1 := by
  unfold aside
  split
  · exact hs.length_le_forget _
  · exact Nat.le_succ _

lemma Orderly.forget (hs : s.Orderly) (search : Nat) : (s.forget search).Orderly where
  nodup := hs.nodup.sublist (List.filter_sublist.map Prod.fst)
  fits p hp := hs.fits p (List.mem_filter.1 hp).1

lemma Orderly.remember (hs : s.Orderly) (hresults : results.length ≤ Text.maxSize) :
    (s.remember search results).Orderly where
  nodup := by
    refine List.nodup_cons.2 ⟨fun hmem => ?_, (hs.forget search).nodup⟩
    obtain ⟨p, hp, hsearch⟩ := List.mem_map.1 hmem
    have hother := (List.mem_filter.1 hp).2
    rw [hsearch] at hother
    simp at hother
  fits p hp := by
    rcases List.mem_cons.1 hp with rfl | hp
    · exact hresults
    · exact (hs.forget search).fits p hp

lemma forget_remember : (s.remember search results).forget search = s.forget search := by
  simp [forget, remember]

lemma Orderly.length_results_le (hs : s.Orderly) (h : s.results? search = some results) :
    results.length ≤ Text.maxSize := by
  obtain ⟨p, hp, rfl⟩ := Option.map_eq_some_iff.1 h
  exact hs.fits p (List.mem_of_find?_eq_some hp)

/-! ## Requests -/

section Request

variable {request : SearchRequest} {d d' : Directory}

/-- Whatever page is handed out, the other searches stay. -/
lemma aside_deliver {size position : Nat} {page : Page}
    (h : s.deliver size search results position = (page, s')) (hsearch : search ≤ Text.maxSize)
    (hresults : results.length ≤ Text.maxSize) :
    s'.aside page.cookie = (s.forget search).paged.length := by
  obtain hlast | ⟨next, -, hnext, hmore⟩ := s.deliver_cases size search results position
  · rw [hlast] at h
    cases h
    rfl
  · rw [hmore] at h
    cases h
    have hdecode : (some (Cookie.encode search next)).bind Cookie.decode? =
        some (search, next) := by
      rw [Option.bind_some, Cookie.decode?_encode, if_pos ⟨hsearch, by omega⟩]
    rw [aside, hdecode]

lemma Orderly.deliver (hs : s.Orderly) {size position : Nat} {page : Page}
    (h : s.deliver size search results position = (page, s')) : s'.Orderly := by
  obtain hlast | ⟨next, -, -, hmore⟩ := s.deliver_cases size search results position
  · rw [hlast] at h
    cases h
    exact hs.forget search
  · rw [hmore] at h
    cases h
    exact hs

/-- A request that fails leaves the session as it is. -/
lemma eq_of_page_error {cookie : Option Cookie} {e : DirectoryError}
    (h : s.page request cookie d = (.error e, s', d')) : s' = s := by
  rw [page.eq_def] at h
  split at h
  · cases cookie with
    | none =>
      rcases hsearch : d.search request with ⟨e' | found, d₁⟩
      · simp only [firstPage, hsearch] at h
        cases h
        rfl
      · simp only [firstPage, hsearch] at h
        cases h
    | some cookie =>
      simp only [nextPage] at h
      split at h
      · cases h
        rfl
      split at h
      · cases h
        rfl
      split at h
      · cases h
        rfl
      · cases h
  · cases h
    rfl

/-- A page that is handed out leaves no search aside. -/
lemma aside_of_page_ok {cookie : Option Cookie} {page : Page}
    (h : s.page request cookie d = (.ok page, s', d')) (hs : s.Orderly) (hd : d'.FitsCookies) :
    s'.Orderly ∧ s'.aside page.cookie ≤ s.aside cookie := by
  cases cookie with
  | none =>
    obtain ⟨filter, search, -, -, hsearch, hdeliver⟩ := page_none_ok h
    have hentries : d'.entries = d.entries := (page_changes h).2.entries
    have hfound : (d.find request filter).length ≤ Text.maxSize :=
      Nat.le_trans (List.length_filter_le _ _) (hentries ▸ hd.entries_le)
    refine ⟨(hs.remember hfound).deliver hdeliver.symm, ?_⟩
    rw [aside_deliver hdeliver.symm (hsearch ▸ hd.searchesRun_le) hfound, forget_remember]
    exact s.length_forget_le search
  | some cookie =>
    obtain ⟨search, position, results, hdecode, hresults, hdeliver⟩ := page_some_ok h
    refine ⟨hs.deliver hdeliver.symm, ?_⟩
    rw [aside_deliver hdeliver.symm (Cookie.le_of_decode? hdecode).1
      (hs.length_results_le hresults), aside, Option.bind_some, hdecode]

lemma Orderly.abandon (hs : s.Orderly) {cookie : Cookie} {result : Except DirectoryError Unit}
    (h : s.abandon cookie d = (result, s', d')) : s'.Orderly := by
  have hforget : (match cookie.decode? with
      | some (search, _) => s.forget search
      | none => s).Orderly := by
    split
    · exact hs.forget _
    · exact hs
  unfold Session.abandon at h
  split at h
  · simp only at h
    split at h <;> cases h <;> exact hforget
  · cases h
    exact hs

/-- A session forgets the search that is abandoned. -/
lemma length_paged_of_abandon_ok {cookie : Cookie} {result : Unit}
    (h : s.abandon cookie d = (.ok result, s', d')) : s'.paged.length = s.aside (some cookie) := by
  unfold abandon at h
  split at h
  · simp only at h
    split at h
    · cases h
    · cases h
      rw [aside, Option.bind_some]
      cases cookie.decode? <;> rfl
  · cases h

end Request

end Session

/-! ## Pools -/

namespace Service

variable {svc svc' : Service} {l : Lease}

/-- The number of searches that idle sessions remember. -/
def strays (svc : Service) : Nat :=
  (svc.pool.idle.map fun s => s.paged.length).sum

/-- A session that is checked out was idle, or it is new and remembers nothing. -/
lemma idle_checkOut (h : svc.checkOut = (.ok l, svc')) :
    svc.pool.idle = l.session :: svc'.pool.idle ∨
      svc'.pool.idle = svc.pool.idle ∧ l.session.paged = [] := by
  obtain ⟨s, rest, hidle, hacquire⟩ | ⟨s, d, hopens, hacquire⟩ | ⟨e, d, -, hacquire⟩ :=
    svc.acquire_cases
  all_goals
    rw [checkOut, hacquire] at h
    cases h
  · exact .inl hidle
  · exact .inr ⟨rfl, hopens.paged⟩

lemma idle_checkOut_error {e : DirectoryError} (h : svc.checkOut = (.error e, svc')) :
    svc'.pool.idle = svc.pool.idle := by
  obtain ⟨s, rest, -, hacquire⟩ | ⟨s, d, -, hacquire⟩ | ⟨e, d, -, hacquire⟩ := svc.acquire_cases
  all_goals
    rw [checkOut, hacquire] at h
    cases h
  rfl

/-- A session that goes back is idle afterwards, or it is gone. -/
lemma idle_giveBack (svc : Service) (l : Lease) :
    (svc.giveBack l).pool.idle = svc.pool.idle ∨
      l.disposition = .release ∧ (svc.giveBack l).pool.idle = l.session :: svc.pool.idle := by
  unfold giveBack
  cases l.disposition with
  | evict => exact .inl rfl
  | release =>
    rw [takeBack, release]
    split
    · exact .inr ⟨rfl, rfl⟩
    · exact .inl rfl

end Service

end DirectoryQuery
