import DirectoryQuery.Directory.Session
import DirectoryQuery.Proofs.Text.Decimal
import DirectoryQuery.Proofs.Text.Utf8

/-!
# Pages and cookies

A cookie that was made for a position in a search stands for that position, as long as the numbers
fit in 64 bits (`Cookie.decode?_encode`).  A page is the rest of the results, or it is a part of
them that has an end and a cookie for that end (`Session.deliver_cases`).

Requests change little of a directory and little of a session: the entries stay, no session is
opened or closed, and only a first page adds to the searches that were started.
-/

namespace DirectoryQuery

namespace Text

lemma splitAtFirst?_append {α : Type} [BEq α] [LawfulBEq α] {separator : α} {s : List α}
    (h : separator ∉ s) (t : List α) :
    splitAtFirst? separator (s ++ separator :: t) = some (s, t) := by
  induction s with
  | nil => simp [splitAtFirst?]
  | cons c s ih =>
    obtain ⟨hc, hs⟩ := not_or.1 (mt List.mem_cons.2 h)
    rw [List.cons_append, splitAtFirst?, ih hs, if_neg (by simpa using Ne.symm hc)]
    rfl

end Text

/-- A cookie stands for what it was made for, if the numbers fit. -/
lemma Cookie.decode?_encode (search position : Nat) :
    (encode search position).decode? =
      if search ≤ Text.maxSize ∧ position ≤ Text.maxSize then some (search, position)
      else none := by
  have hchars : (toString search ++ ":" ++ toString position).toList =
      Nat.toDigits 10 search ++ ':' :: Nat.toDigits 10 position := by
    simp [Nat.toString_eq_repr]
  have hcolon : ':' ∉ Nat.toDigits 10 search := by
    intro h
    exact absurd (Text.isDigit_of_mem_toDigits h) (by decide)
  rw [decode?, encode, Text.bytesOf, hchars, Text.decode?_encode]
  simp only [Option.bind_eq_bind, Option.bind_some, Text.splitAtFirst?_append hcolon,
    Text.readNat?_toDigits]
  by_cases hs : search ≤ Text.maxSize
  · by_cases hp : position ≤ Text.maxSize
    · simp [hs, hp]
    · simp [hs, hp]
  · simp [hs]

/-- The numbers that a cookie stands for fit. -/
lemma Cookie.le_of_decode? {cookie : Cookie} {search position : Nat}
    (h : cookie.decode? = some (search, position)) :
    search ≤ Text.maxSize ∧ position ≤ Text.maxSize := by
  simp only [decode?, Option.bind_eq_bind, Option.bind_eq_some_iff] at h
  obtain ⟨text, -, parts, -, search', hsearch, position', hposition, h⟩ := h
  cases h
  exact ⟨Text.readNat?_le hsearch, Text.readNat?_le hposition⟩

namespace Session

/-- A page that ends before the results do is full. -/
lemma pageEnd_of_lt {pageSize total position : Nat} (h : pageEnd pageSize total position < total) :
    0 < pageSize ∧ pageEnd pageSize total position = position + pageSize := by
  unfold pageEnd at h ⊢
  split at h
  · omega
  · rename_i hsize
    rw [if_neg hsize]
    omega

variable (s : Session) (pageSize search : Nat) (results : List Entry) (position : Nat)

/-- A page holds all the results that are left, or it ends at a position behind its beginning that
its cookie tells. -/
lemma deliver_cases :
    s.deliver pageSize search results position = (⟨results.drop position, none⟩, s.forget search) ∨
      ∃ next, position < next ∧ next < results.length ∧
        s.deliver pageSize search results position =
          (⟨(results.take next).drop position, some (.encode search next)⟩, s) := by
  by_cases h : pageEnd pageSize results.length position < results.length
  · obtain ⟨hsize, hend⟩ := pageEnd_of_lt h
    refine .inr ⟨pageEnd pageSize results.length position, by omega, h, ?_⟩
    unfold deliver
    simp only [h, if_true]
  · refine .inl ?_
    unfold deliver
    simp only [h, if_false]
    rw [List.take_of_length_le (by omega)]

lemma results?_remember : (s.remember search results).results? search = some results := by
  simp [results?, remember]

end Session

/-! ## What requests leave alone -/

/-- The directory has the same entries and knows the same sessions as before. -/
structure Directory.SameStock (d d' : Directory) : Prop where
  entries : d'.entries = d.entries
  openSessions : d'.openSessions = d.openSessions
  sessionsBound : d'.sessionsBound = d.sessionsBound

/-- The session is the same connection as before, open or closed as it was. -/
structure Session.SameConnection (s s' : Session) : Prop where
  id : s'.id = s.id
  isOpen : s'.isOpen = s.isOpen

namespace Session

lemma SameConnection.refl (s : Session) : s.SameConnection s := ⟨rfl, rfl⟩

lemma sameConnection_deliver (s : Session) (pageSize search : Nat) (results : List Entry)
    (position : Nat) :
    s.SameConnection (s.deliver pageSize search results position).2 := by
  obtain h | ⟨next, -, -, h⟩ := s.deliver_cases pageSize search results position
  · rw [h]
    exact ⟨rfl, rfl⟩
  · rw [h]
    exact .refl s

variable {s s' : Session} {request : SearchRequest} {d d' : Directory}

lemma search_changes {result : Except DirectoryError (List Entry)}
    (h : d.search request = (result, d')) :
    d.SameStock d' ∧ d'.searches = d.searches ++ [request] := by
  unfold Directory.search at h
  simp only at h
  split at h
  · cases h
    exact ⟨⟨rfl, rfl, rfl⟩, rfl⟩
  split at h
  · cases h
    exact ⟨⟨rfl, rfl, rfl⟩, rfl⟩
  split at h
  · cases h
    exact ⟨⟨rfl, rfl, rfl⟩, rfl⟩
  · cases h
    exact ⟨⟨rfl, rfl, rfl⟩, rfl⟩

/-- A first page is a search, whether it succeeds or not. -/
lemma firstPage_changes {result : Except DirectoryError Page}
    (h : s.firstPage request d = (result, s', d')) :
    s.SameConnection s' ∧ d.SameStock d' ∧ d'.searches = d.searches ++ [request] := by
  unfold firstPage at h
  rcases hsearch : d.search request with ⟨found, d₁⟩
  obtain ⟨hstock, hsearches⟩ := search_changes hsearch
  rw [hsearch] at h
  cases found with
  | error e =>
    cases h
    exact ⟨.refl s, hstock, hsearches⟩
  | ok results =>
    cases h
    have hremember : s.SameConnection (s.remember (d₁.searchesRun + 1) results) := ⟨rfl, rfl⟩
    have hdeliver := sameConnection_deliver (s.remember (d₁.searchesRun + 1) results)
      request.pageSize (d₁.searchesRun + 1) results 0
    refine ⟨⟨hdeliver.id.trans hremember.id, hdeliver.isOpen.trans hremember.isOpen⟩, ?_, ?_⟩
    · exact ⟨hstock.entries, hstock.openSessions, hstock.sessionsBound⟩
    · exact hsearches

lemma nextPage_changes {cookie : Cookie} {result : Except DirectoryError Page}
    (h : s.nextPage request cookie d = (result, s', d')) :
    s.SameConnection s' ∧ d.SameStock d' ∧ d'.searches = d.searches := by
  unfold nextPage at h
  split at h
  · cases h
    exact ⟨.refl s, ⟨rfl, rfl, rfl⟩, rfl⟩
  split at h
  · cases h
    exact ⟨.refl s, ⟨rfl, rfl, rfl⟩, rfl⟩
  split at h
  · cases h
    exact ⟨.refl s, ⟨rfl, rfl, rfl⟩, rfl⟩
  · cases h
    exact ⟨sameConnection_deliver .., ⟨rfl, rfl, rfl⟩, rfl⟩

lemma abandon_changes {cookie : Cookie} {result : Except DirectoryError Unit}
    (h : s.abandon cookie d = (result, s', d')) :
    s.SameConnection s' ∧ d.SameStock d' ∧ d'.searches = d.searches := by
  unfold abandon at h
  split at h
  · simp only at h
    split at h
    all_goals
      cases h
      refine ⟨?_, ⟨rfl, rfl, rfl⟩, rfl⟩
      split
      · exact ⟨rfl, rfl⟩
      · exact .refl s
  · cases h
    exact ⟨.refl s, ⟨rfl, rfl, rfl⟩, rfl⟩

lemma page_changes {cookie : Option Cookie} {result : Except DirectoryError Page}
    (h : s.page request cookie d = (result, s', d')) : s.SameConnection s' ∧ d.SameStock d' := by
  rw [page.eq_def] at h
  split at h
  · cases cookie with
    | none =>
      obtain ⟨hsession, hstock, -⟩ := firstPage_changes h
      exact ⟨hsession, hstock⟩
    | some cookie =>
      obtain ⟨hsession, hstock, -⟩ := nextPage_changes h
      exact ⟨hsession, hstock⟩
  · cases h
    exact ⟨.refl s, ⟨rfl, rfl, rfl⟩⟩

/-- A further page is no new search. -/
lemma searches_page_some {cookie : Cookie} {result : Except DirectoryError Page}
    (h : s.page request (some cookie) d = (result, s', d')) : d'.searches = d.searches := by
  rw [page.eq_def] at h
  split at h
  · exact (nextPage_changes h).2.2
  · cases h
    rfl

lemma searchesRun_page_le {cookie : Option Cookie} {result : Except DirectoryError Page}
    (h : s.page request cookie d = (result, s', d')) : d.searchesRun ≤ d'.searchesRun := by
  rw [page.eq_def] at h
  split at h
  · cases cookie with
    | none =>
      have hsearch : (d.search request).2.searchesRun = d.searchesRun := by
        unfold Directory.search
        simp only
        split
        · rfl
        split
        · rfl
        split <;> rfl
      rcases hfound : d.search request with ⟨e | results, d₁⟩
      · simp only [firstPage, hfound] at h
        cases h
        rw [← hsearch, hfound]
      · simp only [firstPage, hfound] at h
        cases h
        rw [← hsearch, hfound]
        exact Nat.le_succ _
    | some cookie =>
      simp only [nextPage] at h
      split at h
      · cases h
        rfl
      split at h
      · cases h
        rfl
      split at h
      · cases h
        rfl
      · cases h
        rfl
  · cases h
    rfl

lemma searchesRun_abandon {cookie : Cookie} {result : Except DirectoryError Unit}
    (h : s.abandon cookie d = (result, s', d')) : d'.searchesRun = d.searchesRun := by
  unfold abandon at h
  split at h
  · simp only at h
    split at h <;> cases h <;> rfl
  · cases h
    rfl

/-! ## Pages that are delivered -/

/-- A search that succeeds reads its filter and finds its base. -/
lemma search_ok {found : List Entry} (h : d.search request = (.ok found, d')) :
    ∃ filter, SearchFilter.parse request.filter = .ok filter ∧ d.hasBase request.base = true ∧
      found = d.find request filter := by
  unfold Directory.search at h
  simp only at h
  split at h
  · cases h
  split at h
  · cases h
  rename_i filter hread
  split at h
  · rename_i hbase
    cases h
    refine ⟨filter, ?_, hbase, rfl⟩
    rw [Directory.readFilter] at hread
    cases hparse : SearchFilter.parse request.filter with
    | error e =>
      rw [hparse] at hread
      cases hread
    | ok filter' =>
      rw [hparse] at hread
      cases hread
      rfl
  · cases h

/-- A first page is the beginning of what the search finds, under the search's number. -/
lemma page_none_ok {result : Page} (h : s.page request none d = (.ok result, s', d')) :
    ∃ filter search, SearchFilter.parse request.filter = .ok filter ∧
      d.hasBase request.base = true ∧ search = d'.searchesRun ∧
      (result, s') = (s.remember search (d.find request filter)).deliver request.pageSize search
        (d.find request filter) 0 := by
  rw [page.eq_def] at h
  split at h
  · unfold firstPage at h
    rcases hsearch : d.search request with ⟨e | found, d₁⟩
    · rw [hsearch] at h
      cases h
    · rw [hsearch] at h
      cases h
      obtain ⟨filter, hparse, hbase, rfl⟩ := search_ok hsearch
      exact ⟨filter, d₁.searchesRun + 1, hparse, hbase, rfl, rfl⟩
  · cases h

/-- Why there is no first page: the session is closed, a failure was set up, the filter cannot be
read, or the base is not there. -/
lemma page_none_error {e : DirectoryError} (h : s.page request none d = (.error e, s', d')) :
    s.isOpen = false ∧ e = closedError ∨ d.searchFailure = some e ∨
      (∃ why : SearchFilter.ParseError, SearchFilter.parse request.filter = .error why ∧
        e = .protocol why.message) ∨
      ∃ filter, SearchFilter.parse request.filter = .ok filter ∧
        d.hasBase request.base = false ∧ e = .noSuchObject request.base := by
  rw [page.eq_def] at h
  split at h
  · unfold firstPage at h
    rcases hsearch : d.search request with ⟨e' | found, d₁⟩
    · rw [hsearch] at h
      cases h
      refine .inr ?_
      unfold Directory.search at hsearch
      simp only at hsearch
      split at hsearch
      · rename_i hfailure
        cases hsearch
        exact .inl hfailure
      refine .inr ?_
      cases hparse : SearchFilter.parse request.filter with
      | error why =>
        simp only [Directory.readFilter, hparse, Except.mapError] at hsearch
        cases hsearch
        exact .inl ⟨why, rfl, rfl⟩
      | ok filter =>
        simp only [Directory.readFilter, hparse, Except.mapError] at hsearch
        split at hsearch
        · cases hsearch
        · rename_i hbase
          cases hsearch
          exact .inr ⟨filter, rfl, eq_false_of_ne_true hbase, rfl⟩
    · rw [hsearch] at h
      cases h
  · rename_i hclosed
    cases h
    exact .inl ⟨eq_false_of_ne_true hclosed, rfl⟩

/-- A further page continues the results that the session remembers. -/
lemma page_some_ok {cookie : Cookie} {result : Page}
    (h : s.page request (some cookie) d = (.ok result, s', d')) :
    ∃ search position results, cookie.decode? = some (search, position) ∧
      s.results? search = some results ∧
      (result, s') = s.deliver request.pageSize search results position := by
  rw [page.eq_def] at h
  split at h
  · simp only [nextPage] at h
    split at h
    · cases h
    split at h
    · cases h
    rename_i search position hdecode
    split at h
    · cases h
    rename_i results hresults
    cases h
    exact ⟨search, position, results, hdecode, hresults, rfl⟩
  · cases h

end Session

end DirectoryQuery
