import DirectoryQuery.Proofs.Query.Budget
import DirectoryQuery.Proofs.Query.Runs

/-!
# Dealings that ask for no search

Taking a session out of the pool and giving it back asks the directory for no search, and abandons
none (`Directory.Unasked`).
-/

namespace DirectoryQuery

namespace Directory

/-- The directory was not asked for a search in between, nor was one abandoned. -/
structure Unasked (d d' : Directory) : Prop where
  searches : d'.searches = d.searches
  abandoned : d'.abandoned = d.abandoned
  searchFailure : d'.searchFailure = d.searchFailure
  searchesRun : d'.searchesRun = d.searchesRun

/-- No request for a page is set up to fail. -/
def Healthy (d : Directory) : Prop :=
  d.searchFailure = none

variable {d d' d'' : Directory}

lemma Unasked.refl (d : Directory) : d.Unasked d := ⟨rfl, rfl, rfl, rfl⟩

lemma Unasked.trans (h : d.Unasked d') (k : d'.Unasked d'') : d.Unasked d'' :=
  ⟨k.searches.trans h.searches, k.abandoned.trans h.abandoned,
    k.searchFailure.trans h.searchFailure, k.searchesRun.trans h.searchesRun⟩

lemma Unasked.healthy (h : d.Unasked d') (hd : d.Healthy) : d'.Healthy :=
  h.searchFailure.trans hd

lemma unasked_bind (d : Directory) (identity secret server : String) :
    d.Unasked (d.bind server identity secret).2 := by
  rw [bind]
  simp only
  split
  · exact ⟨rfl, rfl, rfl, rfl⟩
  · split <;> exact ⟨rfl, rfl, rfl, rfl⟩

lemma unasked_bindFirst (d : Directory) (identity secret : String) (tried : Nat)
    (servers : List String) :
    d.Unasked (d.bindFirst identity secret tried servers).2 := by
  induction servers generalizing d with
  | nil => exact .refl d
  | cons server servers ih =>
    have hbind := d.unasked_bind identity secret server
    unfold bindFirst
    split
    · rename_i h
      rw [h] at hbind
      exact hbind
    · rename_i h
      rw [h] at hbind
      exact hbind
    · rename_i h
      rw [h] at hbind
      exact hbind.trans (ih _)

end Directory

namespace Session

variable {s s' : Session} {request : SearchRequest} {d d' : Directory}

lemma unasked_close (s : Session) (d : Directory) : d.Unasked (s.close d).2 := by
  rw [close]
  split <;> exact ⟨rfl, rfl, rfl, rfl⟩

end Session

namespace Service

variable {svc svc' : Service}

lemma unasked_closeSession (svc : Service) (s : Session) :
    svc.directory.Unasked (svc.closeSession s).directory :=
  s.unasked_close svc.directory

lemma unasked_giveBack (svc : Service) (l : Lease) :
    svc.directory.Unasked (svc.giveBack l).directory := by
  unfold giveBack
  cases l.disposition with
  | evict => exact unasked_closeSession _ l.session
  | release =>
    rw [takeBack, release]
    split
    · exact .refl _
    · exact unasked_closeSession _ l.session

lemma unasked_checkOut {result : Except DirectoryError Lease} (h : svc.checkOut = (result, svc')) :
    svc.directory.Unasked svc'.directory := by
  rw [checkOut, acquire, acquireFrom] at h
  cases hidle : svc.pool.idle with
  | cons s rest =>
    simp only [hidle] at h
    cases h
    exact .refl _
  | nil =>
    have hbind := svc.directory.unasked_bindFirst svc.pool.config.bindName svc.pool.config.password
      svc.pool.config.candidates.length svc.pool.config.candidates
    rcases hfirst : svc.directory.bindFirst svc.pool.config.bindName svc.pool.config.password
      svc.pool.config.candidates.length svc.pool.config.candidates with ⟨e | s, d⟩
    · simp only [hidle, hfirst] at h
      cases h
      rw [hfirst] at hbind
      exact hbind
    · simp only [hidle, hfirst] at h
      cases h
      rw [hfirst] at hbind
      exact hbind

end Service

end DirectoryQuery
