import DirectoryQuery.Proofs.Query.Chronicle
import DirectoryQuery.Proofs.Query.Progress

/-!
# Services that are only read from

As long as nothing happens but that queries are evaluated and readers are created, asked and
dropped, a service that was ready stays ready and keeps its entries, every reader can go on, and
each of these moves runs one search at most (`Chronicle.steady_step`).
-/

namespace DirectoryQuery

/-- The move evaluates a query, or it creates, asks or drops a reader. -/
def Move.IsReading : Move → Prop
  | .add _ | .setDown _ _ | .failNextSearch _ | .failNextAbandon _ => False
  | _ => True

/-- The service is ready and has the entries of the directory, and at most so many more searches
were run on it. -/
structure Service.Steady (d : Directory) (searches : Nat) (svc : Service) : Prop where
  ready : svc.Ready
  entries : svc.directory.entries = d.entries
  searchesRun : svc.directory.searchesRun ≤ d.searchesRun + searches

namespace Service

variable {d : Directory} {n : Nat} {svc svc' : Service}

lemma Ready.steady (h : svc.Ready) : svc.Steady svc.directory 0 :=
  ⟨h, rfl, Nat.le_refl _⟩

lemma Steady.succ (h : svc.Steady d n) : svc.Steady d (n + 1) :=
  ⟨h.ready, h.entries, Nat.le_succ_of_le h.searchesRun⟩

lemma Steady.sound (h : svc.Steady d n) (hroom : d.searchesRun + n + 1 < Text.maxSize) {s : Stream}
    (hs : s.Fits) : s.Sound d svc := by
  have hsearches := h.searchesRun
  exact hs.sound h.ready h.entries (by omega)

/-- Dealings that run one search at most leave a steady service. -/
lemma Steady.spares (h : svc.Steady d n) (hroom : d.searchesRun + n + 1 < Text.maxSize)
    {a b : Stake} (hspares : a.Spares svc b svc') (hheld : ∀ s ∈ a.held, s.isOpen = true)
    (hasks : a.asks ≤ 1) : svc'.Steady d (n + 1) where
  ready := by
    have hsearches := h.searchesRun
    exact hspares.ready hspares.spared h.ready hheld (by omega)
  entries := hspares.entries.trans h.entries
  searchesRun := by
    have hbefore := h.searchesRun
    have hafter := hspares.searchesRun
    omega

lemma Steady.spares_stream (h : svc.Steady d n) (hroom : d.searchesRun + n + 1 < Text.maxSize)
    {s : Stream} (hs : s.Fits) {b : Stake} (hspares : s.stake.Spares svc b svc') :
    svc'.Steady d (n + 1) := by
  refine h.spares hroom hspares hs.isOpen ?_
  have hpending := s.length_sessions_add_pending_le
  show s.pending ≤ 1
  omega

/-- An evaluation leaves a steady service. -/
lemma Steady.evaluates {q : Query} {w w' : Workspace} {error : Option QueryError}
    (h : w.service.Steady d n) (hroom : d.searchesRun + n + 1 < Text.maxSize)
    (hq : q.Evaluates w error w') : w'.service.Steady d (n + 1) :=
  h.spares hroom (hq.covers Stake.covers_spares) nofun (Nat.le_refl 1)

end Service

namespace Chronicle

/-- The service is steady, and all readers can go on. -/
structure Steady (d : Directory) (n : Nat) (c : Chronicle) : Prop where
  service : c.workspace.service.Steady d n
  fits : ∀ reader ∈ c.scene.readers, ∀ r, reader.results = some r → r.stream.Fits

variable {d : Directory} {n : Nat} {c : Chronicle}

lemma steady_ofWorkspace {w : Workspace} (h : w.service.Ready) :
    (ofWorkspace w).Steady w.service.directory 0 :=
  ⟨h.steady, nofun⟩

lemma Steady.evaluated (hc : c.Steady d n) (hroom : d.searchesRun + n + 1 < Text.maxSize)
    {q : Query} {error : Option QueryError} {w : Workspace} (h : q.Evaluates c.workspace error w) :
    Steady d (n + 1) { c with scene.workspace := w } :=
  ⟨hc.service.evaluates hroom h, hc.fits⟩

lemma Steady.create (hc : c.Steady d n) (q : Query) :
    (c.step (.move (.create q))).Steady d (n + 1) where
  service := hc.service.succ
  fits reader hreader r hr := by
    obtain hreader | hnew := List.mem_append.1 hreader
    · exact hc.fits reader hreader r hr
    · rw [List.mem_singleton.1 hnew] at hr
      cases hr
      exact Stream.fits_stream q

lemma Steady.poll (hc : c.Steady d n) (hroom : d.searchesRun + n + 1 < Text.maxSize) (i : Nat) :
    (c.step (.move (.poll i))).Steady d (n + 1) := by
  obtain ⟨-, hstep⟩ | ⟨reader, results, answer, results', w, hreader, hresults, hnext, -, hstep⟩ :=
    c.step_poll i
  · rw [hstep]
    exact ⟨hc.service.succ, hc.fits⟩
  · have hfits := hc.fits reader (List.mem_of_getElem? hreader) results hresults
    obtain ⟨hsound, -⟩ := Results.sound_next (hc.service.sound hroom hfits) hnext
    rw [hstep]
    refine ⟨hc.service.spares_stream hroom hfits
      (Results.covers_next Stake.covers_spares hnext), fun reader' hreader' r hr => ?_⟩
    obtain hreader' | rfl := List.mem_or_eq_of_mem_set hreader'
    · exact hc.fits reader' hreader' r hr
    · cases hr
      exact hsound.fits

lemma Steady.drop (hc : c.Steady d n) (hroom : d.searchesRun + n + 1 < Text.maxSize) (i : Nat) :
    (c.step (.move (.drop i))).Steady d (n + 1) := by
  obtain hstep | ⟨reader, results, reader', hreader, hresults, hdropped, hstep⟩ := c.step_drop i
  · rw [hstep]
    exact ⟨hc.service.succ, hc.fits⟩
  · have hfits := hc.fits reader (List.mem_of_getElem? hreader) results hresults
    rw [hstep]
    refine ⟨hc.service.spares_stream hroom hfits
      (Stream.covers_close Stake.covers_spares results.stream), fun reader'' hreader'' r hr => ?_⟩
    obtain hreader'' | rfl := List.mem_or_eq_of_mem_set hreader''
    · exact hc.fits reader'' hreader'' r hr
    · rw [hdropped] at hr
      cases hr

/-- A move that reads leaves the service steady, and runs one search at most. -/
theorem steady_step (hc : c.Steady d n) (hroom : d.searchesRun + n + 1 < Text.maxSize) {m : Move}
    (hm : m.IsReading) : (c.step (.move m)).Steady d (n + 1) := by
  match m with
  | .create q => exact hc.create q
  | .poll i => exact hc.poll hroom i
  | .drop i => exact hc.drop hroom i
  | .fetch q => exact hc.evaluated hroom (q.evaluates_fetch c.workspace)
  | .count q => exact hc.evaluated hroom (q.evaluates_count c.workspace)
  | .one q => exact hc.evaluated hroom (q.evaluates_one c.workspace)
  | .get q index => exact hc.evaluated hroom (q.evaluates_get c.workspace index)
  | .aggregate q as => exact hc.evaluated hroom (q.evaluates_aggregate c.workspace as)
  | .add _ | .setDown _ _ | .failNextSearch _ | .failNextAbandon _ => exact hm.elim

end Chronicle

end DirectoryQuery
