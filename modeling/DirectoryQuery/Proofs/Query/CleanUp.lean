import DirectoryQuery.Proofs.Query.Cursor

/-!
# How a search treats its session

A search that is read entry by entry makes calls, first to the pool and then on the session that it
has from there.  `Deed` lists these calls, with the answer that each got.  `Stream.deeds` says which
of them a step of a search makes, `Stream.leavingDeeds` which are made when the reader goes away,
and `Cursor.deeds` collects those of a whole run, between which others may do what they like.
`Deed.Effects` is what calls do: it hands the held session from one call to the next and takes every
answer from the session and the service, so the calls account for all that a search does.

`CleanUp` is the rule that a search goes by when it ends, whichever way.  `Account` says how the
calls so far and the answers to the reader go with the stream.  Every step keeps it
(`Stream.account_step`), and whenever the reader goes away the rule follows from it
(`Stream.cleanUp_close`); `Cursor.cleans_up` is what that means for a run.
-/

namespace DirectoryQuery

/-- A call of a search. -/
inductive Deed where
  /-- The pool is asked for a session, and gives one unless there is an error. -/
  | take (fault : Option DirectoryError)
  | page (request : SearchRequest) (cookie : Option Cookie) (answer : Except DirectoryError Page)
  | abandon (cookie : Cookie) (answer : Except DirectoryError Unit)
  | handBack (disposition : Disposition)

namespace Deed

/-- What a call does to the sessions that are held and to the service. -/
inductive Effect : List Session → Service → Deed → List Session → Service → Prop where
  | take {svc svc' : Service} {lease : Lease} (h : svc.checkOut = (.ok lease, svc')) :
    Effect [] svc (.take none) [lease.session] svc'
  | takeError {svc svc' : Service} {e : DirectoryError} (h : svc.checkOut = (.error e, svc')) :
    Effect [] svc (.take (some e)) [] svc'
  | page {svc : Service} {s s' : Session} {request : SearchRequest} {cookie : Option Cookie}
    {answer : Except DirectoryError Page} {d : Directory}
    (h : s.page request cookie svc.directory = (answer, s', d)) :
    Effect [s] svc (.page request cookie answer) [s'] { svc with directory := d }
  | abandon {svc : Service} {s s' : Session} {cookie : Cookie}
    {answer : Except DirectoryError Unit} {d : Directory}
    (h : s.abandon cookie svc.directory = (answer, s', d)) :
    Effect [s] svc (.abandon cookie answer) [s'] { svc with directory := d }
  | handBack (svc : Service) (s : Session) (disposition : Disposition) :
    Effect [s] svc (.handBack disposition) [] (svc.takeBack s disposition)

/-- What calls do, one after the other. -/
inductive Effects : List Session → Service → List Deed → List Session → Service → Prop where
  | nil (held : List Session) (svc : Service) : Effects held svc [] held svc
  | cons {held held₁ held' : List Session} {svc svc₁ svc' : Service} {deed : Deed}
    {deeds : List Deed} (h : Effect held svc deed held₁ svc₁)
    (k : Effects held₁ svc₁ deeds held' svc') : Effects held svc (deed :: deeds) held' svc'

lemma Effects.append {held held₁ held' : List Session} {svc svc₁ svc' : Service}
    {first second : List Deed} (h : Effects held svc first held₁ svc₁)
    (k : Effects held₁ svc₁ second held' svc') : Effects held svc (first ++ second) held' svc' := by
  induction h with
  | nil held svc => exact k
  | cons h _ ih => exact .cons h (ih k)

/-- Whether the call got a session from the pool. -/
def gets : Deed → Bool
  | .take none => true
  | _ => false

/-- The cookie of the search that the call abandons. -/
def abandoned? : Deed → Option Cookie
  | .abandon cookie _ => some cookie
  | _ => none

/-- How the call hands a session back. -/
def handedBack? : Deed → Option Disposition
  | .handBack disposition => some disposition
  | _ => none

/-- Whether the session is not to be used again after the call. -/
def spoils : Deed → Bool
  | .page _ _ (.error (.noSuchObject _)) => false
  | .page _ _ (.error _) => true
  | .abandon _ (.error _) => true
  | _ => false

/-- The cookie that came last, unless a page was asked for with it. -/
def outstanding (deeds : List Deed) : Option Cookie :=
  match deeds.getLast? with
  | some (.page _ _ (.ok answer)) => answer.cookie
  | _ => none

/-- What is to happen to a session after the calls. -/
def fate (deeds : List Deed) : Disposition :=
  if deeds.any spoils then .evict else .release

lemma spoils_page_error (request : SearchRequest) (cookie : Option Cookie) (e : DirectoryError) :
    (Deed.page request cookie (.error e)).spoils = !e.isAcceptable := by
  cases e <;> rfl

/-- The calls of a search that has its session still: all pages that it asked for came. -/
def HoldsSession (log : List Deed) : Prop :=
  ∃ pages, log = .take none :: pages ∧
    ∀ deed ∈ pages, ∃ request cookie page, deed = .page request cookie (.ok page)

lemma holdsSession_take : HoldsSession [.take none] := ⟨[], rfl, by simp⟩

namespace HoldsSession

variable {log : List Deed}

lemma page (h : HoldsSession log) (request : SearchRequest) (cookie : Option Cookie) (page : Page) :
    HoldsSession (log ++ [.page request cookie (.ok page)]) := by
  obtain ⟨pages, rfl, hpages⟩ := h
  refine ⟨pages ++ [.page request cookie (.ok page)], rfl, fun deed hdeed => ?_⟩
  obtain hdeed | hdeed := List.mem_append.1 hdeed
  · exact hpages deed hdeed
  · exact ⟨request, cookie, page, List.mem_singleton.1 hdeed⟩

lemma eq_of_mem (h : HoldsSession log) {deed : Deed} (hdeed : deed ∈ log) :
    deed = .take none ∨ ∃ request cookie page, deed = .page request cookie (.ok page) := by
  obtain ⟨pages, rfl, hpages⟩ := h
  obtain rfl | hdeed := List.mem_cons.1 hdeed
  · exact .inl rfl
  · exact .inr (hpages deed hdeed)

lemma not_mem_page_error (h : HoldsSession log) (request : SearchRequest)
    (cookie : Option Cookie) (e : DirectoryError) : .page request cookie (.error e) ∉ log := by
  intro hmem
  obtain hdeed | ⟨_, _, _, hdeed⟩ := h.eq_of_mem hmem <;> cases hdeed

lemma filterMap_abandoned? (h : HoldsSession log) : log.filterMap abandoned? = [] := by
  refine List.filterMap_eq_nil_iff.2 fun deed hdeed => ?_
  obtain rfl | ⟨request, cookie, page, rfl⟩ := h.eq_of_mem hdeed <;> rfl

lemma filterMap_handedBack? (h : HoldsSession log) : log.filterMap handedBack? = [] := by
  refine List.filterMap_eq_nil_iff.2 fun deed hdeed => ?_
  obtain rfl | ⟨request, cookie, page, rfl⟩ := h.eq_of_mem hdeed <;> rfl

lemma any_spoils (h : HoldsSession log) : log.any spoils = false := by
  refine List.any_eq_false.2 fun deed hdeed => ?_
  obtain rfl | ⟨request, cookie, page, rfl⟩ := h.eq_of_mem hdeed <;> simp [spoils]

lemma filter_gets (h : HoldsSession log) : log.filter gets = [.take none] := by
  obtain ⟨pages, rfl, hpages⟩ := h
  have hnone : pages.filter gets = [] := by
    refine List.filter_eq_nil_iff.2 fun deed hdeed => ?_
    obtain ⟨request, cookie, page, rfl⟩ := hpages deed hdeed
    simp [gets]
  rw [List.filter_cons_of_pos (by rfl), hnone]

end HoldsSession

end Deed

open Deed (abandoned? handedBack? gets spoils outstanding fate Effects HoldsSession
  holdsSession_take)

/-- The rule for the session of a search, given the calls up to the moment when the reader goes away
and those made then. -/
structure CleanUp (log leaving : List Deed) : Prop where
  /-- While it is read the search is not abandoned. -/
  goesOn : log.filterMap abandoned? = []
  /-- It is abandoned once when there is a cookie left, and never otherwise. -/
  abandons : leaving.filterMap abandoned? = (outstanding log).toList
  /-- There is one session at most. -/
  getsOnce : (log.filter gets).length ≤ 1
  /-- The session goes back once, and is kept unless a call went wrong. -/
  handsBack :
    (log ++ leaving).filterMap handedBack? = (log.filter gets).map fun _ => fate (log ++ leaving)
  /-- Nothing is done with it afterwards. -/
  fallsSilent : ∀ before disposition after,
    log ++ leaving = before ++ .handBack disposition :: after → after = []

namespace Stream

/-- The cookie of a search that has further pages. -/
def cookie : Stream → Option Cookie
  | .reading _ _ _ cookie => cookie
  | _ => none

/-- The calls for a page.  The session goes back if the page does not come. -/
def pageDeeds (lease : Lease) (request : SearchRequest) (cookie : Option Cookie) (svc : Service) :
    List Deed :=
  match lease.session.page request cookie svc.directory with
  | (.ok page, _, _) => [.page request cookie (.ok page)]
  | (.error e, _, _) =>
    [.page request cookie (.error e), .handBack (lease.settle (some e)).disposition]

/-- The calls of a step of a search. -/
def deeds : Stream → Service → List Deed
  | .starting source, svc =>
    match source.request svc.pool.config.pageSize with
    | .error _ => []
    | .ok request =>
      match svc.checkOut with
      | (.error e, _) => [.take (some e)]
      | (.ok lease, svc) => .take none :: pageDeeds lease request none svc
  | .reading lease request [] (some cookie), svc => pageDeeds lease request (some cookie) svc
  | .reading lease _ [] none, _ => [.handBack lease.disposition]
  | _, _ => []

/-- The calls that are made when the reader of a search goes away. -/
def leavingDeeds : Stream → Service → List Deed
  | .reading lease _ _ (some cookie), svc =>
    match lease.session.abandon cookie svc.directory with
    | (.ok (), _, _) => [.abandon cookie (.ok ()), .handBack lease.disposition]
    | (.error e, _, _) => [.abandon cookie (.error e), .handBack .evict]
  | .reading lease _ _ none, _ => [.handBack lease.disposition]
  | _, _ => []

end Stream

/-- The answers that a step gives to the reader. -/
def StreamEvent.answers : StreamEvent → List (Option (Except QueryError Entry))
  | .item e => [some (.ok e)]
  | .fault e => [some (.error e)]
  | .pause => []
  | .finish => [none]

/-! ## The rule at each end -/

namespace CleanUp

variable {log : List Deed} {disposition : Disposition}

lemma not_mem_handBack {deeds : List Deed} (h : deeds.filterMap handedBack? = [])
    (disposition : Disposition) : .handBack disposition ∉ deeds := by
  intro hmem
  have hnone := List.filterMap_eq_nil_iff.1 h _ hmem
  cases hnone

/-- Nothing follows the only call that hands a session back if that is the last one. -/
lemma eq_nil_of_last {deeds before after : List Deed} {last : Disposition}
    (h : deeds.filterMap handedBack? = [])
    (heq : deeds ++ [.handBack last] = before ++ .handBack disposition :: after) : after = [] := by
  obtain rfl | ⟨after, deed, rfl⟩ := List.eq_nil_or_concat after
  · rfl
  · have hinit : deeds = before ++ .handBack disposition :: after := by
      rw [List.concat_eq_append, ← List.cons_append, ← List.append_assoc] at heq
      exact (List.append_inj' heq rfl).1
    refine absurd ?_ (not_mem_handBack h disposition)
    rw [hinit]
    exact List.mem_append_right _ List.mem_cons_self

/-- A search that never had a session has nothing to clean up. -/
lemma of_refused (hgets : log.filter gets = []) (habandons : log.filterMap abandoned? = [])
    (hback : log.filterMap handedBack? = []) (hlast : outstanding log = none) :
    CleanUp log [] := by
  refine ⟨habandons, ?_, ?_, ?_, fun before disposition after h => ?_⟩
  · rw [hlast]
    rfl
  · rw [hgets]
    exact Nat.zero_le 1
  · rw [List.append_nil, hgets, hback]
    rfl
  · refine absurd ?_ (not_mem_handBack hback disposition)
    rw [← List.append_nil log, h]
    exact List.mem_append_right _ List.mem_cons_self

section HandsBack

variable (calls : List Deed) (h : HoldsSession log) (hcalls : calls.filterMap handedBack? = [])
include h hcalls

/-- The calls of a search with its session, some more of them, and the one that ends it. -/
lemma handBack_once (hfate : disposition = fate calls) :
    (log ++ (calls ++ [Deed.handBack disposition])).filterMap handedBack? =
        ((log.filter gets).map fun _ => fate (log ++ (calls ++ [.handBack disposition]))) ∧
      ∀ before disposition' after, log ++ (calls ++ [.handBack disposition]) =
        before ++ .handBack disposition' :: after → after = [] := by
  have hback := h.filterMap_handedBack?
  constructor
  · have hwhole : fate (log ++ (calls ++ [.handBack disposition])) = disposition := by
      rw [hfate, fate, fate, List.any_append, List.any_append, h.any_spoils]
      simp [spoils]
    rw [hwhole, h.filter_gets, List.filterMap_append, List.filterMap_append, hback, hcalls]
    rfl
  · intro before disposition' after heq
    rw [← List.append_assoc] at heq
    refine eq_nil_of_last ?_ heq
    rw [List.filterMap_append, hback, hcalls]
    rfl

/-- The session goes back while the search is read, as it should after the last calls. -/
lemma of_ended (hgets : calls.filter gets = []) (habandons : calls.filterMap abandoned? = [])
    (hfate : disposition = fate calls) :
    CleanUp (log ++ (calls ++ [.handBack disposition])) [] := by
  have honce : (log ++ (calls ++ [Deed.handBack disposition])).filter gets = log.filter gets := by
    rw [List.filter_append, List.filter_append, hgets]
    exact List.append_nil _
  obtain ⟨hback, hsilent⟩ := handBack_once calls h hcalls hfate
  refine ⟨?_, ?_, ?_, ?_, ?_⟩
  · rw [List.filterMap_append, List.filterMap_append, h.filterMap_abandoned?, habandons]
    rfl
  · have hlast : outstanding (log ++ (calls ++ [.handBack disposition])) = none := by
      rw [outstanding, ← List.append_assoc, List.getLast?_concat]
    rw [hlast]
    rfl
  · rw [honce, h.filter_gets]
    exact Nat.le_refl 1
  · rw [honce, List.append_nil]
    exact hback
  · rw [List.append_nil]
    exact hsilent

/-- The session goes back when the reader goes away, after some last calls. -/
lemma of_left (habandons : calls.filterMap abandoned? = (outstanding log).toList)
    (hfate : disposition = fate calls) : CleanUp log (calls ++ [.handBack disposition]) := by
  obtain ⟨hback, hsilent⟩ := handBack_once calls h hcalls hfate
  refine ⟨h.filterMap_abandoned?, ?_, ?_, hback, hsilent⟩
  · rw [List.filterMap_append, habandons]
    exact List.append_nil _
  · rw [h.filter_gets]
    exact Nat.le_refl 1

end HandsBack

end CleanUp

/-! ## Steps -/

/-- How the calls so far and the answers so far go with the stream of a search. -/
inductive Account : List Deed → Stream → List (Option (Except QueryError Entry)) → Prop where
  | pending (source : Source) : Account [] (.starting source) []
  | reading {log : List Deed} {answers : List (Option (Except QueryError Entry))}
    (h : HoldsSession log) (lease : Lease) (request : SearchRequest) (buffer : List Entry)
    {cookie : Option Cookie} (hlease : lease.disposition = .release)
    (hcookie : outstanding log = cookie)
    (hanswers : ∀ answer ∈ answers, ∃ e, answer = some (.ok e)) :
    Account log (.reading lease request buffer cookie) answers
  | ended {log : List Deed} {answers : List (Option (Except QueryError Entry))}
    (h : CleanUp log [])
    (hmissing : ∀ request name, .page request none (.error (.noSuchObject name)) ∈ log →
      ∀ answer ∈ answers, answer = none) :
    Account log .ended answers

lemma Lease.disposition_settle {l : Lease} (h : l.disposition = .release) (e : DirectoryError) :
    (l.settle (some e)).disposition = .after (some e) := by
  rw [settle]
  split
  · next hafter => exact hafter.symm
  · next hafter => rw [h, hafter]

lemma Service.disposition_checkOut {svc svc' : Service} {lease : Lease}
    (h : svc.checkOut = (.ok lease, svc')) : lease.disposition = .release := by
  rw [checkOut] at h
  split at h
  · cases h
    rfl
  · cases h

namespace Stream

section Page

variable {svc : Service} {lease : Lease} {session : Session} {request : SearchRequest}
  {cookie : Option Cookie} {d : Directory}

lemma pageDeeds_ok {page : Page}
    (h : lease.session.page request cookie svc.directory = (.ok page, session, d)) :
    pageDeeds lease request cookie svc = [.page request cookie (.ok page)] ∧
      Effects [lease.session] svc (pageDeeds lease request cookie svc) [session]
        { svc with directory := d } := by
  rw [pageDeeds, h]
  exact ⟨rfl, .cons (.page h) (.nil _ _)⟩

lemma pageDeeds_error {e : DirectoryError}
    (h : lease.session.page request cookie svc.directory = (.error e, session, d))
    (hlease : lease.disposition = .release) :
    pageDeeds lease request cookie svc =
        [.page request cookie (.error e), .handBack (.after (some e))] ∧
      Effects [lease.session] svc (pageDeeds lease request cookie svc) []
        ({ svc with directory := d }.giveBack
          (({ lease with session } : Lease).settle (some e))) := by
  have hdeeds : pageDeeds lease request cookie svc =
      [.page request cookie (.error e), .handBack (.after (some e))] := by
    simp only [pageDeeds, h, Lease.disposition_settle hlease]
  have hafter : (({ lease with session } : Lease).settle (some e)).disposition =
      .after (some e) :=
    Lease.disposition_settle (l := { lease with session }) hlease e
  rw [hdeeds, Service.giveBack, Lease.session_settle, hafter]
  exact ⟨rfl, .cons (.page h) (.cons (.handBack _ _ _) (.nil _ _))⟩

end Page

variable {log : List Deed} {answers : List (Option (Except QueryError Entry))}
  {snapshots : Snapshots} {svc svc' : Service} {s s' : Stream} {event : StreamEvent}

/-- A search with its session asks for a page that does not come. -/
lemma account_of_page_error (h : HoldsSession log) {request : SearchRequest}
    {cookie : Option Cookie} {e : DirectoryError}
    (hmissing : cookie = none → ∀ name, e = .noSuchObject name →
      ∀ answer ∈ answers, answer = none) :
    Account (log ++ [.page request cookie (.error e), .handBack (.after (some e))]) .ended
      answers := by
  refine .ended ?_ fun request' name hmem => ?_
  · refine CleanUp.of_ended [.page request cookie (.error e)] h rfl rfl rfl ?_
    rw [fate, List.any_cons, Deed.spoils_page_error, Disposition.after]
    cases e.isAcceptable <;> rfl
  · obtain hmem | hmem := List.mem_append.1 hmem
    · exact absurd hmem (h.not_mem_page_error _ _ _)
    · simp only [List.mem_cons, Deed.page.injEq, Except.error.injEq, reduceCtorEq, List.not_mem_nil,
        or_false] at hmem
      obtain ⟨-, rfl, rfl⟩ := hmem
      exact hmissing rfl name rfl

lemma account_start {source : Source} (h : start source svc = (event, s', svc')) :
    Effects [] svc (deeds (.starting source) svc) s'.sessions svc' ∧
      Account (deeds (.starting source) svc) s' event.answers := by
  unfold start at h
  cases hrequest : source.request svc.pool.config.pageSize with
  | error e =>
    simp only [hrequest] at h
    cases h
    simp only [deeds, hrequest]
    exact ⟨.nil _ _, .ended (CleanUp.of_refused rfl rfl rfl rfl) (by simp)⟩
  | ok request =>
    rcases hout : svc.checkOut with ⟨e | lease, svc₁⟩
    · simp only [hrequest, hout] at h
      cases h
      simp only [deeds, hrequest, hout]
      exact ⟨.cons (.takeError hout) (.nil _ _),
        .ended (CleanUp.of_refused rfl rfl rfl rfl) (by simp)⟩
    have hlease : lease.disposition = .release := Service.disposition_checkOut hout
    simp only [hrequest, hout] at h
    simp only [deeds, hrequest, hout]
    rcases hpage : lease.session.page request none svc₁.directory with ⟨e | page, session, d⟩
    · obtain ⟨hdeeds, heffects⟩ := pageDeeds_error hpage hlease
      obtain ⟨rfl, rfl, hanswers⟩ : s' = .ended ∧
          svc' = { svc₁ with directory := d }.giveBack
            (({ lease with session } : Lease).settle (some e)) ∧
          ∀ name, e = .noSuchObject name → ∀ answer ∈ event.answers, answer = none := by
        simp only [hpage] at h
        split at h
        · cases h
          exact ⟨rfl, rfl, by simp [StreamEvent.answers]⟩
        · next hbad =>
          cases h
          refine ⟨rfl, rfl, ?_⟩
          rintro name rfl
          exact absurd rfl hbad
      refine ⟨.cons (.take hout) heffects, ?_⟩
      rw [hdeeds]
      exact account_of_page_error holdsSession_take fun _ => hanswers
    · obtain ⟨hdeeds, heffects⟩ := pageDeeds_ok hpage
      simp only [hpage] at h
      cases h
      refine ⟨.cons (.take hout) heffects, ?_⟩
      rw [hdeeds]
      exact .reading (holdsSession_take.page request none page) _ _ _ hlease rfl
        (by simp [StreamEvent.answers])

/-- A search with its session asks for a further page. -/
lemma account_turnPage (hheld : HoldsSession log) {lease : Lease} {request : SearchRequest}
    {cookie : Cookie} (hlease : lease.disposition = .release)
    (hanswers : ∀ answer ∈ answers, ∃ e, answer = some (.ok e))
    (h : turnPage lease request cookie svc = (event, s', svc')) :
    Effects [lease.session] svc (pageDeeds lease request (some cookie) svc) s'.sessions svc' ∧
      Account (log ++ pageDeeds lease request (some cookie) svc) s'
        (answers ++ event.answers) := by
  unfold turnPage at h
  rcases hpage : lease.session.page request (some cookie) svc.directory with
    ⟨e | page, session, d⟩
  · obtain ⟨hdeeds, heffects⟩ := pageDeeds_error hpage hlease
    simp only [hpage] at h
    cases h
    refine ⟨heffects, ?_⟩
    rw [hdeeds]
    exact account_of_page_error hheld (by simp)
  · obtain ⟨hdeeds, heffects⟩ := pageDeeds_ok hpage
    simp only [hpage] at h
    cases h
    refine ⟨heffects, ?_⟩
    rw [hdeeds, StreamEvent.answers, List.append_nil]
    refine .reading (hheld.page request (some cookie) page) _ _ _ hlease ?_ hanswers
    rw [outstanding, List.getLast?_concat]

/-- A step of a search makes its calls, which keeps the account right. -/
theorem account_step (hc : Account log s answers) (h : s.step snapshots svc = (event, s', svc')) :
    Effects s.sessions svc (s.deeds svc) s'.sessions svc' ∧
      Account (log ++ s.deeds svc) s' (answers ++ event.answers) := by
  cases hc with
  | pending source => exact account_start h
  | ended hclean hmissing =>
    cases h
    have hdeeds : deeds .ended svc = [] := rfl
    rw [hdeeds, List.append_nil]
    refine ⟨.nil _ _, .ended hclean fun request name hmem answer hanswer => ?_⟩
    obtain hanswer | hanswer := List.mem_append.1 hanswer
    · exact hmissing request name hmem answer hanswer
    · exact List.mem_singleton.1 hanswer
  | @reading _ _ hheld lease request buffer cookie hlease hcookie hanswers =>
    match buffer, cookie with
    | e :: rest, cookie =>
      cases h
      have hdeeds : deeds (.reading lease request (e :: rest) cookie) svc = [] := rfl
      rw [hdeeds, List.append_nil]
      refine ⟨.nil _ _, .reading hheld lease request rest hlease hcookie fun answer hanswer => ?_⟩
      obtain hanswer | hanswer := List.mem_append.1 hanswer
      · exact hanswers answer hanswer
      · exact ⟨e, List.mem_singleton.1 hanswer⟩
    | [], none =>
      cases h
      have hdeeds : deeds (.reading lease request [] none) svc = [.handBack .release] := by
        rw [← hlease]
        rfl
      rw [hdeeds, Service.giveBack, hlease]
      refine ⟨.cons (.handBack _ _ _) (.nil _ _), .ended ?_ fun request name hmem => ?_⟩
      · exact CleanUp.of_ended [] hheld rfl rfl rfl rfl
      · obtain hmem | hmem := List.mem_append.1 hmem
        · exact absurd hmem (hheld.not_mem_page_error _ _ _)
        · cases List.mem_singleton.1 hmem
    | [], some cookie => exact account_turnPage hheld hlease hanswers h

/-- The reader of a search with further pages goes away. -/
lemma cleanUp_abandon (hheld : HoldsSession log) {lease : Lease} {cookie : Cookie}
    (hlease : lease.disposition = .release) (hcookie : outstanding log = some cookie)
    (buffer : List Entry) (request : SearchRequest) (svc : Service) :
    let leaving := leavingDeeds (.reading lease request buffer (some cookie)) svc
    Effects [lease.session] svc leaving [] (abandon lease (some cookie) svc) ∧
      CleanUp log leaving := by
  intro leaving
  have habandons : ∀ answer, [Deed.abandon cookie answer].filterMap abandoned? =
      (outstanding log).toList := by
    rw [hcookie]
    exact fun _ => rfl
  rcases habandon : lease.session.abandon cookie svc.directory with ⟨e | ⟨⟩, session, d⟩
  · have hdeeds : leaving = [.abandon cookie (.error e), .handBack .evict] := by
      simp only [leaving, leavingDeeds, habandon]
    rw [hdeeds, abandon, habandon]
    exact ⟨.cons (.abandon habandon) (.cons (.handBack _ _ _) (.nil _ _)),
      CleanUp.of_left [.abandon cookie (.error e)] hheld rfl (habandons _) rfl⟩
  · have hdeeds : leaving = [.abandon cookie (.ok ()), .handBack .release] := by
      simp only [leaving, leavingDeeds, habandon, hlease]
    rw [hdeeds, abandon, habandon]
    simp only [Service.giveBack, hlease]
    exact ⟨.cons (.abandon habandon) (.cons (.handBack _ _ _) (.nil _ _)),
      CleanUp.of_left [.abandon cookie (.ok ())] hheld rfl (habandons _) rfl⟩

/-- Whenever the reader of a search goes away, the rule is kept. -/
theorem cleanUp_close (hc : Account log s answers) (svc : Service) :
    Effects s.sessions svc (s.leavingDeeds svc) [] (s.close svc) ∧
      CleanUp log (s.leavingDeeds svc) := by
  cases hc with
  | pending source => exact ⟨.nil _ _, CleanUp.of_refused rfl rfl rfl rfl⟩
  | ended hclean hmissing => exact ⟨.nil _ _, hclean⟩
  | @reading _ _ hheld lease request buffer cookie hlease hcookie hanswers =>
    rw [close]
    cases cookie with
    | none =>
      have hdeeds : leavingDeeds (.reading lease request buffer none) svc =
          [.handBack .release] := by
        rw [← hlease]
        rfl
      rw [hdeeds, abandon, Service.giveBack, hlease]
      refine ⟨.cons (.handBack _ _ _) (.nil _ _), CleanUp.of_left [] hheld rfl ?_ rfl⟩
      rw [hcookie]
      rfl
    | some cookie => exact cleanUp_abandon hheld hlease hcookie buffer request svc

end Stream

namespace Account

variable {log : List Deed} {answers : List (Option (Except QueryError Entry))} {s : Stream}

lemma cookie_eq (hc : Account log s answers) : s.cookie = outstanding log := by
  cases hc with
  | pending source => rfl
  | reading hheld lease request buffer hlease hcookie hanswers => exact hcookie.symm
  | ended hclean hmissing => exact (Option.toList_eq_nil_iff.1 hclean.abandons.symm).symm

/-- A search that has come to its end, or to an error, has nothing left to do. -/
lemma leavingDeeds_eq_nil (hc : Account log s answers)
    (h : none ∈ answers ∨ ∃ e, some (.error e) ∈ answers) (svc : Service) :
    s.leavingDeeds svc = [] := by
  cases hc with
  | pending source => rfl
  | ended hclean hmissing => rfl
  | reading hheld lease request buffer hlease hcookie hanswers =>
    obtain hnone | ⟨e, herror⟩ := h
    · obtain ⟨e, he⟩ := hanswers _ hnone
      cases he
    · obtain ⟨e', he⟩ := hanswers _ herror
      cases he

lemma ended_of_missing (hc : Account log s answers) {request : SearchRequest} {name : String}
    (hmem : .page request none (.error (.noSuchObject name)) ∈ log) :
    s = .ended ∧ ∀ answer ∈ answers, answer = none := by
  cases hc with
  | pending source => cases hmem
  | ended hclean hmissing => exact ⟨rfl, hmissing request name hmem⟩
  | reading hheld lease request buffer hlease hcookie hanswers =>
    exact absurd hmem (hheld.not_mem_page_error _ _ _)

end Account

/-! ## Runs -/

namespace Results

/-- The calls on the way to the next entry, for a number of steps. -/
def deedsWithin : Nat → Results → Workspace → List Deed
  | 0, _, _ => []
  | steps + 1, r, w =>
    match r.step w with
    | (.pause, r', w') => r.stream.deeds w.service ++ deedsWithin steps r' w'
    | _ => r.stream.deeds w.service

/-- The calls on the way to the next entry. -/
def deeds (r : Results) (w : Workspace) : List Deed :=
  deedsWithin (r.budget w) r w

variable {log : List Deed} {answers : List (Option (Except QueryError Entry))} {r r' : Results}
  {w w' : Workspace}

lemma account_nextWithin {steps : Nat} {answer : Option (Except QueryError Entry)}
    (hc : Account log r.stream answers) (hsteps : r.budget w ≤ steps)
    (h : nextWithin steps r w = (answer, r', w')) :
    Effects r.stream.sessions w.service (deedsWithin steps r w) r'.stream.sessions w'.service ∧
      Account (log ++ deedsWithin steps r w) r'.stream (answers ++ [answer]) := by
  induction steps generalizing log r w with
  | zero => exact absurd hsteps (Nat.not_le_of_lt (Stream.budget_pos r.stream))
  | succ steps ih =>
    unfold nextWithin at h
    unfold deedsWithin
    rcases hstep : r.step w with ⟨event, r₁, w₁⟩
    obtain ⟨heffects, haccount⟩ := Stream.account_step hc (stream_step hstep)
    rw [hstep] at h
    cases event with
    | item e =>
      cases h
      exact ⟨heffects, haccount⟩
    | fault e =>
      cases h
      exact ⟨heffects, haccount⟩
    | finish =>
      cases h
      exact ⟨heffects, haccount⟩
    | pause =>
      have hless := budget_step_pause hstep
      rw [StreamEvent.answers, List.append_nil] at haccount
      obtain ⟨heffects', haccount'⟩ := ih haccount (by omega) h
      rw [List.append_assoc] at haccount'
      exact ⟨heffects.append heffects', haccount'⟩

end Results

namespace Cursor

variable {log : List Deed} {c : Cursor}

/-- The calls of a search that is read entry by entry. -/
def deeds (c : Cursor) : List Event → List Deed
  | [] => []
  | .poll :: events => c.results.deeds c.workspace ++ c.poll.deeds events
  | .others change :: events => (c.step (.others change)).deeds events

/-- A request for the next entry makes its calls, which keeps the account right. -/
lemma account_poll (hc : Account log c.results.stream c.answers) :
    Effects c.results.stream.sessions c.workspace.service (c.results.deeds c.workspace)
        c.poll.results.stream.sessions c.poll.workspace.service ∧
      Account (log ++ c.results.deeds c.workspace) c.poll.results.stream c.poll.answers :=
  Results.account_nextWithin hc (Nat.le_refl _) rfl

/-- Whatever others do meanwhile, the account stays right. -/
lemma account_run (hc : Account log c.results.stream c.answers) (events : List Event) :
    Account (log ++ c.deeds events) (c.run events).results.stream (c.run events).answers := by
  induction events generalizing log c with
  | nil =>
    rw [deeds, List.append_nil]
    exact hc
  | cons event events ih =>
    cases event with
    | poll =>
      rw [deeds, ← List.append_assoc]
      exact ih (account_poll hc).2
    | others change => exact ih (c := c.step (.others change)) hc

/-- Whatever a search is, whatever others do between the requests for its entries, and whenever the
reader goes away, it cleans up by one rule.  The calls that are listed are those that it makes.  The
cookie that it holds is the one that came last.  Once it has told the reader that nothing is left or
that there is an error, nothing is to be done any more.  A base that is not there is told to the
reader as the end, and nothing before it. -/
theorem cleans_up (source : Source) (recorder : Option Recorder) (w : Workspace)
    (events : List Event) :
    let c := (ofSource source recorder w).run events
    let log := (ofSource source recorder w).deeds events
    let leaving := c.results.stream.leavingDeeds c.workspace.service
    Effects c.results.stream.sessions c.workspace.service (c.results.deeds c.workspace)
        c.poll.results.stream.sessions c.poll.workspace.service ∧
      Effects c.results.stream.sessions c.workspace.service leaving []
        (c.results.close c.workspace).service ∧
      c.results.stream.cookie = outstanding log ∧
      CleanUp log leaving ∧
      (none ∈ c.answers ∨ (∃ e, some (.error e) ∈ c.answers) → leaving = []) ∧
      ((∃ request name, .page request none (.error (.noSuchObject name)) ∈ log) →
        c.results.stream = .ended ∧ ∀ answer ∈ c.answers, answer = none) := by
  intro c log leaving
  have hc : Account log c.results.stream c.answers :=
    account_run (c := ofSource source recorder w) (.pending source) events
  obtain ⟨heffects, -⟩ := account_poll hc
  obtain ⟨hleaving, hclean⟩ := Stream.cleanUp_close hc c.workspace.service
  exact ⟨heffects, hleaving, hc.cookie_eq, hclean, fun h => hc.leavingDeeds_eq_nil h _,
    fun ⟨_, _, hmem⟩ => hc.ended_of_missing hmem⟩

/-- Somebody reads one of three entries and goes away, and the directory refuses to abandon the
search. -/
theorem cleans_up_refused_abandon :
    let d := Directory.empty.addAll
      [.named "cn=Ann,dc=org", .named "cn=Bob,dc=org", .named "cn=Cyd,dc=org"]
    let w : Workspace := ⟨⟨{ d with abandonFailure := some (.protocol "abandon refused") },
      .ofConfig { PoolConfig.ofPrimary "localhost" with pageSize := 2 }⟩, .empty⟩
    let source : Source := ⟨"dc=org", .subtree, none⟩
    let c := (ofSource source none w).run [.poll]
    let log := (ofSource source none w).deeds [.poll]
    let leaving := c.results.stream.leavingDeeds c.workspace.service
    CleanUp log leaving ∧ leaving.filterMap abandoned? = [.encode 1 2] ∧
      (log ++ leaving).filterMap handedBack? = [.evict] := by
  intro d w source c log leaving
  obtain ⟨-, -, -, hclean, -⟩ := cleans_up source none w [.poll]
  refine ⟨hclean, ?_, ?_⟩
  · have hcookie : outstanding log = some (.encode 1 2) := by decide +kernel
    rw [hclean.abandons, hcookie]
    rfl
  · have hfate : ((log.filter gets).map fun _ => fate (log ++ leaving)) = [.evict] := by
      decide +kernel
    rw [hclean.handsBack, hfate]

end Cursor

end DirectoryQuery
