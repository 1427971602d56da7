import DirectoryQuery.Proofs.Filter.Induction
import DirectoryQuery.Proofs.Query.Outcome

/-!
# Windows over streams

A window takes steps below it, lets through what stands at its positions, and closes what is below
at the upper bound and at the end.  Errors take a position like entries do, and are let through
wherever they are.

What a window sees (`Window.seen`) and brings about (`Window.answers`) depends on the events below
alone, so both are recursions over these.  `Window.serves_answers` says of any events what comes
through and how often the window asks.

The run of a window is then compared with the run of what is below it.  For streams that is
`Stream.events_sliced`, and `Stream.services_sliced` for all that happens to the service on the way.
A stream fails once at most and ends then; `Window.run_stepOver` is the same over anything that can
be stepped and closed, which may go on after an error.  `Window.run_exact` puts this together.
-/

namespace DirectoryQuery

namespace Window

/-! ## Bounds -/

lemma bound_eq_ok_iff {n : Int} {k : Nat} : bound n = .ok k ↔ n = k := by
  unfold bound
  split
  · simp only [reduceCtorEq, false_iff]
    omega
  · rw [Except.ok.injEq]
    omega

lemma mapM_bound_eq_ok_iff {n : Option Int} {k : Option Nat} :
    n.mapM bound = .ok k ↔ n = k.map Int.ofNat := by
  cases n with
  | none => cases k <;> simp [pure, Except.pure]
  | some n =>
    have hmap : (some n).mapM bound = (bound n).map some := by
      rw [Option.mapM_some]
      cases bound n <;> rfl
    rw [hmap, map_eq_ok_iff]
    simp only [bound_eq_ok_iff]
    cases k with
    | none => simp
    | some k => simp

/-- Bounds are taken over as they are, if none is negative and the step is positive. -/
lemma ofBounds_eq_ok_iff {low : Int} {high : Option Int} {step : Int} {w : Window} :
    ofBounds low high step = .ok w ↔
      low = w.low ∧ high = w.high.map Int.ofNat ∧ step = w.step ∧ 0 < step := by
  simp only [ofBounds, bind_eq_ok_iff, bound_eq_ok_iff, mapM_bound_eq_ok_iff]
  constructor
  · rintro ⟨low, rfl, high, rfl, h⟩
    split at h
    · cases h
    · cases h
      exact ⟨rfl, rfl, (Int.toNat_of_nonneg (by omega)).symm, by omega⟩
  · rintro ⟨rfl, rfl, hstep, hpos⟩
    refine ⟨w.low, rfl, w.high, rfl, ?_⟩
    rw [if_neg (by omega), show step.toNat = w.step by omega]
    rfl

lemma exists_ofBounds_iff {low : Int} {high : Option Int} {step : Int} :
    (∃ w, ofBounds low high step = .ok w) ↔ 0 ≤ low ∧ (∀ h ∈ high, 0 ≤ h) ∧ 0 < step := by
  simp only [ofBounds_eq_ok_iff]
  constructor
  · rintro ⟨w, rfl, rfl, -, hpos⟩
    refine ⟨by omega, fun h hh => ?_, hpos⟩
    obtain ⟨n, -, rfl⟩ := Option.map_eq_some_iff.1 hh
    exact Int.natCast_nonneg n
  · rintro ⟨hlow, hhigh, hpos⟩
    refine ⟨⟨low.toNat, high.map Int.toNat, step.toNat⟩, by simp only; omega, ?_,
      by simp only; omega, hpos⟩
    cases high with
    | none => rfl
    | some h => simp [Int.toNat_of_nonneg (hhigh h rfl)]

end Window

/-! ## Steps -/

namespace StreamEvent

/-- The entries and errors that events deliver before the end. -/
def delivered : List StreamEvent → List (Except QueryError Entry)
  | [] => []
  | .item e :: rest => .ok e :: delivered rest
  | .fault e :: rest => .error e :: delivered rest
  | .pause :: rest => delivered rest
  | .finish :: _ => []

lemma delivered_cons {event : StreamEvent} (h : event ≠ .finish) (rest : List StreamEvent) :
    delivered (event :: rest) = delivered [event] ++ delivered rest := by
  cases event with
  | item e => rfl
  | fault e => rfl
  | pause => rfl
  | finish => exact absurd rfl h

/-- The number of times that somebody asked for more and saw these events.  Who sees a pause goes on
waiting. -/
def polls : List StreamEvent → Nat
  | [] => 0
  | .pause :: rest => max 1 (polls rest)
  | _ :: rest => polls rest + 1

variable {σ : Type}

/-- What a number of steps bring about, and what they leave. -/
def run (next : σ → StreamEvent × σ) : Nat → σ → List StreamEvent × σ
  | 0, s => ([], s)
  | n + 1, s =>
    let (event, s) := next s
    let (events, s) := run next n s
    (event :: events, s)

@[simp] lemma length_run (next : σ → StreamEvent × σ) (n : Nat) (s : σ) :
    (run next n s).1.length = n := by
  induction n generalizing s with
  | zero => rfl
  | succ n ih => exact congrArg (· + 1) (ih _)

/-- Fewer steps bring about the first of the events. -/
lemma run_take (next : σ → StreamEvent × σ) {k n : Nat} (h : k ≤ n) (s : σ) :
    (run next k s).1 = (run next n s).1.take k := by
  induction k generalizing n s with
  | zero => rfl
  | succ k ih =>
    cases n with
    | zero => omega
    | succ n => simp only [run, List.take_succ_cons, ih (Nat.le_of_succ_le_succ h)]

end StreamEvent

namespace Stream

/-- What a stream brings about step by step, given the kept results and the service each time. -/
def events : Stream → List (Snapshots × Service) → List StreamEvent
  | _, [] => []
  | s, (snapshots, svc) :: rest =>
    let (event, s', _) := s.step snapshots svc
    event :: s'.events rest

/-- The service as each of the steps leaves it. -/
def services : Stream → List (Snapshots × Service) → List Service
  | _, [] => []
  | s, (snapshots, svc) :: rest =>
    let (_, s', svc') := s.step snapshots svc
    svc' :: s'.services rest

/-- The stream that the steps leave. -/
def after : Stream → List (Snapshots × Service) → Stream
  | s, [] => s
  | s, (snapshots, svc) :: rest => (s.step snapshots svc).2.1.after rest

/-- The service after each round, if the stream is closed in the first one and nothing is done in
the others. -/
def closedIn (s : Stream) : List (Snapshots × Service) → List Service
  | [] => []
  | (_, svc) :: rest => s.close svc :: rest.map Prod.snd

@[simp] lemma length_events (s : Stream) (rounds : List (Snapshots × Service)) :
    (s.events rounds).length = rounds.length := by
  induction rounds generalizing s with
  | nil => rfl
  | cons round rest ih => exact congrArg (· + 1) (ih _)

lemma events_take (s : Stream) (rounds : List (Snapshots × Service)) (k : Nat) :
    s.events (rounds.take k) = (s.events rounds).take k := by
  induction rounds generalizing s k with
  | nil => simp [events]
  | cons round rest ih =>
    cases k with
    | zero => rfl
    | succ k => simp only [List.take_succ_cons, events, ih]

lemma events_ended (rounds : List (Snapshots × Service)) :
    ended.events rounds = .replicate rounds.length .finish := by
  induction rounds with
  | nil => rfl
  | cons round rest ih =>
    rw [events, List.length_cons, List.replicate_succ, ← ih]
    rfl

lemma services_ended (rounds : List (Snapshots × Service)) :
    ended.services rounds = rounds.map Prod.snd := by
  induction rounds with
  | nil => rfl
  | cons round rest ih =>
    rw [services, List.map_cons, ← ih]
    rfl

/-- A stream that is through has nothing to close. -/
lemma IsSpent.closedIn_eq {s : Stream} (h : s.IsSpent) (rounds : List (Snapshots × Service)) :
    s.closedIn rounds = rounds.map Prod.snd := by
  cases rounds with
  | nil => rfl
  | cons round rest => rw [closedIn, h.close_eq, List.map_cons]

end Stream

/-! ## What a window makes of the events below -/

namespace Window

variable {w : Window} {p : Nat} {events : List StreamEvent}

/-- What a window at a position brings about, by the events below. -/
def answers (w : Window) : Nat → List StreamEvent → List StreamEvent
  | _, [] => []
  | p, event :: rest =>
    if w.isOver p then .replicate (rest.length + 1) .finish
    else match event with
      | .item e => (if w.selects p then .item e else .pause) :: w.answers (p + 1) rest
      | .fault e => .fault e :: w.answers (p + 1) rest
      | .pause => .pause :: w.answers p rest
      | .finish => .replicate (rest.length + 1) .finish

/-- Those of the events below that a window at a position sees. -/
def seen (w : Window) : Nat → List StreamEvent → List StreamEvent
  | _, [] => []
  | p, event :: rest =>
    if w.isOver p then []
    else match event with
      | .item e => .item e :: w.seen (p + 1) rest
      | .fault e => .fault e :: w.seen (p + 1) rest
      | .pause => .pause :: w.seen p rest
      | .finish => [.finish]

lemma seen_of_isOver (h : w.isOver p = true) (events : List StreamEvent) :
    w.seen p events = [] := by
  cases events with
  | nil => rfl
  | cons event rest =>
    rw [seen.eq_def]
    exact if_pos h

lemma answers_of_isOver (h : w.isOver p = true) (events : List StreamEvent) :
    w.answers p events = .replicate events.length .finish := by
  cases events with
  | nil => rfl
  | cons event rest =>
    rw [answers.eq_def]
    exact if_pos h

/-- A window sees all events up to where it stops. -/
lemma seen_isPrefix (w : Window) (p : Nat) (events : List StreamEvent) :
    w.seen p events <+: events := by
  induction p, events using answers.induct w with
  | case1 p => exact List.prefix_rfl
  | case2 p event rest hover =>
    rw [seen_of_isOver hover]
    exact List.nil_prefix
  | case3 p rest hover e ih | case4 p rest hover e ih | case5 p rest hover ih =>
    rw [seen, if_neg hover]
    exact (List.prefix_cons_inj _).2 ih
  | case6 p rest hover =>
    rw [seen, if_neg hover]
    exact (List.prefix_cons_inj _).2 List.nil_prefix

/-- Whether an entry or an error comes through at its position. -/
def admits (w : Window) (answer : Except QueryError Entry × Nat) : Bool :=
  !w.isOver answer.2 && (!answer.1.isOk || w.selects answer.2)

/-- What comes through of a sequence, the first of which is at the given position. -/
def through (w : Window) (p : Nat) (answers : List (Except QueryError Entry)) :
    List (Except QueryError Entry) :=
  ((answers.zipIdx p).filter w.admits).map Prod.fst

lemma through_cons (w : Window) (p : Nat) (answer : Except QueryError Entry)
    (answers : List (Except QueryError Entry)) :
    w.through p (answer :: answers) =
      if w.admits (answer, p) then answer :: w.through (p + 1) answers
      else w.through (p + 1) answers := by
  rw [through, List.zipIdx_cons, List.filter_cons]
  split <;> rfl

lemma through_of_isOver (h : w.isOver p = true) (answers : List (Except QueryError Entry)) :
    w.through p answers = [] := by
  have hnone : (answers.zipIdx p).filter w.admits = [] := by
    rw [List.filter_eq_nil_iff]
    rintro ⟨answer, p'⟩ hmem
    have hle : p ≤ p' := List.le_snd_of_mem_zipIdx hmem
    simp [admits, isOver_of_le hle h]
  rw [through, hnone, List.map_nil]

lemma through_error (h : w.isOver p = false) (e : QueryError)
    (answers : List (Except QueryError Entry)) :
    w.through p (.error e :: answers) = .error e :: w.through (p + 1) answers := by
  rw [through_cons, admits, h]
  rfl

lemma through_ok (h : w.isOver p = false) (e : Entry)
    (answers : List (Except QueryError Entry)) :
    w.through p (.ok e :: answers) =
      if w.selects p then .ok e :: w.through (p + 1) answers else w.through (p + 1) answers := by
  rw [through_cons, admits, h]
  rfl

/-- The window lets through what is at its positions, up to the end of what is below. -/
lemma delivered_answers (w : Window) (p : Nat) (events : List StreamEvent) :
    StreamEvent.delivered (w.answers p events) =
      w.through p (StreamEvent.delivered events) := by
  induction p, events using answers.induct w with
  | case1 p => rfl
  | case2 p event rest hover =>
    rw [through_of_isOver hover, answers_of_isOver hover]
    rfl
  | case3 p rest hover e ih =>
    rw [StreamEvent.delivered, through_ok (eq_false_of_ne_true hover), answers, if_neg hover, ← ih]
    cases w.selects p <;> rfl
  | case4 p rest hover e ih =>
    rw [StreamEvent.delivered, through_error (eq_false_of_ne_true hover), answers, if_neg hover,
      ← ih]
    rfl
  | case5 p rest hover ih =>
    rw [StreamEvent.delivered, answers, if_neg hover, ← ih]
    rfl
  | case6 p rest hover =>
    rw [answers, if_neg hover]
    rfl

/-- The window asks once for each entry and each error below, and once more for the end. -/
lemma polls_seen_le (w : Window) (p : Nat) (events : List StreamEvent) :
    StreamEvent.polls (w.seen p events) ≤ (StreamEvent.delivered events).length + 1 := by
  induction p, events using answers.induct w with
  | case1 p => exact Nat.zero_le _
  | case2 p event rest hover =>
    rw [seen_of_isOver hover]
    exact Nat.zero_le _
  | case3 p rest hover e ih | case4 p rest hover e ih =>
    rw [seen, if_neg hover]
    exact Nat.succ_le_succ ih
  | case5 p rest hover ih =>
    rw [seen, if_neg hover]
    exact Nat.max_le.2 ⟨Nat.succ_le_succ (Nat.zero_le _), ih⟩
  | case6 p rest hover =>
    rw [seen, if_neg hover]
    exact Nat.succ_le_succ (Nat.zero_le _)

/-- The window asks at most once for each position below its upper bound. -/
lemma polls_seen_le_high {high : Nat} (hhigh : w.high = some high) (p : Nat)
    (events : List StreamEvent) :
    StreamEvent.polls (w.seen p events) ≤ high - p := by
  have hbelow : ∀ {p}, ¬w.isOver p = true → p < high := fun hover => by
    simpa [isOver, hhigh] using hover
  induction p, events using answers.induct w with
  | case1 p => exact Nat.zero_le _
  | case2 p event rest hover =>
    rw [seen_of_isOver hover]
    exact Nat.zero_le _
  | case3 p rest hover e ih | case4 p rest hover e ih =>
    have hp := hbelow hover
    rw [seen, if_neg hover]
    show StreamEvent.polls (w.seen (p + 1) rest) + 1 ≤ high - p
    omega
  | case5 p rest hover ih =>
    have hp := hbelow hover
    rw [seen, if_neg hover, StreamEvent.polls]
    omega
  | case6 p rest hover =>
    have hp := hbelow hover
    rw [seen, if_neg hover]
    show 1 ≤ high - p
    omega

/-- What the window sees first, and what it goes on with. -/
lemma seen_eq_cons {first : StreamEvent} {others : List StreamEvent}
    (h : w.seen p events = first :: others) :
    w.isOver p = false ∧ ∃ rest, events = first :: rest ∧
      (first = .finish ∧ others = [] ∨
        first ≠ .finish ∧ others = w.seen (p + (StreamEvent.delivered [first]).length) rest) := by
  cases events with
  | nil => cases h
  | cons event rest =>
    by_cases hover : w.isOver p = true
    · rw [seen_of_isOver hover] at h
      cases h
    · refine ⟨eq_false_of_ne_true hover, rest, ?_⟩
      cases event with
      | item _ | fault _ | pause =>
        rw [seen, if_neg hover] at h
        cases h
        exact ⟨rfl, .inr ⟨nofun, rfl⟩⟩
      | finish =>
        rw [seen, if_neg hover] at h
        cases h
        exact ⟨rfl, .inl ⟨rfl, rfl⟩⟩

/-- When the window takes a step below, it has not seen the end and is not at its upper bound. -/
lemma goes_on_of_seen {before after : List StreamEvent} {event : StreamEvent}
    (h : w.seen p events = before ++ event :: after) :
    .finish ∉ before ∧ w.isOver (p + (StreamEvent.delivered before).length) = false := by
  induction before generalizing p events with
  | nil => exact ⟨List.not_mem_nil, (seen_eq_cons h).1⟩
  | cons first before ih =>
    obtain ⟨-, rest, -, ⟨-, hnone⟩ | ⟨hfirst, hothers⟩⟩ := seen_eq_cons h
    · simp at hnone
    · obtain ⟨hopen, hover⟩ := ih hothers.symm
      refine ⟨List.not_mem_cons_of_ne_of_not_mem hfirst.symm hopen, ?_⟩
      rw [StreamEvent.delivered_cons hfirst, List.length_append, ← Nat.add_assoc]
      exact hover

/-- After its end the window brings about nothing any more. -/
lemma pairwise_answers (w : Window) (p : Nat) (events : List StreamEvent) :
    (w.answers p events).Pairwise fun earlier later => earlier = .finish → later = .finish := by
  have hend : ∀ n, (List.replicate n StreamEvent.finish).Pairwise
      fun earlier later => earlier = .finish → later = .finish := fun n =>
    List.pairwise_replicate.2 (.inr fun h => h)
  induction p, events using answers.induct w with
  | case1 p => exact .nil
  | case2 p event rest hover =>
    rw [answers_of_isOver hover]
    exact hend _
  | case3 p rest hover e ih =>
    rw [answers, if_neg hover]
    refine .cons (fun later _ h => ?_) ih
    cases hselects : w.selects p <;> simp [hselects] at h
  | case4 p rest hover e ih | case5 p rest hover ih =>
    rw [answers, if_neg hover]
    exact .cons (fun later _ h => by cases h) ih
  | case6 p rest hover =>
    rw [answers, if_neg hover]
    exact hend _

/-- The positions of a window by the bounds that it was made from. -/
lemma admits_iff {low : Int} {high : Option Int} {step : Int}
    (h : ofBounds low high step = .ok w) (answer : Except QueryError Entry × Nat) :
    w.admits answer = (high.all (fun h => decide ((answer.2 : Int) < h)) &&
      (!answer.1.isOk || decide (low ≤ answer.2 ∧ step ∣ answer.2 - low))) := by
  obtain ⟨rfl, rfl, rfl, -⟩ := ofBounds_eq_ok_iff.1 h
  have hover : (!w.isOver answer.2) =
      (w.high.map Int.ofNat).all fun h => decide ((answer.2 : Int) < h) := by
    rw [Bool.eq_iff_iff, isOver]
    cases w.high with
    | none => simp
    | some high => simp
  have hselects : w.selects answer.2 =
      decide ((w.low : Int) ≤ answer.2 ∧ (w.step : Int) ∣ answer.2 - w.low) := by
    rw [Bool.eq_iff_iff, selects, Bool.and_eq_true, decide_eq_true_iff, decide_eq_true_iff,
      beq_iff_eq, Int.ofNat_le]
    refine and_congr_right fun hlow => ?_
    rw [← Nat.dvd_iff_mod_eq_zero, ← Int.natCast_dvd_natCast, Int.ofNat_sub hlow]
  rw [admits, hover, hselects]

/-- How a window with these bounds serves what is below it: `own` is what it brings about, `seen`
what it saw below on the way, and `below` what would come below without it. -/
structure Serves (low : Int) (high : Option Int) (step : Int)
    (below seen own : List StreamEvent) : Prop where
  /-- The entries at its positions come through, and all errors below the upper bound. -/
  delivered_eq : StreamEvent.delivered own =
    ((StreamEvent.delivered below).zipIdx.filter fun answer =>
      high.all (fun h => decide ((answer.2 : Int) < h)) &&
        (!answer.1.isOk || decide (low ≤ answer.2 ∧ step ∣ answer.2 - low))).map Prod.fst
  /-- After the end nothing comes any more. -/
  ended : own.Pairwise fun earlier later => earlier = .finish → later = .finish
  /-- It asks at most once for each entry and each error, and once more for the end. -/
  polls_le : StreamEvent.polls seen ≤ (StreamEvent.delivered below).length + 1
  /-- It asks at most once for each position below the upper bound. -/
  polls_le_high : ∀ h ∈ high, (StreamEvent.polls seen : Int) ≤ h
  /-- It takes a step below only before it has seen the end, and below the upper bound. -/
  goes_on : ∀ before event after, seen = before ++ event :: after →
    .finish ∉ before ∧ ∀ h ∈ high, ((StreamEvent.delivered before).length : Int) < h

lemma serves_answers {low : Int} {high : Option Int} {step : Int}
    (h : ofBounds low high step = .ok w) (events : List StreamEvent) :
    Serves low high step events (w.seen 0 events) (w.answers 0 events) where
  delivered_eq := by
    rw [delivered_answers, through]
    exact congrArg _ (List.filter_congr fun answer _ => admits_iff h answer)
  ended := pairwise_answers w 0 events
  polls_le := polls_seen_le w 0 events
  polls_le_high := by
    obtain ⟨-, rfl, -⟩ := ofBounds_eq_ok_iff.1 h
    intro bound hbound
    obtain ⟨n, hn, rfl⟩ := Option.map_eq_some_iff.1 hbound
    exact Int.ofNat_le.2 (polls_seen_le_high hn 0 events)
  goes_on := by
    obtain ⟨-, rfl, -⟩ := ofBounds_eq_ok_iff.1 h
    intro before event after hseen
    obtain ⟨hopen, hover⟩ := goes_on_of_seen hseen
    refine ⟨hopen, fun bound hbound => ?_⟩
    obtain ⟨n, hn, rfl⟩ := Option.map_eq_some_iff.1 hbound
    rw [Nat.zero_add] at hover
    have hlt : (StreamEvent.delivered before).length < n := by simpa [isOver, hn] using hover
    exact Int.ofNat_lt.2 hlt

end Window

/-! ## Windows over streams -/

namespace Stream

open Window

/-- What the stream of a window brings about, by what the stream below would bring about. -/
lemma events_sliced (w : Window) (p : Nat) (inner : Stream)
    (rounds : List (Snapshots × Service)) :
    (sliced w p inner).events rounds = w.answers p (inner.events rounds) := by
  induction rounds generalizing p inner with
  | nil => rfl
  | cons round rest ih =>
    obtain ⟨snapshots, svc⟩ := round
    rw [events, step_sliced]
    by_cases hover : w.isOver p = true
    · simp only [if_pos hover]
      rw [answers_of_isOver hover, length_events, events_ended]
      rfl
    · simp only [if_neg hover]
      rw [events]
      rcases inner.step snapshots svc with ⟨event, inner', svc'⟩
      cases event with
      | item _ | fault _ | pause => simp only [ih, answers, if_neg hover]
      | finish =>
        simp only [answers, if_neg hover, events_ended, length_events]
        rfl

/-- The stream of a window does to the service what the stream below does in as many steps as the
window sees.  In the next round it closes that stream. -/
lemma services_sliced (w : Window) (p : Nat) (inner : Stream)
    (rounds : List (Snapshots × Service)) :
    let k := (w.seen p (inner.events rounds)).length
    (sliced w p inner).services rounds = inner.services (rounds.take k) ++
      (inner.after (rounds.take k)).closedIn (rounds.drop k) := by
  induction rounds generalizing p inner with
  | nil => rfl
  | cons round rest ih =>
    obtain ⟨snapshots, svc⟩ := round
    by_cases hover : w.isOver p = true
    · rw [seen_of_isOver hover, services, step_sliced, if_pos hover]
      simp only [services_ended]
      rfl
    · rw [services, step_sliced, if_neg hover, events]
      rcases hstep : inner.step snapshots svc with ⟨event, inner', svc'⟩
      cases event with
      | item _ | fault _ | pause =>
        simp only [seen, if_neg hover, ih, List.length_cons, List.take_succ_cons,
          List.drop_succ_cons, services, after, hstep, List.cons_append]
      | finish =>
        -- The stream below is through by now, so there is nothing left to close.
        have hspent : inner'.IsSpent := isSpent_of_isStop hstep rfl
        simp only [seen, if_neg hover, List.length_cons, List.length_nil, List.take_succ_cons,
          List.drop_succ_cons, List.take_zero, List.drop_zero, services, after, hstep,
          services_ended, hspent.close_eq, hspent.closedIn_eq, List.cons_append, List.nil_append]

end Stream

/-! ## Windows over anything -/

namespace Window

variable {σ : Type}

/-- A step of a window over anything that can be stepped and closed, from a position or from its
end. -/
def stepOver (w : Window) (next : σ → StreamEvent × σ) (close : σ → σ) :
    Option Nat × σ → StreamEvent × Option Nat × σ
  | (some position, below) => w.advance position below (fun _ => next below) close
  | (none, below) => (.finish, none, below)

open StreamEvent

lemma run_stepOver_none (w : Window) (next : σ → StreamEvent × σ) (close : σ → σ) (n : Nat)
    (s : σ) : run (w.stepOver next close) n (none, s) = (.replicate n .finish, none, s) := by
  induction n with
  | zero => rfl
  | succ n ih => simp only [run, stepOver, ih, List.replicate_succ]

/-- What a window brings about and what it leaves below, by what would come below without it. -/
lemma run_stepOver (w : Window) (next : σ → StreamEvent × σ) (close : σ → σ) (n p : Nat) (s : σ) :
    let events := (run next n s).1
    let left := (run next (w.seen p events).length s).2
    let own := run (w.stepOver next close) n (some p, s)
    own.1 = w.answers p events ∧ (.finish ∈ own.1 → own.2.2 = close left) ∧
      (.finish ∉ own.1 → own.2.2 = left) := by
  induction n generalizing p s with
  | zero => simp [run, answers, seen]
  | succ n ih =>
    simp only [run, stepOver, advance]
    by_cases hover : w.isOver p = true
    · simp [hover, run_stepOver_none, answers_of_isOver, seen_of_isOver, run, List.replicate_succ]
    · simp only [if_neg hover]
      rcases hnext : next s with ⟨event, s'⟩
      cases event with
      | item e =>
        obtain ⟨hown, hclosed, hleft⟩ := ih (p + 1) s'
        have hopen : finish ≠ if w.selects p then .item e else .pause := by
          split <;> simp
        simp only [answers, seen, if_neg hover, hown, List.length_cons, run, hnext, List.mem_cons,
          hopen, false_or] at hclosed hleft ⊢
        exact ⟨trivial, hclosed, hleft⟩
      | fault e =>
        obtain ⟨hown, hclosed, hleft⟩ := ih (p + 1) s'
        simp only [answers, seen, if_neg hover, hown, List.length_cons, run, hnext, List.mem_cons,
          reduceCtorEq, false_or] at hclosed hleft ⊢
        exact ⟨trivial, hclosed, hleft⟩
      | pause =>
        obtain ⟨hown, hclosed, hleft⟩ := ih p s'
        simp only [answers, seen, if_neg hover, hown, List.length_cons, run, hnext, List.mem_cons,
          reduceCtorEq, false_or] at hclosed hleft ⊢
        exact ⟨trivial, hclosed, hleft⟩
      | finish =>
        simp [answers, seen, hover, run_stepOver_none, run, hnext, List.replicate_succ]

/-- Bounds are accepted if none is negative and the step is positive.  A window with such bounds
then takes the first few steps below it, as they would be taken without it, and serves what they
bring about.

The stream of a window does nothing else to the service than these steps do, and then it closes what
they have left below.  The same is true of a window over anything that can be stepped and closed,
which is left as these steps leave it, and closed if the window has ended. -/
theorem run_exact (low : Int) (high : Option Int) (step : Int) :
    ((∃ w, ofBounds low high step = .ok w) ↔ 0 ≤ low ∧ (∀ h ∈ high, 0 ≤ h) ∧ 0 < step) ∧
    ∀ w, ofBounds low high step = .ok w →
      (∀ (inner : Stream) (rounds : List (Snapshots × Service)), ∃ k ≤ rounds.length,
        Serves low high step (inner.events rounds) (inner.events (rounds.take k))
          ((Stream.sliced w 0 inner).events rounds) ∧
        (Stream.sliced w 0 inner).services rounds = inner.services (rounds.take k) ++
          (inner.after (rounds.take k)).closedIn (rounds.drop k)) ∧
      ∀ (σ : Type) (next : σ → StreamEvent × σ) (close : σ → σ) (s : σ) (n : Nat), ∃ k ≤ n,
        let own := run (w.stepOver next close) n (some 0, s)
        let left := (run next k s).2
        Serves low high step (run next n s).1 (run next k s).1 own.1 ∧
        (.finish ∈ own.1 → own.2.2 = close left) ∧ (.finish ∉ own.1 → own.2.2 = left) := by
  refine ⟨exists_ofBounds_iff, fun w hw => ⟨fun inner rounds => ?_, fun σ next close s n => ?_⟩⟩
  · have hseen := seen_isPrefix w 0 (inner.events rounds)
    have hle : (w.seen 0 (inner.events rounds)).length ≤ rounds.length :=
      hseen.length_le.trans_eq (Stream.length_events inner rounds)
    refine ⟨_, hle, ?_, Stream.services_sliced w 0 inner rounds⟩
    rw [Stream.events_take, ← List.prefix_iff_eq_take.1 hseen, Stream.events_sliced]
    exact serves_answers hw _
  · have hseen := seen_isPrefix w 0 (run next n s).1
    have hle : (w.seen 0 (run next n s).1).length ≤ n :=
      hseen.length_le.trans_eq (length_run next n s)
    obtain ⟨hown, hclosed, hleft⟩ := run_stepOver w next close n 0 s
    refine ⟨_, hle, ?_, hclosed, hleft⟩
    rw [run_take next hle, ← List.prefix_iff_eq_take.1 hseen, hown]
    exact serves_answers hw _

/-- Every second position below the third, of what goes on after an error: the entry behind the
window is left where it is. -/
theorem run_exact_behind_error :
    let next : List StreamEvent → StreamEvent × List StreamEvent
      | [] => (.finish, [])
      | event :: rest => (event, rest)
    let below : List StreamEvent := [.item (.named "cn=a"), .fault (.negativeBound 0), .pause,
      .item (.named "cn=b"), .item (.named "cn=c")]
    let own := run (stepOver ⟨0, some 3, 2⟩ next id) 6 (some 0, below)
    ofBounds 0 (some 3) 2 = .ok ⟨0, some 3, 2⟩ ∧
    own = ([.item (.named "cn=a"), .fault (.negativeBound 0), .pause, .item (.named "cn=b"),
      .finish, .finish], none, [.item (.named "cn=c")]) ∧
    ∃ k ≤ 6, Serves 0 (some 3) 2 (run next 6 below).1 (run next k below).1 own.1 ∧
      own.2.2 = (run next k below).2 := by
  intro next below own
  obtain ⟨k, hk, hserves, hclosed, -⟩ :=
    ((run_exact 0 (some 3) 2).2 ⟨0, some 3, 2⟩ rfl).2 _ next id below 6
  have hown : own = ([.item (.named "cn=a"), .fault (.negativeBound 0), .pause,
      .item (.named "cn=b"), .finish, .finish], none, [.item (.named "cn=c")]) := rfl
  have hended : .finish ∈ own.1 := by simp [hown]
  exact ⟨rfl, hown, k, hk, hserves, hclosed hended⟩

end Window

end DirectoryQuery
