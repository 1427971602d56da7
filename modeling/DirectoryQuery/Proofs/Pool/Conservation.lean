import DirectoryQuery.Proofs.Pool.Desk
import Mathlib.Data.List.Perm.Basic

/-!
# A pool conserves its sessions

Whatever happens at a desk, every session that its pool bound is idle, held or closed, and in one of
these places only, and the counters of the pool account for all of them.

`Desk.Sound` is the invariant, shown for each case of `Desk.Turn` and for closing down, and with
that for every dealing (`Desk.sound_deal`) and every run of dealings.  `Desk.Later` is what only
ever grows.  `Desk.conserves` assembles what they come to.
-/

namespace DirectoryQuery.Desk

variable {d d' : Desk}

/-! ## What holds after every dealing -/

/-- The counters agree with the idle sessions, with what is held and with the closings. -/
structure Balances (d : Desk) : Prop where
  idle : d.service.pool.idle.length ≤ d.service.pool.capacity
  created : d.service.pool.created =
    d.service.pool.closed + d.service.pool.idle.length + d.held.length
  released : d.service.pool.released =
    d.service.pool.reused + d.service.pool.idle.length + Closing.number d.closings .shutdown
  evicted : d.service.pool.evicted = Closing.number d.closings .eviction
  closed : d.service.pool.closed = d.service.pool.evicted +
    Closing.number d.closings .overflow + Closing.number d.closings .shutdown

/-- The counters agree, and every session is in one place, open until the pool closes it. -/
structure Sound (d : Desk) : Prop extends d.Balances where
  distinct : d.ids.Nodup
  known : ∀ n ∈ d.ids, n < d.bound
  allOpen : ∀ s ∈ d.sessions, s.isOpen = true

lemma number_cons (c : Closing) (closings : List Closing) (cause : Cause) :
    Closing.number (c :: closings) cause =
      Closing.number closings cause + if c.cause = cause then 1 else 0 := by
  simp [Closing.number, List.countP_cons]

lemma number_shutDown (idle : List Session) (closings : List Closing) (cause : Cause) :
    Closing.number (idle.map (⟨.shutdown, ·.id⟩) ++ closings) cause =
      (if .shutdown = cause then idle.length else 0) + Closing.number closings cause := by
  rw [Closing.number, List.countP_append, List.countP_map]
  cases cause <;> simp [Function.comp_def, Closing.number]

/-- What was held at a position is apart from the rest. -/
lemma perm_eraseIdx {i : Nat} {h : Holding} {held : List Holding} (hheld : held[i]? = some h) :
    held.Perm (h :: held.eraseIdx i) := by
  obtain ⟨hi, rfl⟩ := List.getElem?_eq_some_iff.1 hheld
  exact (List.getElem_cons_eraseIdx_perm hi).symm

lemma Balances.turn (hd : d.Balances) (t : d.Turn d') : d'.Balances := by
  obtain ⟨hidle, hcreated, hreleased, hevicted, hclosed⟩ := hd
  cases t with
  | quiet hquiet =>
    obtain ⟨⟨config, hpool⟩, -, hheld, hclosings⟩ := hquiet
    have hlength : d'.held.length = d.held.length := by
      simpa using congrArg List.length hheld
    constructor <;> simpa only [hpool, hlength, hclosings]
  | opens hopens => constructor <;> simp only [List.length_cons] <;> omega
  | reuse hreuse =>
    rw [hreuse, List.length_cons] at hidle hcreated hreleased
    constructor <;> simp only [List.length_cons] <;> omega
  | keep hheld hroom =>
    have hlength := (perm_eraseIdx hheld).length_eq
    rw [List.length_cons] at hlength
    constructor <;> simp only [List.length_cons] <;> omega
  | overflow hheld =>
    have hlength := (perm_eraseIdx hheld).length_eq
    rw [List.length_cons] at hlength
    constructor <;> simp only [Service.closeSession, number_cons, reduceCtorEq, if_true,
      if_false] <;> omega
  | evict hheld =>
    have hlength := (perm_eraseIdx hheld).length_eq
    rw [List.length_cons] at hlength
    constructor <;> simp only [Service.evict, Service.closeSession, number_cons, reduceCtorEq,
      if_true, if_false] <;> omega

lemma Balances.closeAll (hd : d.Balances) : (d.deal .closeAll).Balances := by
  obtain ⟨hidle, hcreated, hreleased, hevicted, hclosed⟩ := hd
  obtain ⟨hpool, -⟩ := d.service.closeAll_eq
  constructor <;> simp only [deal, hpool, number_shutDown, List.length_nil, reduceCtorEq,
    if_true, if_false] <;> omega

/-- The sessions only change places, or a new one comes to the desk. -/
def SameIds (d d' : Desk) : Prop :=
  d'.ids.Perm d.ids ∧ d.bound ≤ d'.bound ∨
    d'.ids.Perm (d.bound :: d.ids) ∧ d'.bound = d.bound + 1

lemma Turn.sameIds (t : d.Turn d') : d.SameIds d' := by
  cases t with
  | quiet hquiet =>
    obtain ⟨⟨config, hpool⟩, hbound, hheld, hclosings⟩ := hquiet
    have hids : d'.held.map (·.session.id) = d.held.map (·.session.id) := by
      simpa [Function.comp_def, Session.connection] using congrArg (List.map Prod.fst) hheld
    refine .inl ⟨.of_eq ?_, hbound⟩
    rw [Desk.ids, hpool, hids, hclosings]
    rfl
  | @opens h directory hopens =>
    refine .inr ⟨?_, hopens.sessionsBound⟩
    simp only [Desk.ids, List.map_cons, hopens.id, bound, List.append_assoc, List.cons_append]
    exact List.perm_middle
  | @reuse h rest hidle =>
    refine .inl ⟨?_, Nat.le_refl _⟩
    simp only [Desk.ids, hidle, List.map_cons, List.append_assoc, List.cons_append]
    exact List.perm_middle
  | @keep i h hheld hroom =>
    refine .inl ⟨?_, Nat.le_refl _⟩
    have hperm := (perm_eraseIdx hheld).map (·.session.id)
    simp only [Desk.ids, List.map_cons, List.append_assoc, List.cons_append] at hperm ⊢
    exact (List.perm_middle.symm.trans ((hperm.symm.append_right _).append_left _))
  | @overflow i h hheld =>
    refine .inl ⟨?_, Nat.le_of_eq (Service.sessionsBound_close _ _).symm⟩
    have hperm := (perm_eraseIdx hheld).map (·.session.id)
    simp only [Desk.ids, Service.closeSession, List.map_cons, List.append_assoc] at hperm ⊢
    exact (List.perm_middle.trans (hperm.symm.append_right _)).append_left _
  | @evict i h hheld =>
    refine .inl ⟨?_, Nat.le_of_eq (Service.sessionsBound_close _ _).symm⟩
    have hperm := (perm_eraseIdx hheld).map (·.session.id)
    simp only [Desk.ids, Service.evict, Service.closeSession, List.map_cons, List.append_assoc]
      at hperm ⊢
    exact (List.perm_middle.trans (hperm.symm.append_right _)).append_left _

lemma sameIds_closeAll (d : Desk) : d.SameIds (d.deal .closeAll) := by
  obtain ⟨hpool, hbound⟩ := d.service.closeAll_eq
  refine .inl ⟨?_, Nat.le_of_eq hbound.symm⟩
  have hclosings : (d.service.pool.idle.map fun s => Closing.mk .shutdown s.id).map Closing.id =
      d.service.pool.idle.map Session.id := by
    simp [Function.comp_def]
  simp only [ids, deal, hpool, List.map_nil, List.nil_append, List.map_append, hclosings]
  exact (List.perm_append_comm_assoc _ _ _).trans (.of_eq (List.append_assoc ..).symm)

lemma mem_sessions {s : Session} :
    s ∈ d.sessions ↔ s ∈ d.service.pool.idle ∨ ∃ h ∈ d.held, h.session = s := by
  rw [sessions, List.mem_append, List.mem_map]

/-- Open sessions stay open on either side of the desk. -/
lemma Turn.allOpen (t : d.Turn d') (hd : ∀ s ∈ d.sessions, s.isOpen = true) :
    ∀ s ∈ d'.sessions, s.isOpen = true := by
  simp only [mem_sessions] at hd ⊢
  cases t with
  | quiet hquiet =>
    obtain ⟨⟨config, hpool⟩, -, hheld, -⟩ := hquiet
    rw [hpool]
    rintro s (hs | ⟨h, hh, rfl⟩)
    · exact hd s (.inl hs)
    · have hmem := List.mem_map_of_mem (f := (·.session.connection)) hh
      rw [hheld] at hmem
      obtain ⟨h₀, hh₀, hsame⟩ := List.mem_map.1 hmem
      have hopen : h₀.session.isOpen = h.session.isOpen := congrArg Prod.snd hsame
      exact hopen ▸ hd _ (.inr ⟨h₀, hh₀, rfl⟩)
  | opens hopens =>
    rintro s (hs | ⟨h, hh, rfl⟩)
    · exact hd s (.inl hs)
    · rcases List.mem_cons.1 hh with rfl | hh
      · exact hopens.isOpen
      · exact hd _ (.inr ⟨h, hh, rfl⟩)
  | reuse hidle =>
    rw [hidle] at hd
    rintro s (hs | ⟨h, hh, rfl⟩)
    · exact hd s (.inl (List.mem_cons_of_mem _ hs))
    · rcases List.mem_cons.1 hh with rfl | hh
      · exact hd _ (.inl List.mem_cons_self)
      · exact hd _ (.inr ⟨h, hh, rfl⟩)
  | keep hheld hroom =>
    rintro s (hs | ⟨h, hh, rfl⟩)
    · rcases List.mem_cons.1 hs with rfl | hs
      · exact hd _ (.inr ⟨_, List.mem_of_getElem? hheld, rfl⟩)
      · exact hd s (.inl hs)
    · exact hd _ (.inr ⟨h, List.mem_of_mem_eraseIdx hh, rfl⟩)
  | overflow hheld | evict hheld =>
    rintro s (hs | ⟨h, hh, rfl⟩)
    · exact hd s (.inl hs)
    · exact hd _ (.inr ⟨h, List.mem_of_mem_eraseIdx hh, rfl⟩)

lemma allOpen_closeAll (hd : ∀ s ∈ d.sessions, s.isOpen = true) :
    ∀ s ∈ (d.deal .closeAll).sessions, s.isOpen = true := by
  obtain ⟨hpool, -⟩ := d.service.closeAll_eq
  intro s hs
  obtain hidle | hheld := mem_sessions.1 hs
  · rw [deal, hpool] at hidle
    cases hidle
  · exact hd s (mem_sessions.2 (.inr hheld))

lemma Sound.sameIds (hd : d.Sound) (h : d.SameIds d') :
    d'.ids.Nodup ∧ ∀ n ∈ d'.ids, n < d'.bound := by
  obtain ⟨hperm, hbound⟩ | ⟨hperm, hbound⟩ := h
  · refine ⟨hperm.nodup_iff.2 hd.distinct, fun n hn => ?_⟩
    exact Nat.lt_of_lt_of_le (hd.known n (hperm.mem_iff.1 hn)) hbound
  · constructor
    · rw [hperm.nodup_iff, List.nodup_cons]
      exact ⟨fun hmem => Nat.lt_irrefl _ (hd.known _ hmem), hd.distinct⟩
    · intro n hn
      rw [hbound]
      rcases List.mem_cons.1 (hperm.mem_iff.1 hn) with rfl | hn
      · exact Nat.lt_succ_self _
      · exact Nat.lt_succ_of_lt (hd.known n hn)

/-- What was closed is neither idle nor held. -/
lemma Sound.gone (hd : d.Sound) {c : Closing} (hc : c ∈ d.closings) :
    c.id ∉ d.sessions.map Session.id := by
  have hdistinct := hd.distinct
  rw [ids, List.nodup_append] at hdistinct
  obtain ⟨-, -, hapart⟩ := hdistinct
  intro hmem
  rw [sessions, List.map_append, List.map_map] at hmem
  exact hapart c.id hmem c.id (List.mem_map_of_mem hc) rfl

/-- Every dealing keeps the books in order. -/
theorem sound_deal (hd : d.Sound) (x : Dealing) : (d.deal x).Sound := by
  by_cases hx : x = .closeAll
  · subst hx
    obtain ⟨hdistinct, hknown⟩ := hd.sameIds d.sameIds_closeAll
    exact ⟨hd.toBalances.closeAll, hdistinct, hknown, allOpen_closeAll hd.allOpen⟩
  · have t := d.turn_deal hx
    obtain ⟨hdistinct, hknown⟩ := hd.sameIds t.sameIds
    exact ⟨hd.toBalances.turn t, hdistinct, hknown, t.allOpen hd.allOpen⟩

lemma sound_dealings (hd : d.Sound) (dealings : List Dealing) : (dealings.foldl deal d).Sound := by
  induction dealings generalizing d with
  | nil => exact hd
  | cons x dealings ih => exact ih (sound_deal hd x)

lemma sound_ofService {config : PoolConfig} {directory : Directory} {svc : Service}
    (hservice : Service.ofConfig config directory = .ok svc) : (ofService svc).Sound := by
  obtain rfl := Service.eq_of_ofConfig hservice
  exact
    { idle := Nat.zero_le _
      created := rfl
      released := rfl
      evicted := rfl
      closed := rfl
      distinct := List.nodup_nil
      known := fun n hn => absurd hn List.not_mem_nil
      allOpen := fun s hs => absurd hs List.not_mem_nil }

/-! ## What only grows -/

/-- No counter is lower than before, and what was closed stays closed. -/
structure Later (d d' : Desk) : Prop where
  created : d.service.pool.created ≤ d'.service.pool.created
  reused : d.service.pool.reused ≤ d'.service.pool.reused
  released : d.service.pool.released ≤ d'.service.pool.released
  evicted : d.service.pool.evicted ≤ d'.service.pool.evicted
  closed : d.service.pool.closed ≤ d'.service.pool.closed
  closings : d.closings <:+ d'.closings

lemma Later.refl (d : Desk) : d.Later d :=
  ⟨Nat.le_refl _, Nat.le_refl _, Nat.le_refl _, Nat.le_refl _, Nat.le_refl _, List.suffix_refl _⟩

lemma Later.trans {d₁ d₂ d₃ : Desk} (h : d₁.Later d₂) (k : d₂.Later d₃) : d₁.Later d₃ where
  created := Nat.le_trans h.created k.created
  reused := Nat.le_trans h.reused k.reused
  released := Nat.le_trans h.released k.released
  evicted := Nat.le_trans h.evicted k.evicted
  closed := Nat.le_trans h.closed k.closed
  closings := h.closings.trans k.closings

lemma Turn.later (t : d.Turn d') : d.Later d' := by
  cases t with
  | quiet hquiet =>
    obtain ⟨⟨config, hpool⟩, -, -, hclosings⟩ := hquiet
    constructor <;> simp only [hpool, hclosings, Nat.le_refl, List.suffix_refl]
  | overflow hheld | evict hheld =>
    constructor <;> simp [Service.evict, Service.closeSession]
  | _ => constructor <;> simp

lemma later_closeAll (d : Desk) : d.Later (d.deal .closeAll) := by
  obtain ⟨hpool, -⟩ := d.service.closeAll_eq
  constructor <;> simp [deal, hpool]

lemma later_dealings (d : Desk) (dealings : List Dealing) : d.Later (dealings.foldl deal d) := by
  induction dealings generalizing d with
  | nil => exact .refl d
  | cons x dealings ih =>
    refine Later.trans ?_ (ih (d.deal x))
    by_cases hx : x = .closeAll
    · exact hx ▸ d.later_closeAll
    · exact (d.turn_deal hx).later

/-! ## The capacity -/

lemma Turn.capacity (t : d.Turn d') : d'.service.pool.capacity = d.service.pool.capacity := by
  cases t with
  | quiet hquiet =>
    obtain ⟨⟨config, hpool⟩, -⟩ := hquiet
    rw [hpool]
  | _ => rfl

/-- As long as nothing is closed down, the capacity stays as it is. -/
lemma capacity_dealings {dealings : List Dealing} (h : .closeAll ∉ dealings) (d : Desk) :
    (dealings.foldl deal d).service.pool.capacity = d.service.pool.capacity := by
  induction dealings generalizing d with
  | nil => rfl
  | cons x dealings ih =>
    have hx : x ≠ .closeAll := fun hx => h (hx ▸ List.mem_cons_self)
    have hrest : .closeAll ∉ dealings := fun hmem => h (List.mem_cons_of_mem x hmem)
    exact (ih hrest _).trans (d.turn_deal hx).capacity

/-- Without a capacity there will never be one. -/
lemma capacity_zero {dealings : List Dealing} (h : d.service.pool.capacity = 0) :
    (dealings.foldl deal d).service.pool.capacity = 0 := by
  induction dealings generalizing d with
  | nil => exact h
  | cons x dealings ih =>
    refine ih ?_
    by_cases hx : x = .closeAll
    · rw [hx, deal, d.service.closeAll_eq.1]
    · exact (d.turn_deal hx).capacity.trans h

lemma capacity_after_closeAll {dealings : List Dealing} (h : .closeAll ∈ dealings) (d : Desk) :
    (dealings.foldl deal d).service.pool.capacity = 0 := by
  obtain ⟨before, after, rfl⟩ := List.append_of_mem h
  rw [List.foldl_append, List.foldl_cons]
  apply capacity_zero
  rw [deal, (Service.closeAll_eq _).1]

/-! ## The books -/

/-- Whatever happens at the desk of a fresh pool, and in whatever order: no more sessions are idle
than the capacity, which is what the settings say until everything is closed down and nothing from
then on; the counters account for every session; no session is in two places, or closed more than
once; and whatever happens further, no counter decreases, and what is closed does not come back. -/
theorem conserves {config : PoolConfig} {directory : Directory} {svc : Service}
    (hservice : Service.ofConfig config directory = .ok svc) (dealings : List Dealing) :
    let d := dealings.foldl deal (ofService svc)
    let pool := d.service.pool
    pool.idle.length ≤ pool.capacity ∧
      (.closeAll ∉ dealings → pool.capacity = config.maxIdle) ∧
      (.closeAll ∈ dealings → pool.capacity = 0 ∧ pool.idle.length = 0) ∧
      pool.created = pool.closed + pool.idle.length + d.held.length ∧
      pool.released = pool.reused + pool.idle.length + Closing.number d.closings .shutdown ∧
      pool.evicted = Closing.number d.closings .eviction ∧
      pool.closed =
        pool.evicted + Closing.number d.closings .overflow + Closing.number d.closings .shutdown ∧
      (pool.idle.map Session.id ++ d.held.map (·.session.id) ++ d.closings.map Closing.id).Nodup ∧
      (∀ s ∈ pool.idle ++ d.held.map Holding.session, s.isOpen = true) ∧
      ∀ further : List Dealing,
        let later := further.foldl deal d
        d.Later later ∧ ∀ c ∈ d.closings, c.id ∉ later.sessions.map Session.id := by
  intro d pool
  have hd : d.Sound := sound_dealings (sound_ofService hservice) dealings
  have hidle : pool.idle.length ≤ pool.capacity := hd.idle
  refine ⟨hidle, fun hopen => ?_, fun hshut => ?_, hd.created, hd.released, hd.evicted, hd.closed,
    hd.distinct, hd.allOpen, fun further => ?_⟩
  · have hcapacity := capacity_dealings hopen (ofService svc)
    obtain rfl := Service.eq_of_ofConfig hservice
    exact hcapacity
  · have hcapacity : pool.capacity = 0 := capacity_after_closeAll hshut (ofService svc)
    exact ⟨hcapacity, Nat.le_zero.1 (hcapacity ▸ hidle)⟩
  · have hlater := d.later_dealings further
    exact ⟨hlater, fun c hc =>
      (sound_dealings hd further).gone (hlater.closings.subset hc)⟩

/-- One idle session is enough here: the lease comes back to a full pool, and what is evicted after
the end is closed too. -/
theorem conserves_one_idle :
    let config := { PoolConfig.ofPrimary "localhost" with maxIdle := 1 }
    let d := [.acquire, .checkOut, .begin, .finish 0 none, .giveBack 0, .closeAll, .evict 0].foldl
      deal (ofService ⟨.empty, .ofConfig config⟩)
    d.service.pool.stats = ⟨3, 0, 1, 1, 3, 0⟩ ∧
      d.service.pool.created =
        d.service.pool.closed + d.service.pool.idle.length + d.held.length := by
  refine ⟨by decide +kernel, ?_⟩
  have hservice : Service.ofConfig { PoolConfig.ofPrimary "localhost" with maxIdle := 1 } .empty =
      .ok ⟨.empty, .ofConfig { PoolConfig.ofPrimary "localhost" with maxIdle := 1 }⟩ := rfl
  obtain ⟨-, -, -, hcreated, -⟩ := conserves hservice
    [.acquire, .checkOut, .begin, .finish 0 none, .giveBack 0, .closeAll, .evict 0]
  exact hcreated

end DirectoryQuery.Desk
