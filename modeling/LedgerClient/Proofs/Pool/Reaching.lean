import LedgerClient.Proofs.Pool.Interleaving

/-!
# An endpoint that accepts is reached

While an acquisition searches, others take the slots that it looked at, disable the endpoints that
it meant to dial, and leave it channels that it need not dial for.  What they cannot do is move its
cursor: every dial of its own brings it closer to any endpoint that stays enabled.  So if such an
endpoint accepts its dials, the acquisition comes to a lease before its budget is spent, and
`Pool.acquire_reaches` says within how many dials.
-/

namespace LedgerClient

open Rpc Settings Time Transport

/-! ## Coming closer -/

/-- The task waits for a dial. -/
def isDial : Program (Except ClientError Lease) → Bool
  | .ask (.dial _ _) _ _ => true
  | _ => false

/-- The pool is open, and the endpoint `e` of its `n` is enabled. -/
structure Pool.Favours (e n : Nat) (p : Pool) : Prop where
  is_open : p.closed = false
  accounted : ∃ pushed, Pool.Accounted n pushed p
  enabled : e ∉ p.disabled
  lt : e < n

/-- The search has the endpoint `e` still ahead, and a budget that reaches it. -/
structure Search.Nears (e n : Nat) (q : Search) : Prop where
  perm : q.rotation.Perm (List.range n)
  ahead : e ∈ q.rotation.drop q.cursor
  made_le : q.made ≤ q.cursor
  budget : n ≤ q.made + q.retries + 1

/-- The dial is that of a search that had the endpoint `e` still ahead, and may be the dial of `e`
itself. -/
structure Search.Tries (e n f : Nat) (q : Search) : Prop where
  perm : q.rotation.Perm (List.range n)
  ahead : f ≠ e → e ∈ q.rotation.drop q.cursor
  made_lt : q.made < q.cursor
  cursor_le : q.cursor ≤ n
  lt : f < n
  budget : n ≤ q.made + q.retries + 1

/-- Where an acquisition may stand that has made `dials` dials and stopped `stops` times, as long as
`e` is enabled and accepts. -/
def Acquisition.Approaches (e n dials stops : Nat) : Acquisition → Prop
  | .resting (.ended r) => (∃ l, r = .ok l) ∧ dials ≤ n ∧ stops ≤ 2 * n
  | .resting (.pausing _ q) => q.Nears e n ∧ dials = q.made ∧ stops = 2 * q.made
  | .dialing f _ q => q.Tries e n f ∧ dials = q.made + 1 ∧ stops = 2 * q.made + 1

variable {e n f dials stops : Nat} {p : Pool} {q : Search}

theorem Search.cursor_lt (hperm : q.rotation.Perm (List.range n))
    (hahead : e ∈ q.rotation.drop q.cursor) : q.cursor < n := by
  have := List.length_pos_of_mem hahead
  rw [List.length_drop, hperm.length_eq, List.length_range] at this
  omega

/-- Taking an entry off what is enabled behind the cursor moves the cursor. -/
theorem Pool.lt_of_enabled_drop {rotation rest : List Nat} {i cursor next : Nat}
    (h : p.enabled (rotation.drop cursor) = i :: rest)
    (hrest : p.enabled (rotation.drop next) = rest) : cursor < next := by
  by_contra hle
  have hsub : (p.enabled (rotation.drop cursor)).Sublist (p.enabled (rotation.drop next)) :=
    (List.drop_sublist_drop_left rotation (Nat.le_of_not_lt hle)).filter _
  have := hsub.length_le
  rw [h, hrest, List.length_cons] at this
  omega

/-- A search that has an enabled endpoint ahead finds a channel or dials. -/
theorem Search.Nears.attempt (h : q.Nears e n) (hp : p.Favours e n) :
    (q.attempt p).1.Approaches e n
      (q.made + if isDial (q.attempt p).1.task then 1 else 0) (2 * q.made + 1) := by
  have hcursor := cursor_lt h.perm h.ahead
  have hmade := h.made_le
  cases hreuse : p.reusable? q.rotation with
  | some r =>
    rw [attempt_reused hp.is_open hreuse]
    exact ⟨⟨_, rfl⟩, by simp [isDial, Acquisition.task, Rest.task]; omega, by omega⟩
  | none =>
    have he : e ∈ p.enabled (q.rotation.drop q.cursor) := Pool.mem_enabled.2 ⟨h.ahead, hp.enabled⟩
    obtain ⟨f, rest, hrest⟩ := List.exists_cons_of_ne_nil (List.ne_nil_of_mem he)
    have hlength : q.rotation.length = n := by rw [h.perm.length_eq, List.length_range]
    obtain ⟨next, hnext_le, hnext, hdrop, -⟩ :=
      Pool.nextEnabled_eq q.rotation.length (by omega) (Nat.sub_le _ _) hrest
    have hf := (Pool.mem_of_nextEnabled (congrArg Prod.fst hnext)).1
    have hmoved := Pool.lt_of_enabled_drop hrest hdrop
    rw [attempt_dial ⟨hp.is_open, Pool.reusable?_eq_none.1 hreuse⟩ hnext]
    refine ⟨⟨h.perm, fun hfe => ?_, by dsimp only; omega, hlength ▸ hnext_le, ?_, h.budget⟩, rfl,
      rfl⟩
    · rw [hrest, List.mem_cons, ← hdrop] at he
      exact (Pool.mem_enabled.1 (he.resolve_left (Ne.symm hfe))).1
    · exact List.mem_range.1 (h.perm.mem_iff.1 hf)

/-- Only if every endpoint is disabled may a failed dial not be repeated. -/
theorem Pool.Favours.retryable (hp : p.Favours e n) {q : Pool} (hq : q.Favours e n)
    {i : Nat} {reply : DialReply} (hreply : ∀ link, reply ≠ .connected link)
    (hend : (p.endAttempt i reply).2 = q) :
    ∃ error, (p.endAttempt i reply).1 = .error error ∧ error.retryable = true := by
  obtain ⟨error, herror, -, hretry⟩ := Pool.endAttempt_refused (i := i) (p := p) hreply
  refine ⟨error, herror, hretry.resolve_right fun hall => ?_⟩
  obtain ⟨pushed, hacc⟩ := hp.accounted
  obtain ⟨pushed', hacc'⟩ := hq.accounted
  rw [hend, hacc.size_eq] at hall
  exact hq.enabled (hacc'.disabled_length_eq_iff.1 hall e hp.lt)

/-- A search that is told of its dial has a lease, or its endpoint is still ahead. -/
theorem Search.Tries.answer (h : q.Tries e n f) (hp : p.Favours e n) {reply : DialReply}
    (hnow : (q.answer f reply p).2.Favours e n)
    (haccepts : f = e → ∃ link, reply = .connected link) :
    (q.answer f reply p).1.Approaches e n (q.made + 1) (2 * q.made + 2) := by
  have hmade := h.made_lt
  have hcursor := h.cursor_le
  by_cases hreply : ∃ link, reply = .connected link
  · obtain ⟨link, rfl⟩ := hreply
    rw [Search.answer, Pool.endAttempt_connected_of_open hp.is_open]
    exact ⟨⟨_, rfl⟩, by omega, by omega⟩
  · obtain ⟨error, herror, hretry⟩ :=
      hp.retryable hnow (fun link hlink => hreply ⟨link, hlink⟩) rfl
    have hahead := h.ahead (mt haccepts hreply)
    rw [Search.answer, herror]
    have hlt := cursor_lt h.perm hahead
    have hbudget := h.budget
    -- The endpoint is ahead, so the budget is not used up.
    obtain ⟨retries, hretries⟩ := Nat.exists_eq_succ_of_ne_zero (n := q.retries) (by omega)
    rw [Search.outcome_retry hretries hretry]
    exact ⟨⟨h.perm, hahead, hmade, by dsimp only; omega⟩, rfl, by dsimp only; omega⟩

theorem Acquisition.approaches_start (hp : p.Favours e n) (hbudget : n ≤ p.policy.maxAttempts) :
    (start p).1.Approaches e n (if isDial (start p).1.task then 1 else 0) 1 := by
  have hlt := hp.lt
  obtain ⟨pushed, hacc⟩ := hp.accounted
  rw [start]
  rcases hstart : p.start with ⟨r | rotation, p₁⟩
  · obtain ⟨l, rfl⟩ := Pool.start_eq_ended hp.is_open hstart
    exact ⟨⟨l, rfl⟩, Nat.zero_le _, by omega⟩
  · obtain ⟨-, -, rfl, rfl⟩ := Pool.start_eq_search hstart
    have hnears : (Search.start { p with rotations := p.rotations.tail } p.drawRotation.1).Nears
        e n := by
      refine ⟨hacc.size_eq ▸ p.drawRotation_perm, ?_, Nat.zero_le _, ?_⟩
      · show e ∈ p.drawRotation.1
        rw [p.drawRotation_perm.mem_iff, hacc.size_eq]
        exact List.mem_range.2 hlt
      · show n ≤ 0 + (p.policy.maxAttempts - 1) + 1
        omega
    have := hnears.attempt (p := { p with rotations := p.rotations.tail })
      ⟨hp.is_open, ⟨pushed, hacc.of_eq rfl rfl rfl rfl rfl rfl⟩, hp.enabled, hlt⟩
    simpa [Search.start] using this

theorem isDial_rest (x : Rest) : isDial x.task = false := by cases x <;> rfl

theorem Acquisition.not_goesOn_ended {told : Option Network.Told} {r : Except ClientError Lease}
    {y : Acquisition × Pool} : ¬ GoesOn p told (.resting (.ended r)) y := by
  rintro ⟨⟩

/-- An acquisition that goes on stays on its way. -/
theorem Acquisition.Approaches.goesOn {x : Acquisition} {told : Option Network.Told}
    {y : Acquisition × Pool} (h : x.Approaches e n dials stops) (hgo : x.GoesOn p told y)
    (hp : p.Favours e n) (hnow : y.2.Favours e n)
    (haccepts : ∀ limit reply, told = some ⟨.dial e limit, reply⟩ →
      ∃ link, reply = DialReply.connected link) :
    y.1.Approaches e n (dials + if isDial y.1.task then 1 else 0) (stops + 1) := by
  cases hgo with
  | wake delay q =>
    obtain ⟨hnears, rfl, rfl⟩ := h
    exact hnears.attempt hp
  | answer f limit q reply =>
    obtain ⟨htries, rfl, rfl⟩ := h
    have hrest : isDial (q.answer f reply p).1.task = false := isDial_rest _
    rw [hrest]
    exact htries.answer hp hnow fun hfe => haccepts limit reply (hfe ▸ rfl)

namespace Acquisitions

variable {s : Session} {a : Acquisitions} {uses later : List Pool.Use}

theorem closed_run (h : .close ∉ uses) : (a.run uses).pool.closed = a.pool.closed := by
  induction uses using List.reverseRecOn with
  | nil => rfl
  | append_singleton uses u ih =>
    rw [List.mem_append, List.mem_singleton, not_or] at h
    rw [run_concat, closed_step (Ne.symm h.2), ih h.1]

/-- As long as nobody closes the pool, and `e` accepts, `e` stays enabled. -/
theorem favours_run (s : Session) (hp : a.pool.Favours e n)
    (hacc : ∀ uses, ∃ pushed, Pool.Accounted n pushed (a.run uses).pool) (uses : List Pool.Use)
    (hclose : .close ∉ uses) (haccepts : ∀ limit reply, ⟨.dial e limit, reply⟩ ∈ (a.party s).tolds
      (uses.map Pool.Use.event) → ∃ link, reply = DialReply.connected link) :
    (a.run uses).pool.Favours e n where
  is_open := (closed_run hclose).trans hp.is_open
  accounted := hacc uses
  enabled := by
    rw [mem_disabled_run s a uses, not_or]
    refine ⟨hp.enabled, ?_⟩
    rintro ⟨limit, error, htold, -⟩
    obtain ⟨link, hlink⟩ := haccepts limit _ htold
    cases hlink
  lt := hp.lt

/-- Wherever an acquisition stands, it has not failed, and comes closer to an endpoint that
accepts. -/
theorem approaches_run (hp : a.pool.Favours e n)
    (hacc : ∀ uses, ∃ pushed, Pool.Accounted n pushed (a.run uses).pool)
    (hbudget : n ≤ a.pool.policy.maxAttempts) (hclose : .close ∉ later)
    (haccepts : ∀ limit reply, ⟨.dial e limit, reply⟩ ∈ (a.party s).tolds
      ((.acquire :: later).map Pool.Use.event) → ∃ link, reply = DialReply.connected link) :
    ∃ x, Stands s a later x ∧
      x.Approaches e n ((a.life s later).countP isDial) (a.life s later).length := by
  induction later using List.reverseRecOn with
  | nil =>
    refine ⟨_, stands_nil s a, ?_⟩
    rw [life_nil, List.countP_singleton]
    exact Acquisition.approaches_start hp hbudget
  | append_singleton later u ih =>
    have hnow := favours_run s hp hacc (.acquire :: (later ++ [u])) (by simpa using hclose) haccepts
    rw [← List.cons_append] at haccepts
    simp only [mem_tolds_concat] at haccepts
    have hclose : .close ∉ later := fun h => hclose (List.mem_append_left _ h)
    have hbefore := favours_run s hp hacc (.acquire :: later) (by simpa using hclose)
      fun limit reply h => haccepts limit reply (.inl h)
    obtain ⟨x, hx, happroaches⟩ := ih hclose fun limit reply h => haccepts limit reply (.inl h)
    rcases hx.concat u with ⟨hsame, hlife⟩ | ⟨y, hgo, hy, hlife⟩
    · exact ⟨x, hsame, hlife ▸ happroaches⟩
    · refine ⟨y, hy, ?_⟩
      rw [hlife, List.countP_append, List.countP_singleton, List.length_append,
        List.length_singleton]
      exact happroaches.goesOn hgo hbefore hnow fun limit reply h => haccepts limit reply (.inr h)

/-- An acquisition that ends as it begins stops once. -/
theorem life_of_ended {r : Except ClientError Lease}
    (h : (Acquisition.start a.pool).1 = .resting (.ended r)) (s : Session)
    (later : List Pool.Use) : a.life s later = [.done r] := by
  have hstands : Stands s a later (.resting (.ended r)) ∧ a.life s later = [.done r] := by
    induction later using List.reverseRecOn with
    | nil =>
      refine ⟨h ▸ stands_nil s a, ?_⟩
      rw [life_nil, h]
      rfl
    | append_singleton later u ih =>
      rcases ih.1.concat u with ⟨hsame, hlife⟩ | ⟨y, hgo, -, -⟩
      · exact ⟨hsame, hlife.trans ih.2⟩
      · exact absurd hgo Acquisition.not_goesOn_ended
  exact hstands.2

end Acquisitions

/-- An acquisition takes a channel that may be handed out, if there is one. -/
theorem Acquisition.start_reused (hopen : p.closed = false) {i k : Nat}
    (h : p.reused? = some (i, k)) :
    (start p).1 = .resting (.ended (.ok ⟨i, p.address i, k⟩)) := by
  rw [Pool.reused?] at h
  rw [start]
  rcases hstart : p.start with ⟨r | rotation, p₁⟩
  · obtain ⟨l, rfl⟩ := Pool.start_eq_ended hopen hstart
    rw [Pool.start, if_neg (by simp [hopen])] at hstart
    cases hrecent : p.recent? with
    | none =>
      rw [hrecent] at hstart
      cases hstart
    | some r =>
      rw [hrecent] at h hstart
      cases h
      cases hstart
      rfl
  · obtain ⟨-, hrecent, rfl, rfl⟩ := Pool.start_eq_search hstart
    rw [hrecent, Option.none_or] at h
    have hattempt := Search.attempt_reused (p := { p with rotations := p.rotations.tail })
      (q := Search.start { p with rotations := p.rotations.tail } p.drawRotation.1) hopen h
    exact congrArg Prod.fst hattempt

/-- The task waits for a dial, or for its next attempt. -/
def IsSearching (t : Program (Except ClientError Lease)) : Prop :=
  isDial t = true ∨ ∃ delay dropped next, t = .pause delay dropped next

theorem Acquisition.Approaches.task {x : Acquisition} (h : x.Approaches e n dials stops) :
    dials ≤ n ∧
      ((∃ l, x.task = .done (.ok l)) ∨ IsSearching x.task ∧ stops < 2 * n) := by
  rcases x with (r | ⟨delay, q⟩) | ⟨f, limit, q⟩
  · obtain ⟨⟨l, rfl⟩, hdials, -⟩ := h
    exact ⟨hdials, .inl ⟨l, rfl⟩⟩
  · obtain ⟨hnears, rfl, rfl⟩ := h
    have := Search.cursor_lt hnears.perm hnears.ahead
    have := hnears.made_le
    exact ⟨by omega, .inr ⟨.inr ⟨_, _, _, rfl⟩, by omega⟩⟩
  · obtain ⟨htries, rfl, rfl⟩ := h
    have := htries.made_lt
    have := htries.cursor_le
    exact ⟨by omega, .inr ⟨.inl rfl, by omega⟩⟩

/-- In every interleaving of an acquisition with whatever else is done to its pool:

* what any acquisition hands out is a channel that is new, or that may be handed out at that moment,
  and its endpoint is then the one that worked last;
* if some channel may be handed out when the acquisition begins, it stops at once, with such a
  channel, and with that of the endpoint that worked last if that is one;
* if an enabled endpoint accepts its dials, and nobody closes the pool, the acquisition dials `n`
  times at most, and is either waiting or has its lease; and it has it once it has gone on `2 * n`
  times.  The endpoints must be no more than the attempts that a policy can count, which is to say
  that there are as many as a list on a machine can hold. -/
theorem Pool.acquire_reaches (endpoints : List Node) (retries : Retries) (dialTimeout : Millis)
    (rotations : List (List Nat)) (s : Session) (uses later : List Pool.Use) :
    let n := endpoints.length
    let start := { s with
      pool := { endpoints, policy := retries.dialPolicy n, dialTimeout, rotations } }
    let before := Pool.after start uses
    let p := before.shared.pool
    let i := before.members.length
    let events := (Pool.Use.acquire :: later).map Pool.Use.event
    let stops := before.stops i events
    let now := before.run events
    (∀ (u : Pool.Use) l, before.stop? u.event = some (.done (.ok l)) →
      (before.step u.event).shared.pool.lastGood = some l.index ∧
        (l.channel = p.channels.length ∨ p.usable? l.index = some l.channel)) ∧
    (p.closed = false →
      ((∃ j, p.usable? j ≠ none) → ∃ l, stops = [.done (.ok l)] ∧
        p.usable? l.index = some l.channel ∧
          ∀ g k, p.lastGood = some g → p.usable? g = some k → l.index = g ∧ l.channel = k) ∧
      (n ≤ attemptsLimit → 1 ≤ retries.attemptsPerEndpoint.toNat → .close ∉ later →
        ∀ e < n, e ∉ p.disabled →
        (∀ limit reply, ⟨.dial e limit, reply⟩ ∈ before.tolds events →
          ∃ link, reply = DialReply.connected link) →
        stops.countP isDial ≤ n ∧ ∃ t, stops.getLast? = some t ∧
          (.abandon i ∈ later ∨ now.member? i = some t) ∧
          ((∃ l, t = .done (.ok l)) ∨ IsSearching t ∧ stops.length < 2 * n))) := by
  intro n start before p i events stops now
  set a := Acquisitions.after start.pool uses
  have hbefore : before = a.party start := Acquisitions.party_after start uses
  have hp : p = a.pool := congrArg (fun w : Pool.Acquirers => w.shared.pool) hbefore
  have hi : i = a.members.length := by
    show before.members.length = _
    rw [hbefore]
    exact List.length_map _
  have hevents : events = (Pool.Use.acquire :: later).map Pool.Use.event := rfl
  have hstops : stops = a.life start later := by
    show before.stops i events = _
    rw [hbefore, hi]
    rfl
  have hnow : now = (a.run (.acquire :: later)).party start := by
    show before.run events = _
    rw [hbefore, hevents, Acquisitions.run_party]
  have hacc : ∀ uses, ∃ pushed, Pool.Accounted n pushed (a.run uses).pool := by
    intro later
    have h := (Pool.accounted_after endpoints (retries.dialPolicy n) dialTimeout rotations
      (uses ++ later) start rfl).2
    rw [Acquisitions.party_after] at h
    rw [Acquisitions.run_after]
    exact ⟨_, h⟩
  rw [hp, hnow, hstops, hi, hbefore]
  refine ⟨fun u l h => ?_, fun hopen => ⟨?_, ?_⟩⟩
  · obtain ⟨hlast, husable⟩ := Acquisitions.gives_step h
    rw [Acquisitions.step_party]
    exact ⟨hlast, husable⟩
  · rintro ⟨j, hj⟩
    obtain ⟨pushed, hpool⟩ := hacc []
    obtain ⟨⟨m, k⟩, hreused⟩ :=
      Option.ne_none_iff_exists'.1 (mt (Pool.reused?_eq_none hpool).1 fun h => hj (h j))
    refine ⟨_, Acquisitions.life_of_ended (Acquisition.start_reused hopen hreused) start later,
      Pool.usable?_of_reused? hreused, ?_⟩
    intro g c hlast hgood
    have hrecent : a.pool.recent? = some (g, c) := Pool.recent?_eq_some.2 ⟨hlast, hgood⟩
    have hreused : a.pool.reused? = some (m, k) := hreused
    rw [Pool.reused?, hrecent] at hreused
    cases hreused
    exact ⟨rfl, rfl⟩
  · intro hlimit hretries hclose e he henabled haccepts
    have hbudget : n ≤ a.pool.policy.maxAttempts := by
      have hpolicy : a.pool.policy = retries.dialPolicy n :=
        congrArg (fun c => c.2.1) (Acquisitions.setup_after start.pool uses)
      rw [hpolicy]
      show n ≤ min (retries.attemptsPerEndpoint.toNat * max n 1) attemptsLimit
      have : 1 * n ≤ retries.attemptsPerEndpoint.toNat * max n 1 :=
        Nat.mul_le_mul hretries (Nat.le_max_left _ _)
      omega
    obtain ⟨x, hstands, happroaches⟩ := Acquisitions.approaches_run
      ⟨hopen, hacc [], henabled, he⟩ hacc hbudget hclose haccepts
    obtain ⟨hdials, htask⟩ := happroaches.task
    refine ⟨hdials, _, hstands.last, ?_, htask⟩
    rw [Acquisitions.member?_party]
    rcases hstands.member with hmember | ⟨habandoned, -⟩
    · rw [hmember]
      exact .inr rfl
    · exact .inl habandoned

/-- The dial of the first endpoint hangs and that of the second is accepted, so that the acquisition
has its lease once it has gone on four times.  The next acquisition takes that channel at once. -/
theorem Pool.acquire_reaches_second :
    let later : List Pool.Use := [.answer 0 (dialsAs fun _ => .expired), .wake 0,
      .answer 0 (dialsAs fun _ => .connected .direct)]
    let events := (Pool.Use.acquire :: later).map Pool.Use.event
    let reached := Pool.after twoEndpoints (.acquire :: later)
    (((Pool.after twoEndpoints []).stops 0 events).map isDial = [true, false, true, false] ∧
      ∃ l, ((Pool.after twoEndpoints []).run events).member? 0 = some (.done (.ok l))) ∧
    ∃ l, reached.stops 1 [Pool.Use.acquire.event] = [.done (.ok l)] ∧ l.index = 1 ∧
      (reached.step Pool.Use.acquire.event).shared.pool.lastGood = some l.index := by
  intro later events reached
  have hstops : ((Pool.after twoEndpoints []).stops 0 events).map isDial =
    [true, false, true, false] := rfl
  have htolds : (Pool.after twoEndpoints []).tolds events =
    [⟨.dial 0 100, DialReply.expired⟩, ⟨.dial 1 100, DialReply.connected .direct⟩] := rfl
  have haccepts : ∀ limit reply,
      (⟨.dial 1 limit, reply⟩ : Network.Told) ∈ (Pool.after twoEndpoints []).tolds events →
      ∃ link, reply = DialReply.connected link := by
    intro limit reply htold
    rw [htolds] at htold
    rcases List.mem_cons.1 htold with h | h
    · cases h
    · cases List.mem_singleton.1 h
      exact ⟨_, rfl⟩
  let retries : Retries := { dialIntervalMs := 0, attemptsPerEndpoint := 1 }
  have hpolicy : retries.dialPolicy twoEndpoints.pool.endpoints.length = .fixed 0 2 := rfl
  constructor
  · have h := Pool.acquire_reaches twoEndpoints.pool.endpoints retries 100 [] twoEndpoints [] later
    simp only [hpolicy] at h
    obtain ⟨-, t, -, habandoned | hmember, ⟨l, rfl⟩ | ⟨-, hlt⟩⟩ := (h.2 rfl).2 (by decide)
      (by decide) (by simp [later]) 1 (by decide) (by decide) haccepts
    · simp [later] at habandoned
    · simp [later] at habandoned
    · exact ⟨hstops, l, hmember⟩
    · have hlength : ((Pool.after twoEndpoints []).stops 0 events).length = 4 := by
        rw [← List.length_map (f := isDial), hstops]
        rfl
      exact absurd (hlength ▸ hlt) (Nat.lt_irrefl 4)
  · have h := Pool.acquire_reaches twoEndpoints.pool.endpoints retries 100 [] twoEndpoints
      (.acquire :: later) []
    simp only [hpolicy] at h
    have husable : reached.shared.pool.usable? 1 ≠ none := Option.some_ne_none 0
    obtain ⟨l, hstop, -, hlast⟩ := (h.2 rfl).1 ⟨1, husable⟩
    obtain ⟨hindex, -⟩ := hlast 1 0 rfl rfl
    have hat : reached.stop? Pool.Use.acquire.event = some (.done (.ok l)) :=
      congrArg List.head? hstop
    exact ⟨l, hstop, hindex, (h.1 .acquire l hat).1⟩

end LedgerClient
