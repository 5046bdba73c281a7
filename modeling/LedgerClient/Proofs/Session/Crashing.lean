import LedgerClient.Proofs.Session.Acquiring
import LedgerClient.Proofs.Session.Operating
import LedgerClient.Proofs.Task.Course

/-!
# Which settings make operations crash

Every number of the settings ends up in a deadline, a pause, a budget or the size of a queue.  Most
may be as large as they like.  Two limits are not checked when a client is built: the deadline of a
call has to fit the timeout header, and the queue of a feed may not have more places than can be
counted.  `Session.ends_iff_bearable` says that no operation of a client ever crashes if its
settings keep to these limits, and that some operation does if they do not.
-/

namespace LedgerClient

open Account Ledger Rpc Settings Storage Time Transport Wire

/-! ## Where nothing crashes -/

/-- The others do not change the settings of clients. -/
def Surroundings.KeepsSettings (e : Surroundings Network Session) : Prop :=
  ∀ n s c, ((e.meanwhile n s).clients c).settings = (s.clients c).settings

/-- A command that client `c` begins in a session comes to a result. -/
def Command.Ends (o : Command) (c : Nat) (e : Surroundings Network Session) (s : Session) : Prop :=
  ∃ r, ((o.task c).amid e 0 s).result = .ok r

/-- Over bearable settings every command ends. -/
theorem Command.ends_of_bearable {s : Session} (h : ∀ c, (s.clients c).settings.Bearable)
    (o : Command) (c : Nat) {e : Surroundings Network Session} (he : e.KeepsSettings) :
    o.Ends c e s := by
  -- What becomes of leases does not matter here.
  have law : CountsLeases fun _ _ => True :=
    ⟨fun _ _ _ => trivial, fun _ _ _ => trivial, fun _ => trivial, fun _ _ => trivial,
      fun _ _ => trivial⟩
  have hbalanced : Balanced (fun _ _ => True) (fun c => (s.clients c).settings) 0 s :=
    ⟨trivial, fun _ => rfl⟩
  refine (o.meets_task law c hbalanced).result_amid (fun ⟨b, hb⟩ => hb (h b)) e
    (fun _ n _ s' hs' => ?_) 0
  exact ⟨trivial, fun b => (he n s' b).trans (hs'.settings_eq b)⟩

/-! ## Where something crashes -/

section alone

variable {answer : (r : NetworkRequest) → Network.Answer r} {s s' : Session} {α β : Type}
  {c : Nat} {crash : Crash}

/-- A command whose task crashes on its own does not end. -/
theorem Command.not_ends {o : Command} (h : (o.task c).alone answer s = (.error crash, s')) :
    ¬ o.Ends c ⟨fun _ => answer, fun _ => id⟩ s := by
  rintro ⟨r, hr⟩
  have halone := (Task.result_amid_alone answer (o.task c) 0 s).symm.trans hr
  cases (congrArg Prod.fst h).symm.trans halone

theorem alone_reading_crash {t : Program (Except ClientError α)}
    (h : t.alone answer s = (.error crash, s')) (f : α → Except ClientError β) :
    (t.reading f).alone answer s = (.error crash, s') := Task.alone_bind_crash h _

theorem alone_keeping_crash {t : Program (Except ClientError α)}
    (h : t.alone answer s = (.error crash, s')) :
    (Command.keeping t).alone answer s = (.error crash, s') := alone_reading_crash h _

/-- A call crashes over a deadline that does not fit the header. -/
theorem alone_call {Req Res : Type} [Message Req] [Message Res] {op : Operation}
    (h : deadlineLimit ≤ op.deadline (s.clients c).settings.deadlines) (m : Method Req Res)
    (request : Req) : (call c op m request).alone answer s = (.error .deadlineTooLong, s) := by
  have hnone := Timeout.ofSpan?_eq_none_iff.2 h
  rw [call_eq]
  refine (Task.alone_get_bind _ s).trans ?_
  dsimp only
  split
  · rfl
  · rename_i hsome
    rw [hnone] at hsome
    cases hsome

end alone

/-- A network on which every dial succeeds, every stream is opened and no call is answered. -/
def opensStreams : (r : NetworkRequest) → Network.Answer r
  | .dial _ _ => .connected .direct
  | .call _ => .expired
  | .stream _ => .ended (.ok 0)
  | .turn _ _ => ()
  | .item _ _ => ()

/-- A pool that was not used before dials, and hands out a channel that is open. -/
theorem alone_acquire_fresh {s : Session} {endpoints : List Node} {policy : RetryPolicy}
    {dialTimeout : Millis} {rotations : List (List Nat)} (hne : endpoints ≠ [])
    (hs : s.pool = { endpoints, policy, dialTimeout, rotations }) :
    ∃ l s', acquire.alone opensStreams s = (.ok (.ok l), s') ∧ s'.clients = s.clients ∧
      s'.pool.refusal? l.channel = none := by
  set rotation := s.pool.drawRotation.1
  have hperm : rotation.Perm (List.range s.pool.size) := s.pool.drawRotation_perm
  obtain ⟨i, rest, hrotation⟩ : ∃ i rest, rotation = i :: rest := by
    refine List.exists_cons_of_ne_nil fun hnil => hne ?_
    have hlength := hperm.length_eq
    rw [hnil, hs, List.length_range] at hlength
    exact List.length_eq_zero_iff.1 hlength.symm
  let p : Pool := { s.pool with rotations := s.pool.rotations.tail }
  have hstart : s.pool.start = (.search rotation, s.pool.drawRotation.2) := by
    have hrecent : s.pool.recent? = none := by rw [hs]; rfl
    rw [Pool.start, hrecent, if_neg (by rw [hs]; exact Bool.false_ne_true)]
  have hbarren : p.Barren rotation := by
    refine ⟨by rw [show p.closed = s.pool.closed from rfl, hs], fun j _ => ?_⟩
    have hslot : p.slot? j = none := by
      rw [Pool.slot?, show p.slots = s.pool.slots from rfl, hs]
      by_cases hj : j < endpoints.length <;> simp [hj]
    rw [Pool.usable?, hslot]
    rfl
  have henabled : p.enabled (rotation.drop 0) = i :: rest := by
    have hdisabled : p.disabled = [] := by rw [show p.disabled = s.pool.disabled from rfl, hs]
    rw [List.drop_zero, ← hrotation, Pool.enabled, hdisabled, List.filter_eq_self]
    exact fun _ _ => decide_eq_true List.not_mem_nil
  obtain ⟨next, -, hnext, -⟩ :=
    Pool.nextEnabled_eq rotation.length (Nat.zero_le _) (Nat.sub_le _ _) henabled
  have hattempt := alone_attempt_dial (s := { s with pool := p }) opensStreams hbarren hnext
  rw [show dialed opensStreams p.dialTimeout i = .connected .direct from rfl,
    Pool.endAttempt_connected_of_open (Pool.vacate_closed.trans hbarren.is_open)] at hattempt
  have hsearch := alone_search_eq (s := { s with pool := p })
    (RetryPolicy.alone_attemptUpTo_ok hattempt p.policy.backoff.start 0 (p.policy.maxAttempts - 1))
  have hacquire : acquire.alone opensStreams s = _ := alone_acquire s
  rw [hstart, Pool.drawRotation_snd] at hacquire
  exact ⟨_, _, hacquire.trans hsearch, rfl, by simp [Pool.refusal?, Pool.grow, Channel.refusal?]⟩

/-- An opened stream whose queue would be too large. -/
theorem alone_openOver {s : Session} {c : Nat} {l : Lease}
    (hopen : s.pool.refusal? l.channel = none)
    (hlimit : queueLimit < (s.clients c).settings.queues.subscriptionBuffer.toNat) (op : Operation)
    (deadline : Millis) (message : Call) (topic : Topic) (scope : Scope) :
    ∃ s', (openOver c op deadline message topic scope l).alone opensStreams s =
      (.error .queueTooLarge, s') := by
  have hlimit : queueLimit < max (s.clients c).settings.queues.subscriptionBuffer.toNat 1 :=
    Nat.lt_of_lt_of_le hlimit (Nat.le_max_left _ _)
  unfold openOver exchange
  simp only [Task.get, Task.bind, Task.onDrop, Task.alone, hopen]
  let s' : Session := s.alterPool (Pool.observe l.channel (.ok 0 : Except Status Nat))
  refine ⟨s'.release, ?_⟩
  show (startFeed c topic scope 0).alone opensStreams s' = _
  show (if queueLimit < max (s.clients c).settings.queues.subscriptionBuffer.toNat 1 then _
    else _ : Program (Except ClientError Nat)).alone opensStreams s' = _
  rw [if_pos hlimit]
  rfl

/-- A subscription over a pool that was not used before, whose queue would be too large. -/
theorem alone_openFeed_fresh {Req Res : Type} [Message Req] {s : Session} {c : Nat}
    {endpoints : List Node} {policy : RetryPolicy} {dialTimeout : Millis}
    {rotations : List (List Nat)} (hne : endpoints ≠ [])
    (hs : s.pool = { endpoints, policy, dialTimeout, rotations })
    (hlimit : ¬ (s.clients c).settings.queues.subscriptionBuffer.toNat ≤ queueLimit)
    (op : Operation) (m : Method Req Res) (request : Session → Req) (topic : Topic)
    (scope : Scope) : ∃ s', (openFeed c op m request topic scope).alone opensStreams s =
      (.error .queueTooLarge, s') := by
  obtain ⟨l, s', hacquire, hclients, hopen⟩ := alone_acquire_fresh hne hs
  rw [← hclients] at hlimit
  rw [openFeed_eq]
  obtain ⟨s'', hover⟩ := alone_openOver hopen (Nat.lt_of_not_le hlimit) op
    (op.deadline (s.clients c).settings.deadlines)
    { channel := 0, method := m.name, payload := Message.encode (request s),
      account := some (s.address c).text,
      patience := some (op.deadline (s.clients c).settings.deadlines) } topic scope
  exact ⟨s'', (Task.alone_bind_ok hacquire _).trans hover⟩

/-! ## Clients that were built -/

/-- What building a client comes to. -/
theorem Session.start_eq_ok {fs : Files} {settings : ClientSettings} {rotations : List (List Nat)}
    {first : Option Signer} {others : List (Option Signer)} {s : Session}
    (h : Session.start fs settings none rotations first others = .ok s) :
    settings.nodes ≠ [] ∧ (∀ c, (s.clients c).settings = settings) ∧
      s.pool = { endpoints := settings.nodes,
                 policy := settings.retries.dialPolicy settings.nodes.length,
                 dialTimeout := settings.deadlines.dial, rotations } := by
  unfold Session.start at h
  simp only [bind, Except.bind] at h
  split at h
  · cases h
  · split at h
    · cases h
    · rename_i pool hpool
      split at h
      · cases h
      · cases h
        unfold Pool.ofSettings Pool.ofEndpoints at hpool
        split at hpool
        · cases hpool
        · split at hpool
          · cases hpool
          · rename_i hne
            cases hpool
            exact ⟨by simpa using hne, fun _ => rfl, rfl⟩

/-- A client may be built with whatever deadlines, budgets, pauses and queues the settings name.  No
operation of it crashes, whatever the nodes and the others do, if every deadline of a call is below
a hundred million hours and a queue has no more places than can be counted; and some operation
crashes if not. -/
theorem Session.ends_iff_bearable {fs : Files} {settings : ClientSettings}
    {rotations : List (List Nat)} {first : Option Signer} {others : List (Option Signer)}
    {s : Session} (h : Session.start fs settings none rotations first others = .ok s) :
    (∀ (c : Nat) (o : Command) (e : Surroundings Network Session) (now : Session),
      (∀ b, (now.clients b).settings = (s.clients b).settings) → e.KeepsSettings → o.Ends c e now) ↔
      settings.Bearable := by
  obtain ⟨hne, hsettings, hpool⟩ := start_eq_ok h
  constructor
  · intro hends
    -- A deadline that is not bearable is put to the test by a call that has it.
    have hends : ∀ (o : Command) {s' : Session} {crash : Crash},
        (o.task 0).alone opensStreams s ≠ (.error crash, s') := fun o _ _ hcrash =>
      Command.not_ends hcrash (hends 0 o _ s (fun _ => rfl) fun _ _ _ => rfl)
    have hlong : ∀ deadline : Deadlines → Millis, ¬ deadline settings.deadlines < deadlineLimit →
        deadlineLimit ≤ deadline (s.clients 0).settings.deadlines := fun deadline hd => by
      rw [hsettings]
      exact Nat.le_of_not_lt hd
    exact {
      send := by_contra fun hd => hends (.getMultiSigns "" 0) <|
        alone_keeping_crash (alone_reading_crash (alone_call (hlong _ hd) _ _) _)
      receipt := by_contra fun hd => hends (.getReceipt "") <|
        alone_keeping_crash (alone_call (hlong _ hd) _ _)
      query := by_contra fun hd => hends .getNetworkMeta <|
        alone_keeping_crash (alone_reading_crash (alone_call (hlong _ hd) _ _) _)
      blocks := by_contra fun hd => hends .getChainMeta <|
        alone_keeping_crash (alone_call (hlong _ hd) _ _)
      pier := by_contra fun hd => hends (.checkMasterPier "") <|
        alone_keeping_crash (alone_reading_crash (alone_call (hlong _ hd) _ _) _)
      buffer := by_contra fun hbuffer => by
        obtain ⟨s', hcrash⟩ := alone_openFeed_fresh hne hpool (c := 0) (hsettings 0 ▸ hbuffer)
          (.query "subscribe" Deadlines.query) Method.subscribe
          (fun _ => { type := SubscriptionKind.evmLog.number, extra := [] }) (.live .evmLog) []
        exact hends (.subscribe [] .evmLog []) (alone_keeping_crash hcrash) }
  · intro hbearable c o e now hnow he
    refine o.ends_of_bearable (fun b => ?_) c he
    rw [hnow, hsettings]
    exact hbearable

/-- A client of one node whose settings are the default but for the deadline of queries. -/
def Session.startOne (queryMs : UInt64) : Except ClientError Session :=
  Session.start {} { nodes := [{ address := "node1:60011" }], deadlines := { queryMs } } none []
    (some ⟨[], .ok⟩) []

/-- A query under the default deadline comes to a result, also when it is never answered. -/
theorem Session.ends_iff_bearable_byDefault : ∃ s, Session.startOne 2000 = .ok s ∧
    Command.getChainId.Ends 0 ⟨fun _ => opensStreams, fun _ => id⟩ s := by
  obtain ⟨s, hs⟩ : ∃ s, Session.startOne 2000 = .ok s := ⟨_, rfl⟩
  refine ⟨s, hs, (Session.ends_iff_bearable hs).2 ?_ 0 .getChainId _ _ (fun _ => rfl)
    fun _ _ _ => rfl⟩
  exact ⟨by decide, by decide, by decide, by decide, by decide, by decide⟩

/-- A client that was built with a deadline of a hundred million hours crashes at its first
query. -/
theorem Session.chainId_crashes : ∃ s, Session.startOne 360000000000000 = .ok s ∧
    ¬ Command.getChainId.Ends 0 ⟨fun _ => opensStreams, fun _ => id⟩ s := by
  obtain ⟨s, hs⟩ : ∃ s, Session.startOne 360000000000000 = .ok s := ⟨_, rfl⟩
  have hlong : deadlineLimit ≤ Deadlines.query (s.clients 0).settings.deadlines := by
    rw [(Session.start_eq_ok hs).2.1]
    decide
  exact ⟨s, hs, Command.not_ends <| alone_keeping_crash <| alone_reading_crash
    (alone_reading_crash (alone_call hlong _ _) _) _⟩

end LedgerClient
