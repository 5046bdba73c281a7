import LedgerClient.Proofs.Session.Commands
import LedgerClient.Proofs.Session.Leasing
import LedgerClient.Proofs.Task.Terms

/-!
# What operations owe

An operation borrows a lease from the pool and must not keep it: a call gives it back with its
answer, an opening hands it to a worker, and whoever drops either gives it back as well.  The terms
`operating` say this with a count.  Of a session `P k s` is to say that `k` leases are out besides
those that the session itself accounts for; then `P` speaks of one more while an operation waits for
a call or for the opening of a stream, and of none when it has been dropped or has ended.

They say besides that the settings of the clients stay as they are, and that an operation crashes
only over settings that are not `Bearable`.  `Command.meets_task` says that every command keeps
these terms.
-/

namespace LedgerClient

open Account Ledger Rpc Settings Time Transport Wire

/-! ## Limits -/

/-- The first deadline that is too long for a timeout header: a hundred million hours. -/
def deadlineLimit : Nat := 360000000000000

/-- The coarsest unit of the header decides. -/
theorem Rpc.Timeout.ofSpan?_eq_none_iff {d : Nat} :
    Timeout.ofSpan? d = none ↔ deadlineLimit ≤ d := by
  simp only [ofSpan?, timeoutLimit, timeoutUnits, List.findSome?_eq_none_iff, List.mem_cons,
    List.not_mem_nil, or_false, forall_eq_or_imp, Nat.div_one, Nat.mul_one, Nat.zero_lt_succ,
    Nat.mul_div_left, ite_eq_right_iff, reduceCtorEq, imp_false, Nat.not_lt, forall_eq,
    deadlineLimit]
  omega

namespace Settings

/-- Every deadline of a call fits a timeout header, and every queue can be counted. -/
structure ClientSettings.Bearable (s : ClientSettings) : Prop where
  send : s.deadlines.send < deadlineLimit
  receipt : s.deadlines.receipt < deadlineLimit
  query : s.deadlines.query < deadlineLimit
  blocks : s.deadlines.blocks < deadlineLimit
  pier : s.deadlines.pier < deadlineLimit
  buffer : s.queues.subscriptionBuffer.toNat ≤ queueLimit

end Settings

/-- The deadline of an operation fits a timeout header, if the settings are bearable. -/
def Operation.Fits (op : Operation) : Prop :=
  ∀ s : ClientSettings, s.Bearable → op.deadline s.deadlines < deadlineLimit

/-! ## Terms -/

/-- What operations do to leases and feeds does to `P` what it should. -/
structure CountsLeases (P : Nat → Session → Prop) : Prop where
  of_eq : ∀ {k s s'}, s'.pool.leased = s.pool.leased → s'.feeds = s.feeds → P k s → P k s'
  lend : ∀ {k s s'}, s'.pool.leased = s.pool.leased + 1 → s'.feeds = s.feeds → P k s → P (k + 1) s'
  release : ∀ {k s}, P (k + 1) s → P k s.release
  /-- The worker of a new feed takes a lease over. -/
  start : ∀ {k} {s : Session} {f : Feed}, f.reason? = none → P (k + 1) s →
    P k { s with feeds := s.feeds ++ [f] }
  take : ∀ {k s} id, P k s → P k (s.takeItem id).2

/-- Whoever waits for the answer has a lease. -/
def NetworkRequest.isCall : NetworkRequest → Bool
  | .call _ | .stream _ => true
  | _ => false

/-- The leases of an operation while it waits. -/
def leasesAt (r : Option NetworkRequest) : Nat := (r.any NetworkRequest.isCall).toNat

/-- The leases in the result of an acquisition. -/
def lent : Except ClientError Lease → Nat
  | .ok _ => 1
  | .error _ => 0

/-- The leases that a command hands its caller. -/
def Command.handed : Yield → Nat
  | .ok (some _) => 1
  | _ => 0

section operating

variable (P : Nat → Session → Prop) (settings : Nat → ClientSettings)

/-- `k` leases are out besides those that the session accounts for, and the clients have their
settings. -/
structure Balanced (k : Nat) (s : Session) : Prop where
  count : P k s
  settings_eq : ∀ c, (s.clients c).settings = settings c

/-- The terms of operations. -/
def operating : Terms Network Session Nat where
  waiting r k s := Balanced P settings (k + leasesAt r) s
  dropped := Balanced P settings
  mayCrash := ∃ c, ¬ (settings c).Bearable

/-- The program keeps its terms, and holds no lease at its end. -/
def Keeps {α : Type} (t : Program α) : Prop :=
  ∀ k s, Balanced P settings k s →
    t.Meets (operating P settings) (fun _ => Balanced P settings) k s

end operating

/-! ## The pool -/

namespace Pool

variable {p : Pool} {i : Nat}

@[simp] theorem alter_leased (k : Nat) (f : Channel → Channel) :
    (p.alter k f).leased = p.leased := by
  unfold alter
  split <;> rfl

@[simp] theorem invalidate_leased : (p.invalidate i).leased = p.leased := by
  unfold invalidate
  split <;> rfl

@[simp] theorem vacate_leased : (p.vacate i).leased = p.leased := by
  unfold vacate
  split
  · rfl
  · exact alter_leased _ _

@[simp] theorem drawRotation_leased : p.drawRotation.2.leased = p.leased := by
  unfold drawRotation
  split <;> rfl

@[simp] theorem close_leased : p.close.leased = p.leased := by
  have hfold : ∀ (ks : List Nat) (p : Pool),
      (ks.foldl (fun p k => (p.closeChannel k).2) p).leased = p.leased := fun ks => by
    induction ks with
    | nil => exact fun _ => rfl
    | cons k ks ih => exact fun p => (ih _).trans (alter_leased _ _)
  unfold close
  split
  · rfl
  · exact hfold _ _

/-- A lease is lent at the beginning of an acquisition if it ends there. -/
theorem start_leased :
    p.start.2.leased = p.leased + match p.start.1 with
      | .ended r => lent r
      | .search _ => 0 := by
  unfold start
  split
  · rfl
  · split
    · rfl
    · exact drawRotation_leased

theorem beginAttempt_leased (rotation : List Nat) (cursor : Nat) :
    (p.beginAttempt rotation cursor).2.leased =
      p.leased + match (p.beginAttempt rotation cursor).1.1 with
        | .ended r => lent r
        | .dial _ => 0 := by
  unfold beginAttempt
  split
  · rfl
  · split
    · rfl
    · split
      · rfl
      · exact vacate_leased

theorem failDial_leased (e : DialError) : (p.failDial i e).2.leased = p.leased := by
  unfold failDial disable
  split
  · dsimp only
    split <;> split <;> rfl
  · rfl

theorem endAttempt_leased (reply : DialReply) :
    (p.endAttempt i reply).2.leased = p.leased + lent (p.endAttempt i reply).1 := by
  cases reply with
  | connected link =>
    unfold endAttempt keep
    dsimp only
    split
    · exact alter_leased _ _
    · rfl
  | failed e => exact failDial_leased e
  | expired => exact failDial_leased (i := i) (.timeout (p.address i) p.dialTimeout)

end Pool

/-! ## Parts of programs -/

section rules

variable {P : Nat → Session → Prop} {settings : Nat → ClientSettings} {k : Nat} {s : Session}
  {α β : Type}

namespace Balanced

/-- A change of the pool that neither lends a lease nor takes one back. -/
theorem onPool (law : CountsLeases P) (h : Balanced P settings k s) {p : Pool}
    (hp : p.leased = s.pool.leased) : Balanced P settings k { s with pool := p } where
  count := law.of_eq (s := s) hp rfl h.count
  settings_eq := h.settings_eq

/-- A change of the pool that lends what is in the result of an acquisition. -/
theorem lend (law : CountsLeases P) (h : Balanced P settings k s) {p : Pool}
    (r : Except ClientError Lease) (hp : p.leased = s.pool.leased + lent r) :
    Balanced P settings (k + lent r) { s with pool := p } where
  count := by
    cases r with
    | ok l => exact law.lend hp rfl h.count
    | error e => exact law.of_eq (s := s) hp rfl h.count
  settings_eq := h.settings_eq

theorem release (law : CountsLeases P) (h : Balanced P settings (k + 1) s) :
    Balanced P settings k s.release where
  count := law.release h.count
  settings_eq := h.settings_eq

theorem alterClient (law : CountsLeases P) (h : Balanced P settings k s) (c : Nat)
    {f : Client → Client} (hf : ∀ client, (f client).settings = client.settings) :
    Balanced P settings k (s.alterClient c f) where
  count := law.of_eq (s := s) rfl rfl h.count
  settings_eq b := by
    rw [← h.settings_eq b]
    simp only [Session.alterClient]
    split
    · exact hf _
    · rfl

end Balanced

namespace Keeps

theorem done (a : α) : Keeps P settings (.done a : Program α) := fun _ _ h => h

theorem get_bind {f : Session → Program α} (h : ∀ s, Keeps P settings (f s)) :
    Keeps P settings (Task.get.bind f) := fun k s hs => h s k s hs

theorem bind {t : Program α} {f : α → Program β} (h : Keeps P settings t)
    (hf : ∀ a, Keeps P settings (f a)) : Keeps P settings (t.bind f) :=
  fun k s hs => (h k s hs).bind fun a k s hs => hf a k s hs

theorem andThen {t : Program (Except ClientError α)} {f : α → Program (Except ClientError β)}
    (h : Keeps P settings t) (hf : ∀ a, Keeps P settings (f a)) :
    Keeps P settings (t.andThen f) := by
  refine h.bind ?_
  rintro (e | a)
  · exact done _
  · exact hf a

theorem reading {t : Program (Except ClientError α)} (h : Keeps P settings t)
    (f : α → Except ClientError β) : Keeps P settings (t.reading f) := h.bind fun _ => done _

theorem data {t : Program (Except ClientError Response)} (h : Keeps P settings t) :
    Keeps P settings t.data := h.reading _

theorem attempting {t : Program (Except ClientError α)} (h : Keeps P settings t)
    (p : RetryPolicy) : Keeps P settings (p.attempting t) := by
  refine fun k s hs => Task.meets_attempting p (fun k s hs => ?_) (fun _ _ hs => hs)
    (fun _ _ _ hs => hs) hs
  refine (h k s hs).imp ?_
  rintro (e | a) k s hs <;> exact hs

theorem signThen (d : Draft) (signer : Signer)
    {next : SignedTransaction → Program (Except ClientError α)}
    (h : ∀ t, Keeps P settings (next t)) (nonce : UInt64) :
    Keeps P settings (LedgerClient.signThen d signer next nonce) := by
  unfold LedgerClient.signThen
  split
  · exact .done _
  · exact h _

end Keeps

/-! ## Acquisitions -/

variable (law : CountsLeases P)

include law

theorem meets_attempt (rotation : List Nat) (cursor : Nat) (h : Balanced P settings k s) :
    (attempt rotation cursor).Meets (operating P settings)
      (fun r k s => Balanced P settings (k + lent r.1) s) k s := by
  have hleased := s.pool.beginAttempt_leased rotation cursor
  unfold attempt
  rw [Task.meets_transition_bind, Session.onPool]
  rcases hbegin : s.pool.beginAttempt rotation cursor with ⟨⟨r | i, cursor⟩, p⟩
  · rw [hbegin] at hleased
    exact h.lend law r hleased
  · rw [hbegin] at hleased
    refine ⟨h.onPool law hleased, fun k s hs => ⟨hs, fun reply => ?_⟩⟩
    exact hs.lend law _ (Pool.endAttempt_leased reply)

theorem meets_acquire (h : Balanced P settings k s) :
    acquire.Meets (operating P settings) (fun r k s => Balanced P settings (k + lent r) s) k s := by
  have hleased := s.pool.start_leased
  unfold acquire
  rw [Task.meets_transition_bind, Session.onPool]
  rcases hstart : s.pool.start with ⟨r | rotation, p⟩
  · rw [hstart] at hleased
    exact h.lend law r hleased
  · rw [hstart] at hleased
    refine Task.Meets.bind
      (Q := fun r k s =>
        Task.Yields (fun _ => Balanced P settings (k + 1) s) (Balanced P settings k s) r)
      (Task.meets_attemptUpTo (fun cursor k s hs => ?_) (fun _ _ hs => hs) (fun _ _ _ hs => hs)
        _ _ _ _ (h.onPool law hleased)) ?_
    · refine (meets_attempt law rotation cursor hs).imp ?_
      rintro ⟨_ | _, _⟩ k s hs <;> exact hs
    · rintro (_ | _) k s hs <;> exact hs

/-- What is done with a lease gives it back. -/
theorem keeps_acquire_andThen {f : Lease → Program (Except ClientError α)}
    (hf : ∀ l k s, Balanced P settings (k + 1) s →
      (f l).Meets (operating P settings) (fun _ => Balanced P settings) k s) :
    Keeps P settings (acquire.andThen f) := by
  refine fun k s hs => (meets_acquire law hs).bind ?_
  rintro (e | l) k s hs
  · exact hs
  · exact hf l k s hs

/-! ## Calls and openings -/

/-- Who waits for an exchange has a lease, also when it is dropped. -/
theorem meets_exchange {wait : Program (Reply α)}
    (hwait : ∀ k s, Balanced P settings (k + 1) s →
      wait.Meets { operating P settings with dropped := fun k => Balanced P settings (k + 1) }
        (fun _ k => Balanced P settings (k + 1)) k s)
    (channel : Nat) (read : α → Except Status β) (h : Balanced P settings (k + 1) s) :
    (exchange channel wait read).Meets
      { operating P settings with dropped := fun k => Balanced P settings (k + 1) }
      (fun _ k => Balanced P settings (k + 1)) k s := by
  unfold exchange
  rw [Task.meets_get_bind]
  cases s.pool.refusal? channel with
  | some status => exact h
  | none =>
    refine (hwait k s h).bind ?_
    rintro (r | _) k s hs
    · exact hs.onPool law (Pool.alter_leased _ _)
    · exact hs

/-- Reading how a call has ended takes no lease and gives none back. -/
theorem meets_settle (op : Operation) (deadline : Millis) (l : Lease) (r : Reply α) {n : Nat}
    (h : Balanced P settings (k + n) s) :
    (settle op deadline l r).Meets (operating P settings)
      (fun _ k => Balanced P settings (k + n)) k s := by
  rcases r with (status | a) | _
  · rw [settle]
    split
    · exact h.onPool law Pool.invalidate_leased
    · exact h
  · exact h
  · exact h.onPool law Pool.invalidate_leased

theorem meets_callOver (Res : Type) [Message Res] (op : Operation) (deadline : Millis)
    (message : Call) (l : Lease) (h : Balanced P settings (k + 1) s) :
    (callOver Res op deadline message l).Meets (operating P settings)
      (fun _ => Balanced P settings) k s := by
  unfold callOver
  refine Task.Meets.bind (Q := fun _ => Balanced P settings) ?_ fun r k s hs =>
    meets_settle law (n := 0) op deadline l r hs
  refine Task.Meets.ensuring
    (C := { operating P settings with dropped := fun k => Balanced P settings (k + 1) }) ?_
    fun k s hs => hs.release law
  refine (meets_exchange law (fun k s hs => ?_) l.channel _ h).imp fun _ k s hs => hs.release law
  exact ⟨hs, fun k s hs => ⟨hs, fun _ => hs⟩⟩

/-- A call crashes only over a deadline that is not bearable. -/
theorem keeps_call {Req Res : Type} [Message Req] [Message Res] (c : Nat) {op : Operation}
    (hop : op.Fits) (m : Method Req Res) (request : Req) :
    Keeps P settings (call c op m request) := by
  rw [call_eq]
  intro k s hs
  rw [Task.meets_get_bind]
  dsimp only
  split
  · rename_i hnone
    refine ⟨⟨c, fun hbearable => ?_⟩, hs⟩
    rw [hs.settings_eq, Timeout.ofSpan?_eq_none_iff] at hnone
    exact absurd (hop _ hbearable) (Nat.not_lt.2 hnone)
  · exact keeps_acquire_andThen law (fun l k s hs => meets_callOver law _ _ _ _ l hs) k s hs

/-- A feed is started unless its queue cannot be counted. -/
theorem meets_startFeed (c : Nat) (topic : Topic) (scope : Scope) (stream : Nat)
    (h : Balanced P settings (k + 1) s) :
    (startFeed c topic scope stream).Meets (operating P settings) (fun _ => Balanced P settings)
      k s := by
  unfold startFeed
  rw [Task.meets_get_bind]
  dsimp only
  split
  · rename_i hlimit
    refine ⟨⟨c, fun hbearable => ?_⟩, h.release law⟩
    rw [h.settings_eq] at hlimit
    exact absurd hlimit (Nat.not_lt.2 (Nat.max_le.2 ⟨hbearable.buffer, by decide⟩))
  · exact ⟨law.start rfl h.count, h.settings_eq⟩

theorem meets_openOver (c : Nat) (op : Operation) (deadline : Millis) (message : Call)
    (topic : Topic) (scope : Scope) (l : Lease) (h : Balanced P settings (k + 1) s) :
    (openOver c op deadline message topic scope l).Meets (operating P settings)
      (fun _ => Balanced P settings) k s := by
  unfold openOver
  refine Task.Meets.bind (Q := fun _ k => Balanced P settings (k + 1)) ?_ ?_
  · refine Task.Meets.onDrop
      (C := { operating P settings with dropped := fun k => Balanced P settings (k + 1) }) ?_
      fun k s hs => hs.release law
    refine meets_exchange law (fun k s hs => ?_) l.channel _ h
    exact ⟨hs, fun k s hs => ⟨hs, fun _ => hs⟩⟩
  · intro r k s hs
    refine (meets_settle law op deadline l r hs).bind ?_
    rintro (e | stream) k s hs
    · exact hs.release law
    · exact meets_startFeed law c topic scope stream hs

theorem keeps_openFeed {Req Res : Type} [Message Req] (c : Nat) (op : Operation)
    (m : Method Req Res) (request : Session → Req) (topic : Topic) (scope : Scope) :
    Keeps P settings (openFeed c op m request topic scope) := by
  rw [openFeed_eq]
  exact .get_bind fun _ => keeps_acquire_andThen law fun l _ _ hs =>
    meets_openOver law _ _ _ _ _ _ l hs

/-! ## Submissions -/

theorem keeps_lookUpNonce (c : Nat) (account : Address) :
    Keeps P settings (lookUpNonce c account) :=
  .get_bind fun _ => (((keeps_call law c (fun _ h => h.query) _ _).data).reading _).attempting _

/-- A lock is of no account to the pool. -/
theorem keeps_locked (c : Nat) (account : Address) {t : Program α} (h : Keeps P settings t) :
    Keeps P settings (locked c account t) := by
  unfold locked
  intro k s hs
  rw [Task.meets_transition_bind]
  have hlocks : ∀ {k s} (f : LockTable → LockTable), Balanced P settings k s →
      Balanced P settings k (s.alterLocks c f) := fun _ hs => hs.alterClient law c fun _ => rfl
  refine Task.Meets.ensuring (C := operating P settings) ?_ fun _ _ => hlocks _
  refine Task.Meets.imp (Task.Meets.bind (Q := fun _ => Balanced P settings) ?_
    fun _ k s hs => h k s hs) fun _ _ _ => hlocks _
  have hdrawn : Balanced P settings k (s.drawTicket c account).2 :=
    hs.alterClient law c (f := fun k => { k with locks := _ }) fun _ => rfl
  unfold awaitTurn
  split
  · exact hdrawn
  · exact ⟨hdrawn, fun k s hs => ⟨hs, fun _ => hlocks (fun t => t.poll _) hs⟩⟩

theorem keeps_withSigned (c : Nat) (d : Draft) (o : SubmitOptions)
    {next : SignedTransaction → Program (Except ClientError α)}
    (h : ∀ t, Keeps P settings (next t)) : Keeps P settings (withSigned c d o next) := by
  unfold withSigned
  split
  · exact .done _
  · split
    · exact .done _
    · refine .get_bind fun s => ?_
      dsimp only
      split
      · exact Keeps.signThen d _ h _
      · exact keeps_locked law c _ ((keeps_lookUpNonce law c _).andThen (Keeps.signThen d _ h))

theorem keeps_sendSigned (c : Nat) (t : SignedTransaction) :
    Keeps P settings (sendSigned c t) :=
  (keeps_call law c (fun _ h => h.send) _ _).reading _

theorem keeps_submit (c : Nat) (d : Draft) (o : SubmitOptions) :
    Keeps P settings (submit c d o) := keeps_withSigned law c d o (keeps_sendSigned law c)

theorem keeps_pollReceipt (c : Nat) (hash : String) : Keeps P settings (pollReceipt c hash) :=
  .get_bind fun _ => (keeps_call law c (fun _ h => h.receipt) _ _).attempting _

/-! ## Commands -/

theorem keeps_nextItem (feed : Nat) (patience : Millis) :
    Keeps P settings (nextItem feed patience) := by
  have htake : ∀ k s, Balanced P settings k s → Balanced P settings k (s.takeItem feed).2 := by
    intro k s hs
    refine ⟨law.take feed hs.count, fun c => ?_⟩
    rw [← hs.settings_eq c, Session.takeItem]
    split <;> rfl
  unfold nextItem
  intro k s hs
  rw [Task.meets_transition_bind]
  split
  · split
    · exact htake k s hs
    · exact ⟨htake k s hs, fun k s hs => ⟨hs, fun _ => htake k s hs⟩⟩
  · exact htake k s hs

end rules

/-- A command keeps its terms, and holds no lease at its end but the one that it hands its
caller. -/
theorem Command.meets_task {P : Nat → Session → Prop} {settings : Nat → ClientSettings}
    (law : CountsLeases P) (c : Nat) (o : Command) {k : Nat} {s : Session}
    (h : Balanced P settings k s) :
    (o.task c).Meets (operating P settings) (fun r k s => Balanced P settings (k + handed r) s)
      k s := by
  have hkeeping : ∀ {α : Type} {t : Program (Except ClientError α)}, Keeps P settings t →
      (keeping t).Meets (operating P settings)
        (fun r k s => Balanced P settings (k + handed r) s) k s := fun {α t} ht => by
    refine (ht k s h).bind ?_
    rintro (e | a) k s hs <;> exact hs
  have hquery : ∀ {Req Res : Type} [Message Req] [Message Res] {op : Operation}, op.Fits →
      ∀ (m : Method Req Res) request, Keeps P settings (call c op m request) :=
    fun hop m request => keeps_call law c hop m request
  cases o with
  | acquire =>
    refine (meets_acquire law h).bind ?_
    rintro (e | l) k s hs <;> exact hs
  | submit d o => exact hkeeping (keeps_submit law c d o)
  | submitAndWait d o =>
    exact hkeeping ((keeps_submit law c d o).andThen (keeps_pollReceipt law c))
  | prepare d o => exact hkeeping (keeps_withSigned law c d o fun _ => .done _)
  | sendSigned t => exact hkeeping (keeps_sendSigned law c t)
  | sendSignedAndWait t =>
    exact hkeeping ((keeps_sendSigned law c t).andThen (keeps_pollReceipt law c))
  | submitBatch ts =>
    refine hkeeping ?_
    unfold LedgerClient.submitBatch
    split
    · exact .done _
    · exact (hquery (fun _ h => h.send) _ _).reading _
  | sendView d =>
    exact hkeeping (.get_bind fun _ =>
      Keeps.signThen d _ (fun _ => hquery (fun _ h => h.send) _ _) 0)
  | pollReceipt hash => exact hkeeping (keeps_pollReceipt law c hash)
  | getReceipt hash => exact hkeeping (hquery (fun _ h => h.receipt) _ _)
  | getTransaction hash => exact hkeeping (hquery (fun _ h => h.blocks) _ _)
  | getTransactionAtHash blockHash index => exact hkeeping (hquery (fun _ h => h.blocks) _ _)
  | getTransactionAtNumber blockNumber index => exact hkeeping (hquery (fun _ h => h.blocks) _ _)
  | getPendingNonce account =>
    exact hkeeping ((hquery (fun _ h => h.query) _ _).data.reading _)
  | getAccountBalance account => exact hkeeping (hquery (fun _ h => h.query) _ _).data
  | getChainMeta => exact hkeeping (hquery (fun _ h => h.blocks) _ _)
  | getTransactionRate first last =>
    exact hkeeping ((hquery (fun _ h => h.query) _ _).data.reading _)
  | getChainId => exact hkeeping ((hquery (fun _ h => h.query) _ _).data.reading _)
  | getChainStatus => exact hkeeping ((hquery (fun _ h => h.query) _ _).data.reading _)
  | getNetworkMeta | getValidators => exact hkeeping (hquery (fun _ h => h.query) _ _).data
  | getBlocks first last => exact hkeeping ((hquery (fun _ h => h.blocks) _ _).reading _)
  | getBlock selector => exact hkeeping (hquery (fun _ h => h.blocks) _ _)
  | getMultiSigns content type => exact hkeeping ((hquery (fun _ h => h.send) _ _).reading _)
  | getThresholdSigns content type extra =>
    exact hkeeping ((hquery (fun _ h => h.send) _ _).reading _)
  | checkMasterPier pier => exact hkeeping (hquery (fun _ h => h.pier) _ _).data
  | setMasterPier pier instanceIndex leaseSeconds =>
    exact hkeeping (hquery (fun _ h => h.pier) _ _).data
  | heartBeat pier instanceIndex => exact hkeeping (hquery (fun _ h => h.pier) _ _).data
  | removePeer peer => exact hkeeping (hquery (fun _ h => h.query) _ _).data
  | subscribe scope kind extra => exact hkeeping (keeps_openFeed law c _ _ _ _ _)
  | subscribeAudit scope blockHeight extra => exact hkeeping (keeps_openFeed law c _ _ _ _ _)
  | streamHeaders scope first last => exact hkeeping (keeps_openFeed law c _ _ _ _ _)
  | streamWrappers scope peer first last => exact hkeeping (keeps_openFeed law c _ _ _ _ _)
  | nextItem feed patience =>
    exact ((keeps_nextItem law feed patience) k s h).bind fun _ _ _ hs => hs

end LedgerClient
