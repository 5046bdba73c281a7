import LedgerClient.Proofs.Session.Calling
import LedgerClient.Proofs.Task.Tries

/-!
# The course of a call

Amid whatever surroundings, an operation that makes a call goes in one of four ways.  Its deadline
may not fit the header; it may find no connection; the channel that it is handed may have been shut
down; or the call is made, once, and its reply decides.  `CallGoes` lists them, and `amid_call` says
that there are no others.  Lookups of nonces and sendings of signed transactions are such calls.
-/

namespace LedgerClient

open Account Ledger Rpc Settings Time Wire

/-! ## Calls in a course -/

/-- The call that a task was told the end of. -/
def Interface.Told.call? : Network.Told → Option (Call × Reply Bytes)
  | ⟨.call k, reply⟩ => some (k, reply)
  | _ => none

namespace Course

variable {α : Type}

/-- The calls that were made in a course, and how each ended. -/
def calls (c : Course Network Session α) : List (Call × Reply Bytes) :=
  c.tolds.filterMap Interface.Told.call?

@[simp] theorem calls_behind {β : Type} (c : Course Network Session α)
    (d : Course Network Session β) : (d.behind c.waits).calls = c.calls ++ d.calls := by
  simp [calls]

/-- The calls of one method. -/
def callsTo (method : String) (c : Course Network Session α) : List (Call × Reply Bytes) :=
  c.calls.filter fun k => k.1.method = method

end Course

variable {e : Surroundings Network Session} {n : Nat} {s : Session}

/-- An acquisition makes no call. -/
theorem calls_acquire : (acquire.amid e n s).calls = [] := by
  let dials : NetworkRequest → Prop := fun r => ∃ i limit, r = .dial i limit
  have hobeys : acquire.Obeys (calling dials fun _ _ => True) (leaving fun _ => True) () none s s :=
    obeys_acquire (fun i limit => ⟨i, limit, rfl⟩) rfl
  refine List.filterMap_eq_nil_iff.2 fun told htold => ?_
  obtain ⟨-, -, i, limit, hdial⟩ :=
    hobeys.asks_amid (fun _ => trivial) (fun _ _ _ => trivial) n told htold
  obtain ⟨r, a⟩ := told
  cases hdial
  rfl

/-- An acquisition comes to a result. -/
theorem acquire_ends : ∃ r, (acquire.amid e n s).result = .ok r := by
  -- Nothing is asked of the task here but that it does not crash.
  let harmless : Terms Network Session Unit := ⟨fun _ _ _ => True, fun _ _ => True, False⟩
  have hattempt : ∀ rotation cursor s,
      (attempt rotation cursor).Meets harmless (fun _ _ _ => True) () s := by
    intro rotation cursor s
    unfold attempt
    rw [Task.meets_transition_bind]
    rcases (s.onPool (Pool.beginAttempt rotation cursor)).1 with ⟨r | i, cursor⟩
    · trivial
    · exact ⟨trivial, fun _ _ _ => ⟨trivial, fun _ => trivial⟩⟩
  have hsearch : ∀ rotation s, (search rotation).Meets harmless (fun _ _ _ => True) () s := by
    intro rotation s
    unfold search RetryPolicy.run
    rw [Task.meets_get_bind]
    refine Task.Meets.bind (Q := fun _ _ _ => True) (Task.meets_attemptUpTo (fun cursor _ s _ => ?_)
      (fun _ _ _ => trivial) (fun _ _ _ _ => trivial) _ _ _ _ trivial) ?_
    · refine (hattempt rotation cursor s).imp fun r _ _ _ => ?_
      rcases r with ⟨_ | _, _⟩ <;> trivial
    · rintro (_ | _) _ _ _ <;> trivial
  have hmeets : acquire.Meets harmless (fun _ _ _ => True) () s := by
    unfold acquire
    rw [Task.meets_transition_bind]
    cases (s.onPool Pool.start).1 with
    | ended r => trivial
    | search rotation => exact hsearch rotation _
  exact hmeets.result_amid not_false e (fun _ _ _ _ _ => trivial) n

/-! ## One call -/

/-- The answer that a reply brings, read. -/
def Reply.read {α β : Type} (f : α → Except Status β) : Reply α → Reply β
  | .ended r => .ended (r.bind f)
  | .expired => .expired

/-- What a call comes to, by how waiting for its answer has ended. -/
def Operation.verdict {α : Type} (op : Operation) (deadline : Millis) :
    Reply α → Except ClientError α
  | .ended r => r.mapError op.classify
  | .expired => .error (.brokenNetwork s!"{op.name} exceeded its {spanText deadline} deadline")

theorem amid_settle {α : Type} (op : Operation) (deadline : Millis) (l : Lease) (r : Reply α) :
    ∃ s', (settle op deadline l r).amid e n s = ⟨[], .ok (op.verdict deadline r), s'⟩ := by
  rcases r with (status | a) | _
  · rw [settle]
    split <;> exact ⟨_, rfl⟩
  · exact ⟨_, rfl⟩
  · exact ⟨_, rfl⟩

/-- A channel that was not shut down carries the call. -/
theorem amid_exchange {β : Type} (k : Call) (channel : Nat) (read : Bytes → Except Status β) :
    let course := (exchange channel (Program.call k) read).amid e n s
    match s.pool.refusal? channel with
    | some status => course = ⟨[], .ok (.ended (.error status)), s⟩
    | none => ∃ reply s', course = ⟨[.told ⟨.call k, reply⟩], .ok (reply.read read), s'⟩ := by
  intro course
  simp only [course, exchange, Task.get, Task.bind, Task.amid]
  cases s.pool.refusal? channel with
  | some status => rfl
  | none =>
    simp only [Program.call, Task.request, Task.bind, Task.amid]
    let reply : Reply Bytes := e.answer n (.call k)
    have hreply : e.answer n (.call k) = reply := rfl
    rw [hreply]
    rcases reply with r | _
    · exact ⟨.ended r, _, rfl⟩
    · exact ⟨.expired, _, rfl⟩

/-- Over a lease a call is made once, unless its channel was shut down. -/
theorem amid_callOver (Res : Type) [Message Res] (op : Operation) (deadline : Millis)
    (message : Call) (l : Lease) :
    let course := (callOver Res op deadline message l).amid e n s
    match s.pool.refusal? l.channel with
    | some status => course.waits = [] ∧ course.result = .ok (.error (op.classify status))
    | none => ∃ reply : Reply Bytes,
      course.waits = [.told ⟨.call { message with channel := l.channel }, reply⟩] ∧
        course.result = .ok (op.verdict deadline (reply.read (readResponse Res))) := by
  intro course
  let exchanged : Program (Reply Res) :=
    exchange l.channel (Program.call { message with channel := l.channel }) (readResponse Res)
  have hexchange := amid_exchange (e := e) (n := n) (s := s) { message with channel := l.channel }
    l.channel (readResponse Res)
  obtain ⟨hwaits, hresult⟩ := Task.amid_ensuring (e := e) Session.release exchanged n s
  -- What the exchange has come to is settled without another wait.
  have hsettled : ∀ r, (exchanged.amid e n s).result = .ok r →
      course.waits = (exchanged.amid e n s).waits ∧
        course.result = .ok (op.verdict deadline r) := by
    intro r hr
    have hbind : course = _ := Task.amid_bind_ok (hresult.trans hr) (settle op deadline l)
    obtain ⟨s', hs'⟩ := amid_settle (e := e) op deadline l r
    rw [hbind, hs', hwaits]
    exact ⟨List.append_nil _, rfl⟩
  cases h : s.pool.refusal? l.channel with
  | some status =>
    rw [h] at hexchange
    obtain ⟨hw, hr⟩ := hsettled (.ended (.error status)) (congrArg Course.result hexchange)
    exact ⟨hw.trans (congrArg Course.waits hexchange), hr⟩
  | none =>
    rw [h] at hexchange
    obtain ⟨reply, s', hexchange⟩ := hexchange
    obtain ⟨hw, hr⟩ := hsettled (reply.read (readResponse Res)) (congrArg Course.result hexchange)
    exact ⟨reply, hw.trans (congrArg Course.waits hexchange), hr⟩

section call

variable {Req Res : Type} [Message Req] [Message Res] (c : Nat) (op : Operation)
  (m : Method Req Res) (request : Req)

/-- How a call of client `c` can go that begins at wait `n` in state `s`: which calls are made, and
what comes of it. -/
inductive CallGoes (e : Surroundings Network Session) (n : Nat) (s : Session) :
    List (Call × Reply Bytes) → Except Crash (Except ClientError Res) → Prop
  /-- The deadline does not fit the header. -/
  | crashed (hdeadline : Timeout.ofSpan? (op.deadline (s.clients c).settings.deadlines) = none) :
      CallGoes e n s [] (.error .deadlineTooLong)
  /-- There is no connection. -/
  | unleased {err : ClientError} (hacquire : (acquire.amid e n s).result = .ok (.error err)) :
      CallGoes e n s [] (.ok (.error err))
  /-- The channel was shut down. -/
  | refused {l : Lease} {status : Status} (hacquire : (acquire.amid e n s).result = .ok (.ok l))
      (hrefusal : (acquire.amid e n s).state.pool.refusal? l.channel = some status) :
      CallGoes e n s [] (.ok (.error (op.classify status)))
  | carried {l : Lease} {k : Call} {reply : Reply Bytes}
      (hacquire : (acquire.amid e n s).result = .ok (.ok l))
      (hopen : (acquire.amid e n s).state.pool.refusal? l.channel = none)
      (hchannel : k.channel = l.channel)
      (hmethod : k.method = m.name) (hpayload : k.payload = Message.encode request) :
      CallGoes e n s [(k, reply)] (.ok (op.verdict
        (op.deadline (s.clients c).settings.deadlines) (reply.read (readResponse Res))))

/-- A call is made once, unless it comes to nothing before. -/
theorem amid_call :
    CallGoes c op m request e n s ((call c op m request).amid e n s).calls
      ((call c op m request).amid e n s).result := by
  rw [call_eq]
  -- The header is taken as a name, so that nothing counts up to the limit of its number.
  generalize hheader : Timeout.ofSpan? = header
  rw [Task.amid_get_bind]
  dsimp only
  cases htimeout : header (op.deadline (s.clients c).settings.deadlines) with
  | none => exact .crashed (hheader ▸ htimeout)
  | some timeout =>
    obtain ⟨r, hr⟩ := acquire_ends (e := e) (n := n) (s := s)
    dsimp only [Program.andThen]
    rw [Task.amid_bind_ok hr, Course.calls_behind, calls_acquire]
    cases r with
    | error err => exact .unleased hr
    | ok l =>
      have hover := amid_callOver (e := e) (n := n + (acquire.amid e n s).waits.length)
        (s := (acquire.amid e n s).state) Res op
        (op.deadline (s.clients c).settings.deadlines)
        { channel := 0, method := m.name, payload := Message.encode request,
          account := some (s.address c).text, timeout := some timeout,
          patience := some (op.deadline (s.clients c).settings.deadlines) } l
      cases hrefusal : (acquire.amid e n s).state.pool.refusal? l.channel with
      | some status =>
        rw [hrefusal] at hover
        obtain ⟨hwaits, hresult⟩ := hover
        rw [Course.calls, Course.tolds, hwaits]
        exact hresult.symm ▸ .refused hr hrefusal
      | none =>
        rw [hrefusal] at hover
        obtain ⟨reply, hwaits, hresult⟩ := hover
        rw [Course.calls, Course.tolds, hwaits]
        exact hresult.symm ▸ .carried hr hrefusal rfl rfl rfl

variable {c op m request} in
theorem CallGoes.length_le {calls : List (Call × Reply Bytes)}
    {result : Except Crash (Except ClientError Res)}
    (h : CallGoes c op m request e n s calls result) :
    calls.length ≤ 1 ∧ ∀ k ∈ calls, k.1.method = m.name := by
  cases h with
  | crashed | unleased | refused => exact ⟨Nat.zero_le _, nofun⟩
  | carried _ _ _ hmethod _ =>
    refine ⟨Nat.le_refl _, fun k hk => ?_⟩
    rw [List.mem_singleton.1 hk, hmethod]

end call

/-! ## Lookups and sending -/

theorem amid_reading {α β : Type} (t : Program (Except ClientError α))
    (f : α → Except ClientError β) :
    ((t.reading f).amid e n s).calls = (t.amid e n s).calls ∧
      ((t.reading f).amid e n s).result = (t.amid e n s).result.map (·.bind f) := by
  unfold Program.reading
  cases h : (t.amid e n s).result with
  | ok r =>
    rw [Task.amid_bind_ok h, Course.calls_behind]
    exact ⟨List.append_nil _, rfl⟩
  | error crash =>
    rw [Task.amid_bind_crash h]
    exact ⟨rfl, rfl⟩

/-- How a lookup of a nonce can go: it is one call that names the account. -/
def LookupGoes (c : Nat) (account : Address) (e : Surroundings Network Session) (n : Nat)
    (s : Session) (calls : List (Call × Reply Bytes))
    (result : Except Crash (Except ClientError UInt64)) : Prop :=
  ∃ r, CallGoes c (.query "get_pending_nonce" Deadlines.query) Method.pendingNonce
      { address := account.text } e n s calls r ∧
    result = r.map (·.bind fun response => readDecimal response.data)

theorem amid_getPendingNonce (c : Nat) (account : Address) :
    LookupGoes c account e n s ((getPendingNonce c account).amid e n s).calls
      ((getPendingNonce c account).amid e n s).result := by
  let query : Program (Except ClientError Response) :=
    call c (.query "get_pending_nonce" Deadlines.query) Method.pendingNonce
      { address := account.text }
  obtain ⟨hdata, hdata'⟩ := amid_reading (e := e) (n := n) (s := s) query fun r => .ok r.data
  obtain ⟨hread, hread'⟩ := amid_reading (e := e) (n := n) (s := s) query.data readDecimal
  refine ⟨(query.amid e n s).result, ?_, ?_⟩
  · have hcalls : ((getPendingNonce c account).amid e n s).calls = (query.amid e n s).calls :=
      hread.trans hdata
    rw [hcalls]
    exact amid_call c _ _ _
  · rw [Program.data, hdata'] at hread'
    refine hread'.trans ?_
    rcases (query.amid e n s).result with crash | (err | response) <;> rfl

/-- How the sending of a signed transaction can go: it is one call that carries it. -/
def SendGoes (c : Nat) (t : SignedTransaction) (e : Surroundings Network Session) (n : Nat)
    (s : Session) (calls : List (Call × Reply Bytes))
    (result : Except Crash (Except ClientError String)) : Prop :=
  ∃ r, CallGoes c (.submission "send_transaction") Method.sendTransaction t.transaction e n s
      calls r ∧
    result = r.map (·.bind fun response => .ok response.hash)

theorem amid_sendSigned (c : Nat) (t : SignedTransaction) :
    SendGoes c t e n s ((sendSigned c t).amid e n s).calls
      ((sendSigned c t).amid e n s).result := by
  let send : Program (Except ClientError TransactionHash) :=
    call c (.submission "send_transaction") Method.sendTransaction t.transaction
  obtain ⟨hcalls, hresult⟩ := amid_reading (e := e) (n := n) (s := s) send fun r => .ok r.hash
  refine ⟨(send.amid e n s).result, ?_, hresult⟩
  rw [show ((sendSigned c t).amid e n s).calls = (send.amid e n s).calls from hcalls]
  exact amid_call c _ _ _

theorem exists_of_bind_eq_ok {ε α β : Type} {r : Except ε α} {f : α → Except ε β} {b : β}
    (h : r.bind f = .ok b) : ∃ a, r = .ok a ∧ f a = .ok b := by
  cases r with
  | error err => cases h
  | ok a => exact ⟨a, rfl, h⟩

theorem Operation.response?_of_verdict {Res : Type} [Message Res] {op : Operation}
    {deadline : Millis} {reply : Reply Bytes} {a : Res}
    (h : op.verdict deadline (reply.read (readResponse Res)) = .ok a) :
    reply.response? Res = some a := by
  rcases reply with (status | data) | _
  · cases h
  · have hread : (readResponse Res data).mapError op.classify = .ok a := h
    show (readResponse Res data).toOption = some a
    cases hdata : readResponse Res data with
    | error status =>
      rw [hdata] at hread
      cases hread
    | ok b =>
      rw [hdata] at hread
      cases hread
      rfl
  · cases h

/-- A lookup that succeeds was answered with what it yields. -/
theorem LookupGoes.exists_reply {c : Nat} {account : Address} {calls : List (Call × Reply Bytes)}
    {nonce : UInt64} (h : LookupGoes c account e n s calls (.ok (.ok nonce))) :
    ∃ k reply, calls = [(k, reply)] ∧ reply.nonce? = some nonce := by
  obtain ⟨r, hcall, hr⟩ := h
  cases hcall with
  | crashed | unleased | refused => cases hr
  | @carried l k reply _ _ _ _ _ =>
    refine ⟨k, reply, rfl, ?_⟩
    obtain ⟨response, hresponse, hnonce⟩ := exists_of_bind_eq_ok (Except.ok.inj hr).symm
    rw [Reply.nonce?, Operation.response?_of_verdict hresponse, Option.bind_some, hnonce]
    rfl

end LedgerClient
