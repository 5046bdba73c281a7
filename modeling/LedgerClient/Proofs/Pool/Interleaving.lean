import LedgerClient.Proofs.Pool.Closing
import LedgerClient.Proofs.Session.Failover

/-!
# One acquisition among others

Between two turns of an acquisition, others take theirs, leases are given back, channels change
their states.  This module follows one acquisition through all of it.  Its *life* is the list of its
stops, and at each use of the pool it stays where it stands or goes on from there.

Of the pool, what it was set up with never changes, and an endpoint is disabled in one way only:
somebody is told of a permanent error of its dial.  And whatever is handed out, by whomever, is a
channel that is new or may be handed out at that moment.
-/

namespace LedgerClient

open Rpc Settings Time Transport

namespace Pool

variable {i k : Nat} {p : Pool}

/-! ## What stays as it was set up -/

/-- What a pool was set up with. -/
def setup (p : Pool) : List Node × RetryPolicy × Millis := (p.endpoints, p.policy, p.dialTimeout)

theorem alter_setup (f : Channel → Channel) : (p.alter k f).setup = p.setup := by
  obtain ⟨_, h⟩ := p.alter_frame f
  rw [h]
  rfl

theorem closeChannel_setup : (p.closeChannel k).2.setup = p.setup := alter_setup _

@[simp] theorem vacate_setup : (p.vacate i).setup = p.setup := by
  unfold vacate
  split
  · rfl
  · exact closeChannel_setup

theorem invalidate_setup : (p.invalidate i).setup = p.setup := by
  unfold invalidate
  split <;> rfl

theorem close_setup : p.close.setup = p.setup := by
  have hfold : ∀ (ks : List Nat) (p : Pool),
      (ks.foldl (fun p k => (p.closeChannel k).2) p).setup = p.setup := by
    intro ks
    induction ks with
    | nil => exact fun _ => rfl
    | cons k ks ih => exact fun p => (ih _).trans closeChannel_setup
  unfold close
  split
  · rfl
  · exact hfold _ _

theorem start_setup : p.start.2.setup = p.setup := by
  obtain ⟨_, _, h⟩ := p.start_frame
  rw [h]
  rfl

theorem beginAttempt_setup (rotation : List Nat) (cursor : Nat) :
    (p.beginAttempt rotation cursor).2.setup = p.setup := by
  obtain ⟨_, _, _, _, _, h⟩ := p.beginAttempt_frame rotation cursor
  rw [h]
  rfl

theorem failDial_setup (i : Nat) (e : DialError) : (p.failDial i e).2.setup = p.setup := by
  obtain ⟨_, h⟩ := p.failDial_frame i e
  rw [h]
  rfl

theorem endAttempt_setup (i : Nat) (reply : DialReply) :
    (p.endAttempt i reply).2.setup = p.setup := by
  obtain ⟨_, _, _, _, _, _, h⟩ := p.endAttempt_frame i reply
  rw [h]
  rfl

/-! ## What disables an endpoint -/

theorem start_disabled : p.start.2.disabled = p.disabled := by
  obtain ⟨_, _, h⟩ := p.start_frame
  rw [h]

theorem beginAttempt_disabled (rotation : List Nat) (cursor : Nat) :
    (p.beginAttempt rotation cursor).2.disabled = p.disabled := by
  obtain ⟨_, _, _, _, _, h⟩ := p.beginAttempt_frame rotation cursor
  rw [h]

theorem mem_disable {j : Nat} : j ∈ (p.disable i).disabled ↔ j ∈ p.disabled ∨ j = i := by
  unfold disable
  split
  · rename_i hi
    rw [iff_self_or]
    rintro rfl
    exact List.contains_iff_mem.1 hi
  · simp

theorem mem_disabled_failDial {e : DialError} {j : Nat} :
    j ∈ (p.failDial i e).2.disabled ↔ j ∈ p.disabled ∨ j = i ∧ e.isPermanent = true := by
  unfold failDial
  split
  · rename_i he
    simp only [he, and_true]
    rw [← mem_disable]
    split <;> rfl
  · rename_i he
    simp [he]

/-- A dial disables its endpoint if its error is permanent. -/
theorem mem_disabled_endAttempt {reply : DialReply} {j : Nat} :
    j ∈ (p.endAttempt i reply).2.disabled ↔
      j ∈ p.disabled ∨ j = i ∧ ∃ e, reply = .failed e ∧ e.isPermanent = true := by
  cases reply with
  | connected link =>
    have : (p.endAttempt i (.connected link)).2.disabled = p.disabled := by
      unfold endAttempt keep
      dsimp only
      split
      · exact closeChannel_disabled
      · rfl
    simp [this]
  | failed e => exact mem_disabled_failDial.trans (by simp)
  | expired =>
    exact (mem_disabled_failDial (i := i) (e := .timeout (p.address i) p.dialTimeout)).trans
      (by simp [DialError.isPermanent])

/-- The pool counts its disabled endpoints to see whether all of them are. -/
theorem Accounted.disabled_length_eq_iff {n : Nat} {pushed : List Nat}
    (h : Accounted n pushed p) :
    p.disabled.length = n ↔ ∀ j < n, j ∈ p.disabled := by
  constructor
  · intro hall j hj
    by_contra henabled
    have hj : j ∈ p.enabled (List.range n) := mem_enabled.2 ⟨List.mem_range.2 hj, henabled⟩
    rw [h.enabled_eq_nil hall fun _ => List.mem_range.1] at hj
    cases hj
  · intro hall
    have hperm : p.disabled.Perm (List.range n) :=
      (List.perm_ext_iff_of_nodup h.disabled_nodup List.nodup_range).2 fun j =>
        ⟨fun hj => List.mem_range.2 (h.disabled_lt j hj), fun hj => hall j (List.mem_range.1 hj)⟩
    rw [hperm.length_eq, List.length_range]

theorem close_disabled : p.close.disabled = p.disabled := by
  unfold close
  split
  · rfl
  · exact (foldl_closeChannel _ _).2.2.2.2

end Pool

namespace Acquisitions

variable {a : Acquisitions} {u : Pool.Use} {s : Session} {i j : Nat}

theorem setup_step (a : Acquisitions) (u : Pool.Use) : (a.step u).pool.setup = a.pool.setup := by
  rw [pool_step]
  cases hx : a.stop? u with
  | some r =>
    exact view_of_stop? Pool.setup (fun _ => Pool.start_setup) (fun _ => Pool.beginAttempt_setup)
      (fun _ => Pool.endAttempt_setup) hx
  | none =>
    cases u with
    | acquire | wake | answer | abandon | release => rfl
    | invalidate endpoint => exact Pool.invalidate_setup
    | turn channel state => exact Pool.alter_setup _
    | close => exact Pool.close_setup

theorem setup_after (p : Pool) (uses : List Pool.Use) : (after p uses).pool.setup = p.setup := by
  induction uses using List.reverseRecOn with
  | nil => rfl
  | append_singleton uses u ih => rw [after_concat, setup_step, ih]

/-- What an acquisition is told by a use. -/
def told? (a : Acquisitions) : Pool.Use → Option Network.Told
  | .answer i reply =>
    match a.member? i with
    | some (.dialing e limit _) => some ⟨.dial e limit, reply (.dial e limit)⟩
    | _ => none
  | _ => none

theorem told?_party : (a.party s).told? u.event = a.told? u := by
  cases u with
  | answer i reply =>
    have hm := member?_party s a i
    have hnone (h : ∀ r dropped next, (a.party s).member? i ≠ some (.ask r dropped next)) :
        (a.party s).told? (Pool.Use.answer i reply).event = none :=
      Party.told?_answer_eq_none h reply
    rw [told?]
    rcases hi : a.member? i with _ | (_ | _) | ⟨e, limit, q⟩ <;> rw [hi] at hm
    · exact hnone (by simp [hm])
    · exact hnone (by simp [hm, Acquisition.task, Rest.task])
    · exact hnone (by simp [hm, Acquisition.task, Rest.task])
    · exact Party.told?_answer hm reply
  | acquire | wake | abandon | release | invalidate | turn | close => rfl

/-- An endpoint is disabled if an acquisition is told of a permanent error of its dial, and in no
other way. -/
theorem mem_disabled_step : j ∈ (a.step u).pool.disabled ↔ j ∈ a.pool.disabled ∨
    ∃ limit e, a.told? u = some ⟨.dial j limit, DialReply.failed e⟩ ∧ e.isPermanent = true := by
  rw [pool_step]
  cases u with
  | acquire =>
    have := Acquisition.start_view Pool.disabled (fun _ => Pool.start_disabled)
      (fun _ => Pool.beginAttempt_disabled) a.pool
    simp [stop?, told?, this]
  | wake i =>
    rw [stop?]
    split
    · rename_i q _
      simp [told?, Search.attempt_snd, Pool.beginAttempt_disabled]
    · simp [told?, Pool.Use.outside]
  | answer i reply =>
    rw [stop?, told?]
    rcases a.member? i with _ | (_ | _) | ⟨e, limit, q⟩
    · simp [Pool.Use.outside]
    · simp [Pool.Use.outside]
    · simp [Pool.Use.outside]
    · refine Pool.mem_disabled_endAttempt.trans (or_congr_right ?_)
      constructor
      · rintro ⟨rfl, error, hreply, herror⟩
        refine ⟨limit, error, ?_, herror⟩
        show some (⟨.dial j limit, reply (.dial j limit)⟩ : Network.Told) = _
        rw [hreply]
      · rintro ⟨limit', error, htold, herror⟩
        obtain ⟨hdial, hreply⟩ := Sigma.mk.inj (Option.some.inj htold)
        cases hdial
        exact ⟨rfl, error, eq_of_heq hreply, herror⟩
  | abandon | release => simp [stop?, told?, Pool.Use.outside, Pool.release]
  | invalidate endpoint =>
    have : (a.pool.invalidate endpoint).disabled = a.pool.disabled := by
      unfold Pool.invalidate
      split <;> rfl
    simp [stop?, told?, Pool.Use.outside, this]
  | turn channel state => simp [stop?, told?, Pool.Use.outside]
  | close => simp [stop?, told?, Pool.Use.outside, Pool.close_disabled]

theorem mem_tolds_concat {t : Network.Told} {uses : List Pool.Use} :
    t ∈ (a.party s).tolds ((uses ++ [u]).map Pool.Use.event) ↔
      t ∈ (a.party s).tolds (uses.map Pool.Use.event) ∨ (a.run uses).told? u = some t := by
  rw [List.map_append, List.map_singleton, Party.tolds_concat, run_party, told?_party,
    List.mem_append, Option.mem_toList]

/-- The endpoints that become disabled are those of whose dials an acquisition is told that they
cannot succeed. -/
theorem mem_disabled_run (s : Session) (a : Acquisitions) (uses : List Pool.Use) :
    j ∈ (a.run uses).pool.disabled ↔ j ∈ a.pool.disabled ∨ ∃ limit e,
      ⟨.dial j limit, DialReply.failed e⟩ ∈ (a.party s).tolds (uses.map Pool.Use.event) ∧
        e.isPermanent = true := by
  induction uses using List.reverseRecOn with
  | nil => simp [run, Party.tolds]
  | append_singleton uses u ih =>
    simp only [run_concat, mem_disabled_step, ih, mem_tolds_concat, or_and_right, exists_or,
      or_assoc]

end Acquisitions

/-! ## Attempts over an open pool -/

section attempts

variable {p : Pool} {q : Search}

/-- An attempt takes a channel that may be handed out. -/
theorem Search.attempt_reused (hopen : p.closed = false) {i k : Nat}
    (h : p.reusable? q.rotation = some (i, k)) :
    q.attempt p = (.resting (.ended (.ok ⟨i, p.address i, k⟩)),
      { p with lastGood := some i, leased := p.leased + 1 }) := by
  rw [attempt, Pool.beginAttempt, if_neg (by simp [hopen]), h]
  rfl

/-- An attempt that finds no channel dials. -/
theorem Search.attempt_dial (h : p.Barren q.rotation) {i next : Nat}
    (hnext : p.nextEnabled q.rotation q.cursor q.rotation.length = (some i, next)) :
    q.attempt p = (.dialing i p.dialTimeout { q with cursor := next }, p.vacate i) := by
  rw [attempt, h.beginAttempt, hnext]
  dsimp only
  rw [Pool.vacate_dialTimeout]

theorem searchError_eq {attempts : Nat} {exhausted : Bool} {error : ClientError}
    (h : error ≠ .poolClosed) :
    Pool.searchError ⟨attempts, exhausted, error⟩ = .exhaustedPool attempts error.message := by
  unfold Pool.searchError
  split
  · exact absurd ‹_› h
  · rfl

/-- An attempt that must not be repeated, or is the last of its budget, ends its search. -/
theorem Search.outcome_last {error : ClientError} (herror : error ≠ .poolClosed)
    (hlast : q.retries = 0 ∨ error.retryable = false) :
    q.outcome (.error error) = .ended (.error (.exhaustedPool (q.made + 1) error.message)) := by
  rcases q with ⟨rotation, cursor, schedule, made, _ | retries⟩
  · exact congrArg (fun e => Rest.ended (.error e)) (searchError_eq herror)
  · have hretry := hlast.resolve_left (Nat.succ_ne_zero _)
    rw [outcome]
    dsimp only
    rw [if_neg (by simp [hretry]), searchError_eq herror]

theorem Search.outcome_retry {error : ClientError} {retries : Nat}
    (hretries : q.retries = retries + 1) (h : error.retryable = true) :
    q.outcome (.error error) = .pausing q.schedule.delay
      { q with schedule := q.schedule.next, made := q.made + 1, retries } := by
  rw [outcome, hretries]
  dsimp only
  rw [if_pos h]

end attempts

/-! ## What is handed out -/

theorem Acquisition.eq_of_task_eq_done {x : Acquisition} {r : Except ClientError Lease}
    (h : x.task = .done r) : x = .resting (.ended r) := by
  rcases x with (_ | _) | _
  · cases h
    rfl
  · cases h
  · cases h

theorem Search.eq_ok_of_outcome {q : Search} {r : Except ClientError Lease} {l : Lease}
    (h : q.outcome r = .ended (.ok l)) : r = .ok l := by
  unfold outcome at h
  split at h
  · cases h
    rfl
  · split at h
    · cases h
    · split at h <;> cases h

/-- As the pool becomes `q`, it hands out a lease over a channel that is new or may be handed out,
and remembers its endpoint. -/
structure Pool.Gives (p : Pool) (l : Lease) (q : Pool) : Prop where
  lastGood_eq : q.lastGood = some l.index
  usable : l.channel = p.channels.length ∨ p.usable? l.index = some l.channel

namespace Pool

variable {p q : Pool} {l : Lease}

/-- An acquisition that has to search has drawn its rotation. -/
theorem start_eq_search {rotation : List Nat} (h : p.start = (.search rotation, q)) :
    p.closed = false ∧ p.recent? = none ∧ rotation = p.drawRotation.1 ∧
      q = { p with rotations := p.rotations.tail } := by
  unfold start at h
  split at h
  · cases h
  · rename_i hopen
    split at h
    · cases h
    · rename_i hrecent
      have h : (Start.search p.drawRotation.1, p.drawRotation.2) = (Start.search rotation, q) := h
      rw [drawRotation_snd] at h
      cases h
      exact ⟨by simpa using hopen, hrecent, rfl, rfl⟩

/-- An acquisition that ends as it begins over an open pool has a lease. -/
theorem start_eq_ended (hopen : p.closed = false) {r : Except ClientError Lease}
    (h : p.start = (.ended r, q)) : ∃ l, r = .ok l := by
  unfold start at h
  rw [if_neg (by simp [hopen])] at h
  split at h
  · cases h
    exact ⟨_, rfl⟩
  · cases h

theorem gives_start (h : p.start = (.ended (.ok l), q)) : p.Gives l q := by
  unfold start at h
  split at h
  · cases h
  · split at h
    · rename_i i k hrecent
      obtain ⟨hlast, husable⟩ := recent?_eq_some.1 hrecent
      cases h
      exact ⟨hlast, .inr husable⟩
    · cases h

theorem gives_beginAttempt {rotation : List Nat} {cursor next : Nat}
    (h : p.beginAttempt rotation cursor = ((.ended (.ok l), next), q)) : p.Gives l q := by
  unfold beginAttempt at h
  split at h
  · cases h
  · split at h
    · rename_i i k hreusable
      cases h
      exact ⟨rfl, .inr (reusable?_eq_some.1 hreusable).1⟩
    · split at h <;> cases h

theorem gives_endAttempt {i : Nat} {reply : DialReply} (h : p.endAttempt i reply = (.ok l, q)) :
    p.Gives l q := by
  cases reply with
  | connected link =>
    cases hc : p.closed with
    | true =>
      rw [endAttempt_connected_of_closed hc] at h
      cases h
    | false =>
      rw [endAttempt_connected_of_open hc] at h
      cases h
      exact ⟨rfl, .inl rfl⟩
  | failed e | expired => cases h

end Pool

theorem Search.gives_attempt {q : Search} {p p' : Pool} {l : Lease}
    (h : q.attempt p = (.resting (.ended (.ok l)), p')) : p.Gives l p' := by
  rw [attempt] at h
  rcases hbegin : p.beginAttempt q.rotation q.cursor with ⟨⟨r | i, cursor⟩, p₁⟩ <;>
    rw [hbegin] at h
  · obtain ⟨hx, rfl⟩ := Prod.mk.inj h
    obtain rfl := eq_ok_of_outcome (Acquisition.resting.inj hx)
    exact Pool.gives_beginAttempt hbegin
  · cases h

theorem Acquisition.gives_start {p p' : Pool} {l : Lease}
    (h : start p = (.resting (.ended (.ok l)), p')) : p.Gives l p' := by
  rw [start] at h
  rcases hstart : p.start with ⟨r | rotation, p₁⟩ <;> rw [hstart] at h
  · cases h
    exact Pool.gives_start hstart
  · obtain ⟨hlast, husable⟩ := Search.gives_attempt h
    obtain ⟨-, -, -, rfl⟩ := Pool.start_eq_search hstart
    exact ⟨hlast, husable⟩

namespace Acquisitions

/-- Whatever an acquisition hands out is new or may be handed out. -/
theorem gives_step {a : Acquisitions} {u : Pool.Use} {l : Lease} {s : Session}
    (h : (a.party s).stop? u.event = some (.done (.ok l))) :
    a.pool.Gives l (a.step u).pool := by
  rw [stop?_party, Option.map_eq_some_iff] at h
  obtain ⟨⟨x, p⟩, hx, hdone⟩ := h
  obtain rfl := Acquisition.eq_of_task_eq_done hdone
  have hpool : (a.step u).pool = p := by rw [pool_step, hx]; rfl
  rw [hpool]
  cases u with
  | acquire => exact Acquisition.gives_start (Option.some.inj hx)
  | wake i =>
    rw [stop?] at hx
    split at hx
    · exact Search.gives_attempt (Option.some.inj hx)
    · cases hx
  | answer i reply =>
    rw [stop?] at hx
    split at hx
    · rename_i e limit q _
      obtain ⟨hr, rfl⟩ := Prod.mk.inj (Option.some.inj hx)
      have hok := Search.eq_ok_of_outcome (Acquisition.resting.inj hr)
      exact Pool.gives_endAttempt (Prod.ext hok rfl)
    · cases hx
  | abandon | release | invalidate | turn | close => cases hx

end Acquisitions

/-! ## One acquisition among others -/

/-- An acquisition goes on over a pool: its pause is over, or it is told what came of its dial. -/
inductive Acquisition.GoesOn (p : Pool) :
    Option Network.Told → Acquisition → Acquisition × Pool → Prop where
  | wake (delay : Millis) (q : Search) :
    GoesOn p none (.resting (.pausing delay q)) (q.attempt p)
  | answer (e : Nat) (limit : Millis) (q : Search) (reply : DialReply) :
    GoesOn p (some ⟨.dial e limit, reply⟩) (.dialing e limit q) (q.answer e reply p)

namespace Acquisitions

variable {s : Session} {a : Acquisitions} {later : List Pool.Use} {u : Pool.Use}
  {x : Acquisition} {i j : Nat}

theorem length_le_step : a.members.length ≤ (a.step u).members.length := by
  cases u with
  | acquire => simp [step]
  | wake j | answer j reply =>
    rw [step]
    cases a.stop? _ <;> simp [resume]
  | abandon j =>
    rw [step]
    split <;> simp
  | release | invalidate | turn | close => exact Nat.le_refl _

theorem member?_set_ne (h : j ≠ i) {p : Pool} {o : Option Acquisition} :
    member? { pool := p, members := a.members.set j o } i = a.member? i := by
  rw [member?, List.getElem?_set_ne h, member?]

theorem goes?_acquire_party (s : Session) (a : Acquisitions) :
    (a.party s).goes? Pool.Use.acquire.event = some a.members.length := by
  simp [Party.goes?, Pool.Use.event, party]

/-- What a use does to the acquisition of a number: nothing, or it is dropped, or it goes on. -/
theorem member?_of_step (s : Session) (hi : i < a.members.length) (u : Pool.Use) :
    (a.party s).stopOf? i u.event = none ∧ ((a.step u).member? i = a.member? i ∨
      u = .abandon i ∧ (a.step u).member? i = none) ∨
    ∃ x y, a.member? i = some x ∧ x.GoesOn a.pool (a.told? u) (y, (a.step u).pool) ∧
      (a.party s).stopOf? i u.event = some y.task ∧ (a.step u).member? i = some y := by
  -- A use at another place.
  have hother : ∀ j, j ≠ i → a.step u = ((a.stop? u).map (a.resume j)).getD a →
      (a.party s).goes? u.event = some j →
      (a.party s).stopOf? i u.event = none ∧ (a.step u).member? i = a.member? i := by
    intro j hj hstep hgoes
    refine ⟨?_, ?_⟩
    · rw [Party.stopOf?, hgoes, if_neg (by simpa using hj)]
    · rw [hstep]
      cases a.stop? u with
      | none => rfl
      | some r => exact member?_set_ne hj
  -- A use at this place.
  have hown : a.step u = ((a.stop? u).map (a.resume i)).getD a →
      (a.party s).goes? u.event = some i →
      (∀ r, a.stop? u = some r → ∃ x, a.member? i = some x ∧ x.GoesOn a.pool (a.told? u) r) →
      (a.party s).stopOf? i u.event = none ∧ (a.step u).member? i = a.member? i ∨
      ∃ x y, a.member? i = some x ∧ x.GoesOn a.pool (a.told? u) (y, (a.step u).pool) ∧
        (a.party s).stopOf? i u.event = some y.task ∧ (a.step u).member? i = some y := by
    intro hstep hgoes hon
    rw [Party.stopOf?, if_pos hgoes, stop?_party, hstep]
    cases hr : a.stop? u with
    | none => exact .inl ⟨rfl, rfl⟩
    | some r =>
      obtain ⟨x, hx, hgo⟩ := hon r hr
      exact .inr ⟨x, r.1, hx, hgo, rfl, member?_resume hx r⟩
  cases u with
  | acquire =>
    refine .inl ⟨?_, .inl ?_⟩
    · rw [Party.stopOf?, goes?_acquire_party, if_neg (by simp; omega)]
    · rw [member?, step, List.getElem?_append_left hi, member?]
  | wake j =>
    by_cases hj : j = i
    · subst hj
      refine (hown rfl rfl ?_).imp_left (And.imp_right .inl)
      intro r hr
      rw [stop?] at hr
      split at hr
      · rename_i delay q hx
        cases hr
        exact ⟨_, hx, .wake delay q⟩
      · cases hr
    · exact .inl ((hother j hj rfl rfl).imp_right .inl)
  | answer j reply =>
    by_cases hj : j = i
    · subst hj
      refine (hown rfl rfl ?_).imp_left (And.imp_right .inl)
      intro r hr
      rw [stop?] at hr
      split at hr
      · rename_i e limit q hx
        cases hr
        refine ⟨_, hx, ?_⟩
        rw [told?, hx]
        exact .answer e limit q _
      · cases hr
    · exact .inl ((hother j hj rfl rfl).imp_right .inl)
  | abandon j =>
    refine .inl ⟨rfl, ?_⟩
    rw [step]
    split
    · by_cases hj : j = i
      · subst hj
        refine .inr ⟨rfl, ?_⟩
        rw [member?, List.getElem?_set_self hi]
        rfl
      · exact .inl (member?_set_ne hj)
    · exact .inl rfl
  | release | invalidate | turn | close => exact .inl ⟨rfl, .inl rfl⟩

/-- The stops of the acquisition that begins next. -/
def life (s : Session) (a : Acquisitions) (later : List Pool.Use) :
    List (Program (Except ClientError Lease)) :=
  (a.party s).stops a.members.length ((.acquire :: later).map Pool.Use.event)

/-- The acquisition that begins next stands at `x` after some more uses, unless it was dropped. -/
structure Stands (s : Session) (a : Acquisitions) (later : List Pool.Use) (x : Acquisition) :
    Prop where
  last : (a.life s later).getLast? = some x.task
  begun : a.members.length < (a.run (.acquire :: later)).members.length
  member : (a.run (.acquire :: later)).member? a.members.length = some x ∨
    .abandon a.members.length ∈ later ∧
      (a.run (.acquire :: later)).member? a.members.length = none

theorem life_nil (s : Session) (a : Acquisitions) :
    a.life s [] = [(Acquisition.start a.pool).1.task] := by
  rw [life, List.map_singleton, Party.stops, Party.stopOf?, if_pos (goes?_acquire_party s a),
    stop?_party]
  rfl

theorem stands_nil (s : Session) (a : Acquisitions) :
    Stands s a [] (Acquisition.start a.pool).1 where
  last := by rw [life_nil]; rfl
  begun := by simp [run, step]
  member := by simp [run, step, member?]

theorem life_concat (s : Session) (a : Acquisitions) (later : List Pool.Use) (u : Pool.Use) :
    a.life s (later ++ [u]) = a.life s later ++
      (((a.run (.acquire :: later)).party s).stopOf? a.members.length u.event).toList := by
  rw [life, ← List.cons_append, List.map_append, List.map_singleton, Party.stops_concat, run_party,
    life]

/-- At each use an acquisition stays where it stands, or goes on from there. -/
theorem Stands.concat (h : Stands s a later x) (u : Pool.Use) :
    Stands s a (later ++ [u]) x ∧ a.life s (later ++ [u]) = a.life s later ∨
    ∃ y, x.GoesOn (a.run (.acquire :: later)).pool ((a.run (.acquire :: later)).told? u)
        (y, (a.run (.acquire :: (later ++ [u]))).pool) ∧
      Stands s a (later ++ [u]) y ∧ a.life s (later ++ [u]) = a.life s later ++ [y.task] := by
  have hrun : a.run (.acquire :: (later ++ [u])) = (a.run (.acquire :: later)).step u := by
    rw [← List.cons_append, run_concat]
  have hbegun := Nat.lt_of_lt_of_le h.begun (length_le_step (u := u))
  rw [← hrun] at hbegun
  rcases member?_of_step s h.begun u with ⟨hstop, hmember⟩ | ⟨x', y, hx', hgo, hstop, hy⟩
  · have hlife : a.life s (later ++ [u]) = a.life s later := by
      rw [life_concat, hstop, Option.toList_none, List.append_nil]
    refine .inl ⟨⟨hlife ▸ h.last, hbegun, ?_⟩, hlife⟩
    rw [hrun]
    rcases hmember with hmember | ⟨rfl, hnone⟩
    · rw [hmember]
      exact h.member.imp_right (And.imp_left (List.mem_append_left _))
    · exact .inr ⟨List.mem_append_right _ List.mem_cons_self, hnone⟩
  · have hlife : a.life s (later ++ [u]) = a.life s later ++ [y.task] := by
      rw [life_concat, hstop, Option.toList_some]
    have hx : x' = x := by
      rcases h.member with hx | ⟨-, hnone⟩
      · exact Option.some.inj (hx'.symm.trans hx)
      · rw [hnone] at hx'
        cases hx'
    subst hx
    refine .inr ⟨y, hrun ▸ hgo, ⟨?_, hbegun, .inl (hrun ▸ hy)⟩, hlife⟩
    rw [hlife, List.getLast?_concat]

end Acquisitions

end LedgerClient
