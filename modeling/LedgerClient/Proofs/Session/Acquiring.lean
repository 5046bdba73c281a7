import LedgerClient.Proofs.Pool.Slots
import LedgerClient.Proofs.Task.Alone
import LedgerClient.Session.Acquire
import Mathlib.Data.List.Perm.Subperm

/-!
# What one acquisition comes to

An acquisition that runs on its own takes a channel that may be handed out if there is one.
Otherwise it dials the enabled endpoints in the order of its rotation, as far as its budget goes,
and hands out a new channel to the first that accepts.
-/

namespace LedgerClient

open Rpc Time Transport

variable {answer : (r : NetworkRequest) → Network.Answer r} {limit : Millis}
  {n i k cursor : Nat} {pushed rotation : List Nat} {p : Pool} {s : Session}

/-- What comes of a dial to an endpoint. -/
def dialed (answer : (r : NetworkRequest) → Network.Answer r) (limit : Millis) (i : Nat) :
    DialReply :=
  answer (.dial i limit)

/-- The endpoint accepts a dial. -/
def Accepts (answer : (r : NetworkRequest) → Network.Answer r) (limit : Millis) (i : Nat) : Prop :=
  ∃ link, dialed answer limit i = .connected link

namespace Pool

/-! ## Pools in which no channel may be handed out -/

theorem usable?_eq_some : p.usable? i = some k ↔ p.slot? i = some k ∧ p.isUsable k = true := by
  rw [usable?, Option.filter_eq_some_iff]

/-- What is done to a channel that makes none usable makes no channel usable. -/
theorem isUsable_alter {f : Channel → Channel}
    (hf : ∀ c, (f c).state.isUsable = true → c.state.isUsable = true) {m : Nat}
    (h : (p.alter k f).isUsable m = true) : p.isUsable m = true := by
  unfold alter at h
  split at h
  · exact h
  · rename_i c hc
    unfold isUsable at h ⊢
    dsimp only at h
    rw [List.getElem?_set] at h
    split at h
    · rename_i hkm
      subst hkm
      split at h
      · rw [hc]
        exact hf c h
      · cases h
    · exact h

theorem isUsable_closeChannel {m : Nat} (h : (p.closeChannel k).2.isUsable m = true) :
    p.isUsable m = true :=
  isUsable_alter (f := fun c => c.close.2) nofun h

theorem usable?_vacate {j : Nat} (h : (p.vacate i).usable? j = some k) : p.usable? j = some k := by
  unfold vacate at h
  split at h
  · exact h
  · rename_i m hm
    rw [usable?_eq_some] at h ⊢
    obtain ⟨hslot, husable⟩ := h
    have husable := isUsable_closeChannel husable
    refine ⟨?_, husable⟩
    rw [slot?, closeChannel_slots, join_set (lt_of_slot hm)] at hslot
    split at hslot
    · cases hslot
    · exact hslot

/-- The pool is open, and no channel of a rotation may be handed out. -/
structure Barren (rotation : List Nat) (p : Pool) : Prop where
  is_open : p.closed = false
  unusable : ∀ i ∈ rotation, p.usable? i = none

theorem reusable?_eq_none : p.reusable? rotation = none ↔ ∀ i ∈ rotation, p.usable? i = none := by
  simp [reusable?, List.findSome?_eq_none_iff]

theorem Barren.beginAttempt (h : p.Barren rotation) (cursor : Nat) :
    p.beginAttempt rotation cursor =
      match p.nextEnabled rotation cursor rotation.length with
      | (none, cursor) => ((.ended (.error (.config "every endpoint is disabled")), cursor), p)
      | (some i, cursor) => ((.dial i, cursor), p.vacate i) := by
  rw [Pool.beginAttempt, h.is_open, reusable?_eq_none.2 h.unusable]
  rfl

@[simp] theorem vacate_dialTimeout : (p.vacate i).dialTimeout = p.dialTimeout := by
  unfold vacate closeChannel alter
  split
  · rfl
  · dsimp only
    split <;> rfl

@[simp] theorem vacate_disabled : (p.vacate i).disabled = p.disabled := by
  unfold vacate
  split
  · rfl
  · exact closeChannel_disabled

@[simp] theorem vacate_closed : (p.vacate i).closed = p.closed := by
  unfold vacate
  split
  · rfl
  · exact closeChannel_closed

@[simp] theorem vacate_size : (p.vacate i).size = p.size := by
  unfold vacate
  split
  · rfl
  · exact closeChannel_size

@[simp] theorem vacate_channels_length : (p.vacate i).channels.length = p.channels.length := by
  rw [← owners_length, ← owners_length]
  unfold vacate
  split
  · rfl
  · rw [closeChannel_owners]
    rfl

/-! ## A dial that fails -/

/-- What a failed dial leaves of a pool. -/
structure Refused (i : Nat) (p q : Pool) : Prop where
  closed_eq : q.closed = p.closed
  channels_eq : q.channels = p.channels
  slots_eq : q.slots = p.slots
  dialTimeout_eq : q.dialTimeout = p.dialTimeout
  mem_disabled : ∀ j ∈ q.disabled, j ∈ p.disabled ∨ j = i
  disabled_subset : ∀ j ∈ p.disabled, j ∈ q.disabled

theorem refused_failDial (e : DialError) :
    Refused i p (p.failDial i e).2 ∧
      ((p.failDial i e).1.retryable = true ∨ (p.failDial i e).2.disabled.length = p.size) := by
  have hdisable : Refused i p (p.disable i) := by
    unfold disable
    split
    · exact ⟨rfl, rfl, rfl, rfl, fun _ => .inl, fun _ h => h⟩
    · refine ⟨rfl, rfl, rfl, rfl, fun j hj => ?_, fun _ h => List.mem_append_left _ h⟩
      simpa using hj
  have hsize : (p.disable i).size = p.size := by
    unfold disable
    split <;> rfl
  unfold failDial
  split
  · dsimp only
    split
    · rename_i hall
      exact ⟨hdisable, .inr (hall.trans hsize)⟩
    · exact ⟨hdisable, .inl rfl⟩
  · exact ⟨⟨rfl, rfl, rfl, rfl, fun _ => .inl, fun _ h => h⟩, .inl rfl⟩

/-- A dial that is not accepted makes its attempt fail.  The attempt may be repeated unless every
endpoint is disabled. -/
theorem endAttempt_refused {reply : DialReply} (hreply : ∀ link, reply ≠ .connected link) :
    ∃ e, (p.endAttempt i reply).1 = .error e ∧ Refused i p (p.endAttempt i reply).2 ∧
      (e.retryable = true ∨ (p.endAttempt i reply).2.disabled.length = p.size) := by
  cases reply with
  | connected link => exact absurd rfl (hreply link)
  | failed e => exact ⟨_, rfl, refused_failDial e⟩
  | expired => exact ⟨_, rfl, refused_failDial (.timeout (p.address i) p.dialTimeout)⟩

theorem Barren.refused (h : p.Barren rotation) {q : Pool} (hq : Refused i (p.vacate i) q) :
    q.Barren rotation where
  is_open := by rw [hq.closed_eq, vacate_closed, h.is_open]
  unusable := by
    intro j hj
    rw [Option.eq_none_iff_forall_ne_some]
    intro k hk
    rw [usable?_eq_some, slot?, isUsable, hq.slots_eq, hq.channels_eq] at hk
    have := usable?_vacate (usable?_eq_some.2 hk)
    rw [h.unusable j hj] at this
    cases this

/-! ## The next endpoint -/

/-- The endpoints of a rotation that are not disabled. -/
def enabled (p : Pool) (rotation : List Nat) : List Nat := rotation.filter fun i => i ∉ p.disabled

theorem mem_enabled : i ∈ p.enabled rotation ↔ i ∈ rotation ∧ i ∉ p.disabled := by
  simp [enabled]

/-- As long as the cursor has not passed the end, it finds the first enabled endpoint behind it. -/
theorem nextEnabled_eq {rest : List Nat} (looks : Nat) (hcursor : cursor ≤ rotation.length)
    (hlooks : rotation.length - cursor ≤ looks)
    (h : p.enabled (rotation.drop cursor) = i :: rest) :
    ∃ next ≤ rotation.length, p.nextEnabled rotation cursor looks = (some i, next) ∧
      p.enabled (rotation.drop next) = rest ∧
      ∀ j ∈ rotation.take next, j ∈ rotation.take cursor ∨ j ∈ p.disabled ∨ j = i := by
  induction looks generalizing cursor with
  | zero =>
    rw [List.drop_eq_nil_of_le (by omega)] at h
    cases h
  | succ looks ih =>
    by_cases hlt : cursor < rotation.length
    · rw [List.drop_eq_getElem_cons hlt] at h
      rw [nextEnabled, Nat.mod_eq_of_lt hlt, List.getElem?_eq_getElem hlt]
      dsimp only
      have htake : ∀ j ∈ rotation.take (cursor + 1),
          j ∈ rotation.take cursor ∨ j = rotation[cursor] := by
        intro j hj
        rw [List.take_succ_eq_append_getElem hlt, List.mem_append, List.mem_singleton] at hj
        exact hj
      by_cases hdisabled : rotation[cursor] ∈ p.disabled
      · rw [if_pos (List.contains_iff_mem.2 hdisabled)]
        rw [enabled, List.filter_cons_of_neg (by simpa using hdisabled)] at h
        obtain ⟨next, hle, hnext, hrest, hseen⟩ := ih hlt (by omega) h
        refine ⟨next, hle, hnext, hrest, fun j hj => ?_⟩
        rcases hseen j hj with hj | hj
        · rcases htake j hj with hj | rfl
          · exact .inl hj
          · exact .inr (.inl hdisabled)
        · exact .inr hj
      · rw [if_neg (fun hc => hdisabled (List.contains_iff_mem.1 hc))]
        rw [enabled, List.filter_cons_of_pos (by simpa using hdisabled)] at h
        obtain ⟨rfl, rfl⟩ := List.cons.inj h
        refine ⟨cursor + 1, hlt, rfl, rfl, fun j hj => ?_⟩
        rcases htake j hj with hj | rfl
        · exact .inl hj
        · exact .inr (.inr rfl)
    · rw [List.drop_eq_nil_of_le (by omega)] at h
      cases h

end Pool

/-! ## A search on its own -/

theorem alone_attempt (rotation : List Nat) (cursor : Nat) (s : Session) :
    (attempt rotation cursor).alone answer s =
      match s.pool.beginAttempt rotation cursor with
      | ((.ended r, next), p) => (.ok (r, next), { s with pool := p })
      | ((.dial i, next), p) =>
        (.ok ((p.endAttempt i (dialed answer p.dialTimeout i)).1, next),
          { s with pool := (p.endAttempt i (dialed answer p.dialTimeout i)).2 }) := by
  have hstep : ∀ f : Pool.Attempt × Nat → Program (Except ClientError Lease × Nat),
      ((Task.transition (Session.onPool (Pool.beginAttempt rotation cursor))).bind f).alone
          answer s =
        (f (s.pool.beginAttempt rotation cursor).1).alone answer
          { s with pool := (s.pool.beginAttempt rotation cursor).2 } := fun f => rfl
  rw [attempt, hstep]
  rcases s.pool.beginAttempt rotation cursor with ⟨⟨r | i, next⟩, p⟩ <;> rfl

variable (answer) in
theorem alone_attempt_dial (h : s.pool.Barren rotation) {next : Nat}
    (hnext : s.pool.nextEnabled rotation cursor rotation.length = (some i, next)) :
    (attempt rotation cursor).alone answer s =
      (.ok (((s.pool.vacate i).endAttempt i (dialed answer s.pool.dialTimeout i)).1, next),
        { s with
          pool := ((s.pool.vacate i).endAttempt i (dialed answer s.pool.dialTimeout i)).2 }) := by
  rw [alone_attempt, h.beginAttempt, hnext]
  dsimp only
  rw [Pool.vacate_dialTimeout]

theorem alone_attempt_idle (h : s.pool.Barren rotation) {next : Nat}
    (hnext : s.pool.nextEnabled rotation cursor rotation.length = (none, next)) :
    (attempt rotation cursor).alone answer s =
      (.ok (.error (.config "every endpoint is disabled"), next), s) := by
  rw [alone_attempt, h.beginAttempt, hnext]

/-- A dial that is not accepted leaves a search where it was, but for its endpoint. -/
theorem alone_attempt_refused (h : s.pool.Barren rotation) {next : Nat}
    (hnext : s.pool.nextEnabled rotation cursor rotation.length = (some i, next))
    (hrefused : ¬ Accepts answer s.pool.dialTimeout i) :
    ∃ e q, (attempt rotation cursor).alone answer s =
        (.ok (.error e, next), { s with pool := q }) ∧
      Pool.Refused i (s.pool.vacate i) q ∧ q.Barren rotation ∧
      (∀ n pushed, Pool.Accounted n pushed s.pool → i < n → Pool.Accounted n pushed q) ∧
      (e.retryable = true ∨ q.disabled.length = s.pool.size) := by
  have hattempt := alone_attempt_dial answer h hnext
  generalize hreply : dialed answer s.pool.dialTimeout i = reply at hattempt
  have hreply : ∀ link, reply ≠ .connected link := fun link hlink =>
    hrefused ⟨link, hreply.trans hlink⟩
  obtain ⟨e, he, hq, hretry⟩ := Pool.endAttempt_refused (i := i) (p := s.pool.vacate i) hreply
  rw [he] at hattempt
  rw [Pool.vacate_size] at hretry
  refine ⟨e, _, hattempt, hq, h.refused hq, ?_, hretry⟩
  intro n pushed hacc hi
  have := (hacc.vacate i).endAttempt hi reply
  cases reply with
  | connected link => exact absurd rfl (hreply link)
  | failed e => exact this
  | expired => exact this

/-- A search fails if no enabled endpoint accepts. -/
theorem alone_search_fails (h : s.pool.Barren rotation)
    (hrefused : ∀ i ∈ s.pool.enabled rotation, ¬ Accepts answer s.pool.dialTimeout i)
    (schedule : Schedule) (made cursor retries : Nat) :
    ∃ failure s', (RetryPolicy.attemptUpTo (attempt rotation) schedule made cursor retries).alone
      answer s = (.ok (.error failure), s') := by
  induction retries generalizing s schedule made cursor with
  | zero =>
    obtain ⟨e, next, s', hattempt⟩ : ∃ e next s',
        (attempt rotation cursor).alone answer s = (.ok (.error e, next), s') := by
      rcases hnext : s.pool.nextEnabled rotation cursor rotation.length with ⟨_ | i, next⟩
      · exact ⟨_, _, _, alone_attempt_idle h hnext⟩
      · have hi := Pool.mem_of_nextEnabled (congrArg Prod.fst hnext)
        obtain ⟨e, q, hattempt, -⟩ :=
          alone_attempt_refused h hnext (hrefused i (Pool.mem_enabled.2 hi))
        exact ⟨_, _, _, hattempt⟩
    obtain ⟨failure, hfailure⟩ :=
      RetryPolicy.alone_attemptUpTo_last hattempt (.inr rfl) schedule made
    exact ⟨failure, _, hfailure⟩
  | succ retries ih =>
    rcases hnext : s.pool.nextEnabled rotation cursor rotation.length with ⟨_ | i, next⟩
    · obtain ⟨failure, hfailure⟩ := RetryPolicy.alone_attemptUpTo_last
        (alone_attempt_idle h hnext) (.inl rfl) schedule made
      exact ⟨failure, _, hfailure⟩
    · have hi := Pool.mem_of_nextEnabled (congrArg Prod.fst hnext)
      obtain ⟨e, q, hattempt, hq, hbarren, -, -⟩ :=
        alone_attempt_refused h hnext (hrefused i (Pool.mem_enabled.2 hi))
      by_cases he : e.retryable = true
      · rw [RetryPolicy.alone_attemptUpTo_retry hattempt he]
        refine ih (s := { s with pool := q }) hbarren (fun j hj => ?_) _ _ _
        obtain ⟨hj, henabled⟩ := Pool.mem_enabled.1 hj
        show ¬ Accepts answer q.dialTimeout j
        rw [hq.dialTimeout_eq, Pool.vacate_dialTimeout]
        refine hrefused j (Pool.mem_enabled.2 ⟨hj, fun hdisabled => henabled ?_⟩)
        exact hq.disabled_subset j (by rwa [Pool.vacate_disabled])
      · obtain ⟨failure, hfailure⟩ := RetryPolicy.alone_attemptUpTo_last hattempt
          (.inl (by simpa using he)) schedule made
        exact ⟨failure, _, hfailure⟩

/-- A dial that is accepted ends a search with a new channel. -/
theorem alone_attempt_accepted (h : s.pool.Barren rotation) {next : Nat}
    (hnext : s.pool.nextEnabled rotation cursor rotation.length = (some i, next))
    (haccepts : Accepts answer s.pool.dialTimeout i) :
    ∃ l s', (attempt rotation cursor).alone answer s = (.ok (.ok l, next), s') ∧
      l.channel = s.pool.channels.length := by
  obtain ⟨link, hlink⟩ := haccepts
  have hkeep : ∀ q : Pool, q.closed = false →
      ∃ l, (q.endAttempt i (.connected link)).1 = .ok l ∧ l.channel = q.channels.length := by
    intro q hq
    refine ⟨⟨i, q.address i, q.channels.length⟩, ?_, rfl⟩
    rw [Pool.endAttempt, Pool.keep, hq]
    rfl
  obtain ⟨l, hl, hchannel⟩ := hkeep (s.pool.vacate i) (by rw [Pool.vacate_closed, h.is_open])
  rw [alone_attempt_dial answer h hnext, hlink, hl]
  exact ⟨l, _, rfl, by rw [hchannel, Pool.vacate_channels_length]⟩

/-- If every endpoint is disabled, no entry of a rotation is enabled. -/
theorem Pool.Accounted.enabled_eq_nil (h : Pool.Accounted n pushed p)
    (hall : p.disabled.length = n) (hlt : ∀ i ∈ rotation, i < n) : p.enabled rotation = [] := by
  rw [List.eq_nil_iff_forall_not_mem]
  intro j hj
  obtain ⟨hj, hfresh⟩ := Pool.mem_enabled.1 hj
  have hsub : (j :: p.disabled).Subperm (List.range n) := by
    refine List.subperm_of_subset (List.nodup_cons.2 ⟨hfresh, h.disabled_nodup⟩) fun k hk => ?_
    rw [List.mem_range]
    rcases List.mem_cons.1 hk with rfl | hk
    · exact hlt k hj
    · exact h.disabled_lt k hk
  have := hsub.length_le
  rw [List.length_cons, List.length_range, hall] at this
  omega

/-- A refused dial takes its endpoint, and no other, off what is still to be tried. -/
theorem Pool.Refused.enabled_drop {q : Pool} {next : Nat} {rest : List Nat}
    (hq : Pool.Refused i (p.vacate i) q) (hnodup : rotation.Nodup)
    (h : p.enabled (rotation.drop cursor) = i :: rest)
    (hrest : p.enabled (rotation.drop next) = rest) : q.enabled (rotation.drop next) = rest := by
  have hi : i ∉ rest := by
    have : (p.enabled (rotation.drop cursor)).Nodup :=
      (hnodup.sublist (List.drop_sublist _ _)).sublist List.filter_sublist
    rw [h] at this
    exact (List.nodup_cons.1 this).1
  rw [← hrest]
  refine List.filter_congr fun j hj => ?_
  rw [decide_eq_decide, not_iff_not]
  constructor
  · intro hjq
    rcases hq.mem_disabled j hjq with hjp | rfl
    · rwa [Pool.vacate_disabled] at hjp
    · by_contra hjp
      exact hi (hrest ▸ Pool.mem_enabled.2 ⟨hj, hjp⟩)
  · intro hjp
    exact hq.disabled_subset j (by rwa [Pool.vacate_disabled])

/-- What holds of the endpoints tried holds of all that are enabled, if none is left to try. -/
theorem Pool.forall_enabled_of_drop {P : Nat → Prop}
    (hseen : ∀ i ∈ rotation.take cursor, i ∉ p.disabled → P i)
    (hrest : p.enabled (rotation.drop cursor) = []) : ∀ i ∈ p.enabled rotation, P i := by
  intro i hi
  obtain ⟨hi, henabled⟩ := Pool.mem_enabled.1 hi
  rw [← List.take_append_drop cursor rotation, List.mem_append] at hi
  rcases hi with hi | hi
  · exact hseen i hi henabled
  · have := Pool.mem_enabled.2 ⟨hi, henabled⟩
    rw [hrest] at this
    cases this

/-- What holds of the endpoints tried before and of the one refused holds of all tried. -/
theorem Pool.Refused.forall_seen {q : Pool} {next : Nat} {P : Nat → Prop}
    (hq : Pool.Refused i (p.vacate i) q)
    (htake : ∀ j ∈ rotation.take next, j ∈ rotation.take cursor ∨ j ∈ p.disabled ∨ j = i)
    (hseen : ∀ j ∈ rotation.take cursor, j ∉ p.disabled → P j) (hi : P i) :
    ∀ j ∈ rotation.take next, j ∉ q.disabled → P j := by
  intro j hj hfresh
  have hfresh : j ∉ p.disabled := fun hdisabled =>
    hfresh (hq.disabled_subset j (by rwa [Pool.vacate_disabled]))
  rcases htake j hj with hj | hj | rfl
  · exact hseen j hj hfresh
  · exact absurd hj hfresh
  · exact hi

/-- A search succeeds if and only if one of the enabled endpoints that its budget reaches accepts.
The channel that it hands out is new. -/
theorem alone_search (hacc : Pool.Accounted n pushed s.pool) (hnodup : rotation.Nodup)
    (hlt : ∀ i ∈ rotation, i < n) (h : s.pool.Barren rotation) (hcursor : cursor ≤ rotation.length)
    (hseen : ∀ i ∈ rotation.take cursor, i ∉ s.pool.disabled →
      ¬ Accepts answer s.pool.dialTimeout i)
    (schedule : Schedule) (made retries : Nat) :
    ∃ r s', (RetryPolicy.attemptUpTo (attempt rotation) schedule made cursor retries).alone
        answer s = (.ok r, s') ∧
      ((∃ l, r = .ok l) ↔ ∃ i ∈ (s.pool.enabled (rotation.drop cursor)).take (retries + 1),
        Accepts answer s.pool.dialTimeout i) ∧
      ∀ l, r = .ok l → l.channel = s.pool.channels.length := by
  induction retries using Nat.strongRecOn generalizing s schedule made cursor with
  | ind retries ih =>
    rcases hrest : s.pool.enabled (rotation.drop cursor) with _ | ⟨i, rest⟩
    · -- All that is enabled has been tried.
      have hrefused : ∀ i ∈ s.pool.enabled rotation, ¬ Accepts answer s.pool.dialTimeout i :=
        Pool.forall_enabled_of_drop hseen hrest
      obtain ⟨failure, s', hfails⟩ := alone_search_fails h hrefused schedule made cursor retries
      exact ⟨_, s', hfails, by simp, nofun⟩
    · obtain ⟨next, hnext_le, hnext, hdrop, htake⟩ :=
        Pool.nextEnabled_eq rotation.length hcursor (Nat.sub_le _ _) hrest
      have hi := Pool.mem_of_nextEnabled (congrArg Prod.fst hnext)
      by_cases haccepts : Accepts answer s.pool.dialTimeout i
      · obtain ⟨l, s', hattempt, hchannel⟩ := alone_attempt_accepted h hnext haccepts
        refine ⟨.ok l, s', RetryPolicy.alone_attemptUpTo_ok hattempt schedule made retries, ?_, ?_⟩
        · exact ⟨fun _ => ⟨i, List.mem_cons_self, haccepts⟩, fun _ => ⟨l, rfl⟩⟩
        · rintro _ ⟨⟩
          exact hchannel
      · obtain ⟨e, q, hattempt, hq, hbarren, hkeep, hretry⟩ :=
          alone_attempt_refused h hnext haccepts
        have hqacc := hkeep n pushed hacc (hlt i hi.1)
        have hqdrop : q.enabled (rotation.drop next) = rest := hq.enabled_drop hnodup hrest hdrop
        have hqlimit : q.dialTimeout = s.pool.dialTimeout := by
          rw [hq.dialTimeout_eq, Pool.vacate_dialTimeout]
        by_cases hlast : e.retryable = false ∨ retries = 0
        · obtain ⟨failure, hfails⟩ :=
            RetryPolicy.alone_attemptUpTo_last hattempt hlast schedule made
          refine ⟨_, _, hfails, ?_, nofun⟩
          have hnone : (i :: rest).take (retries + 1) = [i] := by
            rcases hlast with he | rfl
            · have hall := hretry.resolve_left (by simp [he])
              rw [hacc.size_eq] at hall
              have : rest = [] := hqdrop ▸ hqacc.enabled_eq_nil hall fun j hj =>
                hlt j (List.mem_of_mem_drop hj)
              rw [this]
              simp
            · rfl
          rw [hnone]
          simpa using haccepts
        · obtain ⟨he, hretries⟩ := not_or.1 hlast
          obtain ⟨retries, rfl⟩ := Nat.exists_eq_succ_of_ne_zero hretries
          rw [RetryPolicy.alone_attemptUpTo_retry hattempt (by simpa using he)]
          have hqseen : ∀ j ∈ rotation.take next, j ∉ q.disabled →
              ¬ Accepts answer q.dialTimeout j := by
            rw [hqlimit]
            exact hq.forall_seen htake hseen haccepts
          obtain ⟨r, s', hrun, hiff, hchannel⟩ :=
            ih retries (Nat.lt_succ_self _) (s := { s with pool := q }) hqacc hbarren hnext_le
              hqseen schedule.next (made + 1)
          refine ⟨r, s', hrun, hiff.trans ?_, fun l hl => (hchannel l hl).trans ?_⟩
          · show (∃ j ∈ (q.enabled (rotation.drop next)).take (retries + 1),
              Accepts answer q.dialTimeout j) ↔ _
            rw [hqdrop, hqlimit, List.take_succ_cons, List.exists_mem_cons_iff]
            exact (or_iff_right haccepts).symm
          · show q.channels.length = _
            rw [hq.channels_eq, Pool.vacate_channels_length]

/-! ## An acquisition on its own -/

/-- The endpoint and the channel that an acquisition takes without a dial. -/
def Pool.reused? (p : Pool) : Option (Nat × Nat) :=
  p.recent?.or (p.reusable? p.drawRotation.1)

theorem Pool.drawRotation_snd : p.drawRotation.2 = { p with rotations := p.rotations.tail } := by
  unfold drawRotation
  cases hp : p.rotations with
  | nil =>
    cases p
    dsimp only at hp
    rw [hp]
    rfl
  | cons r rest => rfl

theorem alone_acquire (s : Session) :
    acquire.alone answer s =
      match s.pool.start with
      | (.ended r, p) => (.ok r, { s with pool := p })
      | (.search rotation, p) => (search rotation).alone answer { s with pool := p } := by
  have hstep : ∀ f : Pool.Start → Program (Except ClientError Lease),
      ((Task.transition (Session.onPool Pool.start)).bind f).alone answer s =
        (f s.pool.start.1).alone answer { s with pool := s.pool.start.2 } := fun f => rfl
  rw [acquire, hstep]
  rcases s.pool.start with ⟨r | rotation, p⟩ <;> rfl

theorem alone_search_eq {r : Except RetryFailure Lease} {s' : Session}
    (h : (RetryPolicy.attemptUpTo (attempt rotation) s.pool.policy.backoff.start 0 0
      (s.pool.policy.maxAttempts - 1)).alone answer s = (.ok r, s')) :
    (search rotation).alone answer s = (.ok (r.mapError Pool.searchError), s') := by
  refine (Task.alone_bind_ok h _).trans ?_
  cases r <;> rfl

variable (answer) in
/-- An acquisition takes a channel that may be handed out, if there is one. -/
theorem alone_acquire_reused (hopen : s.pool.closed = false)
    (h : s.pool.reused? = some (i, k)) :
    ∃ s', acquire.alone answer s = (.ok (.ok ⟨i, s.pool.address i, k⟩), s') := by
  rw [alone_acquire, Pool.start, hopen]
  rw [Pool.reused?] at h
  cases hrecent : s.pool.recent? with
  | some e =>
    rw [hrecent] at h
    cases h
    exact ⟨_, rfl⟩
  | none =>
    rw [hrecent, Option.none_or] at h
    have hattempt : ∃ s', (attempt s.pool.drawRotation.1 0).alone answer
        { s with pool := s.pool.drawRotation.2 } =
          (.ok (.ok ⟨i, s.pool.address i, k⟩, 0), s') := by
      have hreuse : Pool.reusable? { s.pool with rotations := s.pool.rotations.tail }
          s.pool.drawRotation.1 = some (i, k) := h
      rw [alone_attempt, Pool.drawRotation_snd, Pool.beginAttempt, hreuse, if_neg (by simp [hopen])]
      exact ⟨_, rfl⟩
    obtain ⟨s', hs'⟩ := hattempt
    exact ⟨s', alone_search_eq (RetryPolicy.alone_attemptUpTo_ok hs' _ _ _)⟩

variable (answer) in
/-- An acquisition that finds no channel succeeds if and only if one of the enabled endpoints that
its budget reaches accepts.  It hands out a new channel. -/
theorem alone_acquire_dialed (hacc : Pool.Accounted n pushed s.pool)
    (hopen : s.pool.closed = false) (h : s.pool.reused? = none) :
    ∃ r s', acquire.alone answer s = (.ok r, s') ∧
      ((∃ l, r = .ok l) ↔
        ∃ i ∈ (s.pool.enabled s.pool.drawRotation.1).take (max 1 s.pool.policy.maxAttempts),
          Accepts answer s.pool.dialTimeout i) ∧
      ∀ l, r = .ok l → l.channel = s.pool.channels.length := by
  obtain ⟨hrecent, hreuse⟩ := Option.or_eq_none_iff.1 h
  have hperm := s.pool.drawRotation_perm
  have hlt : ∀ i ∈ s.pool.drawRotation.1, i < n := by
    intro i hi
    rw [hperm.mem_iff, hacc.size_eq] at hi
    exact List.mem_range.1 hi
  have hbudget : s.pool.policy.maxAttempts - 1 + 1 = max 1 s.pool.policy.maxAttempts := by omega
  obtain ⟨r, s', hrun, hiff, hchannel⟩ :=
    alone_search (s := { s with pool := { s.pool with rotations := s.pool.rotations.tail } })
      (hacc.of_eq rfl rfl rfl rfl rfl rfl) (hperm.nodup_iff.2 List.nodup_range)
      hlt ⟨hopen, Pool.reusable?_eq_none.1 hreuse⟩ (Nat.zero_le _) (by simp)
      s.pool.policy.backoff.start 0 (s.pool.policy.maxAttempts - 1)
  have hok : ∀ l, r.mapError Pool.searchError = .ok l ↔ r = .ok l := by
    intro l
    cases r <;> simp [Except.mapError]
  refine ⟨r.mapError Pool.searchError, s', ?_, ?_, fun l hl => hchannel l ((hok l).1 hl)⟩
  · have hstart : s.pool.start = (.search s.pool.drawRotation.1, s.pool.drawRotation.2) := by
      rw [Pool.start, hrecent, if_neg (by simp [hopen])]
    rw [alone_acquire, hstart, Pool.drawRotation_snd]
    exact alone_search_eq hrun
  · simp only [hok]
    rw [hiff, hbudget]
    rfl

end LedgerClient
