import LedgerClient.Proofs.Pool.Interleaving
import LedgerClient.Proofs.Task.Course
import Mathlib.Data.Int.CardIntervalMod

/-!
# A search that finds nobody

An acquisition whose dials all fail makes attempts until its budget is spent or every endpoint is
disabled.  The endpoints drop out one by one as their dials turn out to be hopeless, and the cursor
passes over those that have.  So what is dialed is the rotation, gone through again and again, less
the endpoints that have dropped out by then: `Dials` says so step by step, and
`Pool.acquire_exhausts` for the whole acquisition.
-/

namespace LedgerClient

open Rpc Settings Time Transport

/-! ## Going round -/

/-- The first `m` entries of a list that is gone through again and again. -/
def goRound (r : List Nat) (m : Nat) : List Nat :=
  (List.range m).filterMap fun k => r[k % r.length]?

section goRound

variable {r : List Nat} {i m : Nat}

theorem goRound_succ : goRound r (m + 1) = goRound r m ++ (r[m % r.length]?).toList := by
  rw [goRound, List.range_succ, List.filterMap_append]
  congr 1

theorem length_goRound (hr : r ≠ []) : (goRound r m).length = m := by
  induction m with
  | zero => rfl
  | succ m ih =>
    have hlt := Nat.mod_lt m (List.length_pos_of_ne_nil hr)
    rw [goRound_succ, List.getElem?_eq_getElem hlt, List.length_append, ih]
    rfl

theorem mem_of_mem_goRound (h : i ∈ goRound r m) : i ∈ r := by
  obtain ⟨k, -, hk⟩ := List.mem_filterMap.1 h
  exact List.mem_of_getElem? hk

/-- How often an entry comes up. -/
theorem count_goRound (hr : r.Nodup) (hi : i < r.length) :
    (goRound r m).count r[i] = m / r.length + if i < m % r.length then 1 else 0 := by
  have hpos : 0 < r.length := Nat.zero_lt_of_lt hi
  have hcount : (goRound r m).count r[i] = m.count (· ≡ i [MOD r.length]) := by
    induction m with
    | zero => rfl
    | succ m ih =>
      have hlt := Nat.mod_lt m hpos
      rw [goRound_succ, List.count_append, ih, Nat.count_succ, List.getElem?_eq_getElem hlt,
        Option.toList_some, List.count_singleton]
      congr 1
      simp only [beq_iff_eq, hr.getElem_inj_iff, Nat.ModEq, Nat.mod_eq_of_lt hi]
  rw [hcount, Nat.count_modEq_card m hpos, Nat.mod_eq_of_lt hi]

end goRound

/-! ## The next endpoint, wherever the cursor is -/

namespace Pool

variable {p : Pool} {rotation : List Nat} {i cursor next : Nat}

/-- What the cursor passes over on its way to the next endpoint is disabled. -/
theorem goRound_of_nextEnabled {looks : Nat}
    (h : p.nextEnabled rotation cursor looks = (some i, next)) :
    ∃ skipped, goRound rotation next = goRound rotation cursor ++ (skipped ++ [i]) ∧
      ∀ j ∈ skipped, j ∈ p.disabled := by
  induction looks generalizing cursor with
  | zero => cases h
  | succ looks ih =>
    rw [nextEnabled] at h
    split at h
    · cases h
    · rename_i j hj
      have hround : goRound rotation (cursor + 1) = goRound rotation cursor ++ [j] := by
        rw [goRound_succ, hj, Option.toList_some]
      split at h
      · rename_i hdisabled
        obtain ⟨skipped, hnext, hskipped⟩ := ih h
        refine ⟨j :: skipped, ?_, fun k hk => ?_⟩
        · rw [hnext, hround, List.append_assoc]
          rfl
        · rcases List.mem_cons.1 hk with rfl | hk
          · exact List.contains_iff_mem.1 hdisabled
          · exact hskipped k hk
      · cases h
        exact ⟨[], hround, by simp⟩

theorem mem_disabled_of_look {looks : Nat}
    (h : (p.nextEnabled rotation cursor looks).1 = none) {k j : Nat} (hk : k < looks)
    (hj : rotation[(cursor + k) % rotation.length]? = some j) : j ∈ p.disabled := by
  induction looks generalizing cursor k with
  | zero => cases hk
  | succ looks ih =>
    rw [nextEnabled] at h
    have hlength : 0 < rotation.length := by
      rw [List.length_pos_iff]
      rintro rfl
      cases hj
    rw [List.getElem?_eq_getElem (Nat.mod_lt _ hlength)] at h
    dsimp only at h
    split at h
    · rename_i hdisabled
      cases k with
      | zero =>
        rw [Nat.add_zero, List.getElem?_eq_getElem (Nat.mod_lt _ hlength)] at hj
        rw [← Option.some.inj hj]
        exact List.contains_iff_mem.1 hdisabled
      | succ k =>
        refine ih h (Nat.lt_of_succ_lt_succ hk) ?_
        rwa [Nat.add_assoc, Nat.add_comm 1 k]
    · cases h

/-- Only if every endpoint of a rotation is disabled is there no next one. -/
theorem mem_disabled_of_nextEnabled
    (h : (p.nextEnabled rotation cursor rotation.length).1 = none) :
    ∀ j ∈ rotation, j ∈ p.disabled := by
  intro j hj
  obtain ⟨k, hk, rfl⟩ := List.getElem_of_mem hj
  have hpos : 0 < rotation.length := Nat.zero_lt_of_lt hk
  have hcursor := Nat.mod_lt cursor hpos
  -- As many looks as the rotation has entries come by every place, wherever they begin.
  obtain ⟨m, hm, hplace⟩ : ∃ m < rotation.length, (cursor + m) % rotation.length = k := by
    refine ⟨(k + (rotation.length - cursor % rotation.length)) % rotation.length,
      Nat.mod_lt _ hpos, ?_⟩
    rw [Nat.add_mod_mod, ← Nat.mod_add_mod, Nat.add_left_comm, Nat.add_sub_cancel' hcursor.le,
      Nat.add_mod_right, Nat.mod_eq_of_lt hk]
  refine mem_disabled_of_look h hm ?_
  rw [hplace, List.getElem?_eq_getElem hk]

end Pool

/-! ## Dials that fail -/

/-- The error is permanent: its endpoint is never dialed again. -/
def DialReply.isPermanent : DialReply → Bool
  | .failed e => e.isPermanent
  | _ => false

/-- From the cursor `c` on, the endpoints of the dials `D` are dialed over `p` one after the other,
and all of the dials fail. -/
inductive Dials (rotation : List Nat) :
    Nat → Pool → List (Nat × DialReply) → Nat → Pool → Prop where
  | nil (c : Nat) (p : Pool) : Dials rotation c p [] c p
  | cons {c next c' i : Nat} {p p' : Pool} {reply : DialReply} {D : List (Nat × DialReply)}
    (hnext : p.nextEnabled rotation c rotation.length = (some i, next))
    (hreply : ∀ link, reply ≠ .connected link)
    (hrest : Dials rotation next ((p.vacate i).endAttempt i reply).2 D c' p') :
    Dials rotation c p ((i, reply) :: D) c' p'

namespace Dials

variable {rotation : List Nat} {c c' : Nat} {p p' : Pool} {D : List (Nat × DialReply)}

/-- A dial disables its endpoint if its error is permanent. -/
theorem mem_disabled_dialed {i j : Nat} {reply : DialReply} :
    j ∈ ((p.vacate i).endAttempt i reply).2.disabled ↔
      j ∈ p.disabled ∨ j = i ∧ reply.isPermanent = true := by
  rw [Pool.mem_disabled_endAttempt, Pool.vacate_disabled]
  cases reply <;> simp [DialReply.isPermanent]

/-- The endpoints that are disabled in the end are those that were, and those with a permanent
error. -/
theorem mem_disabled (h : Dials rotation c p D c' p') {j : Nat} :
    j ∈ p'.disabled ↔ j ∈ p.disabled ∨ ∃ d ∈ D, d.1 = j ∧ d.2.isPermanent = true := by
  induction h with
  | nil => simp
  | cons hnext hreply hrest ih =>
    rw [ih, mem_disabled_dialed, List.exists_mem_cons_iff, or_assoc, eq_comm]

/-- Only enabled endpoints are dialed. -/
theorem enabled (h : Dials rotation c p D c' p') : ∀ d ∈ D, d.1 ∈ rotation ∧ d.1 ∉ p.disabled := by
  induction h with
  | nil => nofun
  | cons hnext hreply hrest ih =>
    have hi := Pool.mem_of_nextEnabled (congrArg Prod.fst hnext)
    intro d hd
    rcases List.mem_cons.1 hd with rfl | hd
    · exact hi
    · obtain ⟨hd, henabled⟩ := ih d hd
      exact ⟨hd, fun hdisabled => henabled (mem_disabled_dialed.2 (.inl hdisabled))⟩

/-- An endpoint is not dialed again after a permanent error. -/
theorem pairwise (h : Dials rotation c p D c' p') :
    D.Pairwise fun d d' => d'.1 = d.1 → d.2.isPermanent = false := by
  induction h with
  | nil => exact .nil
  | @cons c next c' i p p' reply D hnext hreply hrest ih =>
    refine List.pairwise_cons.2 ⟨fun d hd hi => ?_, ih⟩
    by_contra hpermanent
    exact (hrest.enabled d hd).2
      (mem_disabled_dialed.2 (.inr ⟨hi, by simpa using hpermanent⟩))

/-- The endpoints that stay enabled are dialed in rotation. -/
theorem rotates (h : Dials rotation c p D c' p') :
    (goRound rotation c').filter (· ∉ p'.disabled) =
      (goRound rotation c).filter (· ∉ p'.disabled) ++
        (D.map Prod.fst).filter (· ∉ p'.disabled) := by
  induction h with
  | nil => simp
  | @cons c next c' i p p' reply D hnext hreply hrest ih =>
    obtain ⟨skipped, hround, hskipped⟩ := Pool.goRound_of_nextEnabled hnext
    have hnone : skipped.filter (· ∉ p'.disabled) = [] := by
      rw [List.filter_eq_nil_iff]
      intro j hj
      have := hrest.mem_disabled.2 (.inl (mem_disabled_dialed.2 (.inl (hskipped j hj))))
      simpa using this
    rw [ih, hround, List.filter_append, List.filter_append, hnone, List.nil_append,
      List.append_assoc, ← List.filter_append]
    rfl

/-- An endpoint that stays enabled is dialed as often as it comes up in the rotation. -/
theorem count_eq (h : Dials rotation 0 p D c' p') {j : Nat} (hj : j ∉ p'.disabled) :
    (D.map Prod.fst).count j = (goRound rotation c').count j := by
  have hstays : ∀ l : List Nat, (l.filter (· ∉ p'.disabled)).count j = l.count j := fun l =>
    List.count_filter (by simpa using hj)
  have hround := congrArg (List.count j) h.rotates
  rw [List.count_append, hstays, hstays, hstays] at hround
  exact (hround.trans (Nat.zero_add _)).symm

/-- The endpoints that stay enabled get their turns evenly. -/
theorem count_le (h : Dials rotation 0 p D c' p') (hnodup : rotation.Nodup) {i j : Nat}
    (hi : i ∈ rotation) (hj : j ∈ rotation) (hi' : i ∉ p'.disabled) (hj' : j ∉ p'.disabled) :
    (D.map Prod.fst).count i ≤ (D.map Prod.fst).count j + 1 := by
  obtain ⟨a, ha, rfl⟩ := List.getElem_of_mem hi
  obtain ⟨b, hb, rfl⟩ := List.getElem_of_mem hj
  rw [h.count_eq hi', h.count_eq hj', count_goRound hnodup ha, count_goRound hnodup hb]
  split <;> split <;> omega

/-- If no endpoint drops out, the dials are divided evenly. -/
theorem count_of_all (h : Dials rotation 0 p D c' p') (hnodup : rotation.Nodup)
    (hall : ∀ j ∈ rotation, j ∉ p'.disabled) {j : Nat} (hj : j ∈ rotation) :
    (∀ k, D.length = k * rotation.length → (D.map Prod.fst).count j = k) ∧
      D.length / rotation.length ≤ (D.map Prod.fst).count j ∧
        (D.map Prod.fst).count j ≤ D.length / rotation.length + 1 := by
  have hpos : 0 < rotation.length := List.length_pos_of_mem hj
  have hstay : ∀ l : List Nat, (∀ i ∈ l, i ∈ rotation) → l.filter (· ∉ p'.disabled) = l :=
    fun l hl => List.filter_eq_self.2 fun i hi => decide_eq_true (hall i (hl i hi))
  have hdialed : ∀ i ∈ D.map Prod.fst, i ∈ rotation := by
    intro i hi
    obtain ⟨d, hd, rfl⟩ := List.mem_map.1 hi
    exact (h.enabled d hd).1
  have hround : goRound rotation c' = D.map Prod.fst := by
    have := h.rotates
    rwa [hstay _ fun i => mem_of_mem_goRound, hstay _ hdialed] at this
  have hc : D.length = c' := by
    have hlength := length_goRound (m := c') (List.ne_nil_of_length_pos hpos)
    rwa [hround, List.length_map] at hlength
  obtain ⟨a, ha, rfl⟩ := List.getElem_of_mem hj
  rw [← hround, count_goRound hnodup ha, ← hc]
  refine ⟨fun k hk => ?_, Nat.le_add_right _ _, by split <;> omega⟩
  rw [hk, Nat.mul_div_cancel _ hpos, Nat.mul_mod_left]
  rfl

end Dials

/-! ## A failed dial as its attempt sees it -/

namespace Pool

variable {p q : Pool} {i n : Nat} {pushed : List Nat} {e : DialError} {reply : DialReply}
  {error : ClientError}

/-- Why a dial failed. -/
def dialError (p : Pool) (i : Nat) : DialReply → DialError
  | .failed e => e
  | _ => .timeout (p.address i) p.dialTimeout

theorem endAttempt_eq_failDial (hreply : ∀ link, reply ≠ .connected link) :
    p.endAttempt i reply = (.error (p.failDial i (p.dialError i reply)).1,
      (p.failDial i (p.dialError i reply)).2) := by
  cases reply with
  | connected link => exact absurd rfl (hreply link)
  | failed e | expired => rfl

theorem dialError_congr (h : q.setup = p.setup) (i : Nat) (reply : DialReply) :
    q.dialError i reply = p.dialError i reply := by
  obtain ⟨hendpoints, hrest⟩ := Prod.mk.inj h
  have htimeout : DialError.timeout (q.address i) q.dialTimeout =
      .timeout (p.address i) p.dialTimeout := by
    rw [address, hendpoints, (Prod.mk.inj hrest).2, ← address]
  cases reply with
  | connected link | expired => exact htimeout
  | failed e => rfl

theorem failDial_of_permanent (he : e.isPermanent = true) :
    p.failDial i e = (if (p.disable i).disabled.length = (p.disable i).size
      then .config s!"every endpoint is disabled: {e.message}" else .brokenNetwork e.message,
      p.disable i) := by
  rw [failDial, if_pos he]
  dsimp only
  split <;> rfl

theorem failDial_of_transient (he : e.isPermanent = false) :
    p.failDial i e = (.brokenNetwork e.message, p) := by
  rw [failDial, if_neg (by simp [he])]

/-- That a dial has failed before makes no difference to its error. -/
theorem failDial_failDial : ((p.failDial i e).2.failDial i e).1 = (p.failDial i e).1 := by
  cases he : e.isPermanent with
  | false => rw [failDial_of_transient he, failDial_of_transient he]
  | true =>
    have hagain : (p.disable i).disable i = p.disable i :=
      if_pos (List.contains_iff_mem.2 (mem_disable.2 (.inr rfl)))
    rw [failDial_of_permanent he, failDial_of_permanent he, hagain]

theorem failDial_ne_poolClosed : (p.failDial i e).1 ≠ .poolClosed := by
  cases he : e.isPermanent with
  | false =>
    rw [failDial_of_transient he]
    nofun
  | true =>
    rw [failDial_of_permanent he]
    dsimp only
    split <;> nofun

/-- Another attempt follows a failed dial exactly if an endpoint is left to dial. -/
theorem Accounted.retryable_failDial_iff (h : Accounted n pushed p) (hi : i < n)
    (henabled : i ∉ p.disabled) :
    (p.failDial i e).1.retryable = true ↔ ∃ j < n, j ∉ (p.failDial i e).2.disabled := by
  cases he : e.isPermanent with
  | false =>
    rw [failDial_of_transient he]
    exact ⟨fun _ => ⟨i, hi, henabled⟩, fun _ => rfl⟩
  | true =>
    have hacc := h.disable hi
    rw [failDial_of_permanent he]
    dsimp only
    rw [hacc.size_eq]
    have hiff := hacc.disabled_length_eq_iff
    split
    · rename_i hall
      exact ⟨nofun, fun ⟨j, hj, hfree⟩ => absurd (hiff.1 hall j hj) hfree⟩
    · rename_i hleft
      have := mt hiff.2 hleft
      push Not at this
      exact ⟨fun _ => this, fun _ => rfl⟩

/-- The error of the last of several attempts, seen from the pool that it left. -/
def lastError (q : Pool) (D : List (Nat × DialReply)) : ClientError :=
  match D.getLast? with
  | none => .config "every endpoint is disabled"
  | some (i, reply) => (q.failDial i (q.dialError i reply)).1

theorem lastError_cons {D : List (Nat × DialReply)} (hD : D ≠ []) (d : Nat × DialReply) :
    q.lastError (d :: D) = q.lastError D := by
  rw [lastError, lastError, List.getLast?_cons]
  cases h : D.getLast? with
  | none => exact absurd (List.getLast?_eq_none_iff.1 h) hD
  | some d' => rfl

/-- A dial of endpoint `i` over `p`, which has `n` endpoints, fails with an error. -/
structure Fails (n i : Nat) (reply : DialReply) (p : Pool) (error : ClientError) (q : Pool) :
    Prop where
  endAttempt_eq : (p.vacate i).endAttempt i reply = (.error error, q)
  setup_eq : q.setup = p.setup
  error_eq : (q.failDial i (q.dialError i reply)).1 = error
  retryable_iff : error.retryable = true ↔ ∃ j < n, j ∉ q.disabled

theorem Accounted.fails (h : Accounted n pushed p) (hi : i < n) (henabled : i ∉ p.disabled)
    (hreply : ∀ link, reply ≠ .connected link) :
    ∃ error q, Fails n i reply p error q ∧ Accounted n pushed q ∧ Refused i (p.vacate i) q := by
  have hvacated := h.vacate i
  have hsetup : ((p.vacate i).failDial i ((p.vacate i).dialError i reply)).2.setup = p.setup := by
    rw [failDial_setup, vacate_setup]
  refine ⟨_, _, ⟨endAttempt_eq_failDial hreply, hsetup, ?_, ?_⟩, hvacated.failDial hi _,
    (refused_failDial _).1⟩
  · rw [dialError_congr (hsetup.trans vacate_setup.symm), failDial_failDial]
  · exact hvacated.retryable_failDial_iff hi (by rwa [vacate_disabled])

theorem Fails.error_ne (h : Fails n i reply p error q) : error ≠ .poolClosed := by
  rw [← h.error_eq]
  exact failDial_ne_poolClosed

end Pool

/-! ## A fruitless search -/

section fruitless

variable {e : Surroundings Network Session} {n k : Nat} {pushed : List Nat} {p : Pool} {q : Search}
  {s : Session} {delay : Millis}

theorem Search.amid_task (q : Search) (e : Surroundings Network Session) (k : Nat) (s : Session) :
    q.task.amid e k s =
      (q.attempt s.pool).1.task.amid e k { s with pool := (q.attempt s.pool).2 } :=
  Task.amid_of_advance (q.advance_task s) e k

/-- The wait for a dial that was answered. -/
def dialWait (limit : Millis) (d : Nat × DialReply) : Network.Wait := .told ⟨.dial d.1 limit, d.2⟩

/-- A search that finds no channel dials, and is told that this failed. -/
theorem Search.amid_dial (answer : Nat → (r : NetworkRequest) → Network.Answer r)
    (hbarren : s.pool.Barren q.rotation) {i next : Nat} {reply : DialReply} {error : ClientError}
    (hnext : s.pool.nextEnabled q.rotation q.cursor q.rotation.length = (some i, next))
    (hanswer : answer k (.dial i s.pool.dialTimeout) = reply)
    (hfails : s.pool.Fails n i reply error p) :
    q.task.amid ⟨answer, fun _ => id⟩ k s =
      ((({ q with cursor := next } : Search).outcome (.error error)).task.amid
        ⟨answer, fun _ => id⟩ (k + 1) { s with pool := p }).after
          (dialWait s.pool.dialTimeout (i, reply)) := by
  have hanswered : Search.answer { q with cursor := next } i reply (s.pool.vacate i) =
      (.resting (({ q with cursor := next } : Search).outcome (.error error)), p) := by
    rw [Search.answer, hfails.endAttempt_eq]
  have hadvance := advance_answer { q with cursor := next } i reply
    { s with pool := s.pool.vacate i }
  rw [hanswered] at hadvance
  rw [amid_task, attempt_dial hbarren hnext]
  subst hanswer
  exact congrArg (Course.after _) (Task.amid_of_advance hadvance _ (k + 1))

/-- The course `c` of a search `q` over `p` whose dials `D` all fail. -/
structure Fruitless (n : Nat) (delay : Millis) (q : Search) (p : Pool)
    (c : Course Network Session (Except ClientError Lease)) (D : List (Nat × DialReply))
    (m : Nat) : Prop where
  dials : Dials q.rotation q.cursor p D m c.state.pool
  setup_eq : c.state.pool.setup = p.setup
  waits : c.waits = (D.map (dialWait p.dialTimeout)).intersperse (.paused delay)
  result : c.result = .ok (.error
    (.exhaustedPool (q.made + max 1 D.length) (c.state.pool.lastError D).message))
  within : max 1 D.length ≤ q.retries + 1
  early : max 1 D.length ≤ q.retries → ∀ j < n, j ∈ c.state.pool.disabled
  idle : D = [] → ∀ j < n, j ∈ p.disabled

/-- One more dial in front of those of a search that goes on after a pause. -/
theorem Fruitless.cons {q' : Search} {p' : Pool}
    {c : Course Network Session (Except ClientError Lease)} {D : List (Nat × DialReply)} {m : Nat}
    {d : Nat × DialReply} (h : Fruitless n delay q' p' c D m) (hsome : D ≠ [])
    (hdials : Dials q.rotation q.cursor p (d :: D) m c.state.pool) (hsetup : p'.setup = p.setup)
    (hmade : q'.made = q.made + 1) (hretries : q.retries = q'.retries + 1) :
    Fruitless n delay q p ((c.after (.paused delay)).after (dialWait p.dialTimeout d)) (d :: D)
      m := by
  have hpos := List.length_pos_of_ne_nil hsome
  have hwithin := h.within
  refine ⟨hdials, h.setup_eq.trans hsetup, ?_, ?_, ?_, fun hbudget => h.early ?_, nofun⟩
  · obtain ⟨d', D, rfl⟩ := List.exists_cons_of_ne_nil hsome
    have htimeout : p'.dialTimeout = p.dialTimeout := congrArg (fun c => c.2.2) hsetup
    show dialWait p.dialTimeout d :: .paused delay :: c.waits = _
    rw [h.waits, htimeout]
    rfl
  · show c.result = .ok (.error (.exhaustedPool (q.made + max 1 (D.length + 1))
      (c.state.pool.lastError (d :: D)).message))
    have hattempts : q.made + max 1 (D.length + 1) = q'.made + max 1 D.length := by omega
    rw [h.result, Pool.lastError_cons hsome, hattempts]
  · rw [List.length_cons]
    omega
  · rw [List.length_cons] at hbudget
    omega

/-- A search whose endpoints are all disabled makes one attempt. -/
theorem Search.fruitless_idle (hbarren : s.pool.Barren q.rotation)
    (hperm : q.rotation.Perm (List.range n)) {next : Nat}
    (hnext : s.pool.nextEnabled q.rotation q.cursor q.rotation.length = (none, next)) :
    Fruitless n delay q s.pool (q.task.amid e k s) [] q.cursor := by
  have hall : ∀ j < n, j ∈ s.pool.disabled := fun j hj =>
    Pool.mem_disabled_of_nextEnabled (congrArg Prod.fst hnext) j
      (hperm.mem_iff.2 (List.mem_range.2 hj))
  have hattempt : q.attempt s.pool = (.resting (.ended (.error (.exhaustedPool (q.made + 1)
      (ClientError.config "every endpoint is disabled").message))), s.pool) := by
    rw [attempt, hbarren.beginAttempt, hnext]
    exact congrArg (fun x => (Acquisition.resting x, s.pool))
      (outcome_last (by simp) (.inr rfl))
  rw [amid_task, hattempt]
  exact ⟨.nil _ _, rfl, rfl, rfl, by simp, fun _ => hall, fun _ => hall⟩

/-- A search whose dials all fail makes attempts until its budget is spent or every endpoint is
disabled. -/
theorem Search.fruitless (answer : Nat → (r : NetworkRequest) → Network.Answer r)
    (hrefused : ∀ k i limit link, answer k (.dial i limit) ≠ DialReply.connected link)
    (hacc : Pool.Accounted n pushed s.pool) (hbarren : s.pool.Barren q.rotation)
    (hperm : q.rotation.Perm (List.range n)) (hschedule : q.schedule = .fixed delay) (k : Nat) :
    ∃ D m, Fruitless n delay q s.pool (q.task.amid ⟨answer, fun _ => id⟩ k s) D m := by
  induction hretries : q.retries using Nat.strongRecOn generalizing q s k with
  | ind retries ih =>
    rcases hnext : s.pool.nextEnabled q.rotation q.cursor q.rotation.length with ⟨_ | i, next⟩
    · exact ⟨[], _, fruitless_idle hbarren hperm hnext⟩
    · obtain ⟨hi, henabled⟩ := Pool.mem_of_nextEnabled (congrArg Prod.fst hnext)
      replace hi : i < n := List.mem_range.1 (hperm.mem_iff.1 hi)
      obtain ⟨reply, hanswer⟩ : ∃ reply : DialReply,
          answer k (.dial i s.pool.dialTimeout) = reply := ⟨_, rfl⟩
      have hreply : ∀ link, reply ≠ .connected link := fun link hlink =>
        hrefused k i _ link (hanswer.trans hlink)
      obtain ⟨error, p, hfails, hkept, hleft⟩ := hacc.fails hi henabled hreply
      have hcourse := amid_dial (k := k) answer hbarren hnext hanswer hfails
      have hdials : ∀ {D m p'}, Dials q.rotation next p D m p' →
          Dials q.rotation q.cursor s.pool ((i, reply) :: D) m p' := fun hrest =>
        .cons hnext hreply (by rwa [hfails.endAttempt_eq])
      by_cases hlast : q.retries = 0 ∨ error.retryable = false
      · rw [outcome_last hfails.error_ne (q := { q with cursor := next }) hlast] at hcourse
        rw [hcourse]
        refine ⟨[(i, reply)], next, hdials (.nil next p), hfails.setup_eq, rfl, ?_, by simp, ?_,
          nofun⟩
        · have herror : p.lastError [(i, reply)] = error := hfails.error_eq
          exact herror ▸ rfl
        · intro hbudget j hj
          by_contra hfree
          have hretryable := hfails.retryable_iff.2 ⟨j, hj, hfree⟩
          rw [hretryable] at hlast
          have hspent := hlast.resolve_right nofun
          rw [hspent] at hbudget
          simp at hbudget
      · obtain ⟨hmore, hretryable⟩ := not_or.1 hlast
        replace hretryable : error.retryable = true := by simpa using hretryable
        obtain ⟨rest, hrest⟩ := Nat.exists_eq_succ_of_ne_zero hmore
        rw [outcome_retry (q := { q with cursor := next }) hrest hretryable] at hcourse
        obtain ⟨D, m, hD⟩ := ih rest (by omega)
          (q := { q with cursor := next, schedule := q.schedule.next, made := q.made + 1,
                         retries := rest })
          (s := { s with pool := p }) hkept (hbarren.refused hleft) hperm
          (by rw [hschedule]; rfl) (k + 2) rfl
        have hsome : D ≠ [] := fun hnone => by
          obtain ⟨j, hj, hfree⟩ := hfails.retryable_iff.1 hretryable
          exact hfree (hD.idle hnone j hj)
        have hdelay : q.schedule.delay = delay := by rw [hschedule]; rfl
        rw [hcourse, ← hdelay]
        exact ⟨(i, reply) :: D, m, (hdelay ▸ hD).cons hsome (hdials hD.dials) hfails.setup_eq rfl
          hrest⟩

/-- A fruitless search makes no dial only if it finds every endpoint disabled. -/
theorem Fruitless.eq_nil_iff {c : Course Network Session (Except ClientError Lease)}
    {D : List (Nat × DialReply)} {m : Nat} (h : Fruitless n delay q p c D m)
    (hperm : q.rotation.Perm (List.range n)) : D = [] ↔ ∀ j < n, j ∈ p.disabled := by
  refine ⟨h.idle, fun hall => List.eq_nil_iff_forall_not_mem.2 fun d hd => ?_⟩
  obtain ⟨hd, henabled⟩ := h.dials.enabled d hd
  exact henabled (hall d.1 (List.mem_range.1 (hperm.mem_iff.1 hd)))

/-- If no endpoint is disabled and none has a permanent error, a fruitless search spends its
budget. -/
theorem Fruitless.length_eq {c : Course Network Session (Except ClientError Lease)}
    {D : List (Nat × DialReply)} {m : Nat} (h : Fruitless n delay q p c D m) (hn : 0 < n)
    (hfree : ∀ j < n, j ∉ p.disabled) (htransient : ∀ d ∈ D, d.2.isPermanent = false) :
    (∀ j < n, j ∉ c.state.pool.disabled) ∧ D.length = q.retries + 1 := by
  have hstay : ∀ j < n, j ∉ c.state.pool.disabled := by
    intro j hj
    rw [h.dials.mem_disabled, not_or]
    refine ⟨hfree j hj, ?_⟩
    rintro ⟨d, hd, -, hpermanent⟩
    rw [htransient d hd] at hpermanent
    cases hpermanent
  have hsome : D ≠ [] := fun hnone => hfree 0 hn (h.idle hnone 0 hn)
  have hspent : ¬ max 1 D.length ≤ q.retries := fun hless => hstay 0 hn (h.early hless 0 hn)
  have hpos := List.length_pos_of_ne_nil hsome
  have hwithin := h.within
  exact ⟨hstay, by omega⟩

/-- The search of an acquisition that finds no channel. -/
def firstSearch (s : Session) : Search :=
  Search.start { s.pool with rotations := s.pool.rotations.tail } s.pool.drawRotation.1

/-- An acquisition that finds no channel and nobody who accepts is a fruitless search. -/
theorem acquire_fruitless (answer : Nat → (r : NetworkRequest) → Network.Answer r)
    (hrefused : ∀ k i limit link, answer k (.dial i limit) ≠ DialReply.connected link)
    (hacc : Pool.Accounted n pushed s.pool) (hopen : s.pool.closed = false)
    (hunusable : ∀ i, s.pool.usable? i = none) (hbackoff : s.pool.policy.backoff = .fixed delay)
    (k : Nat) :
    ∃ D m, Fruitless n delay (firstSearch s) { s.pool with rotations := s.pool.rotations.tail }
      (acquire.amid ⟨answer, fun _ => id⟩ k s) D m := by
  obtain ⟨hrecent, -⟩ := Option.or_eq_none_iff.1 ((Pool.reused?_eq_none hacc).2 hunusable)
  have hstart : s.pool.start = (.search s.pool.drawRotation.1,
      { s.pool with rotations := s.pool.rotations.tail }) := by
    rw [Pool.start, if_neg (by simp [hopen]), hrecent, ← Pool.drawRotation_snd]
  have hadvance := advance_acquire s
  rw [Acquisition.start, hstart] at hadvance
  rw [Task.amid_of_advance hadvance]
  refine ((firstSearch s).amid_task ⟨answer, fun _ => id⟩ k
    { s with pool := { s.pool with rotations := s.pool.rotations.tail } }) ▸ ?_
  have hperm : (firstSearch s).rotation.Perm (List.range n) :=
    hacc.size_eq ▸ s.pool.drawRotation_perm
  have hschedule : (firstSearch s).schedule = .fixed delay := by
    rw [firstSearch, Search.start, hbackoff]
    rfl
  exact Search.fruitless
    (s := { s with pool := { s.pool with rotations := s.pool.rotations.tail } }) answer hrefused
    (hacc.of_eq rfl rfl rfl rfl rfl rfl) ⟨hopen, fun i _ => hunusable i⟩ hperm hschedule k

end fruitless

/-- An acquisition over an open pool of `n` endpoints, with no channel to hand out and with `P`
attempts for each endpoint, that runs undisturbed and all of whose dials fail:

* it is told of the failed dials `D`, with a pause between any two, and fails with the number of its
  attempts and the error of the last of them;
* it makes `A` attempts at most, and fewer only if every endpoint is disabled in the end; every
  attempt dials, unless there is but one, over a pool whose endpoints are all disabled;
* it dials only enabled endpoints, and none again after a permanent error, be it in this acquisition
  or earlier;
* the endpoints that stay enabled are dialed in rotation, so that no two of them differ by more than
  one dial; and if none is disabled each gets `P`, or an even share of `A` where `P` for each is
  more than a budget can hold. -/
theorem Pool.acquire_exhausts (endpoints : List Node) (retries : Retries) (dialTimeout : Millis)
    (rotations : List (List Nat)) (s : Session) (uses : List Pool.Use)
    (answer : Nat → (r : NetworkRequest) → Network.Answer r)
    (hrefused : ∀ k i limit link, answer k (.dial i limit) ≠ DialReply.connected link) :
    let n := endpoints.length
    let P := retries.attemptsPerEndpoint.toNat
    let A := max 1 (min (P * n) attemptsLimit)
    let start := { s with
      pool := { endpoints, policy := retries.dialPolicy n, dialTimeout, rotations } }
    let before := (Pool.after start uses).shared
    let p := before.pool
    let rotation := p.drawRotation.1
    let c := acquire.amid ⟨answer, fun _ => id⟩ 0 before
    let q := c.state.pool
    p.closed = false → (∀ i, p.usable? i = none) →
    ∃ D : List (Nat × DialReply),
      let attempts := max 1 D.length
      let dialed := D.map Prod.fst
      (c.waits = (D.map (dialWait dialTimeout)).intersperse
          (.paused retries.dialIntervalMs.toNat) ∧
        c.result = .ok (.error (.exhaustedPool attempts (q.lastError D).message))) ∧
      (attempts ≤ A ∧ (attempts < A → ∀ j < n, j ∈ q.disabled) ∧
        (D = [] ↔ ∀ j < n, j ∈ p.disabled)) ∧
      ((∀ d ∈ D, d.1 < n ∧ d.1 ∉ p.disabled ∧ ∀ limit reply,
          ⟨.dial d.1 limit, reply⟩ ∈ (Pool.after start []).tolds (uses.map Pool.Use.event) →
            reply.isPermanent = false) ∧
        D.Pairwise (fun d d' => d'.1 = d.1 → d.2.isPermanent = false) ∧
        ∀ j, j ∈ q.disabled ↔ j ∈ p.disabled ∨ ∃ d ∈ D, d.1 = j ∧ d.2.isPermanent = true) ∧
      (rotation.Perm (List.range n) ∧
        (∃ m, dialed.filter (· ∉ q.disabled) = (goRound rotation m).filter (· ∉ q.disabled)) ∧
        (∀ i < n, ∀ j < n, i ∉ q.disabled → j ∉ q.disabled →
          dialed.count i ≤ dialed.count j + 1) ∧
        (1 ≤ P → (∀ j < n, j ∉ p.disabled) → (∀ d ∈ D, d.2.isPermanent = false) → ∀ j < n,
          (P * n ≤ attemptsLimit → dialed.count j = P) ∧
            A / n ≤ dialed.count j ∧ dialed.count j ≤ A / n + 1)) := by
  intro n P A start before p rotation c q hopen hunusable
  have hbefore : p = (Acquisitions.after start.pool uses).pool :=
    congrArg (fun w : Pool.Acquirers => w.shared.pool) (Acquisitions.party_after start uses)
  have hacc : Pool.Accounted n (Pool.pushed start uses) p :=
    (Pool.accounted_after endpoints (retries.dialPolicy n) dialTimeout rotations uses start rfl).2
  have hsetup : p.setup = start.pool.setup := by
    rw [hbefore, Acquisitions.setup_after]
  have hpolicy : p.policy = retries.dialPolicy n := congrArg (fun c => c.2.1) hsetup
  have hbackoff : p.policy.backoff = .fixed retries.dialIntervalMs.toNat := by
    rw [hpolicy]
    rfl
  have hperm : rotation.Perm (List.range n) := hacc.size_eq ▸ p.drawRotation_perm
  have hnodup : rotation.Nodup := hperm.nodup_iff.2 List.nodup_range
  have hmem : ∀ {j}, j ∈ rotation ↔ j < n := hperm.mem_iff.trans List.mem_range
  obtain ⟨D, m, hD⟩ := acquire_fruitless answer hrefused hacc hopen hunusable hbackoff 0
  have hdials : Dials rotation 0 { p with rotations := p.rotations.tail } D m q := hD.dials
  have hidle : D = [] ↔ ∀ j < n, j ∈ p.disabled := hD.eq_nil_iff hperm
  have hbudget : 0 < n → (firstSearch before).retries + 1 = A := by
    intro hn
    show p.policy.maxAttempts - 1 + 1 = A
    rw [hpolicy]
    show min (P * max n 1) attemptsLimit - 1 + 1 = max 1 (min (P * n) attemptsLimit)
    rw [Nat.max_eq_left hn]
    omega
  refine ⟨D, ⟨?_, ?_⟩, ⟨?_, ?_, hidle⟩, ⟨?_, hdials.pairwise, fun _ => hdials.mem_disabled⟩, hperm,
    ⟨m, hdials.rotates.symm⟩, fun i hi j hj => hdials.count_le hnodup (hmem.2 hi) (hmem.2 hj), ?_⟩
  · have htimeout : p.dialTimeout = dialTimeout := congrArg (fun c => c.2.2) hsetup
    rw [hD.waits]
    exact htimeout ▸ rfl
  · rw [hD.result]
    exact congrArg (fun a => Except.ok (Except.error (ClientError.exhaustedPool a _)))
      (Nat.zero_add _)
  · rcases Nat.eq_zero_or_pos n with hn | hn
    · rw [hidle.2 fun j hj => absurd hj (by omega)]
      exact Nat.le_max_left _ _
    · exact hbudget hn ▸ hD.within
  · intro hless j hj
    refine hD.early (Nat.le_of_lt_succ ?_) j hj
    rwa [← hbudget (Nat.zero_lt_of_lt hj)] at hless
  · intro d hd
    obtain ⟨hrotation, henabled⟩ := hdials.enabled d hd
    refine ⟨hmem.1 hrotation, henabled, fun limit reply htold => ?_⟩
    by_contra hpermanent
    refine henabled (hbefore ▸ (Acquisitions.mem_disabled_run start { pool := start.pool } uses).2
      (.inr ?_))
    cases reply with
    | failed e => exact ⟨limit, e, htold, by simpa [DialReply.isPermanent] using hpermanent⟩
    | connected link | expired => exact absurd rfl hpermanent
  · intro hP hfree htransient j hj
    have hn : 0 < n := Nat.zero_lt_of_lt hj
    obtain ⟨hstay, hlength⟩ := hD.length_eq hn hfree htransient
    have hshare := hdials.count_of_all hnodup (fun i hi => hstay i (hmem.1 hi)) (hmem.2 hj)
    rw [hlength, hbudget hn, hperm.length_eq, List.length_range] at hshare
    refine ⟨fun hlimit => hshare.1 P ?_, hshare.2⟩
    have hproduct : 1 ≤ P * n := Nat.mul_pos hP hn
    omega

/-- Two endpoints that let their dials hang are dialed once each. -/
theorem Pool.acquire_exhausts_hanging :
    let c := acquire.amid ⟨fun _ => dialsAs fun _ => .expired, fun _ => id⟩ 0 twoEndpoints
    c.waits.length = 3 ∧ ∃ D : List (Nat × DialReply),
      c.waits = (D.map (dialWait 100)).intersperse (.paused 0) ∧
        ∀ j < 2, (D.map Prod.fst).count j = 1 := by
  intro c
  have hwaits : c.waits.length = 3 := rfl
  have hdisabled : c.state.pool.disabled = [] := rfl
  let retries : Retries := { dialIntervalMs := 0, attemptsPerEndpoint := 1 }
  have hpolicy : retries.dialPolicy twoEndpoints.pool.endpoints.length = .fixed 0 2 := rfl
  have h := Pool.acquire_exhausts twoEndpoints.pool.endpoints retries 100 [] twoEndpoints []
    (fun _ => dialsAs fun _ => .expired) fun _ _ _ _ => nofun
  simp only [hpolicy] at h
  obtain ⟨D, ⟨hD, -⟩, -, ⟨-, -, hmarked⟩, -, -, -, hcount⟩ := h rfl fun i => by
    rcases i with _ | _ | i <;> rfl
  refine ⟨hwaits, D, hD, fun j hj => (hcount (by decide) (fun j _ => nofun) (fun d hd => ?_) j hj).1
    (by decide)⟩
  by_contra hpermanent
  have hd := (hmarked d.1).2 (.inr ⟨d, hd, rfl, by simpa using hpermanent⟩)
  have hnone : d.1 ∈ c.state.pool.disabled := hd
  rw [hdisabled] at hnone
  cases hnone

end LedgerClient
