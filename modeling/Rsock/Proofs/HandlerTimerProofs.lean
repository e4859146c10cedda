import Rsock.Proofs.HandlerProofs

/-!
# Proofs: the timer of the message loop

`setupOneShotTimer` leaves the timer that runs alone if the new deadline is not much earlier than the
last one. The last one is in `mNextTimeoutMs`, which follows the deadlines also when the timer does
not: after several posts, each a little earlier than the one before, the timer is late by the sum of
the differences. `Handler.timer_in_time_iff` says which posts this leaves out.
-/

namespace Rsock

open CMem TransSys DeadlineQueue

namespace Handler

variable {h h' : Handler} {e : Event} {ok : Bool} {calls : List Entry} {now ts : UInt64}

/-! ## How the timer is armed -/

/-- The time the timer is armed for. -/
def armedFor (ts now : UInt64) : Nat :=
  let df := (ts - now).toInt64
  now.toNat + (if df < 0 then 0 else df).toInt.toNat

/-- A deadline that has passed, so long ago that the difference comes out positive. -/
def Passed (now ts : UInt64) : Prop :=
  ts.toNat + 2 ^ 63 < now.toNat ∧ now.toNat + 10 < ts.toNat + 2 ^ 64

instance (now ts : UInt64) : Decidable (Passed now ts) := inferInstanceAs (Decidable (_ ∧ _))

/-- A timer is in time unless the signed difference has gone wrong. -/
theorem armedFor_le_iff (ts now : UInt64) :
    armedFor ts now ≤ max ts.toNat now.toNat + 10 ↔ ¬ Passed now ts := by
  have hts := ts.toNat_lt
  have hnow := now.toNat_lt
  have hint := toInt_toInt64_sub ts now
  have hneg : (ts - now).toInt64 < 0 ↔ (ts - now).toInt64.toInt < 0 := Int64.lt_iff_toInt_lt
  have hzero : (0 : Int64).toInt = 0 := rfl
  unfold armedFor Passed
  dsimp only
  by_cases hlt : (ts - now).toInt64 < 0
  · rw [if_pos hlt, hzero]
    rw [hneg] at hlt
    split_ifs at hint <;> omega
  · rw [if_neg hlt]
    rw [hneg] at hlt
    split_ifs at hint <;> omega

theorem not_passed_of_le (hle : now ≤ ts) : ¬ Passed now ts := by
  have hle' : now.toNat ≤ ts.toNat := hle
  unfold Passed
  omega

/-- The timer after `setupOneShotTimer`. -/
theorem mOneShotTimer_setup (h : Handler) (ts prev now : UInt64) :
    (h.setupOneShotTimer ts prev now).mOneShotTimer =
      match h.mOneShotTimer with
      | none => some (armedFor ts now)
      | some t => if ts + INTERVAL.toUInt64 < prev then some (armedFor ts now) else some t := by
  unfold setupOneShotTimer
  cases ht : h.mOneShotTimer with
  | none => rfl
  | some t =>
    dsimp only
    split
    · rfl
    · exact ht

/-- The deadline of the entry that is due first. -/
def Earliest (h : Handler) (ts : UInt64) : Prop :=
  (∃ x ∈ h.queued, x.expireMs = ts) ∧ ∀ x ∈ h.queued, ts ≤ x.expireMs

/-- There is one earliest time. -/
theorem Earliest.unique {ts' : UInt64} (h1 : Earliest h ts) (h2 : Earliest h ts') : ts = ts' := by
  obtain ⟨⟨x, hx, rfl⟩, hle⟩ := h1
  obtain ⟨⟨y, hy, rfl⟩, hle'⟩ := h2
  exact UInt64.le_antisymm (hle y hy) (hle' x hx)

/-- If anything waits, the timer is armed, and for a time that is not later than the deadline of what
    is due first, or the present time, by more than `INTERVAL`. -/
def InTime (h : Handler) (now : UInt64) : Prop :=
  h.queued ≠ [] → ∃ t, h.mOneShotTimer = some t ∧
    ∀ ts, Earliest h ts → t ≤ max ts.toNat now.toNat + 10

theorem inTime_of_nil (hnil : h.queued = []) : InTime h now := fun hne => absurd hnil hne

/-- `nextMs` is the earliest time. -/
theorem earliest_nextMs (hq : Queues h) (hpos : ∀ x ∈ h.queued, x.expireMs ≠ 0) (hne : h.queued ≠ []) :
    Earliest h h.nextMs :=
  nextMs_spec hq hpos hne

/-- After the update the timer is in time if the time it stays armed for, or is armed for again, is. -/
theorem inTime_update_iff (hq : Queues h) (hpos : ∀ x ∈ h.queued, x.expireMs ≠ 0)
    (hearly : Earliest h ts) :
    InTime (h.updateNextMsAndTimer now) now ↔
      match h.mOneShotTimer with
      | none => ¬ Passed now ts
      | some t =>
        if ts + INTERVAL.toUInt64 < h.mNextTimeoutMs then ¬ Passed now ts
        else t ≤ max ts.toNat now.toNat + 10 := by
  obtain ⟨x, hx, -⟩ := hearly.1
  have hne : h.queued ≠ [] := List.ne_nil_of_mem hx
  have hts : h.nextMs = ts := (earliest_nextMs hq hpos hne).unique hearly
  have hearly' : ∀ ts', Earliest (h.updateNextMsAndTimer now) ts' ↔ ts' = ts := by
    intro ts'
    have hsame : Earliest (h.updateNextMsAndTimer now) ts' ↔ Earliest h ts' := by
      simp only [Earliest, queued_update]
    rw [hsame]
    constructor
    · intro h'
      exact h'.unique hearly
    · rintro rfl
      exact hearly
  have htimer : (h.updateNextMsAndTimer now).mOneShotTimer =
      (h.setupOneShotTimer ts h.mNextTimeoutMs now).mOneShotTimer := by
    rw [update_of_ne_nil hne, hts]
  have hiff : InTime (h.updateNextMsAndTimer now) now ↔
      ∃ t, (h.setupOneShotTimer ts h.mNextTimeoutMs now).mOneShotTimer = some t ∧
        t ≤ max ts.toNat now.toNat + 10 := by
    unfold InTime
    simp only [queued_update, hearly', forall_eq, htimer]
    exact forall_prop_of_true hne
  rw [hiff, mOneShotTimer_setup]
  cases h.mOneShotTimer with
  | none => simp [armedFor_le_iff]
  | some t =>
    dsimp only
    split
    · simp [armedFor_le_iff]
    · simp

/-! ## One operation -/

theorem mem_queued_accept {x y : Entry} : y ∈ (h.accept x).queued ↔ y = x ∨ y ∈ h.queued := by
  rw [(perm_queued_accept h x).mem_iff, List.mem_cons]

theorem mOneShotTimer_accept (h : Handler) (x : Entry) :
    (h.accept x).mOneShotTimer = h.mOneShotTimer := by
  cases x <;> rfl

theorem mNextTimeoutMs_accept (h : Handler) (x : Entry) :
    (h.accept x).mNextTimeoutMs = h.mNextTimeoutMs := by
  cases x <;> rfl

/-- An entry that is not the first to be due leaves the timer in time. -/
theorem inTime_accept_later {x y : Entry} {clock : UInt64} (hq : Queues h) (ht : Timed h)
    (hin : InTime h clock) (hadm : x.admitted h = true)
    (hpos : ∀ z ∈ (h.accept x).queued, z.expireMs ≠ 0) (hclock : clock ≤ now) (hy : y ∈ h.queued)
    (hle : y.expireMs ≤ x.expireMs) : InTime ((h.accept x).updateNextMsAndTimer now) now := by
  have hne : h.queued ≠ [] := List.ne_nil_of_mem hy
  have hold : Earliest h h.nextMs := earliest_nextMs hq ht.pos hne
  have hearly : Earliest (h.accept x) h.nextMs := by
    obtain ⟨⟨z, hz, hznext⟩, hmin⟩ := hold
    refine ⟨⟨z, mem_queued_accept.mpr (.inr hz), hznext⟩, fun w hw => ?_⟩
    rcases mem_queued_accept.mp hw with rfl | hw
    · exact UInt64.le_trans (hmin y hy) hle
    · exact hmin w hw
  obtain ⟨t, htimer, hbound⟩ := hin hne
  have ht10 := hbound _ hold
  obtain ⟨z, hz, hznext⟩ := hold.1
  have hnext : h.mNextTimeoutMs.toNat ≤ h.nextMs.toNat := by
    rw [← hznext]
    exact ht.next_le z hz
  have hclock' : clock.toNat ≤ now.toNat := hclock
  rw [inTime_update_iff (hq.accept hadm) hpos hearly, mOneShotTimer_accept, mNextTimeoutMs_accept, htimer]
  dsimp only
  split
  · next hrearm =>
    -- the deadline is within `INTERVAL` of the end of the numbers, so it has not passed
    have hlt : (h.nextMs + INTERVAL.toUInt64).toNat < h.mNextTimeoutMs.toNat := hrearm
    have hadd : (h.nextMs + INTERVAL.toUInt64).toNat = (h.nextMs.toNat + 10) % 2 ^ 64 :=
      UInt64.toNat_add ..
    have hnow := now.toNat_lt
    unfold Passed
    omega
  · omega

/-- When the timer is in time after somebody was accepted. -/
theorem inTime_accept_iff {x : Entry} {clock : UInt64} (hq : Queues h) (ht : Timed h)
    (hin : InTime h clock) (hadm : x.admitted h = true)
    (hpos : ∀ z ∈ (h.accept x).queued, z.expireMs ≠ 0) (hclock : clock ≤ now)
    (hnow : now ≤ x.expireMs) :
    InTime ((h.accept x).updateNextMsAndTimer now) now ↔
      ((∀ y ∈ h.queued, x.expireMs < y.expireMs) →
        ¬ x.expireMs + INTERVAL.toUInt64 < h.mNextTimeoutMs →
        ∀ t ∈ h.mOneShotTimer, t ≤ x.expireMs.toNat + 10) := by
  by_cases hfirst : ∀ y ∈ h.queued, x.expireMs < y.expireMs
  · have hearly : Earliest (h.accept x) x.expireMs := by
      refine ⟨⟨x, mem_queued_accept.mpr (.inl rfl), rfl⟩, fun y hy => ?_⟩
      rcases mem_queued_accept.mp hy with rfl | hy
      · exact UInt64.le_refl _
      · exact UInt64.le_of_lt (hfirst y hy)
    have hnow' : max x.expireMs.toNat now.toNat = x.expireMs.toNat := Nat.max_eq_left hnow
    rw [inTime_update_iff (hq.accept hadm) hpos hearly, mOneShotTimer_accept, mNextTimeoutMs_accept,
      forall_prop_of_true hfirst]
    have hnot := not_passed_of_le hnow
    cases h.mOneShotTimer with
    | none => simp [hnot]
    | some t =>
      dsimp only
      split
      · next hrearm => simp [hnot, hrearm]
      · next hkept => simp [hkept, hnow']
  · rw [forall_prop_of_false hfirst, iff_true]
    push Not at hfirst
    obtain ⟨y, hy, hle⟩ := hfirst
    exact inTime_accept_later hq ht hin hadm hpos hclock hy (UInt64.not_lt.mp hle)

/-- What `OnTimeout` leaves in the queues. -/
def staying (h : Handler) (now : UInt64) : List Entry :=
  if h.mNextTimeoutMs > now + INTERVAL.toUInt64 then h.queued
  else h.queued.filter (fun x => !due now x.expireMs)

/-- A new timer is in time exactly if the difference is right. -/
theorem inTime_fresh_iff (hq : Queues h) (hpos : ∀ x ∈ h.queued, x.expireMs ≠ 0)
    (hnone : h.mOneShotTimer = none) :
    InTime (h.updateNextMsAndTimer now) now ↔
      ∀ x ∈ h.queued, (∀ y ∈ h.queued, x.expireMs ≤ y.expireMs) → ¬ Passed now x.expireMs := by
  by_cases hnil : h.queued = []
  · have hin : InTime (h.updateNextMsAndTimer now) now := inTime_of_nil (by simp [hnil])
    simp [hin, hnil]
  · have hearly := earliest_nextMs hq hpos hnil
    rw [inTime_update_iff hq hpos hearly, hnone]
    constructor
    · intro hnot x hx hmin
      have hx' : Earliest h x.expireMs := ⟨⟨x, hx, rfl⟩, hmin⟩
      rw [hx'.unique hearly]
      exact hnot
    · intro hall
      obtain ⟨⟨x, hx, hxnext⟩, hmin⟩ := hearly
      rw [← hxnext] at hmin ⊢
      exact hall x hx hmin

/-- When the timer is in time after `onTimeout`. -/
theorem inTime_onTimeout_iff (hq : Queues h) (ht : Timed h) (hout : h.onTimeout now = .ok (h', calls)) :
    InTime h' now ↔ ∀ x ∈ h.staying now, (∀ y ∈ h.staying now, x.expireMs ≤ y.expireMs) →
      ¬ Passed now x.expireMs := by
  unfold staying
  rcases onTimeout_cases hout with ⟨hnil, rfl, -⟩ | ⟨-, hlate, rfl, -⟩ | ⟨-, hscan, rfl, -⟩
  · have hin : InTime h.destroyTimer now := inTime_of_nil hnil
    simp [hin, hnil]
  · have hq' : Queues h.destroyTimer := ⟨hq.tasks, hq.messages⟩
    rw [if_pos hlate]
    exact inTime_fresh_iff hq' ht.pos rfl
  · have hq' : Queues (h.keep now) := ⟨hq.tasks.filter _, hq.messages.filter _⟩
    have hpos : ∀ x ∈ (h.keep now).queued, x.expireMs ≠ 0 := by
      intro x hx
      rw [queued_keep] at hx
      exact ht.pos x (List.mem_filter.mp hx).1
    rw [if_neg hscan.1, ← queued_keep]
    exact inTime_fresh_iff hq' hpos rfl

/-- Whoever leaves the queues does not make the timer late. -/
theorem InTime.sub {clock : UInt64} (hin : InTime h clock) (hq : Queues h)
    (hpos : ∀ x ∈ h.queued, x.expireMs ≠ 0) (hclock : clock ≤ now)
    (htimer : h'.mOneShotTimer = h.mOneShotTimer) (hsub : ∀ x ∈ h'.queued, x ∈ h.queued) :
    InTime h' now := by
  intro hne
  obtain ⟨x, hx⟩ := List.exists_mem_of_ne_nil _ hne
  have hne' : h.queued ≠ [] := List.ne_nil_of_mem (hsub x hx)
  have hold := earliest_nextMs hq hpos hne'
  obtain ⟨t, ht, hbound⟩ := hin hne'
  refine ⟨t, htimer.trans ht, ?_⟩
  rintro ts ⟨⟨y, hy, rfl⟩, -⟩
  have hle : h.nextMs.toNat ≤ y.expireMs.toNat := hold.2 y (hsub y hy)
  have hclock' : clock.toNat ≤ now.toNat := hclock
  have hold10 := hbound _ hold
  omega

/-! ## Whole runs -/

namespace History

variable {s s' : History}

/-- A post or send that becomes the first to be due, and that leaves the timer that runs alone, finds
    it armed in time; and `OnTimeout` arms it for no deadline that has passed long ago. -/
def Refreshes (s : History) (e : Event) : Prop :=
  (∀ x ∈ e.op.entry? s.handler e.now, x.admitted s.handler = true →
    (∀ y ∈ s.handler.queued, x.expireMs < y.expireMs) →
    ¬ x.expireMs + INTERVAL.toUInt64 < s.handler.mNextTimeoutMs →
    ∀ t ∈ s.handler.mOneShotTimer, t ≤ x.expireMs.toNat + 10) ∧
  (e.op = .onTimeout → ∀ x ∈ s.handler.staying e.now,
    (∀ y ∈ s.handler.staying e.now, x.expireMs ≤ y.expireMs) → ¬ Passed e.now x.expireMs)

instance (s : History) (e : Event) : Decidable (Refreshes s e) :=
  inferInstanceAs (Decidable ((∀ x ∈ e.op.entry? s.handler e.now, x.admitted s.handler = true →
    (∀ y ∈ s.handler.queued, x.expireMs < y.expireMs) →
    ¬ x.expireMs + INTERVAL.toUInt64 < s.handler.mNextTimeoutMs →
    ∀ t ∈ s.handler.mOneShotTimer, t ≤ x.expireMs.toNat + 10) ∧
  (e.op = .onTimeout → ∀ x ∈ s.handler.staying e.now,
    (∀ y ∈ s.handler.staying e.now, x.expireMs ≤ y.expireMs) → ¬ Passed e.now x.expireMs)))

/-- The operation comes at a positive time, and not before the last one. -/
def Forward (s : History) (e : Event) : Prop := s.clock ≤ e.now ∧ 0 < e.now

/-- The queues and the timer between two operations. -/
structure OnSchedule (s : History) : Prop where
  kept : Kept s
  timed : Timed s.handler
  inTime : InTime s.handler s.clock

/-- When the timer is in time after an operation. -/
theorem inTime_called_iff (hs : OnSchedule s) (hf : Forward s e)
    (hc : Called s.handler e h' ok calls) : InTime h' e.now ↔ Refreshes s e := by
  obtain ⟨hk, ht, hin⟩ := hs
  obtain ⟨hclock, hpos⟩ := hf
  have ht' := ht.called hk.queues hpos hc
  cases hc with
  | accepted x hentry hadm hkeep hnow =>
    have hop : e.op ≠ .onTimeout := by
      intro hop
      rw [hop] at hentry
      cases hentry
    have hpos' : ∀ z ∈ (s.handler.accept x).queued, z.expireMs ≠ 0 := by
      simpa only [queued_update] using ht'.pos
    rw [inTime_accept_iff hk.queues ht hin hadm hpos' hclock hnow, Refreshes, hentry]
    simp [hadm, hop]
  | removed hop hrefused timer htimer =>
    refine iff_of_true ?_ ⟨fun x hx hadm => absurd hadm (hrefused x hx), fun h => absurd h hop⟩
    have hfilter := queued_filter s.handler (fun x => !e.op.removes x) s.handler.mNextTimeoutMs timer
    rcases htimer with rfl | hall
    · refine hin.sub hk.queues ht.pos hclock rfl fun x hx => ?_
      rw [hfilter] at hx
      exact (List.mem_filter.mp hx).1
    · refine inTime_of_nil ?_
      rw [hfilter]
      simp [hall]
  | timedOut _ _ hop hout =>
    rw [inTime_onTimeout_iff hk.queues ht hout, Refreshes, hop]
    simp [Op.entry?]

/-- When it is in time after a step. -/
theorem inTime_step_iff (hs : OnSchedule s) (hf : Forward s e) :
    (∀ s', s.step e = .ok s' → InTime s'.handler e.now) ↔ Refreshes s e := by
  obtain ⟨s', hs'⟩ := step_ok hs.timed e
  have hone : (∀ s'', s.step e = .ok s'' → InTime s''.handler e.now) ↔ InTime s'.handler e.now := by
    refine ⟨fun h => h s' hs', fun h s'' hs'' => ?_⟩
    rwa [Except.ok.inj (hs''.symm.trans hs')]
  rw [hone]
  obtain ⟨h, ok, calls, hcall, rfl⟩ := step_cases hs'
  exact inTime_called_iff hs hf (call_cases hs.kept.queues hcall)

/-- A step that leaves it in time leaves the schedule right. -/
theorem OnSchedule.step (hs : OnSchedule s) (hf : Forward s e) (hs' : s.step e = .ok s')
    (hin : InTime s'.handler e.now) : OnSchedule s' := by
  have hk' := hs.kept.step hs'
  obtain ⟨h, ok, calls, hcall, rfl⟩ := step_cases hs'
  exact ⟨hk', hs.timed.called hs.kept.queues hf.2 (call_cases hs.kept.queues hcall), hin⟩

/-- A clock that starts after 0 and does not go back. -/
structure Clock (es : List Event) : Prop where
  positive : ∀ e ∈ es, 0 < e.now
  forward : es.Pairwise fun a b => a.now ≤ b.now

theorem Clock.eachStep {es : List Event} (hc : Clock es) (hs : ∀ e ∈ es, s.clock ≤ e.now) :
    EachStep step Forward s es := by
  induction es generalizing s with
  | nil => trivial
  | cons e es ih =>
    obtain ⟨hpos, hfwd⟩ := hc
    obtain ⟨hhead, htail⟩ := List.pairwise_cons.mp hfwd
    refine ⟨⟨hs e List.mem_cons_self, hpos e List.mem_cons_self⟩, fun s' hs' => ?_⟩
    have hc' : Clock es := ⟨fun e' he' => hpos e' (List.mem_cons_of_mem _ he'), htail⟩
    refine ih hc' ?_
    obtain ⟨h, ok, calls, -, rfl⟩ := step_cases hs'
    exact hhead

theorem onSchedule_init (self : Nat) (mCallback : Bool) : OnSchedule (init self mCallback) := by
  refine ⟨kept_init self mCallback, ⟨?_, ?_, ?_⟩, inTime_of_nil rfl⟩ <;> simp [init, queued]

/-- When it is in time in a whole run. -/
theorem inTime_iff_refreshes {es : List Event} (hs : OnSchedule s) (hf : EachStep step Forward s es) :
    Always step (fun _ e s' => InTime s'.handler e.now) s es ↔ EachStep step Refreshes s es := by
  refine always_iff_eachStep_of (N := Forward) (J := OnSchedule) ?_ ?_ es s hs hf
  · intro s e s' hs hf hs' hin
    exact hs.step hf hs' hin
  · intro s e hs hf
    exact inTime_step_iff hs hf

/-- In a run of a handler by a clock that does not go back, the timer is in time after every
    operation, exactly if no post or send that becomes the first to be due finds `mNextTimeoutMs`
    close but the timer late, and no deadline passed too long ago to be told from a later one. -/
theorem timer_in_time_iff (self : Nat) (mCallback : Bool) (es : List Event) (hclock : Clock es) :
    Always step (fun _ e s' => InTime s'.handler e.now) (init self mCallback) es ↔
      EachStep step Refreshes (init self mCallback) es := by
  refine inTime_iff_refreshes (onSchedule_init self mCallback) (hclock.eachStep ?_)
  intro e _
  exact UInt64.zero_le

/-- One post a little earlier than the last, and one much earlier. -/
def twoPosts : List Event :=
  [⟨1, .postAtTime { mTask := some 1, mKey := 1 } 1000⟩,
    ⟨1, .postAtTime { mTask := some 2, mKey := 2 } 995⟩,
    ⟨2, .postAtTime { mTask := some 3, mKey := 3 } 500⟩, ⟨500, .onTimeout⟩]

/-- The second task is due after the first one. -/
theorem timer_in_time_two_posts : Clock twoPosts ∧
    Always step (fun _ e s' => InTime s'.handler e.now) (init 0 true) twoPosts := by
  have hclock : Clock twoPosts := ⟨by decide, by decide⟩
  exact ⟨hclock, (timer_in_time_iff 0 true twoPosts hclock).mpr (by decide +kernel)⟩

/-- Three posts, each ten milliseconds earlier than the one before: the timer stays where the first
    one put it. -/
def threePosts : List Event :=
  [⟨1, .postAtTime { mTask := some 1, mKey := 1 } 1000⟩,
    ⟨1, .postAtTime { mTask := some 2, mKey := 2 } 990⟩,
    ⟨1, .postAtTime { mTask := some 3, mKey := 3 } 980⟩]

/-- The third task is due a little earlier, and the timer is not set up again. -/
theorem timer_late_after_three_posts : Clock threePosts ∧
    (∃ s, run step (init 0 true) threePosts = .ok s ∧ s.handler.nextMs = 980 ∧
      s.handler.mOneShotTimer = some 1000) ∧
    ¬ Always step (fun _ e s' => InTime s'.handler e.now) (init 0 true) threePosts := by
  have hclock : Clock threePosts := ⟨by decide, by decide⟩
  obtain ⟨s, hs, heq⟩ := exists_of_toOption (x := run step (init 0 true) threePosts)
    (f := fun s => (s.handler.nextMs, s.handler.mOneShotTimer)) (b := (980, some 1000))
    (by decide +kernel)
  refine ⟨hclock, ⟨s, hs, congrArg Prod.fst heq, congrArg Prod.snd heq⟩, ?_⟩
  rw [inTime_iff_refreshes (onSchedule_init 0 true) (hclock.eachStep fun _ _ => UInt64.zero_le)]
  decide +kernel

end History

end Handler

end Rsock
