import Mathlib.Data.List.DropRight
import Mathlib.Data.UInt
import Mathlib.Tactic.Tauto
import Rsock.Handler

/-!
# Proofs: the message loop

`Handler.call_cases` says once what an operation does to the queues and the timer. From it follow the
discipline of the queues (`Handler.queue_discipline_iff`) and how late the timer can be
(`Handler.timer_in_time_iff`). Times are compared as signed 64-bit differences, and the timer that
runs is compared by the deadline it was last kept for; each of the two is right only while what it
compares stays close.
-/

namespace Rsock

open CMem TransSys DeadlineQueue

namespace Handler

/-! ## Differences of times -/

/-- The difference of two times as the code takes it: as a signed number. -/
theorem toInt_toInt64_sub (ts now : UInt64) :
    (ts - now).toInt64.toInt =
      if now.toNat ≤ ts.toNat then
        if ts.toNat < now.toNat + 2 ^ 63 then (ts.toNat : Int) - now.toNat
        else (ts.toNat : Int) - now.toNat - 2 ^ 64
      else if now.toNat ≤ ts.toNat + 2 ^ 63 then (ts.toNat : Int) - now.toNat
      else (ts.toNat : Int) - now.toNat + 2 ^ 64 := by
  have hts := ts.toNat_lt
  have hnow := now.toNat_lt
  have hsub := UInt64.toNat_sub ts now
  have hint : (ts - now).toInt64.toInt =
      if 2 * (ts - now).toNat < 2 ^ 64 then ((ts - now).toNat : Int)
      else ((ts - now).toNat : Int) - 2 ^ 64 := BitVec.toInt_eq_toNat_cond _
  rw [hint]
  split_ifs <;> omega

theorem toNat_INTERVAL : INTERVAL.toInt = 10 := rfl

/-- The difference between the two times is small enough to be taken as a signed number. The last
    case is that of a time shortly before the clock starts again from 0. -/
def Near (now ts : UInt64) : Prop :=
  ts.toNat < now.toNat + 2 ^ 63 ∧
    (now.toNat ≤ ts.toNat + 2 ^ 63 ∨ ts.toNat + 2 ^ 64 < now.toNat + 10)

instance (now ts : UInt64) : Decidable (Near now ts) := inferInstanceAs (Decidable (_ ∧ (_ ∨ _)))

/-- When an entry is taken for due. -/
theorem due_iff (now ts : UInt64) :
    due now ts = true ↔
      (now.toNat ≤ ts.toNat + 2 ^ 63 ∧ ts.toNat < now.toNat + 10) ∨
        now.toNat + 2 ^ 63 ≤ ts.toNat ∨ ts.toNat + 2 ^ 64 < now.toNat + 10 := by
  have hts := ts.toNat_lt
  have hnow := now.toNat_lt
  have hint := toInt_toInt64_sub ts now
  rw [due, decide_eq_true_iff, Int64.lt_iff_toInt_lt, toNat_INTERVAL]
  split_ifs at hint <;> omega

/-- It is right exactly if the two times are not too far from each other. -/
theorem due_eq_iff_near (now ts : UInt64) :
    (due now ts = true ↔ ts.toNat < now.toNat + 10) ↔ Near now ts := by
  rw [due_iff, Near]
  omega

/-! ## Removal and scan -/

section RemoveMessages

variable {what : Int} {k : Nat} {A B C : List Message} {x y : Message}

/-- A swap moves one message to the front of another. -/
theorem swapDown_append (hk : A.length + 1 = k) :
    swapDown (A ++ x :: y :: C) k = A ++ y :: x :: C := by
  subst hk
  have hj : (A ++ x :: y :: C)[A.length + 1]? = some y := by simp
  have hj' : (A ++ x :: y :: C)[A.length + 1 - 1]? = some x := by simp
  unfold swapDown
  rw [hj, hj']
  simp

/-- The inner loop moves one message down to position `k`, past the messages between. -/
theorem moveDown_append (hk : A.length = k) (C : List Message) :
    moveDown k (k + B.length) (A ++ B ++ y :: C) = A ++ y :: B ++ C := by
  induction B using List.reverseRecOn generalizing C with
  | nil =>
    cases k with
    | zero => simp [moveDown]
    | succ k => simp [moveDown]
  | append_singleton B b ih =>
    have hlen : k + (B ++ [b]).length = k + B.length + 1 := by simp; omega
    have hlist : A ++ (B ++ [b]) ++ y :: C = (A ++ B) ++ b :: y :: C := by simp
    have hpos : (A ++ B).length + 1 = k + B.length + 1 := by simp [hk]
    rw [hlen, moveDown, if_pos (by omega), hlist, swapDown_append hpos, ih (b :: C)]
    simp

/-- What the loop leaves: the messages to delete, the first message, then those to keep. -/
theorem dropWhile_eq_filter (what : Int) (x : Message) {A B : List Message}
    (hA : ∀ m ∈ A, m.what = what) (hB : ∀ m ∈ B, m.what ≠ what) :
    (A ++ x :: B).dropWhile (·.what == what) =
      (A ++ x :: B).filter (fun m => !(m.what == what)) := by
  have hdrop : A.dropWhile (·.what == what) = [] := by
    rw [List.dropWhile_eq_nil_iff]
    intro m hm
    exact beq_iff_eq.mpr (hA m hm)
  have hfilterA : A.filter (fun m => !(m.what == what)) = [] := by
    refine List.filter_eq_nil_iff.mpr fun m hm => ?_
    simp [hA m hm]
  have hfilterB : B.filter (fun m => !(m.what == what)) = B := by
    refine List.filter_eq_self.mpr fun m hm => ?_
    simpa using hB m hm
  have hdropB : B.dropWhile (·.what == what) = B := by
    cases B with
    | nil => rfl
    | cons b B => exact List.dropWhile_cons_of_neg (by simpa using hB b List.mem_cons_self)
  rw [List.dropWhile_append, hdrop, List.filter_append, hfilterA]
  by_cases hx : (x.what == what) = true
  · simp [hx, hdropB, hfilterB]
  · simp [hx, hfilterB]

/-- Before position `i` stand the messages to delete, then the first message, which the loop has not
    looked at, then messages to keep. -/
theorem moveToFront_spec (what : Int) (x : Message) (n i k : Nat) (A B C : List Message)
    (hn : C.length = n) (hk : A.length = k) (hi : k + (x :: B).length = i)
    (hA : ∀ m ∈ A, m.what = what) (hB : ∀ m ∈ B, m.what ≠ what) :
    (moveToFront what n i k (A ++ x :: B ++ C)).dropWhile (·.what == what) =
      (A ++ x :: B ++ C).filter (fun m => !(m.what == what)) := by
  induction n generalizing i k A B C with
  | zero =>
    obtain rfl : C = [] := List.eq_nil_of_length_eq_zero hn
    rw [List.append_nil, moveToFront]
    exact dropWhile_eq_filter what x hA hB
  | succ n ih =>
    cases C with
    | nil => cases hn
    | cons y C =>
      have hn' : C.length = n := by simpa using hn
      have hlen : (A ++ x :: B).length = i := by simp [hk] at hi ⊢; omega
      have hget : (A ++ x :: B ++ y :: C)[i]? = some y := by
        rw [List.getElem?_append_right (by omega), hlen]
        simp
      rw [moveToFront, hget]
      by_cases hy : (y.what == what) = true
      · rw [if_pos (by simpa using hy), ← hi, moveDown_append hk]
        have hlist : A ++ y :: (x :: B) ++ C = (A ++ [y]) ++ x :: B ++ C := by simp
        rw [hlist, ih (k + (x :: B).length + 1) (k + 1) (A ++ [y]) B C hn' (by simp [hk]) (by omega)
          ?_ hB]
        · simp [List.filter_append, List.filter_cons, hy]
        · intro m hm
          rcases List.mem_append.mp hm with hm | hm
          · exact hA m hm
          · rw [List.mem_singleton.mp hm]
            exact beq_iff_eq.mp hy
      · have hlist : A ++ x :: B ++ y :: C = A ++ x :: (B ++ [y]) ++ C := by simp
        rw [if_neg (by simpa using hy), hlist, ih (i + 1) k A (B ++ [y]) C hn' hk ?_ hA ?_]
        · simp at hi ⊢
          omega
        · intro m hm
          rcases List.mem_append.mp hm with hm | hm
          · exact hB m hm
          · rw [List.mem_singleton.mp hm]
            simpa using hy

/-- The bubbling and the cut leave a filtered queue. -/
theorem removeMessages_eq (h : Handler) (what : Int) :
    (h.removeMessages what).1 =
      { h with mMessageList := h.mMessageList.filter (fun m => !(m.what == what)) } := by
  unfold removeMessages
  cases hl : h.mMessageList with
  | nil => rfl
  | cons x l =>
    have hspec := moveToFront_spec what x l.length 1 0 [] [] l rfl rfl rfl
      (by simp) (by simp)
    simp only [List.nil_append, List.cons_append] at hspec
    simp only [List.length_cons, Nat.add_sub_cancel, hspec]

theorem length_swapDown (l : List Message) (j : Nat) : (swapDown l j).length = l.length := by
  unfold swapDown
  split
  · rw [List.length_set, List.length_set]
  · rfl

theorem length_moveDown (k j : Nat) (l : List Message) : (moveDown k j l).length = l.length := by
  induction j generalizing l with
  | zero => rfl
  | succ j ih =>
    rw [moveDown]
    split
    · rw [ih, length_swapDown]
    · rfl

/-- No message gets lost on the way. -/
theorem length_moveToFront (what : Int) (n i k : Nat) (l : List Message) :
    (moveToFront what n i k l).length = l.length := by
  induction n generalizing i k l with
  | zero => rfl
  | succ n ih =>
    rw [moveToFront]
    split
    · rw [ih, length_moveDown]
    · exact ih _ _ _

/-- `RemoveMessages` is a filter: the other messages stay, in their order. The result says whether
    there was something to remove. -/
theorem removeMessages_is_filter (h : Handler) (what : Int) :
    (h.removeMessages what).1 =
        { h with mMessageList := h.mMessageList.filter fun m => m.what ≠ what } ∧
      ((h.removeMessages what).2 = true ↔ ∃ m ∈ h.mMessageList, m.what = what) := by
  have hrest := removeMessages_eq h what
  have hfilter : h.mMessageList.filter (fun m => !(m.what == what)) =
      h.mMessageList.filter fun m => m.what ≠ what := by
    refine List.filter_congr fun m _ => ?_
    by_cases hm : m.what = what <;> simp [hm]
  rw [hfilter] at hrest
  refine ⟨hrest, ?_⟩
  have hok : (h.removeMessages what).2 = true ↔
      (h.removeMessages what).1.mMessageList.length < h.mMessageList.length := by
    simp only [removeMessages, length_moveToFront, decide_eq_true_eq]
  rw [hok, hrest, List.length_filter_lt_length_iff_exists]
  simp

end RemoveMessages

/-- The loops of `onTimeout` divide a queue into what is due and what is not. -/
theorem scan_eq {α : Type} (expireMs : α → UInt64) (now : UInt64) (l : List α) :
    scan expireMs now l =
      (l.filter (fun a => due now (expireMs a)), l.filter (fun a => !due now (expireMs a))) := by
  induction l with
  | nil => rfl
  | cons a l ih =>
    rw [scan, ih]
    by_cases ha : due now (expireMs a) = true
    · simp [ha]
    · simp [ha]

/-! ## What an operation does -/

/-- What `Message::operator==` compares. -/
def Message.name (m : Message) : Int × Int × String × Option Nat × Option Nat :=
  (m.what, m.arg1, m.msg, m.obj, m.handler)

/-- Tasks are the same if their keys are. -/
theorem Task.equal_iff {a b : Task} : a.equal b = true ↔ a.mKey = b.mKey := beq_iff_eq

/-- Messages are the same if all but their times are. -/
theorem Message.equal_iff {a b : Message} : a.equal b = true ↔ a.name = b.name := by
  unfold Message.equal Message.name
  simp only [Bool.and_eq_true, beq_iff_eq, Prod.mk.injEq]
  constructor
  · rintro ⟨⟨⟨⟨h1, h2⟩, h3⟩, h4⟩, h5⟩
    exact ⟨h1.symm, h2.symm, h3.symm, h4.symm, h5.symm⟩
  · rintro ⟨h1, h2, h3, h4, h5⟩
    exact ⟨⟨⟨⟨h1.symm, h2.symm⟩, h3.symm⟩, h4.symm⟩, h5.symm⟩

/-- Both queues are sorted, and hold no entry twice. -/
structure Queues (h : Handler) : Prop where
  tasks : Ordered Task.expireMs Task.mKey h.mTaskList
  messages : Ordered Message.expireMs Message.name h.mMessageList

section Fields

variable (h : Handler) (now : UInt64)

@[simp] theorem mTaskList_destroyTimer : h.destroyTimer.mTaskList = h.mTaskList := rfl

@[simp] theorem mMessageList_destroyTimer : h.destroyTimer.mMessageList = h.mMessageList := rfl

theorem setupOneShotTimer_eq (ts prev : UInt64) : ∃ timer,
    h.setupOneShotTimer ts prev now = { h with mOneShotTimer := timer } := by
  unfold setupOneShotTimer
  split
  · exact ⟨_, rfl⟩
  · split
    · exact ⟨_, rfl⟩
    · exact ⟨h.mOneShotTimer, rfl⟩

/-- The timer is all that changes. -/
theorem updateNextMsAndTimer_eq : ∃ next timer,
    h.updateNextMsAndTimer now = { h with mNextTimeoutMs := next, mOneShotTimer := timer } := by
  unfold updateNextMsAndTimer
  split
  · exact ⟨0, none, rfl⟩
  · obtain ⟨timer, htimer⟩ := setupOneShotTimer_eq h now h.nextMs h.mNextTimeoutMs
    refine ⟨h.nextMs, timer, ?_⟩
    dsimp only
    rw [htimer]

@[simp] theorem mTaskList_update : (h.updateNextMsAndTimer now).mTaskList = h.mTaskList := by
  obtain ⟨next, timer, heq⟩ := updateNextMsAndTimer_eq h now
  rw [heq]

@[simp] theorem mMessageList_update : (h.updateNextMsAndTimer now).mMessageList = h.mMessageList := by
  obtain ⟨next, timer, heq⟩ := updateNextMsAndTimer_eq h now
  rw [heq]

end Fields

variable {h h' : Handler} {e : Event} {ok : Bool} {calls : List Entry}

/-- The time at which the entry is due. -/
def Entry.expireMs : Entry → UInt64
  | .task t => t.expireMs
  | .message m => m.expireMs

/-- There is something to call, and no equal entry waits. -/
def Entry.admitted (h : Handler) : Entry → Bool
  | .task t => t.mTask.isSome && !h.mTaskList.any (·.equal t)
  | .message m => h.mCallback && !h.mMessageList.any (·.equal m)

/-- The handler with the entry in its queue. -/
def accept (h : Handler) : Entry → Handler
  | .task t => { h with mTaskList := insert Task.expireMs t h.mTaskList }
  | .message m => { h with mMessageList := insert Message.expireMs m h.mMessageList }

/-- The common body of `doPost` and `SendMessageAtTime`, for the entry with its time. -/
def offer (h : Handler) (now : UInt64) (x : Entry) : Handler × Bool :=
  if x.admitted h then ((h.accept x).updateNextMsAndTimer now, true) else (h, false)

/-- Who is accepted waits. -/
theorem perm_queued_accept (h : Handler) (x : Entry) : (h.accept x).queued.Perm (x :: h.queued) := by
  cases x with
  | task t =>
    have hperm := perm_insert Task.expireMs t h.mTaskList
    exact (hperm.map Entry.task).append_right _
  | message m =>
    have hperm := perm_insert Message.expireMs m h.mMessageList
    exact ((hperm.map Entry.message).append_left _).trans List.perm_middle

/-- The queues stay in order when somebody is accepted. -/
theorem Queues.accept {x : Entry} (hq : Queues h) (hadm : x.admitted h = true) :
    Queues (h.accept x) := by
  cases x with
  | task t =>
    have hnone : ¬ h.mTaskList.any (·.equal t) = true := by
      simpa using ((Bool.and_eq_true _ _).mp hadm).2
    refine ⟨hq.tasks.insert fun t' ht' heq => hnone ?_, hq.messages⟩
    exact List.any_eq_true.mpr ⟨t', ht', Task.equal_iff.mpr heq⟩
  | message m =>
    have hnone : ¬ h.mMessageList.any (·.equal m) = true := by
      simpa using ((Bool.and_eq_true _ _).mp hadm).2
    refine ⟨hq.tasks, hq.messages.insert fun m' hm' heq => hnone ?_⟩
    exact List.any_eq_true.mpr ⟨m', hm', Message.equal_iff.mpr heq⟩

theorem le_notBefore (now ts : UInt64) : now ≤ notBefore now ts := by
  unfold notBefore
  split
  · exact UInt64.le_refl now
  · next hge => exact UInt64.not_lt.mp hge

/-- What an operation can do: accept an entry, take entries out, or look for what is due. -/
inductive Called (h : Handler) (e : Event) : Handler → Bool → List Entry → Prop where
  | accepted (x : Entry) (hentry : e.op.entry? h e.now = some x) (hadm : x.admitted h = true)
      (hkeep : ∀ y, e.op.removes y = false) (hnow : e.now ≤ x.expireMs) :
      Called h e ((h.accept x).updateNextMsAndTimer e.now) true []
  | removed (hop : e.op ≠ .onTimeout)
      (hrefused : ∀ x, e.op.entry? h e.now = some x → ¬ x.admitted h = true) (timer : Option Nat)
      (htimer : timer = h.mOneShotTimer ∨ ∀ x, e.op.removes x = true) :
      Called h e { h with
        mTaskList := h.mTaskList.filter (fun t => !e.op.removes (.task t))
        mMessageList := h.mMessageList.filter (fun m => !e.op.removes (.message m))
        mOneShotTimer := timer } false []
  | timedOut (h' : Handler) (calls : List Entry) (hop : e.op = .onTimeout)
      (hout : h.onTimeout e.now = .ok (h', calls)) : Called h e h' false calls

/-- A post or a send: the entry is accepted if it is admitted, and nothing happens otherwise. -/
theorem called_offer {x : Entry} (hentry : e.op.entry? h e.now = some x) (hnow : e.now ≤ x.expireMs) :
    Called h e (h.offer e.now x).1 (h.offer e.now x).2 [] := by
  have hkeep : ∀ y, e.op.removes y = false := by
    intro y
    cases hop : e.op with
    | removeTask | removeMessage | removeMessages | removeAll =>
      rw [hop] at hentry
      cases hentry
    | _ => rfl
  have hop : e.op ≠ .onTimeout := by
    intro hop
    rw [hop] at hentry
    cases hentry
  unfold offer
  by_cases hadm : x.admitted h = true
  · rw [if_pos hadm]
    exact .accepted x hentry hadm hkeep hnow
  · rw [if_neg hadm]
    have hrefused : ∀ y, e.op.entry? h e.now = some y → ¬ y.admitted h = true := by
      intro y hy
      rw [← Option.some.inj (hentry.symm.trans hy)]
      exact hadm
    have hsame := Called.removed hop hrefused h.mOneShotTimer (.inl rfl)
    simpa only [hkeep, Bool.not_false, List.filter_true] using hsame

/-- A post offers the task to the handler. -/
theorem doPost_eq (h : Handler) (now : UInt64) (task : Task) (ts : UInt64) :
    h.doPost now task ts = h.offer now (.task (task.at now ts)) := by
  have hequal : ∀ t : Task, t.equal (task.at now ts) = t.equal task := fun _ => rfl
  have hsome : (task.at now ts).mTask = task.mTask := rfl
  unfold doPost offer
  simp only [Entry.admitted, hequal, hsome]
  cases task.mTask with
  | none => rfl
  | some f =>
    by_cases hany : h.mTaskList.any (·.equal task) = true
    · simp [hany]
    · simp [hany, accept]

/-- A send offers the message to the handler. -/
theorem sendMessageAtTime_eq (h : Handler) (now : UInt64) (msg : Message) (ts : UInt64) :
    (h.sendMessageAtTime now msg ts).getD (h, false) = h.offer now (.message (h.own msg now ts)) := by
  unfold sendMessageAtTime offer
  simp only [Entry.admitted]
  by_cases hcb : h.mCallback = true
  · by_cases hany : h.mMessageList.any (·.equal (h.own msg now ts)) = true
    · simp [hcb, hany]
    · simp [hcb, hany, accept]
  · simp [hcb]

theorem called_doPost {task : Task} {ts : UInt64}
    (hentry : e.op.entry? h e.now = some (.task (task.at e.now ts))) :
    Called h e (h.doPost e.now task ts).1 (h.doPost e.now task ts).2 [] := by
  rw [doPost_eq]
  exact called_offer hentry (le_notBefore e.now ts)

theorem called_sendMessageAtTime {msg : Message} {ts : UInt64}
    (hentry : e.op.entry? h e.now = some (.message (h.own msg e.now ts))) :
    Called h e ((h.sendMessageAtTime e.now msg ts).getD (h, false)).1
      ((h.sendMessageAtTime e.now msg ts).getD (h, false)).2 [] := by
  rw [sendMessageAtTime_eq]
  exact called_offer hentry (le_notBefore e.now ts)

theorem filter_eq_of_not_any {α : Type} {p : α → Bool} {l : List α} (hnone : ¬ l.any p = true) :
    l.filter (fun a => !p a) = l := by
  refine List.filter_eq_self.mpr fun a ha => ?_
  have hpa : ¬ p a = true := fun hpa => hnone (List.any_eq_true.mpr ⟨a, ha, hpa⟩)
  simpa using hpa

/-- One task with the key is removed, and there is no other. -/
theorem removeTask_eq (hq : Queues h) (task : Task) :
    (h.removeTask task).1 =
      { h with mTaskList := h.mTaskList.filter (fun t => !t.equal task) } := by
  unfold removeTask
  split
  · rw [hq.tasks.eraseP_eq_filter fun t => Task.equal_iff]
  · next hnone => rw [filter_eq_of_not_any hnone]

/-- So is one message. -/
theorem removeMessage_eq (hq : Queues h) (msg : Message) :
    (h.removeMessage msg).1 = { h with
      mMessageList := h.mMessageList.filter (fun m => !(msg.handler.isSome && m.equal msg)) } := by
  unfold removeMessage
  by_cases hs : msg.handler.isSome = true
  · simp only [hs, Bool.true_and]
    split
    · rw [hq.messages.eraseP_eq_filter fun m => Message.equal_iff]
    · next hnone => rw [filter_eq_of_not_any hnone]
  · have hs' : msg.handler.isSome = false := by simpa using hs
    simp [hs']

/-- What an operation does to the queues. -/
theorem call_cases (hq : Queues h) (hr : h.call e = .ok (h', ok, calls)) :
    Called h e h' ok calls := by
  obtain ⟨now, op⟩ := e
  cases op with
  | post task =>
    cases hr
    exact called_doPost rfl
  | postDelayed task delay =>
    cases hr
    exact called_doPost rfl
  | postAtTime task ts =>
    cases hr
    exact called_doPost rfl
  | sendMessage msg =>
    cases hr
    exact called_sendMessageAtTime rfl
  | sendMessageDelayed msg delay =>
    cases hr
    exact called_sendMessageAtTime rfl
  | sendMessageAtTime msg ts =>
    cases hr
    exact called_sendMessageAtTime rfl
  | removeTask task =>
    cases hr
    rw [removeTask_eq hq]
    have hc := Called.removed (h := h) (e := ⟨now, .removeTask task⟩) (by simp) (fun _ hy => by cases hy)
      h.mOneShotTimer (.inl rfl)
    simpa only [Op.removes, Bool.not_false, List.filter_true] using hc
  | removeMessage msg =>
    cases hr
    rw [removeMessage_eq hq]
    have hc := Called.removed (h := h) (e := ⟨now, .removeMessage msg⟩) (by simp) (fun _ hy => by cases hy)
      h.mOneShotTimer (.inl rfl)
    simpa only [Op.removes, Bool.not_false, List.filter_true] using hc
  | removeMessages what =>
    cases hr
    rw [removeMessages_eq]
    have hc := Called.removed (h := h) (e := ⟨now, .removeMessages what⟩) (by simp) (fun _ hy => by cases hy)
      h.mOneShotTimer (.inl rfl)
    simpa only [Op.removes, Bool.not_false, List.filter_true] using hc
  | removeAll =>
    cases hr
    have hc := Called.removed (h := h) (e := ⟨now, .removeAll⟩) (by simp) (fun _ hy => by cases hy) none
      (.inr fun _ => rfl)
    simpa only [Op.removes, Bool.not_true, List.filter_false, removeAll, destroyTimer] using hc
  | onTimeout =>
    obtain ⟨⟨h₁, calls₁⟩, hout, hr⟩ := bind_eq_ok.mp hr
    cases hr
    exact .timedOut h' calls rfl hout

theorem queued_filter (h : Handler) (p : Entry → Bool) (next : UInt64) (timer : Option Nat) :
    queued { h with
      mTaskList := h.mTaskList.filter (fun t => p (.task t))
      mMessageList := h.mMessageList.filter (fun m => p (.message m))
      mNextTimeoutMs := next
      mOneShotTimer := timer } = h.queued.filter p := by
  unfold queued
  rw [List.filter_append, List.filter_map, List.filter_map]
  rfl

@[simp] theorem queued_update (h : Handler) (now : UInt64) :
    (h.updateNextMsAndTimer now).queued = h.queued := by
  simp only [queued, mTaskList_update, mMessageList_update]

theorem queued_eq_nil_iff (h : Handler) :
    h.queued = [] ↔ (h.mTaskList.isEmpty && h.mMessageList.isEmpty) = true := by
  simp [queued]

/-- The timer goes off and `OnTimeout` looks at the queues. -/
def Scans (h : Handler) (now : UInt64) : Prop :=
  ¬ h.mNextTimeoutMs > now + INTERVAL.toUInt64 ∧ h.mNextTimeoutMs ≠ 0

instance (h : Handler) (now : UInt64) : Decidable (h.Scans now) := inferInstanceAs (Decidable (_ ∧ _))

/-- The handler without what is due. -/
def keep (h : Handler) (now : UInt64) : Handler := { h with
  mTaskList := h.mTaskList.filter (fun t => !due now t.expireMs)
  mMessageList := h.mMessageList.filter (fun m => !due now m.expireMs)
  mOneShotTimer := none }

theorem queued_keep (h : Handler) (now : UInt64) :
    (h.keep now).queued = h.queued.filter (fun x => !due now x.expireMs) :=
  queued_filter h (fun x => !due now x.expireMs) h.mNextTimeoutMs none

/-- Nobody waits: the timer goes. -/
theorem onTimeout_nil {now : UInt64} (hnil : h.queued = []) :
    h.onTimeout now = .ok (h.destroyTimer, []) := by
  have hempty := (queued_eq_nil_iff h).mp hnil
  rw [Bool.and_comm] at hempty
  exact if_pos hempty

/-- The timer comes too early, or whoever is due is called. -/
theorem onTimeout_cons {now : UInt64} (hne : h.queued ≠ []) :
    h.onTimeout now =
      if h.mNextTimeoutMs > now + INTERVAL.toUInt64 then
        .ok (h.destroyTimer.updateNextMsAndTimer now, [])
      else if h.mNextTimeoutMs = 0 then .error .assertFailed
      else .ok ((h.keep now).updateNextMsAndTimer now,
        h.queued.filter (fun x => due now x.expireMs)) := by
  have hempty := (queued_eq_nil_iff h).not.mp hne
  rw [Bool.and_comm] at hempty
  have hcalls : h.queued.filter (fun x => due now x.expireMs) =
      (h.mTaskList.filter (fun t => due now t.expireMs)).map .task ++
        (h.mMessageList.filter (fun m => due now m.expireMs)).map .message :=
    (queued_filter h (fun x => due now x.expireMs) h.mNextTimeoutMs none).symm
  refine (if_neg hempty).trans ?_
  by_cases hlate : h.mNextTimeoutMs > now + INTERVAL.toUInt64
  · rw [if_pos hlate]
    exact if_pos hlate
  · rw [if_neg hlate]
    refine (if_neg hlate).trans ?_
    by_cases hzero : h.mNextTimeoutMs = 0
    · have hfail : cassert (h.destroyTimer.mNextTimeoutMs ≠ 0) = .error .assertFailed :=
        cassert_neg (not_not.mpr hzero)
      rw [if_pos hzero, hfail]
      rfl
    · have hpass : cassert (h.destroyTimer.mNextTimeoutMs ≠ 0) = .ok () := cassert_pos hzero
      rw [if_neg hzero, hpass, scan_eq, scan_eq, hcalls]
      rfl

/-- The ways `OnTimeout` ends. -/
theorem onTimeout_cases {now : UInt64} (hr : h.onTimeout now = .ok (h', calls)) :
    (h.queued = [] ∧ h' = h.destroyTimer ∧ calls = []) ∨
    (h.queued ≠ [] ∧ h.mNextTimeoutMs > now + INTERVAL.toUInt64 ∧
      h' = h.destroyTimer.updateNextMsAndTimer now ∧ calls = []) ∨
    (h.queued ≠ [] ∧ h.Scans now ∧ h' = (h.keep now).updateNextMsAndTimer now ∧
      calls = h.queued.filter (fun x => due now x.expireMs)) := by
  by_cases hnil : h.queued = []
  · rw [onTimeout_nil hnil] at hr
    cases hr
    exact .inl ⟨hnil, rfl, rfl⟩
  · rw [onTimeout_cons hnil] at hr
    split at hr
    · next hlate =>
      cases hr
      exact .inr (.inl ⟨hnil, hlate, rfl, rfl⟩)
    · next hlate =>
      split at hr
      · cases hr
      · next hzero =>
        cases hr
        exact .inr (.inr ⟨hnil, ⟨hlate, hzero⟩, rfl, rfl⟩)

/-! ## The discipline of the queues -/

theorem Queues.update (hq : Queues h) (now : UInt64) : Queues (h.updateNextMsAndTimer now) := by
  obtain ⟨htasks, hmessages⟩ := hq
  refine ⟨?_, ?_⟩
  · rw [mTaskList_update]
    exact htasks
  · rw [mMessageList_update]
    exact hmessages

/-- Every operation keeps the queues in order. -/
theorem Queues.called (hq : Queues h) (hc : Called h e h' ok calls) : Queues h' := by
  cases hc with
  | accepted x hentry hadm hkeep hnow => exact (hq.accept hadm).update e.now
  | removed hop hrefused timer htimer => exact ⟨hq.tasks.filter _, hq.messages.filter _⟩
  | timedOut _ _ hop hout =>
    rcases onTimeout_cases hout with ⟨-, rfl, -⟩ | ⟨-, -, rfl, -⟩ | ⟨-, -, rfl, -⟩
    · exact ⟨hq.tasks, hq.messages⟩
    · have hd : Queues h.destroyTimer := ⟨hq.tasks, hq.messages⟩
      exact hd.update e.now
    · have hd : Queues (h.keep e.now) := ⟨hq.tasks.filter _, hq.messages.filter _⟩
      exact hd.update e.now

theorem count_filter_add (p : Entry → Bool) (l : List Entry) (x : Entry) :
    (l.filter p).count x + (l.filter (fun y => !p y)).count x = l.count x := by
  rw [← List.count_append]
  exact (List.filter_append_perm p l).count_eq x

/-- What comes into the queues was accepted, what leaves them was removed or called. -/
theorem count_called (hc : Called h e h' ok calls) (x : Entry) :
    h'.queued.count x + (h.queued.filter e.op.removes).count x + calls.count x =
      h.queued.count x + (if ok then (e.op.entry? h e.now).toList else []).count x := by
  have hnone : (∀ y, e.op.removes y = false) → h.queued.filter e.op.removes = [] := by
    intro hkeep
    exact List.filter_eq_nil_iff.mpr fun y _ => by simp [hkeep y]
  cases hc with
  | accepted y hentry hadm hkeep hnow =>
    have hcount := (perm_queued_accept h y).count_eq x
    rw [queued_update, hnone hkeep, hentry, hcount]
    simp only [List.count_cons, List.count_nil, if_true, Option.toList_some]
    omega
  | removed hop hrefused timer htimer =>
    have hadd := count_filter_add e.op.removes h.queued x
    rw [queued_filter h (fun x => !e.op.removes x)]
    simp only [Bool.false_eq_true, if_false, List.count_nil]
    omega
  | timedOut _ _ hop hout =>
    have hkeep : ∀ y, e.op.removes y = false := by
      intro y
      rw [hop]
      rfl
    rw [hnone hkeep]
    simp only [Bool.false_eq_true, if_false, List.count_nil]
    rcases onTimeout_cases hout with ⟨-, rfl, rfl⟩ | ⟨-, -, rfl, rfl⟩ | ⟨-, -, rfl, rfl⟩
    · simp [queued]
    · simp [queued]
    · have hadd := count_filter_add (fun y => due e.now y.expireMs) h.queued x
      rw [queued_update, queued_keep]
      omega

namespace History

variable {s s' : History}

/-- A step is an operation, with what it adds to the history. -/
theorem step_cases (hr : s.step e = .ok s') : ∃ h ok calls, s.handler.call e = .ok (h, ok, calls) ∧
    s' = {
      handler := h
      clock := e.now
      accepted := s.accepted ++ if ok then (e.op.entry? s.handler e.now).toList else []
      removed := s.removed ++ s.handler.queued.filter e.op.removes
      dispatched := s.dispatched ++ calls } := by
  obtain ⟨⟨h, ok, calls⟩, hcall, hr⟩ := bind_eq_ok.mp hr
  exact ⟨h, ok, calls, hcall, (Except.ok.inj hr).symm⟩

/-- Every entry that was accepted waits, was removed or was called, and only one of these. -/
def Accounted (s : History) : Prop :=
  s.accepted.Perm (s.handler.queued ++ s.removed ++ s.dispatched)

/-- What holds after every operation, whatever the times. -/
structure Kept (s : History) : Prop where
  queues : Queues s.handler
  accounted : Accounted s

/-- A new handler has no history. -/
theorem kept_init (self : Nat) (mCallback : Bool) : Kept (init self mCallback) :=
  ⟨⟨ordered_nil, ordered_nil⟩, .refl _⟩

/-- Every step keeps the history right. -/
theorem Kept.step (hk : Kept s) (hr : s.step e = .ok s') : Kept s' := by
  obtain ⟨h, ok, calls, hcall, rfl⟩ := step_cases hr
  have hc := call_cases hk.queues hcall
  refine ⟨hk.queues.called hc, List.perm_iff_count.mpr fun x => ?_⟩
  have hbefore := List.perm_iff_count.mp hk.accounted x
  have hone := count_called hc x
  simp only [List.count_append] at hbefore hone ⊢
  omega

/-- `OnTimeout` calls these. -/
def isDue (now : UInt64) (x : Entry) : Bool := x.expireMs.toNat < now.toNat + 10

/-- The operation leaves sorted queues that hold no entry twice, no entry is lost or called twice, and
    if it is `OnTimeout` and calls anything, it calls what is due, tasks first and each kind in the
    order of its queue, and nothing else leaves the queues. -/
structure Disciplined (s : History) (e : Event) (s' : History) : Prop where
  tasks_sorted : s'.handler.mTaskList.Pairwise fun a b => a.expireMs ≤ b.expireMs
  tasks_distinct : s'.handler.mTaskList.Pairwise fun a b => a.equal b = false
  messages_sorted : s'.handler.mMessageList.Pairwise fun a b => a.expireMs ≤ b.expireMs
  messages_distinct : s'.handler.mMessageList.Pairwise fun a b => a.equal b = false
  accounted : Accounted s'
  calls : ∀ calls, e.op = .onTimeout → s'.dispatched = s.dispatched ++ calls → calls ≠ [] →
    calls = s.handler.queued.filter (isDue e.now) ∧
      s'.handler.queued = s.handler.queued.filter (fun x => !isDue e.now x)

/-- When `OnTimeout` calls anything, no entry waits for a time that is too far from the present to be
    compared with it. -/
def Comparable (s : History) (e : Event) : Prop :=
  e.op = .onTimeout → s.handler.Scans e.now →
    (∃ x ∈ s.handler.queued, due e.now x.expireMs = true) →
    ∀ x ∈ s.handler.queued, Near e.now x.expireMs

/-- For times that are near the code is right about who is due. -/
theorem isDue_eq_of_near {now : UInt64} {x : Entry} (hnear : Near now x.expireMs) :
    due now x.expireMs = isDue now x := by
  rw [Bool.eq_iff_iff, (due_eq_iff_near now x.expireMs).mpr hnear, isDue, decide_eq_true_iff]

/-- If it is right about all that wait, their times are near. -/
theorem near_of_filter_eq {now : UInt64} {l : List Entry}
    (heq : l.filter (fun x => due now x.expireMs) = l.filter (isDue now)) :
    ∀ x ∈ l, Near now x.expireMs := by
  intro x hx
  rw [← due_eq_iff_near]
  have hmem : x ∈ l.filter (fun x => due now x.expireMs) ↔ x ∈ l.filter (isDue now) := by rw [heq]
  simpa only [List.mem_filter, hx, true_and, isDue, decide_eq_true_eq] using hmem

theorem step_onTimeout {now : UInt64} {calls : List Entry} {h : Handler}
    (hout : s.handler.onTimeout now = .ok (h, calls)) : ∃ s', s.step ⟨now, .onTimeout⟩ = .ok s' ∧
      s'.handler = h ∧ s'.dispatched = s.dispatched ++ calls := by
  unfold step call
  rw [hout]
  exact ⟨_, rfl, rfl, rfl⟩

theorem Kept.disciplined (hk : Kept s') (hcalls : ∀ calls, e.op = .onTimeout →
    s'.dispatched = s.dispatched ++ calls → calls ≠ [] →
    calls = s.handler.queued.filter (isDue e.now) ∧
      s'.handler.queued = s.handler.queued.filter (fun x => !isDue e.now x)) :
    Disciplined s e s' := by
  refine ⟨hk.queues.tasks.sorted, ?_, hk.queues.messages.sorted, ?_, hk.accounted, hcalls⟩
  · refine hk.queues.tasks.distinct.imp fun hne => ?_
    exact Bool.eq_false_iff.mpr fun heq => hne (Task.equal_iff.mp heq)
  · refine hk.queues.messages.distinct.imp fun hne => ?_
    exact Bool.eq_false_iff.mpr fun heq => hne (Message.equal_iff.mp heq)

/-- A step is disciplined exactly if the times it compares are near. -/
theorem disciplined_step_iff (hk : Kept s) :
    (∀ s', s.step e = .ok s' → Disciplined s e s') ↔ Comparable s e := by
  constructor
  · rintro h hop hscan ⟨x, hx, hdue⟩
    obtain ⟨now, op⟩ := e
    obtain rfl : op = .onTimeout := hop
    have hout : s.handler.onTimeout now = .ok ((s.handler.keep now).updateNextMsAndTimer now,
        s.handler.queued.filter (fun x => due now x.expireMs)) := by
      rw [onTimeout_cons (List.ne_nil_of_mem hx), if_neg hscan.1, if_neg hscan.2]
    obtain ⟨s', hs', -, hcalls⟩ := step_onTimeout hout
    have hne : s.handler.queued.filter (fun x => due now x.expireMs) ≠ [] :=
      List.ne_nil_of_mem (List.mem_filter.mpr ⟨hx, hdue⟩)
    exact near_of_filter_eq ((h s' hs').calls _ rfl hcalls hne).1
  · intro hcomp s' hs'
    refine (hk.step hs').disciplined fun calls hop heq hne => ?_
    obtain ⟨h, ok, calls', hcall, rfl⟩ := step_cases hs'
    obtain rfl : calls' = calls := List.append_cancel_left heq
    obtain ⟨now, op⟩ := e
    obtain rfl : op = .onTimeout := hop
    obtain ⟨⟨h₁, calls₁⟩, hout, hr⟩ := bind_eq_ok.mp hcall
    cases hr
    rcases onTimeout_cases hout with ⟨-, -, rfl⟩ | ⟨-, -, -, rfl⟩ | ⟨hnil, hscan, rfl, rfl⟩
    · exact absurd rfl hne
    · exact absurd rfl hne
    · obtain ⟨x, hx⟩ := List.exists_mem_of_ne_nil _ hne
      have hnear := hcomp rfl hscan ⟨x, (List.mem_filter.mp hx).1, (List.mem_filter.mp hx).2⟩
      refine ⟨List.filter_congr fun y hy => isDue_eq_of_near (hnear y hy), ?_⟩
      show ((s.handler.keep now).updateNextMsAndTimer now).queued = _
      rw [queued_update, queued_keep]
      exact List.filter_congr fun y hy => by rw [isDue_eq_of_near (hnear y hy)]

end History

/-! ## The next time -/

section Next

variable {now : UInt64}

theorem mem_queued {x : Entry} : x ∈ h.queued ↔
    (∃ t ∈ h.mTaskList, .task t = x) ∨ ∃ m ∈ h.mMessageList, .message m = x := by
  simp only [queued, List.mem_append, List.mem_map]

/-- The time of the first entry to be due, unless an entry is due at 0. -/
theorem nextMs_spec (hq : Queues h) (hpos : ∀ x ∈ h.queued, x.expireMs ≠ 0) (hne : h.queued ≠ []) :
    (∃ x ∈ h.queued, x.expireMs = h.nextMs) ∧ ∀ x ∈ h.queued, h.nextMs ≤ x.expireMs := by
  unfold nextMs
  cases ht : h.mTaskList with
  | nil =>
    cases hm : h.mMessageList with
    | nil => exact absurd (by simp [queued, ht, hm]) hne
    | cons m messages =>
      refine ⟨⟨.message m, mem_queued.mpr (.inr ⟨m, by simp [hm], rfl⟩), rfl⟩, fun x hx => ?_⟩
      rcases mem_queued.mp hx with ⟨t', ht', rfl⟩ | ⟨m', hm', rfl⟩
      · simp [ht] at ht'
      · exact hq.messages.head_le hm hm'
  | cons t tasks =>
    have htmem : Entry.task t ∈ h.queued := mem_queued.mpr (.inl ⟨t, by simp [ht], rfl⟩)
    cases hm : h.mMessageList with
    | nil =>
      refine ⟨⟨.task t, htmem, rfl⟩, fun x hx => ?_⟩
      rcases mem_queued.mp hx with ⟨t', ht', rfl⟩ | ⟨m', hm', rfl⟩
      · exact hq.tasks.head_le ht ht'
      · simp [hm] at hm'
    | cons m messages =>
      have hmmem : Entry.message m ∈ h.queued := mem_queued.mpr (.inr ⟨m, by simp [hm], rfl⟩)
      have htpos : t.expireMs ≠ 0 := hpos _ htmem
      dsimp only
      rw [if_pos htpos]
      by_cases hlt : t.expireMs < m.expireMs
      · rw [if_pos hlt]
        refine ⟨⟨.task t, htmem, rfl⟩, fun x hx => ?_⟩
        rcases mem_queued.mp hx with ⟨t', ht', rfl⟩ | ⟨m', hm', rfl⟩
        · exact hq.tasks.head_le ht ht'
        · exact UInt64.le_trans (UInt64.le_of_lt hlt) (hq.messages.head_le hm hm')
      · rw [if_neg hlt]
        refine ⟨⟨.message m, hmmem, rfl⟩, fun x hx => ?_⟩
        rcases mem_queued.mp hx with ⟨t', ht', rfl⟩ | ⟨m', hm', rfl⟩
        · exact UInt64.le_trans (UInt64.not_lt.mp hlt) (hq.tasks.head_le ht ht')
        · exact hq.messages.head_le hm hm'

theorem update_of_ne_nil (hne : h.queued ≠ []) : h.updateNextMsAndTimer now =
    { h.setupOneShotTimer h.nextMs h.mNextTimeoutMs now with mNextTimeoutMs := h.nextMs } :=
  if_neg ((queued_eq_nil_iff h).not.mp hne)

/-- Nothing waits for the time 0, and `mNextTimeoutMs` is no later than what waits. -/
structure Timed (h : Handler) : Prop where
  pos : ∀ x ∈ h.queued, x.expireMs ≠ 0
  next_ne : h.queued ≠ [] → h.mNextTimeoutMs ≠ 0
  next_le : ∀ x ∈ h.queued, h.mNextTimeoutMs ≤ x.expireMs

/-- The timer is set for the earliest. -/
theorem timed_update (hq : Queues h) (hpos : ∀ x ∈ h.queued, x.expireMs ≠ 0) :
    Timed (h.updateNextMsAndTimer now) := by
  by_cases hnil : h.queued = []
  · refine ⟨?_, ?_, ?_⟩ <;> simp [hnil]
  · obtain ⟨⟨x, hx, hxnext⟩, hle⟩ := nextMs_spec hq hpos hnil
    have hnext : (h.updateNextMsAndTimer now).mNextTimeoutMs = h.nextMs := by
      rw [update_of_ne_nil hnil]
    refine ⟨by simpa using hpos, fun _ => ?_, ?_⟩
    · rw [hnext, ← hxnext]
      exact hpos x hx
    · rw [hnext, queued_update]
      exact hle

theorem Timed.sub (ht : Timed h) (hnext : h'.mNextTimeoutMs = h.mNextTimeoutMs)
    (hsub : ∀ x ∈ h'.queued, x ∈ h.queued) : Timed h' := by
  refine ⟨fun x hx => ht.pos x (hsub x hx), fun hne => ?_, fun x hx => ?_⟩
  · obtain ⟨x, hx⟩ := List.exists_mem_of_ne_nil _ hne
    rw [hnext]
    exact ht.next_ne (List.ne_nil_of_mem (hsub x hx))
  · rw [hnext]
    exact ht.next_le x (hsub x hx)

/-- Every operation keeps the next time. -/
theorem Timed.called (hq : Queues h) (ht : Timed h) (hnow : 0 < e.now)
    (hc : Called h e h' ok calls) : Timed h' := by
  cases hc with
  | accepted x hentry hadm hkeep hle =>
    refine timed_update (hq.accept hadm) fun y hy => ?_
    rcases List.mem_cons.mp ((perm_queued_accept h x).mem_iff.mp hy) with rfl | hy
    · exact UInt64.pos_iff_ne_zero.mp (UInt64.lt_of_lt_of_le hnow hle)
    · exact ht.pos y hy
  | removed hop hrefused timer htimer =>
    refine ht.sub rfl fun x hx => ?_
    rw [queued_filter h (fun x => !e.op.removes x) h.mNextTimeoutMs timer] at hx
    exact (List.mem_filter.mp hx).1
  | timedOut _ _ hop hout =>
    rcases onTimeout_cases hout with ⟨-, rfl, -⟩ | ⟨-, -, rfl, -⟩ | ⟨-, -, rfl, -⟩
    · exact ht.sub rfl fun _ hx => hx
    · exact timed_update ⟨hq.tasks, hq.messages⟩ ht.pos
    · refine timed_update ⟨hq.tasks.filter _, hq.messages.filter _⟩ fun x hx => ?_
      rw [queued_keep] at hx
      exact ht.pos x (List.mem_filter.mp hx).1

end Next

theorem call_ok (ht : Timed h) (e : Event) : ∃ r, h.call e = .ok r := by
  obtain ⟨now, op⟩ := e
  cases op with
  | onTimeout =>
    by_cases hnil : h.queued = []
    · exact ⟨_, bind_eq_ok.mpr ⟨_, onTimeout_nil hnil, rfl⟩⟩
    · have hout : h.onTimeout now = _ := onTimeout_cons hnil
      rw [if_neg (ht.next_ne hnil)] at hout
      split at hout
      · exact ⟨_, bind_eq_ok.mpr ⟨_, hout, rfl⟩⟩
      · exact ⟨_, bind_eq_ok.mpr ⟨_, hout, rfl⟩⟩
  | _ => exact ⟨_, rfl⟩

namespace History

variable {s s' : History}

/-- No step trips the assertion. -/
theorem step_ok (ht : Timed s.handler) (e : Event) : ∃ s', s.step e = .ok s' := by
  obtain ⟨r, hcall⟩ := call_ok ht e
  exact ⟨_, bind_eq_ok.mpr ⟨r, hcall, rfl⟩⟩

/-- With a positive clock no operation of a run fails the assertion of `OnTimeout`. -/
theorem avoids_assertFailed {es : List Event} (hk : Kept s) (ht : Timed s.handler)
    (hnow : ∀ e ∈ es, 0 < e.now) :
    Avoids .assertFailed (run step s es) fun s => Kept s ∧ Timed s.handler := by
  refine avoids_run (A := fun e : Event => 0 < e.now) ?_ ⟨hk, ht⟩ hnow
  rintro s e ⟨hk, ht⟩ hpos
  obtain ⟨s₁, hs₁⟩ := step_ok ht e
  refine ⟨by rw [hs₁]; simp, ?_⟩
  intro s' hs'
  have hk' := hk.step hs'
  obtain ⟨h, ok, calls, hcall, rfl⟩ := step_cases hs'
  exact ⟨hk', ht.called hk.queues hpos (call_cases hk.queues hcall)⟩

/-- A run is disciplined exactly if the times it compares are near. -/
theorem disciplined_iff_comparable (hk : Kept s) (es : List Event) :
    Always step Disciplined s es ↔ EachStep step Comparable s es := by
  refine always_iff_eachStep (J := Kept) ?_ ?_ es s hk
  · intro s e s' hk hs' _
    exact hk.step hs'
  · intro s e hk
    exact disciplined_step_iff hk

/-- In a run of a handler the queues stay sorted and hold no entry twice, no entry is lost or called
    twice, the calls are those that are due, and with a positive clock no assertion fails, exactly if
    `OnTimeout` never compares the clock with a time that is too far away. -/
theorem queue_discipline_iff (self : Nat) (mCallback : Bool) (es : List Event) :
    (Always step Disciplined (init self mCallback) es ∧
      ((∀ e ∈ es, 0 < e.now) → run step (init self mCallback) es ≠ .error .assertFailed)) ↔
    EachStep step Comparable (init self mCallback) es := by
  have hstart := kept_init self mCallback
  have htimed : Timed (init self mCallback).handler := by
    refine ⟨?_, ?_, ?_⟩ <;> simp [init, queued]
  rw [← disciplined_iff_comparable hstart]
  refine and_iff_left fun hnow => ?_
  exact (avoids_assertFailed hstart htimed hnow).1

instance (s : History) (e : Event) : Decidable (Comparable s e) :=
  inferInstanceAs (Decidable (e.op = .onTimeout → s.handler.Scans e.now →
    (∃ x ∈ s.handler.queued, due e.now x.expireMs = true) →
    ∀ x ∈ s.handler.queued, Near e.now x.expireMs))

/-- A task for now and one for a time more than `2 ^ 63` milliseconds away, and the timer goes off:
    both are called. -/
def farTask : List Event :=
  [⟨1000, .post { mTask := some 1, mKey := 1 }⟩,
    ⟨1000, .postAtTime { mTask := some 2, mKey := 2 } (2 ^ 63 + 2000)⟩, ⟨1000, .onTimeout⟩]

/-- A task for a far time is called at once. -/
theorem called_too_early : ∃ s, run step (init 0 true) farTask = .ok s ∧
    .task { mTask := some 2, mKey := 2, expireMs := 2 ^ 63 + 2000 } ∈ s.dispatched ∧
    ¬ Always step Disciplined (init 0 true) farTask := by
  obtain ⟨s, hs, hcalled⟩ := exists_of_toOption (x := run step (init 0 true) farTask)
    (f := fun s => s.dispatched)
    (b := [.task { mTask := some 1, mKey := 1, expireMs := 1000 },
      .task { mTask := some 2, mKey := 2, expireMs := 2 ^ 63 + 2000 }]) (by decide +kernel)
  refine ⟨s, hs, by rw [hcalled]; simp, ?_⟩
  rw [disciplined_iff_comparable (kept_init 0 true)]
  decide +kernel

end History

end Handler

end Rsock
