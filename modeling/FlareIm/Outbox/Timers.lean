import FlareIm.Outbox.Acks

/-! The periodic check makes only moves. It first looks for local rows that already show the
end of a message; only when there is none, the timers run: first those of the messages that
wait for a durable acknowledgement, then those in flight, among them the ones that the first
loop has just sent again. -/

namespace FlareIm.Outbox

open Lib Message Store List KeyedMap Prog Function View

variable {held : QueueState → String → Prop} {k : String} {s : QueueState}
  [codes : ProtoCodes] {sc : Scope} {t u : QueueState}

/-- The queue as the protocol sees it goes from `s` to `t` by moves. -/
def Reaches (sc : Scope) (s t : QueueState) : Prop := Moves sc s.view t.view

instance : Std.Refl (Reaches sc) := ⟨fun _ => .refl⟩

instance : IsTrans QueueState (Reaches sc) := ⟨fun _ _ _ h h' => Relation.ReflTransGen.trans h h'⟩

/-- Only the layout of the two maps may differ. -/
structure Reordered (s t : QueueState) : Prop where
  same : SameSurroundings s t
  view : t.view = s.view
  messages : t.messages = s.messages
  pending : t.pending = s.pending
  inFlight : t.inFlight.find? = s.inFlight.find?
  awaiting : t.awaitingDurable.find? = s.awaitingDurable.find?

variable {e : PendingSendVo} {ids : List String} {x : AwaitingDurableAck}

namespace Reordered

omit codes in
@[refl] theorem refl (s : QueueState) : Reordered s s := ⟨.refl s, rfl, rfl, rfl, rfl, rfl⟩

omit codes in
theorem trans (h : Reordered s t) (h' : Reordered t u) : Reordered s u :=
  ⟨h.same.trans h'.same, h'.view.trans h.view, h'.messages.trans h.messages,
    h'.pending.trans h.pending, h'.inFlight.trans h.inFlight, h'.awaiting.trans h.awaiting⟩

omit codes in
theorem noFaults (h : Reordered s t) (hs : s.faults = []) : t.faults = [] := h.same.faults.trans hs

omit codes in
theorem counts (h : Reordered s t) : t.retryCount = s.retryCount ∧ t.history = s.history :=
  ⟨congrArg View.retries h.view, congrArg View.history h.view⟩

omit codes in
theorem putBackInFlight {x : InFlightSend} (h : s.inFlight.find? k = some x) :
    Reordered s { s with inFlight := (s.inFlight.erase k).insert x } := by
  have hback := find?_insert_erase_self _ h
  refine ⟨.kept rfl, ?_, rfl, rfl, hback, rfl⟩
  unfold QueueState.view KeyedMap.lookup
  rw [hback]

omit codes in
theorem putBackAwaiting (h : s.awaitingDurable.find? k = some x) :
    Reordered s { s with awaitingDurable := (s.awaitingDurable.erase k).insert x } := by
  have hback := find?_insert_erase_self _ h
  refine ⟨.kept rfl, ?_, rfl, rfl, rfl, hback⟩
  unfold QueueState.view KeyedMap.lookup
  rw [hback]

end Reordered

/-! ### Reconciliation -/

omit codes in
theorem settleReconciled_move (src : Source) (event : SdkEvent)
    (h : t.faults = []) (hdrop : t.view = s.view.drop src e.clientMsgId)
    (hholds : s.view.Holds src e) :
    Ensures (settleReconciled e event) t (fun _ u => Move sc s.view u.view ∧ u.faults = []) := by
  refine .bind_of_run (pendingPop_run h _) (.bind_of_run (modify_run _ _)
    (.intro (modify_run _ _) ⟨?_, h⟩))
  have hmove : Move sc s.view _ := .settle src e hholds
  rw [← hdrop] at hmove
  convert hmove using 1
  simp only [QueueState.view, forget, record, PendingEntries.find?_pop_eq]
  rfl

/-- What the body of a reconciliation loop says when it reports no progress. -/
def NoProgress (rows : List IMMessage) (held : QueueState → String → Prop)
    (body : Bool → String → OutboxM Bool) : Prop :=
  ∀ b k s, Yields (body b k) s (fun c t =>
    c = false → b = false ∧ Reordered s t ∧ (held s k → reconciledEvent rows k = none))

section Entries

variable (rows : List IMMessage) (b : Bool) (k : String)

theorem reconcileInFlightEntry_moves (h : s.faults = []) :
    Ensures (reconcileInFlightEntry rows b k) s (fun _ t => Reaches sc s t ∧ t.faults = []) := by
  refine .bind_of_run (get_run s) ?_
  split
  · exact .intro rfl ⟨.refl, h⟩
  rename_i x hx
  obtain ⟨hid, hholds⟩ := holds_of_inFlight hx
  refine .bind_of_run (modify_run _ _) ?_
  split
  · have hback := Reordered.putBackInFlight hx
    exact .bind_of_run (modify_run _ _) (.intro rfl ⟨.of_eq hback.view.symm, hback.noFaults h⟩)
  · rename_i event _
    refine (settleReconciled_move (t := { s with inFlight := s.inFlight.erase k }) .inFlight event h ?_
      hholds).bind fun _ t ht => .intro rfl ⟨.single ht.1, ht.2⟩
    rw [hid]
    simp [QueueState.view, View.drop]

theorem reconcileAwaitingEntry_moves (h : s.faults = []) :
    Ensures (reconcileAwaitingEntry rows b k) s (fun _ t => Reaches sc s t ∧ t.faults = []) := by
  refine .bind_of_run (get_run s) ?_
  split
  · exact .intro rfl ⟨.refl, h⟩
  rename_i x hx
  obtain ⟨hid, hholds⟩ := holds_of_awaiting hx
  refine .bind_of_run (modify_run _ _) ?_
  split
  · have hback := Reordered.putBackAwaiting hx
    exact .bind_of_run (modify_run _ _) (.intro rfl ⟨.of_eq hback.view.symm, hback.noFaults h⟩)
  · rename_i event _
    refine (settleReconciled_move (t := { s with awaitingDurable := s.awaitingDurable.erase k }) .awaiting
      event h ?_ hholds).bind fun _ t ht => .intro rfl ⟨.single ht.1, ht.2⟩
    rw [hid]
    simp [QueueState.view, View.drop]

theorem reconcileInFlightEntry_noProgress :
    NoProgress rows (fun s k => s.inFlight.find? k ≠ none) (reconcileInFlightEntry rows) := by
  intro b k s
  refine .get_bind ?_
  split
  · rename_i hnone
    exact .pure fun hb => ⟨hb, .refl s, fun hk => absurd hnone hk⟩
  rename_i x hx
  refine .modify_bind ?_
  split
  · rename_i hevent
    exact .modify_bind (.pure fun hb => ⟨hb, .putBackInFlight hx, fun _ => (holds_of_inFlight hx).1 ▸ hevent⟩)
  · exact .after fun _ _ => .pure fun hc => Bool.noConfusion hc

theorem reconcileAwaitingEntry_noProgress :
    NoProgress rows (fun s k => s.awaitingDurable.find? k ≠ none) (reconcileAwaitingEntry rows) := by
  intro b k s
  refine .get_bind ?_
  split
  · rename_i hnone
    exact .pure fun hb => ⟨hb, .refl s, fun hk => absurd hnone hk⟩
  rename_i x hx
  refine .modify_bind ?_
  split
  · rename_i hevent
    exact .modify_bind (.pure fun hb => ⟨hb, .putBackAwaiting hx, fun _ => (holds_of_awaiting hx).1 ▸ hevent⟩)
  · exact .after fun _ _ => .pure fun hc => Bool.noConfusion hc

end Entries

section Loops

variable {rows : List IMMessage} {body : Bool → String → OutboxM Bool}

/-- A reconciliation loop: when it reports no progress, nothing happened and every id it
went over that is still tracked has an open row. -/
theorem reconcile_noProgress (hbody : NoProgress rows held body)
    (hheld : ∀ s t k, Reordered s t → (held t k ↔ held s k)) (ids : List String) (s : QueueState) :
    Yields (ids.foldlM body false) s (fun b t =>
      b = false → Reordered s t ∧ ∀ k ∈ ids, held s k → reconciledEvent rows k = none) := by
  -- the ids already visited are those of `ids` that are not still to come
  let I : List String → Bool → QueueState → Prop := fun xs b t => b = false →
    Reordered s t ∧ ∀ k ∈ ids, k ∉ xs → held s k → reconciledEvent rows k = none
  have hloop := Yields.foldlM (I := I) (f := body) (fun k xs b t ht => ?_) ids false s
    fun _ => ⟨.refl s, fun k hk hnot => absurd hk hnot⟩
  · exact hloop.mono fun b t ht hb => ⟨(ht hb).1, fun k hk => (ht hb).2 k hk not_mem_nil⟩
  · refine (hbody b k t).mono fun c u hu hc => ?_
    obtain ⟨hb, hre, hopen⟩ := hu hc
    obtain ⟨hre', hopen'⟩ := ht hb
    refine ⟨hre'.trans hre, fun j hj hnot hheldj => ?_⟩
    by_cases hjk : j = k
    · subst hjk
      exact hopen ((hheld s t j hre').mpr hheldj)
    · exact hopen' j hj (by simp [hjk, hnot]) hheldj

end Loops

/-- The local rows do not show the end of the message. -/
def StillOpen (s : QueueState) (k : String) : Prop :=
  reconcileInFlight ((s.messages.getByClientMsgId k).map IMMessage.snapshot) k = .keepWaiting

theorem stillOpen_of_reconciledEvent (hk : k ∈ ids)
    (h : reconciledEvent (s.messages.getByClientMsgIds ids) k = none) : StillOpen s k := by
  unfold reconciledEvent at h
  rw [snapshotOf_getByClientMsgIds _ hk] at h
  split at h
  · assumption
  · cases h
  · cases h

/-- Both reconciliations go over the ids of a map, whose records are those that are `held`. -/
theorem reconcile_moves {body : List IMMessage → Bool → String → OutboxM Bool}
    (hmoves : ∀ {s} rows b k, s.faults = [] →
      Ensures (body rows b k) s (fun _ t => Reaches sc s t ∧ t.faults = []))
    (hbody : ∀ rows, NoProgress rows held (body rows)) (hheld : ∀ s t k, Reordered s t →
      (held t k ↔ held s k)) (hmem : ∀ k, held s k → k ∈ ids) (h : s.faults = []) :
    Ensures (if ids.isEmpty then pure false else getByClientMsgIds ids >>= fun rows =>
    ids.foldlM (body rows) false) s
      (fun b t => Reaches sc s t ∧ t.faults = [] ∧
        (b = false → Reordered s t ∧ ∀ k, held s k → StillOpen s k)) := by
  split
  · rename_i hempty
    refine .intro rfl ⟨.refl, h, fun _ => ⟨.refl s, fun k hk => ?_⟩⟩
    have hin := hmem k hk
    rw [isEmpty_iff.mp hempty] at hin
    cases hin
  refine .bind_of_run (getByClientMsgIds_run h _) ?_
  refine ((foldlM_ensures (I := fun _ _ t => t.faults = []) (fun k _ b _ ht => hmoves _ b k ht) ids false s
    h).and_yields (reconcile_noProgress (hbody _) hheld ids s)).mono
    fun b t ht => ⟨ht.1.1, ht.1.2, fun hb => ⟨(ht.2 hb).1, fun k hk => ?_⟩⟩
  exact stillOpen_of_reconciledEvent (hmem k hk) ((ht.2 hb).2 k (hmem k hk) hk)

variable (sc) in
theorem reconcileInFlightTerminalStates_moves (h : s.faults = []) :
    Ensures reconcileInFlightTerminalStates s (fun b t => Reaches sc s t ∧ t.faults = [] ∧
      (b = false → Reordered s t ∧ ∀ k, s.inFlight.find? k ≠ none → StillOpen s k)) :=
  .bind_of_run (get_run s) (reconcile_moves reconcileInFlightEntry_moves reconcileInFlightEntry_noProgress
    (fun a b k hre => by rw [hre.inFlight]) (fun _ => s.mem_iterate_keys) h)

variable (sc) in
theorem reconcileAwaitingDurableTerminalStates_moves (h : s.faults = []) :
    Ensures reconcileAwaitingDurableTerminalStates s (fun b t => Reaches sc s t ∧ t.faults = [] ∧
      (b = false → Reordered s t ∧ ∀ k, s.awaitingDurable.find? k ≠ none → StillOpen s k)) :=
  .bind_of_run (get_run s) (reconcile_moves reconcileAwaitingEntry_moves reconcileAwaitingEntry_noProgress
    (fun a b k hre => by rw [hre.awaiting]) (fun _ => s.mem_iterate_keys) h)

/-! ### Timers -/

omit codes in
theorem SameSurroundings.isDeadlineElapsed (h : SameSurroundings s t) :
    t.isDeadlineElapsed = s.isDeadlineElapsed := by
  funext deadline
  rw [QueueState.isDeadlineElapsed, h.now]
  rfl

/-- No tracked message has a row that shows its end. -/
def Quiet (s : QueueState) : Prop :=
  (∀ k, s.inFlight.find? k ≠ none → StillOpen s k) ∧ ∀ k, s.awaitingDurable.find? k ≠ none → StillOpen s k

/-- A tick in `s` may find the timer of `e` elapsed while the retry count is `r` and `n`
attempts were handed over. With a timeout of zero, an awaited message that was just sent again
expires a second time. -/
def TimesOut (s : QueueState) (e : PendingSendVo) (r n : ℕ) : Prop :=
  s.isPaused = false ∧ Quiet s ∧
    ((∃ x, s.inFlight.find? e.clientMsgId = some x ∧ x.entry = e ∧ s.isDeadlineElapsed x.deadlineMs ∧
        (s.awaitingDurable.find? e.clientMsgId = none →
          r = s.retryCount e.clientMsgId ∧ n = attempts e.clientMsgId s.history)) ∨
      ∃ y, s.awaitingDurable.find? e.clientMsgId = some y ∧ y.entry = e ∧ s.isDeadlineElapsed y.deadlineMs ∧
          ((r = s.retryCount e.clientMsgId ∧ n = attempts e.clientMsgId s.history) ∨
            (s.isDeadlineElapsed s.deadlineAfter ∧ r = s.retryCount e.clientMsgId + 1 ∧
              n ≤ attempts e.clientMsgId s.history + 1)))

namespace Reordered

theorem stillOpen (h : Reordered s t) (k : String) : StillOpen t k ↔ StillOpen s k := by
  rw [StillOpen, StillOpen, h.messages]

theorem quiet (h : Reordered s t) : Quiet t ↔ Quiet s := by
  simp only [Quiet, h.inFlight, h.awaiting, h.stillOpen]

theorem timesOut (h : Reordered s t) {r n : ℕ} (ht : TimesOut t e r n) : TimesOut s e r n := by
  rw [TimesOut, h.same.isPaused, h.quiet, h.inFlight, h.awaiting, h.same.isDeadlineElapsed, h.counts.1,
    h.counts.2, h.same.deadlineAfter] at ht
  exact ht

end Reordered

/-- What the expiry of the timer of `e`, taken from its place in `t`, leaves of the other
messages, and of `e` itself. -/
structure Expired (e : PendingSendVo) (t u : QueueState) : Prop where
  same : SameSurroundings t u
  awaiting : u.awaitingDurable = t.awaitingDurable
  retries : ∀ k, k ≠ e.clientMsgId → u.retryCount k = t.retryCount k
  handed : ∀ k, k ≠ e.clientMsgId → attempts k u.history = attempts k t.history
  inFlight : ∀ k, k ≠ e.clientMsgId → u.inFlight.find? k = t.inFlight.find? k
  resent : u.inFlight.find? e.clientMsgId = t.inFlight.find? e.clientMsgId ∨
    (u.inFlight.find? e.clientMsgId = some ⟨e, t.deadlineAfter, t.nowMs, false⟩ ∧
      u.retryCount e.clientMsgId = t.retryCount e.clientMsgId + 1 ∧
      attempts e.clientMsgId u.history ≤ attempts e.clientMsgId t.history + 1)

omit codes in
theorem succ_of_timeout {retries next : ℕ}
    (h : decideTimeoutExpiry retries s.config.maxRetries = .retry next) :
    next = retries + 1 ∧ retries < s.config.maxRetries := by
  obtain ⟨rfl, hlt⟩ := decideTimeoutExpiry_retry h
  have hmax := s.config.maxRetries_le
  unfold satAddU32
  omega

theorem expireTimer_moves (src : Source) (hsrc : src ≠ .queued)
    (h : t.faults = []) (hdrop : t.view = s.view.drop src e.clientMsgId)
    (hretries : t.retryCount = s.retryCount) (hholds : s.view.Holds src e)
    (htime : sc.timesOut e (t.retryCount e.clientMsgId) (attempts e.clientMsgId t.history))
    (hroom : sc.writerOpen ∨ t.writerCapacity = 0) :
    Ensures (expireTimer e) t (fun _ u => Move sc s.view u.view ∧ Expired e t u) := by
  have hcount : s.view.retries e.clientMsgId = t.retryCount e.clientMsgId := by rw [hretries]; rfl
  have hhistory : s.view.history = t.history := by
    rw [← history_drop s.view src e.clientMsgId, ← hdrop]
    rfl
  refine .bind_of_run (modify_run _ _) (.bind_of_run (get_run _) ?_)
  split
  · rename_i next hretry
    obtain ⟨rfl, hbudget⟩ := succ_of_timeout (s := t) hretry
    refine .bind_of_run (modify_run _ _) ?_
    obtain ⟨u, jobs, hrun, hw, hview, hjobs, -, hfly, -, -, hawait⟩ :=
      dispatchSendAttempt_run e (t.retryCount e.clientMsgId + 1)
        { t with
          adaptiveWindow := t.adaptiveWindow.noteCongestion
          retryCount := update t.retryCount e.clientMsgId (t.retryCount e.clientMsgId + 1) }
    have hcounts : u.retryCount = update t.retryCount e.clientMsgId (t.retryCount e.clientMsgId + 1) :=
      congrArg retries hview
    have single : (∃ job : SendJob, jobs = [job] ∧ job.entry = e ∧
        job.retries = t.retryCount e.clientMsgId + 1) → ∃ job : SendJob, jobs = [job] ∧ job.entry = e := by
      rintro ⟨job, hjob, hentry, -⟩
      exact ⟨job, hjob, hentry⟩
    have hjobs' := hjobs.imp_right fun h => single h.2
    have hhanded : ∀ k, attempts k u.history =
        attempts k t.history + if k = e.clientMsgId then jobs.length else 0 := fun k => by
      rw [show u.history = _ from congrArg history hview]
      exact attempts_handed_jobs t.currentUserId hjobs'
    have hlength : jobs.length ≤ 1 := by
      rcases hjobs' with rfl | ⟨job, rfl, -⟩ <;> simp
    refine .intro hrun ⟨?_, ?_⟩
    · have hmove : Move sc s.view _ := .resend src e jobs hsrc hholds (by rwa [hcount, hhistory])
        (by rw [hcount, ← maxRetries_drop s.view src e.clientMsgId, ← hdrop]; exact hbudget)
        (hjobs.imp_right fun h => ⟨hroom.resolve_right h.1, single h.2⟩)
      rw [← hdrop, ← user_drop s.view src e.clientMsgId, ← history_drop s.view src e.clientMsgId,
        ← hdrop, show s.view.retries = t.retryCount from hretries.symm] at hmove
      rw [hview]
      exact hmove
    · refine ⟨.trans (.kept (by rfl)) hw, hawait, fun k hk => ?_, fun k hk => ?_, fun k hk => ?_,
        .inr ⟨?_, ?_, ?_⟩⟩
      · rw [hcounts, update_of_ne hk]
      · rw [hhanded, if_neg hk, Nat.add_zero]
      · rw [hfly, find?_insert]
        exact if_neg hk
      · rw [hfly]
        exact find?_insert_self _ _
      · rw [hcounts, update_self]
      · rw [hhanded, if_pos rfl]
        omega
  · rename_i reason hexhausted
    refine .intro (failEntry_run (s := { t with adaptiveWindow := t.adaptiveWindow.noteCongestion }) h e reason)
      ⟨?_, ?_⟩
    · have hmove : Move sc s.view _ := .settle src e hholds
      rw [← hdrop] at hmove
      rw [failedState_view]
      exact hmove
    · refine ⟨.kept rfl, rfl, fun k hk => update_of_ne hk _ _, fun k hk => ?_, fun _ _ => rfl, .inl rfl⟩
      exact (attempts_popped _ _).trans (if_neg hk)

/-- The invariant of the loop over the awaited messages: `xs` are the ids still to come. -/
structure AwaitingLoop (s : QueueState) (xs : List String) (t : QueueState) : Prop where
  same : SameSurroundings s t
  nodup : xs.Nodup
  untouched : ∀ k, k ∈ xs ∨ s.awaitingDurable.find? k = none →
    t.awaitingDurable.find? k = s.awaitingDurable.find? k ∧ t.retryCount k = s.retryCount k ∧
      attempts k t.history = attempts k s.history
  /-- What is in flight was there before, or was awaited and has just been sent again. -/
  inFlight : ∀ k x, t.inFlight.find? k = some x → s.inFlight.find? k = some x ∨
    ∃ y, s.awaitingDurable.find? k = some y ∧ y.entry = x.entry ∧ s.isDeadlineElapsed y.deadlineMs ∧
      x.deadlineMs = s.deadlineAfter ∧ t.retryCount k = s.retryCount k + 1 ∧
      attempts k t.history ≤ attempts k s.history + 1

namespace AwaitingLoop

variable {xs : List String}

omit codes in
/-- Skipping an id. -/
theorem skip (h : AwaitingLoop s (k :: xs) t) (hre : Reordered t u) : AwaitingLoop s xs u where
  same := h.same.trans hre.same
  nodup := (nodup_cons.mp h.nodup).2
  untouched j hj := by
    rw [hre.awaiting, hre.counts.1, hre.counts.2]
    exact h.untouched j (hj.imp_left (mem_cons_of_mem k))
  inFlight j x hx := by
    rw [hre.inFlight] at hx
    rw [hre.counts.1, hre.counts.2]
    exact h.inFlight j x hx

omit codes in
/-- The timer of the id at the head was found elapsed. -/
theorem expire (h : AwaitingLoop s (k :: xs) t)
    (hx : s.awaitingDurable.find? k = some x) (helapsed : s.isDeadlineElapsed x.deadlineMs)
    (hu : Expired x.entry { t with awaitingDurable := t.awaitingDurable.erase k } u) :
    AwaitingLoop s xs u := by
  have hid : x.entry.clientMsgId = k := (holds_of_awaiting hx).1
  obtain ⟨hnot, hnodup⟩ := nodup_cons.mp h.nodup
  obtain ⟨-, hcount, hhanded⟩ := h.untouched k (.inl mem_cons_self)
  refine ⟨h.same.trans (.trans (.kept (by rfl)) hu.same), hnodup, fun j hj => ?_, fun j y hy => ?_⟩
  · have hjk : j ≠ k := by
      rintro rfl
      rcases hj with hj | hj
      · exact hnot hj
      · rw [hx] at hj
        cases hj
    obtain ⟨hawait, hretries⟩ := h.untouched j (hj.imp_left (mem_cons_of_mem k))
    rw [hu.awaiting, hu.retries j (by rwa [hid]), hu.handed j (by rwa [hid])]
    exact ⟨(find?_erase _ _ _).trans ((if_neg hjk).trans hawait), hretries⟩
  · by_cases hjk : j = k
    · subst hjk
      have hresent := hu.resent
      rw [hid] at hresent
      rcases hresent with hkept | ⟨hnew, hraised, hmore⟩
      · rw [hkept] at hy
        rcases h.inFlight j y hy with hold | ⟨z, -, -, -, -, hraised, -⟩
        · exact .inl hold
        · omega
      · rw [hnew] at hy
        cases hy
        refine .inr ⟨x, hx, rfl, helapsed, h.same.deadlineAfter ▸ rfl, ?_, ?_⟩
        · rw [hraised]
          exact congrArg (· + 1) hcount
        · exact hmore.trans_eq (congrArg (· + 1) hhanded)
    · rw [hu.inFlight j (by rwa [hid])] at hy
      rw [hu.retries j (by rwa [hid]), hu.handed j (by rwa [hid])]
      exact h.inFlight j y hy

end AwaitingLoop

theorem checkAwaitingEntry_moves (hpause : s.isPaused = false) (hquiet : Quiet s) (hs : s.faults = [])
    (hto : ∀ e r n, TimesOut s e r n → sc.timesOut e r n)
    (hroom : sc.writerOpen ∨ s.writerCapacity = 0) (k : String) (xs : List String)
    (h : AwaitingLoop s (k :: xs) t) :
    Ensures (checkAwaitingEntry k) t (fun _ u => Reaches sc t u ∧ AwaitingLoop s xs u) := by
  obtain ⟨hawait, hcount, hhanded⟩ := h.untouched k (.inl mem_cons_self)
  refine .bind_of_run (get_run t) ?_
  split
  · exact .intro rfl ⟨.refl, h.skip (.refl t)⟩
  rename_i x hx
  obtain ⟨hid, hholds⟩ := holds_of_awaiting hx
  rw [hawait] at hx
  refine .bind_of_run (modify_run _ _) ?_
  rw [h.same.isDeadlineElapsed]
  split
  · rename_i helapsed
    have htime : sc.timesOut x.entry (t.retryCount x.entry.clientMsgId)
      (attempts x.entry.clientMsgId t.history) := by
      refine hto _ _ _ ⟨hpause, hquiet, .inr ⟨x, hid ▸ hx, rfl, helapsed, .inl ?_⟩⟩
      rw [hid]
      exact ⟨hcount, hhanded⟩
    refine (expireTimer_moves .awaiting (by decide) (s := t)
      (t := { t with awaitingDurable := t.awaitingDurable.erase k })
      (h.same.faults.trans hs) ?_ rfl hholds htime
      (hroom.imp_right h.same.writerFull)).mono fun _ u hu => ⟨.single hu.1, h.expire hx helapsed hu.2⟩
    rw [hid]
    simp [QueueState.view, View.drop]
  · have hback := Reordered.putBackAwaiting (hawait.trans hx)
    exact .intro (modify_run _ _) ⟨.of_eq hback.view.symm, h.skip hback⟩

structure InFlightLoop (sc : Scope) (s : QueueState) (xs : List String) (t : QueueState) : Prop where
  same : SameSurroundings s t
  nodup : xs.Nodup
  due : ∀ k ∈ xs, ∀ x, t.inFlight.find? k = some x → s.isDeadlineElapsed x.deadlineMs →
    sc.timesOut x.entry (t.retryCount k) (attempts k t.history)

theorem checkInFlightEntry_moves (hs : s.faults = []) (hroom : sc.writerOpen ∨ s.writerCapacity = 0)
    (k : String) (xs : List String) (h : InFlightLoop sc s (k :: xs) t) :
    Ensures (checkInFlightEntry k) t (fun _ u => Reaches sc t u ∧ InFlightLoop sc s xs u) := by
  obtain ⟨hnot, hnodup⟩ := nodup_cons.mp h.nodup
  have skip : ∀ u, Reordered t u → InFlightLoop sc s xs u := fun u hre => by
    refine ⟨h.same.trans hre.same, hnodup, fun j hj x hx helapsed => ?_⟩
    rw [hre.inFlight] at hx
    rw [hre.counts.1, hre.counts.2]
    exact h.due j (mem_cons_of_mem k hj) x hx helapsed
  refine .bind_of_run (get_run t) ?_
  split
  · exact .intro rfl ⟨.refl, skip t (.refl t)⟩
  rename_i x hx
  obtain ⟨hid, hholds⟩ := holds_of_inFlight hx
  refine .bind_of_run (modify_run _ _) ?_
  rw [h.same.isDeadlineElapsed]
  split
  · rename_i helapsed
    have htime := h.due k mem_cons_self x hx helapsed
    rw [← hid] at htime
    refine (expireTimer_moves .inFlight (by decide) (s := t) (t := { t with inFlight := t.inFlight.erase k })
      (h.same.faults.trans hs) ?_ rfl hholds htime
      (hroom.imp_right h.same.writerFull)).mono fun _ u hu => ⟨.single hu.1, ?_⟩
    · rw [hid]
      simp [QueueState.view, View.drop]
    obtain ⟨-, hu⟩ := hu
    refine ⟨h.same.trans (.trans (.kept (by rfl)) hu.same), hnodup, fun j hj y hy hdue => ?_⟩
    have hjk : j ≠ k := fun heq => hnot (heq ▸ hj)
    rw [hu.inFlight j (by rwa [hid])] at hy
    have hy : t.inFlight.find? j = some y :=
      ((find?_erase _ _ _).trans (if_neg hjk)).symm.trans hy
    rw [hu.retries j (by rwa [hid]), hu.handed j (by rwa [hid])]
    exact h.due j (mem_cons_of_mem k hj) y hy hdue
  · have hback := Reordered.putBackInFlight hx
    exact .intro (modify_run _ _) ⟨.of_eq hback.view.symm, skip _ hback⟩

section

variable (hpause : s.isPaused = false) (hquiet : Quiet s)
  (hto : ∀ e r n, TimesOut s e r n → sc.timesOut e r n)

include hpause hquiet hto

theorem checkAwaitingDurableTimeout_moves (hs : s.faults = []) (hroom : sc.writerOpen ∨ s.writerCapacity = 0) :
    Ensures checkAwaitingDurableTimeout s (fun _ t => Reaches sc s t ∧ AwaitingLoop s [] t) := by
  have hstart : AwaitingLoop s (s.iterate s.awaitingDurable.keys) s :=
    ⟨.refl s, s.nodup_iterate s.awaitingDurable.nodup, fun _ _ => ⟨rfl, rfl, rfl⟩, fun _ _ hx => .inl hx⟩
  exact .bind_of_run (get_run s) (foldlM_ensures (I := fun xs _ t => AwaitingLoop s xs t)
    (fun k xs _ t ht => checkAwaitingEntry_moves hpause hquiet hs hto hroom k xs ht) _ () s hstart)

/-- After the first loop, every elapsed record in flight is one that may time out. -/
theorem AwaitingLoop.inFlightLoop
    (h : AwaitingLoop s [] t) : InFlightLoop sc s (t.iterate t.inFlight.keys) t := by
  refine ⟨h.same, t.nodup_iterate t.inFlight.nodup, fun k _ x hx hdue => ?_⟩
  obtain ⟨rfl, -⟩ := holds_of_inFlight hx
  rcases h.inFlight _ x hx with hold | ⟨y, hy, hentry, helapsed, hdeadline, hraised, hmore⟩
  · refine hto _ _ _ ⟨hpause, hquiet, .inl ⟨x, hold, rfl, hdue, fun hnone => ?_⟩⟩
    exact (h.untouched _ (.inr hnone)).2
  · rw [hdeadline] at hdue
    exact hto _ _ _ ⟨hpause, hquiet, .inr ⟨y, hy, hentry, helapsed, .inr ⟨hdue, hraised, hmore⟩⟩⟩

end

theorem checkTimeout_moves (h : s.faults = [])
    (hto : ∀ e r n, TimesOut s e r n → sc.timesOut e r n)
    (hroom : sc.writerOpen ∨ s.writerCapacity = 0) :
    MovesOnly sc checkTimeout s := by
  refine .bind_of_run (get_run s) .refl ?_
  split
  · refine Ensures.bind (reconcileInFlightTerminalStates_moves sc h) fun _ t ht => ?_
    refine Ensures.bind (reconcileAwaitingDurableTerminalStates_moves sc ht.2.1) fun _ u hu => ?_
    exact .intro rfl ⟨ht.1.trans hu.1, hu.2.1⟩
  rename_i hpause
  -- progress in either reconciliation ends the check with a dispatch
  have finish : ∀ t, Reaches sc s t → t.faults = [] →
      Ensures trySendNext t (fun _ u => Moves sc s.view u.view ∧ u.faults = []) :=
    fun t hreach ht => (trySendNext_moves ht).mono fun _ u hu => ⟨hreach.trans hu.1, hu.2⟩
  refine Ensures.bind (reconcileInFlightTerminalStates_moves sc h) fun b t ht => ?_
  obtain ⟨hreach, htok, htopen⟩ := ht
  split
  · exact (finish t hreach htok).bind fun _ u hu => .intro rfl hu
  rename_i hb
  obtain ⟨hre, hopen⟩ := htopen (by simpa using hb)
  refine .bind (reconcileAwaitingDurableTerminalStates_moves sc htok) fun c u hu => ?_
  obtain ⟨hreach', huok, huopen⟩ := hu
  have hreach' := hreach.trans hreach'
  split
  · exact (finish u hreach' huok).bind fun _ v hv => .intro rfl hv
  rename_i hc
  obtain ⟨hre', hopen'⟩ := huopen (by simpa using hc)
  have hall := hre.trans hre'
  have hquiet : Quiet u := by
    rw [hall.quiet]
    refine ⟨hopen, fun k hk => ?_⟩
    rw [← hre.awaiting] at hk
    exact (hre.stillOpen k).mp (hopen' k hk)
  have hpause' : u.isPaused = false := by
    rw [hall.same.isPaused]
    simpa using hpause
  have hto' : ∀ e r n, TimesOut u e r n → sc.timesOut e r n := fun e r n htime =>
    hto e r n (hall.timesOut htime)
  have hroom' := hroom.imp_right hall.same.writerFull
  refine (checkAwaitingDurableTimeout_moves hpause' hquiet hto' huok hroom').bind fun _ v hv => ?_
  have htimers := foldlM_ensures (I := fun xs _ t => InFlightLoop sc u xs t)
    (fun k xs _ t ht => checkInFlightEntry_moves huok hroom' k xs ht) _ () v
    (hv.2.inFlightLoop hpause' hquiet hto')
  refine Ensures.bind (.bind_of_run (get_run v) htimers) fun _ w hw => finish w ?_
    (hw.2.same.faults.trans huok)
  exact hreach'.trans (hv.1.trans hw.1)

end FlareIm.Outbox
