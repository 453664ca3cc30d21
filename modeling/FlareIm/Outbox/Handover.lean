import FlareIm.Outbox.Places

/-! How often a message is handed to the writer. The dispatch loop checks the retry budget of a
message before it hands it over; the timers hand a message over again after a comparison of
the retry count before it is raised. The result here says that these two timer paths are the
only ways to exceed the budget. -/

namespace FlareIm.Outbox

open Lib Message Store List KeyedMap

variable {e : PendingSendVo} {ev : Event} {n r : ℕ} {sc : Scope}

section Results

variable [codes : ProtoCodes] {s : QueueState}

/-! ### Timers that are due -/

/-- The timers run: the queue is not paused and no row shows the end of a tracked message. -/
def timersRun (s : QueueState) : Bool :=
  !s.isPaused && (s.inFlight.keys ++ s.awaitingDurable.keys).all fun k =>
    reconcileInFlight ((s.messages.getByClientMsgId k).map IMMessage.snapshot) k = .keepWaiting

/-- The messages in flight whose timers the next tick finds elapsed. -/
def dueInFlight (s : QueueState) : List PendingSendVo :=
  if timersRun s then
    (s.inFlight.items.filter (fun x => s.isDeadlineElapsed x.deadlineMs)).map InFlightSend.entry
  else []

/-- The messages waiting for a durable acknowledgement whose timers the next tick finds
elapsed. -/
def dueAwaiting (s : QueueState) : List PendingSendVo :=
  if timersRun s then
    (s.awaitingDurable.items.filter (fun x => s.isDeadlineElapsed x.deadlineMs)).map AwaitingDurableAck.entry
  else []

theorem timersRun_of_quiet (hpause : s.isPaused = false) (hquiet : Quiet s) : timersRun s = true := by
  simp only [timersRun, hpause, Bool.not_false, Bool.true_and, all_eq_true, mem_append,
    mem_keys_iff_find?, decide_eq_true_eq]
  exact fun k hk => hk.elim (hquiet.1 k) (hquiet.2 k)

/-- A timer that may run out belongs to a due message, and shows its counts as the step found
them or, with a timeout of zero, as they are after one more attempt. -/
theorem due_of_timesOut (hapart : (s.view.standing e.clientMsgId).Apart) (h : TimesOut s e r n) :
    (e ∈ dueInFlight s ++ dueAwaiting s ∧ r = s.retryCount e.clientMsgId ∧ n = attempts e.clientMsgId s.history) ∨
      (e ∈ dueAwaiting s ∧ s.isDeadlineElapsed s.deadlineAfter ∧
        r = s.retryCount e.clientMsgId + 1 ∧ n ≤ attempts e.clientMsgId s.history + 1) := by
  obtain ⟨hpause, hquiet, hdue⟩ := h
  have hrun := timersRun_of_quiet hpause hquiet
  rcases hdue with ⟨x, hx, rfl, helapsed, hcount⟩ | ⟨y, hy, rfl, helapsed, hcount⟩
  · have hnone := hapart.1.resolve_left (by
      rw [show (s.view.standing x.entry.clientMsgId).inFlight = some x.entry from
        lookup_of_find? _ _ hx]
      simp)
    refine .inl ⟨mem_append_left _ ?_, hcount ((lookup_eq_none_iff _ _ _).mp hnone)⟩
    rw [dueInFlight, if_pos hrun]
    exact mem_map_of_mem (mem_filter.mpr ⟨mem_of_find? hx, helapsed⟩)
  · have hmem : y.entry ∈ dueAwaiting s := by
      rw [dueAwaiting, if_pos hrun]
      exact mem_map_of_mem (mem_filter.mpr ⟨mem_of_find? hy, helapsed⟩)
    exact hcount.imp (fun h => ⟨mem_append_right _ hmem, h⟩) fun h => ⟨hmem, h⟩

theorem timesOut_of_scope (h : (scope s ev).timesOut e r n) : ev = .tick ∧ TimesOut s e r n := by
  cases ev with
  | tick => exact ⟨rfl, h⟩
  | recv =>
    unfold scope at h
    cases hc : s.commands.head? with
    | none => rw [hc] at h; exact h.elim
    | some c => rw [hc] at h; exact h.elim
  | _ => exact h.elim

/-! ### The retry budget -/

/-- The step handles a resume or a login reset. -/
def handlesResumeOrReset (s : QueueState) : Event → Bool
  | .recv =>
    match s.commands with
    | .resume _ :: _ => true
    | .resetPendingOnLogin :: _ => true
    | _ => false
  | _ => false

theorem handles_of_scope (h : (scope s ev).resumes ∨ (scope s ev).resets) : handlesResumeOrReset s ev = true := by
  cases ev with
  | recv =>
    unfold scope at h
    unfold handlesResumeOrReset
    cases hc : s.commands with
    | nil =>
      rw [hc] at h
      exact (h.elim id id).elim
    | cons c rest =>
      rw [hc] at h
      rcases h with ⟨resend, rfl⟩ | hreset
      · rfl
      · cases (show c = .resetPendingOnLogin from hreset)
        rfl
  | _ => exact (h.elim id id).elim

/-- Every message that the step would send again because its timer elapsed has an attempt
left, or the writer has no room. With a timeout of zero, an awaited message is sent twice. -/
def ResendsWithinBudget (s : QueueState) : Event → Prop
  | .tick => s.writerCapacity ≠ 0 →
      (∀ e ∈ dueInFlight s ++ dueAwaiting s, s.retryCount e.clientMsgId < s.config.maxRetries →
        attempts e.clientMsgId s.history < s.config.maxRetries) ∧
      ∀ e ∈ dueAwaiting s, s.isDeadlineElapsed s.deadlineAfter →
      s.retryCount e.clientMsgId + 1 < s.config.maxRetries →
        attempts e.clientMsgId s.history + 1 < s.config.maxRetries
  | _ => True

instance (s : QueueState) (ev : Event) : Decidable (ResendsWithinBudget s ev) := by
  unfold ResendsWithinBudget
  split <;> infer_instance

theorem ResendsWithinBudget.attempt_left
    (h : ResendsWithinBudget s ev) (hapart : ∀ k, (s.view.standing k).Apart)
    (htime : (scope s ev).timesOut e r n) (hopen : (scope s ev).writerOpen)
    (hbudget : r < s.config.maxRetries) : n < s.config.maxRetries := by
  obtain ⟨rfl, htime⟩ := timesOut_of_scope htime
  obtain ⟨hdue, hagain⟩ := h hopen
  rcases due_of_timesOut (hapart _) htime with ⟨hmem, rfl, rfl⟩ | ⟨hmem, helapsed, rfl, hn⟩
  · exact hdue e hmem hbudget
  · exact hn.trans_lt (hagain e hmem helapsed hbudget)

namespace Standing

/-- Every retry stands for one attempt, and a message that is tracked has one more. -/
def WithinBudget (x : Standing) : Prop :=
  x.attempts ≤ x.maxRetries ∧ (x.attempts ≤ x.retries ∨
    ((x.inFlight ≠ none ∨ x.awaiting ≠ none) ∧ x.attempts ≤ x.retries + 1))

end Standing

omit codes in
theorem Shift.withinBudget {k : String} {x y : Standing} (h : Shift sc k x y)
    (hresume : ¬ sc.resumes) (hreset : ¬ sc.resets)
    (hleft : ∀ e, sc.timesOut e x.retries x.attempts → sc.writerOpen → x.retries < x.maxRetries →
      x.attempts < x.maxRetries)
    (hx : x.WithinBudget) : y.WithinBudget := by
  obtain ⟨hmax, hcount⟩ := hx
  have hle : x.attempts ≤ x.retries + 1 := hcount.elim (fun h => by omega) fun h => h.2
  cases h with
  | settle src h => cases src <;> exact ⟨Nat.zero_le _, .inl (Nat.zero_le _)⟩
  | accept src h e => cases src <;> exact ⟨hmax, .inr ⟨.inr (by simp), hle⟩⟩
  | retryLater src h hbudget => cases src <;> exact ⟨hmax, .inl hle⟩
  | dispatch e hp hfly hawait hback hbudget =>
    have hfree : x.attempts ≤ x.retries :=
      hcount.resolve_right fun h => h.1.elim (absurd hfly) (absurd hawait)
    exact ⟨by dsimp only; omega, .inr ⟨.inl (by simp), by dsimp only; omega⟩⟩
  | resend src hsrc h e hid htime hbudget n hn =>
    have hn : n ≤ x.maxRetries ∧ n ≤ x.retries + 1 + 1 := by
      rcases hn with rfl | ⟨hopen, rfl⟩
      · exact ⟨hmax, hle.trans (Nat.le_succ _)⟩
      · exact ⟨hleft e htime hopen hbudget, Nat.succ_le_succ hle⟩
    cases src <;> exact ⟨hn.1, .inr ⟨.inl (by simp), hn.2⟩⟩
  | attemptFailed h hbudget => exact ⟨hmax, .inl hle⟩
  | expire => exact ⟨Nat.zero_le _, .inl (Nat.zero_le _)⟩
  | release hres => exact absurd hres hresume
  | heal hres h => exact absurd hres hresume
  | reset hres retries n => exact absurd hres hreset
  | _ => exact ⟨hmax, hcount⟩

omit codes in
theorem attempts_persistedHistory (k : String) (p : PendingEntries) : attempts k (persistedHistory p) = 0 := by
  refine countP_eq_zero.mpr fun a ha => ?_
  obtain ⟨e, -, rfl⟩ := mem_map.mp ((takeWhile_sublist _).subset ha)
  simp [Action.isHanding]

/-- Without resume and login reset, a message is handed to the writer at most `max_retries`
times before it leaves the pending store, in every run in which no timer runs out on a message
that has no attempt left. -/
theorem attempts_le_maxRetries (w : Surroundings) (hw : w.faults = []) (es : List Event)
    (hplain : AllSteps step (fun s ev => handlesResumeOrReset s ev = false) (spawn w) es)
    (hc : AllSteps step ResendsWithinBudget (spawn w) es) (k : String) :
    attempts k (run step (spawn w) es).history ≤ w.config.maxRetries := by
  have hrun := run_view_invariant (s := spawn w) (I := fun v => v.maxRetries = w.config.maxRetries ∧
      ∀ k, (v.standing k).Apart ∧ (v.standing k).WithinBudget)
    (c := fun s ev => handlesResumeOrReset s ev = false ∧ ResendsWithinBudget s ev) ?_
    (fun v user hv => hv) es (spawn_faults hw) ?_ (hplain.and hc)
  · exact (hrun.2 k).2.1.trans_eq hrun.1
  · rintro s ev ⟨hsmax, hs⟩ ⟨hplain, hleft⟩ v v' - hm ⟨hvmax, hv⟩
    refine ⟨hm.maxRetries_eq.trans hvmax, fun k => ?_⟩
    have hshift := hm.shifts k
    refine ⟨hshift.apart (hv k).1, hshift.withinBudget (fun h => ?_) (fun h => ?_) ?_ (hv k).2⟩
    · exact absurd (handles_of_scope (.inl h)) (by simp [hplain])
    · exact absurd (handles_of_scope (.inr h)) (by simp [hplain])
    · rw [show (v.standing k).maxRetries = s.config.maxRetries from hvmax.trans hsmax.symm]
      exact fun e htime => hleft.attempt_left (fun k => (hs k).1) htime
  · rw [spawn_view hw]
    refine ⟨rfl, fun k => ⟨⟨.inl rfl, .inl rfl, .inl rfl⟩, ?_⟩⟩
    rw [Standing.WithinBudget, View.standing, attempts_persistedHistory]
    exact ⟨Nat.zero_le _, .inl (Nat.zero_le _)⟩

end Results

theorem attempts_expiringRun_two : attempts "c1" (run (@step sampleCodes alone) (spawn sampleSurroundings)
      (expiringRun [12000, 24000])).history ≤ sampleSurroundings.config.maxRetries :=
  @attempts_le_maxRetries sampleCodes sampleSurroundings rfl (expiringRun [12000, 24000])
    (by decide) (by decide) "c1"

theorem attempts_expiringRun_three :
    AllSteps (@step sampleCodes alone) (fun s ev => handlesResumeOrReset s ev = false)
        (spawn sampleSurroundings) (expiringRun [12000, 24000, 36000]) ∧
      sampleSurroundings.config.maxRetries < attempts "c1" (run (@step sampleCodes alone)
        (spawn sampleSurroundings) (expiringRun [12000, 24000, 36000])).history := by
  decide

end FlareIm.Outbox
