import FlareIm.Outbox.Flight
import FlareIm.Outbox.Handover

/-! How many messages are in flight at once. The dispatch loop stops at the adaptive window,
which never exceeds `max_in_flight`, and every other handler takes a message out of the map in
flight before it puts it back. The timer of the durable acknowledgements is the exception: it
sends an awaited message again without a look at the window. The bound therefore holds in every
run in which the messages whose durable acknowledgement times out still fit. -/

namespace FlareIm.Outbox

open Lib Message Store List KeyedMap Prog

section Programs

variable {α : Type} {x : OutboxM α} [codes : ProtoCodes]

/-! ### Reconciliation -/

omit codes in
theorem allowsReconciling_grows : AllowsReconciling (Grows 0) where
  meanwhile s := refl_of (Grows 0) s
  faults s _ := (allowsFailing_aside.faults s _).grows
  stores s _ _ _ h := (allowsFailing_aside.stores s _ _ _ h).grows
  counts s _ := (allowsFailing_aside.counts s _).grows
  bus s _ := (allowsFailing_aside.bus s _).grows
  takeInFlight s _ := ⟨rfl, rfl, s.inFlight.size_filter_le _⟩
  takeAwaiting _ _ := Aside.grows rfl
  putBackInFlight _ _ x hx := .of_removed hx (insertInFlight_grows x _)
  putBackAwaiting _ _ _ _ := Aside.grows rfl

/-- Nothing that a timer looks at has changed. -/
structure Idle (s t : QueueState) : Prop where
  grows : Grows 0 s t
  now : t.nowMs = s.nowMs
  retries : t.retryCount = s.retryCount
  messages : t.messages = s.messages
  inFlight : t.inFlight.find? = s.inFlight.find?
  awaiting : t.awaitingDurable.find? = s.awaitingDurable.find?

namespace Idle

variable {s t u : QueueState}

omit codes in
theorem refl (s : QueueState) : Idle s s := ⟨refl_of (Grows 0) s, rfl, rfl, rfl, rfl, rfl⟩

omit codes in
theorem trans (h : Idle s t) (h' : Idle t u) : Idle s u :=
  ⟨h.grows.trans h'.grows, h'.now.trans h.now, h'.retries.trans h.retries,
    h'.messages.trans h.messages, h'.inFlight.trans h.inFlight, h'.awaiting.trans h.awaiting⟩

omit codes in
theorem of_reordered (h : Reordered s t) (hg : Grows 0 s t) : Idle s t :=
  ⟨hg, h.same.now, congrArg View.retries h.view, h.messages, h.inFlight, h.awaiting⟩

end Idle

omit codes in
theorem getByClientMsgIds_yields (ids : List String) (s : QueueState) : Yields (getByClientMsgIds ids) s
      (fun rows t => rows = s.messages.getByClientMsgIds ids ∧ Idle s t) := by
  intro rows t h
  change callStore _ s = _ at h
  unfold callStore at h
  split at h
  · cases h
    exact ⟨rfl, .refl s⟩
  · cases h
    exact ⟨rfl, ⟨⟨rfl, rfl, Nat.le_refl _⟩, rfl, rfl, rfl, rfl, rfl⟩⟩
  · cases h

variable {e : PendingSendVo} {s t : QueueState}

theorem reconcile_idle {held : QueueState → String → Prop} {body : List IMMessage → Bool → String → OutboxM Bool}
    (hbody : ∀ rows, NoProgress rows held (body rows)) (hheld : ∀ s t k, Reordered s t → (held t k ↔ held s k))
    (hgrows : ∀ rows b k, Within (Grows 0) (body rows b k)) {ids : List String}
    (hmem : ∀ k, held s k → k ∈ ids) (hidle : ∀ t k, Idle s t → held s k → held t k) :
    Yields (if ids.isEmpty then pure false else getByClientMsgIds ids >>= fun rows =>
    ids.foldlM (body rows) false) s
      (fun b t => b = false → Idle s t ∧ ∀ k, held s k → StillOpen s k) := by
  split
  · rename_i hempty
    refine .pure fun _ => ⟨.refl s, fun k hk => ?_⟩
    have hin := hmem k hk
    rw [isEmpty_iff.mp hempty] at hin
    cases hin
  refine (getByClientMsgIds_yields _ s).bind fun rows t ⟨hrows, hread⟩ b u hrun hb => ?_
  obtain ⟨hre, hopen⟩ := reconcile_noProgress (hbody rows) hheld ids t b u hrun hb
  have hgrow := Within.foldlM (hgrows rows) ids false t
  rw [hrun] at hgrow
  subst hrows
  refine ⟨hread.trans (.of_reordered hre hgrow), fun k hk => ?_⟩
  exact stillOpen_of_reconciledEvent (hmem k hk) (hopen k (hmem k hk) (hidle t k hread hk))

/-! ### Timers -/

theorem expireTimer_grows (e : PendingSendVo) : Within (Grows 1) (expireTimer e) := by
  refine grows_bind noteSendCongestion_aside fun _ => .get_bind fun s => ?_
  split
  · exact grows_bind (setRetryCount_aside _ _) fun _ =>
      dispatchSendAttempt_grows e _
  · exact (within_grows (failEntry_aside e _)).mono fun _ _ h => h.one

theorem checkInFlightEntry_grows (k : String) : Within (Grows 0) (checkInFlightEntry k) := by
  intro s
  unfold checkInFlightEntry
  rw [get_bind]
  split
  · exact refl_of (Grows 0) s
  rename_i x hx
  rw [removeInFlight, modify_bind]
  split
  · exact .of_removed hx (expireTimer_grows x.entry _)
  · exact .of_removed hx (insertInFlight_grows x _)

theorem checkInFlightTimeout_grows : Within (Grows 0) checkInFlightTimeout :=
  .get_bind fun s => .foldlM (fun _ k => checkInFlightEntry_grows k) (s.iterate s.inFlight.keys) ()

/-- The timer of the durable acknowledgement of the message has run out, and an attempt is
left. -/
def resendsOnTimeout (s : QueueState) (k : String) : Bool :=
  (s.awaitingDurable.find? k).any fun x =>
    s.isDeadlineElapsed x.deadlineMs && s.retryCount k < s.config.maxRetries

/-- A message without an attempt left is failed. -/
theorem expireTimer_grows_of_exhausted
    (h : s.config.maxRetries ≤ s.retryCount e.clientMsgId) :
    Grows 0 s ((expireTimer e).run s).2 := by
  have hfail : decideTimeoutExpiry (s.retryCount e.clientMsgId) s.config.maxRetries =
      .fail reasonTimeoutAfterRetries := if_pos h
  unfold expireTimer
  rw [noteSendCongestion, modify_bind, get_bind]
  rw [hfail]
  exact trans_of (Grows 0) (noteSendCongestion_aside s).grows (failEntry_aside e _ _).grows

theorem checkAwaitingEntry_grows (k : String) (s : QueueState) :
    Grows (if resendsOnTimeout s k then 1 else 0) s ((checkAwaitingEntry k).run s).2 := by
  unfold checkAwaitingEntry resendsOnTimeout
  rw [get_bind]
  cases hx : s.awaitingDurable.find? k with
  | none => exact refl_of (Grows 0) s
  | some x =>
    have hid : x.clientMsgId = k := key_of_find? hx
    have removed : Grows 0 s { s with awaitingDurable := s.awaitingDurable.erase k } :=
      ⟨rfl, rfl, Nat.le_refl _⟩
    rw [removeAwaiting, modify_bind, Option.any_some]
    cases helapsed : s.isDeadlineElapsed x.deadlineMs with
    | false => exact trans_of (Grows 0) removed (insertAwaiting_aside x _).grows
    | true =>
      simp only [Bool.true_and, decide_eq_true_eq, if_true]
      split
      · have hgrow := removed.trans (expireTimer_grows x.entry _)
        rwa [Nat.zero_add] at hgrow
      · rename_i hspent
        refine trans_of (Grows 0) removed (expireTimer_grows_of_exhausted ?_)
        rw [← hid] at hspent
        exact Nat.le_of_not_lt hspent

/-- Only the message with the id is touched. -/
structure Beside (k : String) (s t : QueueState) : Prop where
  now : t.nowMs = s.nowMs
  awaiting : ∀ j, j ≠ k → t.awaitingDurable.find? j = s.awaitingDurable.find? j
  retries : ∀ j, j ≠ k → t.retryCount j = s.retryCount j

section Beside

variable {k : String}

omit codes in
theorem Beside.of_eq
    (h : (t.nowMs, t.awaitingDurable, t.retryCount) = (s.nowMs, s.awaitingDurable, s.retryCount)) :
      Beside k s t := by
  simp only [Prod.mk.injEq] at h
  exact ⟨h.1, fun j _ => by rw [h.2.1], fun j _ => by rw [h.2.2]⟩

instance : Std.Refl (Beside k) := ⟨fun _ => .of_eq rfl⟩

instance : IsTrans QueueState (Beside k) where
  trans _ _ _ h h' := ⟨h'.now.trans h.now, fun j hj => (h'.awaiting j hj).trans (h.awaiting j hj),
    fun j hj => (h'.retries j hj).trans (h.retries j hj)⟩

omit codes in
theorem setRetryCount_beside (retries : ℕ) : Within (Beside k) (setRetryCount k retries) :=
  .modify fun _ => ⟨rfl, fun _ _ => rfl, fun _ hj => Function.update_of_ne hj _ _⟩

omit codes in
theorem dispatchSendAttempt_beside (e : PendingSendVo) (retries : ℕ) :
    Within (Beside k) (dispatchSendAttempt e retries) := by
  refine .modify fun s => ?_
  dsimp only
  split
  · unfold noteWriterFull
    split <;> exact .of_eq rfl
  · exact .of_eq rfl

theorem failEntry_beside (hid : e.clientMsgId = k) (reason : String) :
    Within (Beside k) (failEntry e reason) := by
  subst hid
  have hcalls : AllowsCalls (Beside e.clientMsgId) :=
    ⟨fun _ => .of_eq rfl, fun _ _ => .of_eq rfl, fun _ _ _ _ _ => .of_eq rfl⟩
  exact hcalls.failEntry e reason (setRetryCount_beside 0) fun _ => .modify fun _ => .of_eq rfl

theorem expireTimer_beside (hid : e.clientMsgId = k) : Within (Beside k) (expireTimer e) := by
  refine .bind (.modify fun _ => .of_eq rfl) fun _ => .get_bind fun s => ?_
  split
  · rw [hid]
    exact .bind (setRetryCount_beside _) fun _ => dispatchSendAttempt_beside e _
  · exact failEntry_beside hid _

theorem checkAwaitingEntry_beside : Within (Beside k) (checkAwaitingEntry k) := by
  intro s
  unfold checkAwaitingEntry
  rw [get_bind]
  split
  · exact refl_of (Beside k) s
  rename_i x hx
  have hid : x.clientMsgId = k := key_of_find? hx
  have removed : Beside k s { s with awaitingDurable := s.awaitingDurable.erase k } :=
    ⟨rfl, fun j hj => by rw [find?_erase, if_neg hj], fun _ _ => rfl⟩
  rw [removeAwaiting, modify_bind]
  refine trans_of (Beside k) removed ?_
  split
  · exact expireTimer_beside hid _
  · exact ⟨rfl, fun j hj => (find?_insert ..).trans (if_neg (hid ▸ hj)), fun _ _ => rfl⟩

end Beside

/-- The loop over the awaited messages puts one message in flight for each that it resends. -/
theorem checkAwaiting_loop_grows : ∀ (ids : List String), ids.Nodup → ∀ s : QueueState,
    Grows (ids.countP (resendsOnTimeout s)) s ((ids.foldlM (fun _ k => checkAwaitingEntry k) ()).run s).2 := by
  intro ids
  induction ids with
  | nil => intro _ s; exact refl_of (Grows 0) s
  | cons k ids ih =>
    intro hnodup s
    obtain ⟨hk, hnodup⟩ := nodup_cons.mp hnodup
    have hgrow := checkAwaitingEntry_grows k s
    have hbeside := checkAwaitingEntry_beside (k := k) s
    -- the ids still to come stand as they did
    have hcount : ∀ t, Grows (if resendsOnTimeout s k then 1 else 0) s t → Beside k s t →
        ids.countP (resendsOnTimeout t) = ids.countP (resendsOnTimeout s) := by
      intro t hg hb
      refine countP_congr fun j hj => ?_
      have hne : j ≠ k := fun h => hk (h ▸ hj)
      simp only [resendsOnTimeout, QueueState.isDeadlineElapsed, hb.awaiting j hne,
        hb.retries j hne, hb.now, hg.config]
    rw [foldlM_cons, bind_run, countP_cons]
    rcases hrun : (checkAwaitingEntry k).run s with ⟨result, t⟩
    rw [hrun] at hgrow hbeside
    cases result with
    | ok _ =>
      have hrest := ih hnodup t
      rw [hcount t hgrow hbeside] at hrest
      have htotal := hgrow.trans hrest
      rwa [Nat.add_comm] at htotal
    | error e => exact ⟨hgrow.config, hgrow.limit, hgrow.size.trans (by omega)⟩

/-! ### Runs -/

/-- How many awaited messages the next tick sends again. -/
def durableResends (s : QueueState) : ℕ :=
  if timersRun s then s.awaitingDurable.keys.countP (resendsOnTimeout s) else 0

/-- What the timer of the durable acknowledgements puts in flight has room there. -/
def DurableResendsFit (s : QueueState) : Event → Prop
  | .tick => s.inFlight.size + durableResends s ≤ s.config.maxInFlight
  | _ => True

instance (s : QueueState) (ev : Event) : Decidable (DurableResendsFit s ev) := by
  unfold DurableResendsFit
  split <;> infer_instance

/-- The window goes up to the configured `n`, and the messages in flight are within it. -/
structure InWindow (n : ℕ) (s : QueueState) : Prop where
  config : s.config.maxInFlight = n
  limit : s.adaptiveWindow.limit = n
  size : s.inFlight.size ≤ n

variable {n : ℕ}

omit codes in
theorem InWindow.of_fits (hs : InWindow n s) (h : Fits s t) : InWindow n t where
  config := by rw [h.config, hs.config]
  limit := by rw [h.limit, hs.limit]
  size := h.size.trans (max_le hs.size (Nat.le_of_eq hs.limit))

/-- When the timers run, nothing has changed since the tick began. -/
theorem checkAwaitingDurableTimeout_inWindow (hs : InWindow n s) (hidle : Idle s t)
    (hfit : s.inFlight.size + s.awaitingDurable.keys.countP (resendsOnTimeout s) ≤ n) :
    InWindow n (checkAwaitingDurableTimeout.run t).2 := by
  have hloop := checkAwaiting_loop_grows (t.iterate t.awaitingDurable.keys)
    (t.nodup_iterate t.awaitingDurable.nodup) t
  have hsame : resendsOnTimeout t = resendsOnTimeout s := by
    funext k
    simp only [resendsOnTimeout, QueueState.isDeadlineElapsed, hidle.awaiting, hidle.now,
      hidle.retries, hidle.grows.config]
  have hcount : (t.iterate t.awaitingDurable.keys).countP (resendsOnTimeout t) =
      s.awaitingDurable.keys.countP (resendsOnTimeout s) := by
    rw [hsame]
    exact ((t.hashOrder.perm _).trans (keys_perm_of_find?_eq hidle.awaiting)).countP_eq _
  rw [hcount] at hloop
  have htotal := hidle.grows.trans hloop
  rw [Nat.zero_add] at htotal
  rw [checkAwaitingDurableTimeout, get_bind]
  exact ⟨by rw [htotal.config, hs.config], by rw [htotal.limit, hs.limit], htotal.size.trans hfit⟩

theorem checkTimeout_inWindow (hs : InWindow n s)
    (hfit : s.inFlight.size + durableResends s ≤ n) : InWindow n (checkTimeout.run s).2 := by
  have fits {x : OutboxM Unit} {t : QueueState} (ht : InWindow n t) (hx : Within Fits x) :
      Guards (InWindow n) x t fun _ _ => True := ⟨ht.of_fits (hx t), fun _ _ _ => trivial⟩
  have hsend : Within Fits (trySendNext >>= fun _ => pure ()) :=
    .bind trySendNext_fits fun _ => .pure ()
  suffices h : Guards (InWindow n) checkTimeout s fun _ _ => True from h.1
  refine .get_bind ?_
  split
  · exact fits hs (.bind (within_fits allowsReconciling_grows.reconcileInFlightTerminalStates) fun _ =>
      .bind (within_fits allowsReconciling_grows.reconcileAwaitingDurableTerminalStates) fun _ => .pure ())
  rename_i hpause
  refine Guards.bind ⟨hs.of_fits (allowsReconciling_grows.reconcileInFlightTerminalStates s).fits,
    .get_bind (reconcile_idle reconcileInFlightEntry_noProgress (fun a b k hre => by rw [hre.inFlight])
      allowsReconciling_grows.reconcileInFlightEntry (fun _ => s.mem_iterate_keys) fun t k hread hk => by
        rwa [hread.inFlight])⟩
    fun progressed t ht hfly => ?_
  cases progressed with
  | true => exact fits ht hsend
  | false =>
    obtain ⟨hidle, hopen⟩ := hfly rfl
    refine Guards.bind ⟨ht.of_fits (allowsReconciling_grows.reconcileAwaitingDurableTerminalStates t).fits,
      .get_bind (reconcile_idle reconcileAwaitingEntry_noProgress (fun a b k hre => by rw [hre.awaiting])
        allowsReconciling_grows.reconcileAwaitingEntry (fun _ => t.mem_iterate_keys)
        fun t k hread hk => by rwa [hread.awaiting])⟩ fun progressed u hu hawait => ?_
    cases progressed with
    | true => exact fits hu hsend
    | false =>
      obtain ⟨hidle', hopen'⟩ := hawait rfl
      -- no row shows the end of a tracked message, so this is a tick in which the timers run
      have hquiet : Quiet s := ⟨hopen, fun k hk => by
        have := hopen' k (by rwa [hidle.awaiting])
        rwa [StillOpen, hidle.messages] at this⟩
      have hruns := timersRun_of_quiet (Bool.eq_false_iff.mpr hpause) hquiet
      rw [durableResends, if_pos hruns] at hfit
      refine Guards.bind ⟨checkAwaitingDurableTimeout_inWindow hs (hidle.trans hidle') hfit,
        fun _ _ _ => trivial⟩ fun _ v hv _ => ?_
      exact fits hv (.bind (within_fits checkInFlightTimeout_grows) fun _ => trySendNext_fits)

omit codes in
theorem fits_of_core (h : t.core = s.core) : Fits s t :=
  ⟨(congrArg QueueState.config h : _), (congrArg (·.adaptiveWindow.limit) h : _),
    (congrArg (·.inFlight.size) h).trans_le (Nat.le_max_left _ _)⟩

theorem step_inWindow {ev : Event} (hs : InWindow n s)
    (hfit : DurableResendsFit s ev) : InWindow n (step s ev) := by
  cases ev with
  | recv =>
    refine hs.of_fits ?_
    unfold step recvCommand
    dsimp only
    split
    · exact refl_of Fits s
    · rename_i c rest _
      have hhandle := handleCommand_fits c { s with commands := rest }
      exact ⟨hhandle.config, hhandle.limit, hhandle.size⟩
  | tick =>
    have hroom : s.inFlight.size + durableResends s ≤ n := hs.config ▸ hfit
    exact (checkTimeout_inWindow hs hroom).of_fits (fits_of_core (core_probeLinkIfSendStalled _))
  | setUser userId => exact hs.of_fits ⟨rfl, rfl, Nat.le_max_left _ _⟩
  | setClock nowMs => exact hs.of_fits ⟨rfl, rfl, Nat.le_max_left _ _⟩
  | downlink messages => exact hs.of_fits ⟨rfl, rfl, Nat.le_max_left _ _⟩
  | _ => exact hs.of_fits (fits_of_core (core_step s rfl))

omit codes in
theorem spawn_inWindow (w : Surroundings) : InWindow w.config.maxInFlight (spawn w) := by
  have hseed : Within Fits seedEnqueueClock := by
    refine aside_bind (.attempt (storeCall_aside fun _ => rfl)) fun r => ?_
    cases r with
    | error e => exact .pure ()
    | ok entries => exact aside_fits (.modify fun _ => rfl)
  have hnew : InWindow w.config.maxInFlight (newQueue w) :=
    ⟨rfl, Nat.max_eq_left w.config.maxInFlight_pos, Nat.zero_le _⟩
  exact hnew.of_fits (hseed _)

/-- In every run in which the messages whose durable acknowledgement times out have room, no
more than `max_in_flight` messages are in flight. -/
theorem inFlight_le_maxInFlight_run (w : Surroundings) (es : List Event)
    (hc : AllSteps step DurableResendsFit (spawn w) es) :
    (run step (spawn w) es).inFlight.size ≤ w.config.maxInFlight :=
  (run_invariant (I := InWindow w.config.maxInFlight) (fun _ _ hs hfit => step_inWindow hs hfit)
    es (spawn w) (spawn_inWindow w) hc).size

end Programs

def narrowSurroundings : Surroundings :=
  { sampleSurroundings with
    config := { sampleConfig with maxInFlight := 1, maxInFlight_pos := by decide, maxInFlight_le := by decide } }

/-- The first message is accepted but not durable, and the slot goes to the second one. Then the
timers are checked at the given times. -/
def acceptedRun (times : List UInt64) : List Event :=
  [.send (.enqueue (sampleMessage "c1")), .recv, .send (.ackReceived (sampleAccept "c1")), .recv,
    .send (.enqueue (sampleMessage "c2")), .recv] ++ times.flatMap tickAt

theorem inFlight_le_maxInFlight_acceptedRun :
    (run (@step sampleCodes alone) (spawn narrowSurroundings) (acceptedRun [5000])).inFlight.size ≤
      narrowSurroundings.config.maxInFlight :=
  @inFlight_le_maxInFlight_run sampleCodes narrowSurroundings (acceptedRun [5000]) (by decide)

theorem not_inFlight_le_maxInFlight_durable_timeout :
    ¬ (run (@step sampleCodes alone) (spawn narrowSurroundings) (acceptedRun [11000])).inFlight.size ≤
      narrowSurroundings.config.maxInFlight := by
  decide

end FlareIm.Outbox
