import FlareIm.Outbox.Calls
import FlareIm.Outbox.System

/-! What the handlers of commands can do to the queue, whatever other tasks do while they wait. Only
the dispatch loop hands a message over; most programs leave the map in flight and its bound alone, and a
handler that sends a message again takes it out of the map before it puts it back. One walk over the
handlers says this for every relation between the state before a program and the state after it that
allows these changes; the bound on what is in flight is one such relation. -/

namespace FlareIm.Outbox

open Lib Message Store Prog

/-! ### The map in flight and its bound -/

/-- What the bound is about. -/
def QueueState.flight (s : QueueState) : QueueConfig × ℕ × KeyedMap String InFlightSend InFlightSend.clientMsgId :=
  (s.config, s.adaptiveWindow.limit, s.inFlight)

def Aside (s t : QueueState) : Prop := t.flight = s.flight

/-- At most `n` more messages are in flight; the bound itself stands. -/
structure Grows (n : ℕ) (s t : QueueState) : Prop where
  config : t.config = s.config
  limit : t.adaptiveWindow.limit = s.adaptiveWindow.limit
  size : t.inFlight.size ≤ s.inFlight.size + n

/-- No more messages are in flight than before, or no more than the window can ever hold. -/
structure Fits (s t : QueueState) : Prop where
  config : t.config = s.config
  limit : t.adaptiveWindow.limit = s.adaptiveWindow.limit
  size : t.inFlight.size ≤ max s.inFlight.size s.adaptiveWindow.limit

variable {n : ℕ} {s t : QueueState} {β : Type}

section Relations

variable {u : QueueState}

instance : Std.Refl Aside := ⟨fun _ => rfl⟩

instance : IsTrans QueueState Aside := ⟨fun _ _ _ h h' => Eq.trans h' h⟩

theorem Aside.grows (h : Aside s t) : Grows 0 s t := by
  obtain ⟨hconfig, hlimit, hfly⟩ : t.config = s.config ∧
      t.adaptiveWindow.limit = s.adaptiveWindow.limit ∧ t.inFlight = s.inFlight := by
    simpa only [Aside, QueueState.flight, Prod.mk.injEq] using h
  exact ⟨hconfig, hlimit, by rw [hfly, Nat.add_zero]⟩

theorem Grows.trans {m : ℕ} (h : Grows m s t) (h' : Grows n t u) : Grows (m + n) s u where
  config := h'.config.trans h.config
  limit := h'.limit.trans h.limit
  size := by
    have hsize := h.size
    have hsize' := h'.size
    omega

instance : Std.Refl (Grows 0) := ⟨fun _ => ⟨rfl, rfl, Nat.le_refl _⟩⟩

instance : IsTrans QueueState (Grows 0) := ⟨fun _ _ _ h h' => h.trans h'⟩

theorem Grows.fits (h : Grows 0 s t) : Fits s t :=
  ⟨h.config, h.limit, h.size.trans (Nat.le_max_left _ _)⟩

instance : Std.Refl Fits := ⟨fun _ => ⟨rfl, rfl, Nat.le_max_left _ _⟩⟩

instance : IsTrans QueueState Fits where
  trans s t u h h' := by
    refine ⟨h'.config.trans h.config, h'.limit.trans h.limit, ?_⟩
    have hsize := h'.size
    rw [h.limit] at hsize
    exact hsize.trans (max_le h.size (Nat.le_max_right _ _))

/-- A message was taken out of the map; at most one is put back. -/
theorem Grows.of_removed {k : String} {x : InFlightSend} (hx : s.inFlight.find? k = some x)
    (h : Grows 1 { s with inFlight := s.inFlight.erase k } t) : Grows 0 s t where
  config := h.config
  limit := h.limit
  size := h.size.trans (s.inFlight.size_erase_of_find? hx)

end Relations

/-! ### Programs that put nothing in flight -/

section Programs

variable {α : Type} {x : OutboxM α}

theorem allowsFailing_aside : AllowsFailing Aside where
  meanwhile _ := rfl
  faults _ _ := rfl
  stores _ _ _ _ _ := rfl
  counts _ _ := rfl
  bus _ _ := rfl

theorem storeCall_aside {f : QueueState → α × QueueState} (h : ∀ s, Aside s (f s).2) : Within Aside (storeCall f) :=
  allowsFailing_aside.storeCall h

theorem within_grows (h : Within Aside x) : Within (Grows 0) x :=
  h.mono fun _ _ h => h.grows

theorem grows_bind {f : α → OutboxM β} (h : Within Aside x)
    (hf : ∀ a, Within (Grows n) (f a)) : Within (Grows n) (x >>= f) := by
  intro s
  refine Leads.bind (Q := fun _ t => Grows 0 s t) (R := fun _ t => Grows n s t) (within_grows h s)
    (fun a t ht => ?_)
    fun _ t ht => ?_
  · have hgrow := ht.trans (hf a t)
    rwa [Nat.zero_add] at hgrow
  · exact ⟨ht.config, ht.limit, ht.size.trans (Nat.le_add_right _ _)⟩

theorem Grows.one (h : Grows 0 s t) : Grows 1 s t :=
  ⟨h.config, h.limit, h.size.trans (Nat.le_succ _)⟩

theorem within_fits (h : Within (Grows 0) x) : Within Fits x := h.mono fun _ _ h => h.fits

theorem aside_fits (h : Within Aside x) : Within Fits x := within_fits (within_grows h)

theorem aside_bind {f : α → OutboxM β} (h : Within Aside x) (hf : ∀ a, Within Fits (f a)) :
    Within Fits (x >>= f) :=
  .bind (aside_fits h) hf

theorem noteSuccess_limit (w : AdaptiveInFlightWindow) : w.noteSuccess.limit = w.limit := by
  unfold AdaptiveInFlightWindow.noteSuccess
  split
  · rfl
  · split <;> rfl

theorem setRetryCount_aside (k : String) (retries : ℕ) : Within Aside (setRetryCount k retries) :=
  .modify fun _ => rfl

theorem insertAwaiting_aside (x : AwaitingDurableAck) : Within Aside (insertAwaiting x) :=
  .modify fun _ => rfl

theorem noteSendCongestion_aside : Within Aside noteSendCongestion := .modify fun _ => rfl

variable [codes : ProtoCodes] (e : PendingSendVo)

theorem failEntry_aside (reason : String) : Within Aside (failEntry e reason) :=
  allowsFailing_aside.failEntry e reason

/-! ### The dispatch loop -/

omit codes in
theorem dispatchSendAttempt_grows (retries : ℕ) : Within (Grows 1) (dispatchSendAttempt e retries) := by
  refine .modify fun s => ?_
  have hsize := s.inFlight.size_insert_le ⟨e, s.deadlineAfter, s.nowMs, false⟩
  dsimp only
  split
  · unfold noteWriterFull
    split <;> exact ⟨rfl, rfl, hsize⟩
  · exact ⟨rfl, rfl, hsize⟩

omit codes in
/-- An attempt is dispatched while there is room in the window. -/
theorem allowsDispatch_fits (user : String) : AllowsDispatch Fits user where
  meanwhile s := refl_of Fits s
  faults s _ := (allowsFailing_aside.faults s _).grows.fits
  stores s _ _ _ h := (allowsFailing_aside.stores s _ _ _ h).grows.fits
  counts s _ := (allowsFailing_aside.counts s _).grows.fits
  bus s _ := (allowsFailing_aside.bus s _).grows.fits
  writerFull s := by
    unfold noteWriterFull
    split <;> exact ⟨rfl, rfl, Nat.le_max_left _ _⟩
  send s e retries hroom _ := by
    have hgrow := dispatchSendAttempt_grows e retries s
    have hcur := s.adaptiveWindow.current_le_limit
    refine ⟨hgrow.config, hgrow.limit, le_max_of_le_right (hgrow.size.trans ?_)⟩
    omega

theorem trySendNext_fits : Within Fits trySendNext :=
  trySendNext_within allowsDispatch_fits

omit codes in
theorem insertInFlight_grows (x : InFlightSend) : Within (Grows 1) (insertInFlight x) :=
  .modify fun s => ⟨rfl, rfl, s.inFlight.size_insert_le x⟩

end Programs

/-! ### Handlers -/

/-- What decides whether attempts are the connected user's. -/
def QueueState.handing (s : QueueState) : List Action × String × List (List Event) :=
  (s.history, s.currentUserId, s.others)

/-- What most changes of the queue leave alone. -/
def QueueState.frame (s : QueueState) : (List Action × String × List (List Event)) ×
    QueueConfig × ℕ × KeyedMap String InFlightSend InFlightSend.clientMsgId :=
  (s.handing, s.flight)

section Handlers

variable [codes : ProtoCodes] [tasks : Tasks]

/-- No acknowledgement asks to keep its message in flight. -/
theorem applyAckAndPublish_ne_keepInFlight (e : PendingSendVo) (ack : SendAck) (s : QueueState) :
    Yields (applyAckAndPublish e ack) s (fun result _ => result ≠ .keepInFlight) := by
  unfold applyAckAndPublish
  split
  · exact .after fun _ _ => .modify_bind (.modify_bind
      (.after fun _ _ => .after fun _ _ => .after fun _ _ => .pure (by decide)))
  split
  · exact .modify_bind (.after fun _ _ => .pure (by decide))
  refine .get_bind ?_
  dsimp only
  split
  · exact .after fun _ _ => .pure (by decide)
  · exact .after fun _ _ => .modify_bind
      (.after fun _ _ => .modify_bind (.after fun _ _ => .pure (by decide)))

/-- The relation allows the dispatch loop, the calls of the stores, and every change of the queue that
hands nothing over and puts nothing more in flight. -/
structure AllowsHandling (R : QueueState → QueueState → Prop) : Prop extends AllowsCalls R where
  kept : ∀ s t : QueueState, t.handing = s.handing → Grows 0 s t → R s t
  next : Within R trySendNext

namespace AllowsHandling

variable {R : QueueState → QueueState → Prop} [Std.Refl R] [IsTrans QueueState R] (h : AllowsHandling R)

include h

omit [Std.Refl R] [IsTrans QueueState R] in
theorem change {f : QueueState → QueueState} (hf : ∀ s, (f s).frame = s.frame) :
    Within R (modify f : OutboxM Unit) :=
  .modify fun s => h.kept s _ (congrArg Prod.fst (hf s)) (Aside.grows (congrArg Prod.snd (hf s)))

omit [Std.Refl R] [IsTrans QueueState R] in
theorem removeInFlight (k : String) : Within R (removeInFlight k) :=
  .modify fun s => h.kept s _ rfl ⟨rfl, rfl, s.inFlight.size_filter_le _⟩

omit [Std.Refl R] [IsTrans QueueState R] in
theorem noteSendSuccess : Within R noteSendSuccess :=
  .modify fun s => h.kept s _ rfl ⟨rfl, noteSuccess_limit _, Nat.le_refl _⟩

theorem read {α : Type} (f : QueueState → α) : Within R (storeCall fun s => (f s, s)) :=
  h.storeCall fun s => refl_of R s

omit [Std.Refl R] in
theorem failEntry (e : PendingSendVo) (reason : String) : Within R (failEntry e reason) :=
  h.toAllowsCalls.failEntry e reason (h.change fun _ => rfl) fun _ => h.change fun _ => rfl

omit [Std.Refl R] in
theorem markSendFailedAndPublish (e : PendingSendVo) (reason : String) :
    Within R (markSendFailedAndPublish e reason) :=
  .bind (h.pendingPop _) fun _ => .bind (h.change fun _ => rfl) fun _ =>
    .bind (h.saveMessage _) fun _ => h.change fun _ => rfl

omit [Std.Refl R] in
theorem updateAfterAck (k : String) (m : IMMessage) : Within R (updateAfterAck k m) :=
  h.storeCall fun s => h.stores s s.pending _ [] (by simp)

theorem updateConversationLastMessage (m : IMMessage) : Within R (updateConversationLastMessage m) :=
  .ite (.pure ()) (h.storeCall fun s => h.kept s _ rfl (Aside.grows rfl))

theorem applyAckAndPublish (e : PendingSendVo) (ack : SendAck) : Within R (applyAckAndPublish e ack) := by
  unfold Outbox.applyAckAndPublish
  split
  · exact .bind (.attempt (h.pendingPop _)) fun _ => .bind (h.change fun _ => rfl) fun _ =>
      .bind h.noteSendSuccess fun _ => .bind (.attempt (h.updateAfterAck _ _)) fun _ =>
      .bind (.attempt (h.updateConversationLastMessage _)) fun _ => .bind (h.change fun _ => rfl) fun _ => .pure _
  split
  · exact .bind h.noteSendSuccess fun _ => .bind (h.change fun _ => rfl) fun _ => .pure _
  refine .get_bind fun s => ?_
  dsimp only
  split
  · exact .bind (.bind (h.change fun _ => rfl) fun _ => .bind (h.change fun _ => rfl) fun _ =>
      h.change fun _ => rfl) fun _ => .pure _
  · exact .bind (.attempt (h.pendingPop _)) fun _ => .bind (h.change fun _ => rfl) fun _ =>
      .bind (.attempt (h.saveMessage _)) fun _ => .bind (h.change fun _ => rfl) fun _ =>
      .bind (h.change fun _ => rfl) fun _ => .pure _

/-- What follows the acknowledgement never puts the message back in flight. -/
theorem applyAckAndPublish_bind (e : PendingSendVo) (ack : SendAck) {f : AckApplyResult → OutboxM Unit}
    (hf : ∀ result, result ≠ .keepInFlight → Within R (f result)) :
    Within R (Outbox.applyAckAndPublish e ack >>= f) :=
  (h.applyAckAndPublish e ack).bind_of fun s result t hrun =>
    hf result (applyAckAndPublish_ne_keepInFlight e ack s _ t hrun) t

theorem applyOrphanDurableAck (ack : SendAck) : Within R (applyOrphanDurableAck ack) := by
  unfold Outbox.applyOrphanDurableAck
  split
  · exact .pure ()
  refine .ite (.pure ()) (.bind (h.read _) fun row => ?_)
  split
  · exact .pure ()
  · exact .ite (.pure ()) (.bind (h.updateAfterAck _ _) fun _ => h.updateConversationLastMessage _)

theorem handleAckReceived (ack : SendAck) : Within R (handleAckReceived ack) := by
  refine .bind (.modify fun s => h.stores s s.pending s.messages [.acked ack] (by simp)) fun _ =>
    .get_bind fun s => ?_
  split
  · refine .bind (.bind (h.removeInFlight _) fun _ => h.applyAckAndPublish_bind _ ack fun result hne =>
      .get_bind fun t => ?_) fun _ => h.next
    cases result <;> first | exact absurd rfl hne | exact .pure () | exact h.change fun _ => rfl
  · refine .bind (.bind (h.change fun _ => rfl) fun _ => h.applyAckAndPublish_bind _ ack fun result _ => ?_)
      fun _ => h.next
    cases result <;> first | exact .pure () | exact h.change fun _ => rfl
  refine .bind (h.read _) fun entry => ?_
  split
  · refine .bind (.bind (h.change fun _ => rfl) fun _ => h.applyAckAndPublish_bind _ ack fun result hne =>
      .get_bind fun t => ?_) fun _ => h.next
    cases result <;> first | exact absurd rfl hne | exact .pure () | exact h.change fun _ => rfl
  · exact .bind (.ite (.bind (.attempt (h.applyOrphanDurableAck ack)) fun _ => h.change fun _ => rfl)
      (.pure ())) fun _ => h.next

theorem handleEnqueue (m : IMMessage) : Within R (handleEnqueue m) := by
  refine .get_bind fun s => .bind (h.change fun _ => rfl) fun _ =>
    .bind (.attempt (h.saveMessage _)) fun saved => ?_
  split
  · exact h.change fun _ => rfl
  refine .bind (.attempt (h.storeCall fun s => h.stores s _ s.messages [.pushed _] (by simp))) fun pushed => ?_
  split
  · exact h.change fun _ => rfl
  exact .bind (.attempt (h.read _)) fun _ => .bind (.attempt (h.updateConversationLastMessage _)) fun _ =>
    .bind (h.change fun _ => rfl) fun _ => .bind (h.change fun _ => rfl) fun _ => h.next

/-- The record is put back, or the message is failed and its slot is free. -/
theorem handleSendAttemptFinished (e : PendingSendVo) (retries : ℕ) (result : Except FlareError Unit) :
    Within R (handleSendAttemptFinished e retries result) := by
  unfold Outbox.handleSendAttemptFinished
  split
  · exact .pure ()
  refine .get_bind_of fun s => ?_
  split
  · exact refl_of R s
  split
  · exact refl_of R s
  rename_i x hx
  have back (y : InFlightSend) : ((s.inFlight.erase e.clientMsgId).insert y).size ≤ s.inFlight.size :=
    (KeyedMap.size_insert_le _ y).trans (s.inFlight.size_erase_of_find? hx)
  refine .modify_bind ?_
  split
  · exact h.kept s _ rfl ⟨rfl, rfl, back _⟩
  refine .modify_bind ?_
  split
  · exact h.kept s _ rfl ⟨rfl, rfl, back _⟩
  · rename_i reason _
    let freed : QueueState := { s with
      inFlight := s.inFlight.erase e.clientMsgId
      adaptiveWindow := s.adaptiveWindow.noteCongestion }
    exact trans_of R (h.kept s freed rfl ⟨rfl, rfl, s.inFlight.size_filter_le _⟩)
      (Within.bind (h.failEntry x.entry reason) (fun _ => h.next) freed)

theorem failEntries (reason : String) (entries : List PendingSendVo) (dropped : List String) :
    Within R (failEntries reason entries dropped) :=
  .foldlM (fun _ e => .bind (h.markSendFailedAndPublish e reason) fun _ => .pure _) entries dropped

theorem resetPendingOnLogin : Within R resetPendingOnLogin :=
  .bind (h.change fun _ => rfl) fun _ => .bind (h.change fun _ => rfl) fun _ => .get_bind fun _ =>
    .bind (.modify fun s => h.kept s _ rfl ⟨rfl, rfl, Nat.zero_le _⟩) fun _ => .bind (h.failEntries _ _ _) fun _ =>
    .get_bind fun _ => .bind (h.change fun _ => rfl) fun _ => .bind (h.failEntries _ _ _) fun _ =>
    .bind (h.read _) fun _ => .bind (h.failEntries _ _ _) fun _ => .pure _

theorem expireStalePending (maxAgeMs : ℕ) : Within R (expireStalePending maxAgeMs) := by
  refine .get_bind fun s => .bind (h.read _) fun entries => .foldlM (fun expired e => .ite (.pure _) ?_) entries []
  exact .bind (h.removeInFlight _) fun _ => .bind (h.change fun _ => rfl) fun _ =>
    .bind (h.change fun _ => rfl) fun _ => .bind (h.markSendFailedAndPublish e _) fun _ => .pure _

theorem recoverPendingForCurrentUser : Within R recoverPendingForCurrentUser := by
  refine .bind (h.change fun _ => rfl) fun _ => .get_bind fun s => .ite (.pure _) ?_
  refine .bind (h.read _) fun entries => .bind (h.change fun _ => rfl) fun _ => .bind ?_ fun ids => ?_
  · exact .ite (.pure _) (h.storeCall fun s => h.stores s _ _ _ (by simp))
  have hdrop : Within R (dropCrossAccountIds ids) := by
    refine .foldlM (fun _ k => ?_) ids ()
    exact .bind (h.pendingPop k) fun _ => .bind (h.change fun _ => rfl) fun _ =>
      .bind (h.change fun _ => rfl) fun _ => h.change fun _ => rfl
  refine .bind hdrop fun _ => .bind (h.read _) fun _ => ?_
  refine .bind (h.storeCall fun s => h.stores s s.pending _ [] (by simp)) fun orphans => ?_
  have hpublish : Within R (publishOrphans orphans) := by
    refine .foldlM (fun _ k => ?_) orphans ()
    exact h.change fun _ => rfl
  refine .bind hpublish fun _ => .bind (.modify fun s => ?_) fun _ => .bind h.next fun _ => .pure _
  exact h.kept s _ rfl ⟨rfl, rfl, s.inFlight.size_filter_le _⟩

theorem handleCommand (c : QueueCommand) : Within R (handleCommand c) := by
  cases c with
  | enqueue m => exact h.handleEnqueue m
  | ackReceived ack => exact h.handleAckReceived ack
  | sendAttemptFinished e retries result resumes => exact h.handleSendAttemptFinished e retries result
  | resetPendingOnLogin => exact .bind (.attempt h.resetPendingOnLogin) fun _ => h.change fun _ => rfl
  | pause =>
    refine .bind (h.change fun s => ?_) fun _ => h.change fun _ => rfl
    unfold pauseQueue
    split <;> rfl
  | resume resend =>
    refine .bind (.attempt (.bind (.modify fun s => ?_) fun _ => h.recoverPendingForCurrentUser))
      fun _ => h.change fun _ => rfl
    unfold thaw
    cases resend with
    | true => exact h.kept s _ rfl ⟨rfl, rfl, Nat.zero_le _⟩
    | false => exact h.kept s _ rfl ⟨rfl, rfl, Nat.le_of_eq (List.length_map _)⟩
  | expireStalePending maxAgeMs =>
    exact .bind (.attempt (h.expireStalePending maxAgeMs)) fun _ =>
      h.change fun _ => rfl
  | retryBackoffElapsed k retries =>
    refine .get_bind fun s => ?_
    dsimp only
    split
    · exact .bind (h.change fun _ => rfl) fun _ => h.next
    · exact h.next

end AllowsHandling

/-! ### Reconciliation -/

/-- The relation allows to take a record out of its map and to put it back. -/
structure AllowsReconciling (R : QueueState → QueueState → Prop) : Prop extends AllowsFailing R where
  takeInFlight : ∀ (s : QueueState) k, R s { s with inFlight := s.inFlight.erase k }
  takeAwaiting : ∀ (s : QueueState) k, R s { s with awaitingDurable := s.awaitingDurable.erase k }
  putBackInFlight : ∀ (s : QueueState) k x, s.inFlight.find? k = some x →
    R s { s with inFlight := (s.inFlight.erase k).insert x }
  putBackAwaiting : ∀ (s : QueueState) k x, s.awaitingDurable.find? k = some x →
    R s { s with awaitingDurable := (s.awaitingDurable.erase k).insert x }

namespace AllowsReconciling

variable {R : QueueState → QueueState → Prop} [Std.Refl R] [IsTrans QueueState R] (h : AllowsReconciling R)
  (rows : List IMMessage) (progressed : Bool) (k : String)

include h

omit codes [Std.Refl R] in
theorem settleReconciled (e : PendingSendVo) (event : SdkEvent) : Within R (settleReconciled e event) :=
  .bind (h.pendingPop _) fun _ => .bind (.modify fun s => h.counts s _) fun _ => .modify fun s => h.bus s _

theorem reconcileInFlightEntry : Within R (reconcileInFlightEntry rows progressed k) := by
  refine .get_bind_of fun s => ?_
  split
  · exact refl_of R s
  rename_i x hx
  refine .modify_bind ?_
  split
  · exact h.putBackInFlight s k x hx
  · exact trans_of R (h.takeInFlight s k) (Within.bind (h.settleReconciled x.entry _) (fun _ => .pure true) _)

theorem reconcileAwaitingEntry : Within R (reconcileAwaitingEntry rows progressed k) := by
  refine .get_bind_of fun s => ?_
  split
  · exact refl_of R s
  rename_i x hx
  refine .modify_bind ?_
  split
  · exact h.putBackAwaiting s k x hx
  · exact trans_of R (h.takeAwaiting s k) (Within.bind (h.settleReconciled x.entry _) (fun _ => .pure true) _)

theorem reconcileInFlightTerminalStates : Within R reconcileInFlightTerminalStates :=
  .get_bind fun _ => .ite (.pure _) (.bind (h.storeCall fun s => refl_of R s)
    fun rows => .foldlM (h.reconcileInFlightEntry rows) _ _)

theorem reconcileAwaitingDurableTerminalStates : Within R reconcileAwaitingDurableTerminalStates :=
  .get_bind fun _ => .ite (.pure _) (.bind (h.storeCall fun s => refl_of R s)
    fun rows => .foldlM (h.reconcileAwaitingEntry rows) _ _)

end AllowsReconciling

end Handlers

theorem handleCommand_fits [ProtoCodes] (c : QueueCommand) : Within Fits (handleCommand c) :=
  AllowsHandling.handleCommand ⟨(allowsDispatch_fits "").toAllowsCalls, fun _ _ _ h => h.fits, trySendNext_fits⟩ c

end FlareIm.Outbox
