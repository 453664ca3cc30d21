import FlareIm.Dispatcher.Converger
import FlareIm.Dispatcher.Operations
import FlareIm.Events.KeptIds

/-! Dispatch of an event envelope. Its operation events are dispatched where they stand, but its
messages are put aside and saved as one batch when the loop is over. An envelope therefore leaves
what its events leave one at a time with every message moved behind every operation: an
operation on a message of the same envelope does not find it. The conversation projection and the
seq repair that follow a save change no message row and are left out. -/

namespace FlareIm.Events

open List

variable {key : EventDedupeKey} {ev : Event}

/-! ### Events that are all new -/

/-- No two of the events have one key, and none has a key of the window. -/
def AllNew (d : EventDeduper) (events : List Event) : Prop :=
  (events.filterMap dedupeKeyForEvent).Nodup ∧ ∀ key ∈ events.filterMap dedupeKeyForEvent, key ∉ d.order

instance (d : EventDeduper) (events : List Event) : Decidable (AllNew d events) :=
  inferInstanceAs (Decidable (_ ∧ _))

/-- The events of an envelope that are dispatched where they stand. -/
def operations (events : List Event) : List Event := events.filter (fun ev => !ev.isMessage)

def messageEvents (events : List Event) : List Event := events.filter Event.isMessage

def messagesOf (events : List Event) : List Store.InboundMessage := events.filterMap Event.message?

section Kinds

variable {m : Store.InboundMessage} (events : List Event)

theorem operations_cons_of_none (h : ev.message? = none) : operations (ev :: events) = ev :: operations events :=
  filter_cons_of_pos (by rw [ev.isMessage_eq, h]; rfl)

theorem operations_cons_of_some (h : ev.message? = some m) : operations (ev :: events) = operations events :=
  filter_cons_of_neg (by simp [ev.isMessage_eq, h])

theorem perm_operations_append_messageEvents : events.Perm (operations events ++ messageEvents events) :=
  (filter_append_perm Event.isMessage events).symm.trans perm_append_comm

end Kinds

section Deduper

variable {d d' : EventDeduper} {events : List Event}

theorem EventDeduper.mem_recordIfNew (h : key ∈ (d.recordIfNew ev).2.order) :
    key ∈ d.order ∨ dedupeKeyForEvent ev = some key := by
  unfold recordIfNew at h
  split at h
  · exact .inl h
  · next key' hkey =>
    split at h
    · exact .inl h
    · rcases mem_append.mp (mem_of_mem_drop h) with hold | hown
      · exact .inl hold
      · rw [mem_singleton.mp hown]
        exact .inr hkey

theorem EventDeduper.mem_of_mem_forget (h : key ∈ (d.forget ev).order) : key ∈ d.order := by
  unfold forget at h
  split at h
  · exact h
  · exact mem_of_mem_filter h

theorem AllNew.recordIfNew (h : AllNew d (ev :: events)) : (d.recordIfNew ev).1 = true := by
  unfold EventDeduper.recordIfNew
  split
  · rfl
  · next key hkey =>
    have hkey' : key ∉ d.order := h.2 key (mem_filterMap.mpr ⟨ev, mem_cons_self, hkey⟩)
    rw [dif_neg hkey']

theorem AllNew.tail (h : AllNew d (ev :: events))
    (hd : ∀ key ∈ d'.order, key ∈ d.order ∨ dedupeKeyForEvent ev = some key) : AllNew d' events := by
  obtain ⟨hnodup, hnew⟩ := h
  cases hkey : dedupeKeyForEvent ev with
  | none =>
    rw [filterMap_cons_none hkey] at hnodup hnew
    refine ⟨hnodup, fun key hmem hold => ?_⟩
    rcases hd key hold with hd | hd
    · exact hnew key hmem hd
    · exact Option.some_ne_none _ (hd.symm.trans hkey)
  | some own =>
    rw [filterMap_cons_some hkey] at hnodup hnew
    refine ⟨(nodup_cons.mp hnodup).2, fun key hmem hold => ?_⟩
    rcases hd key hold with hd | hd
    · exact hnew key (mem_cons_of_mem own hmem) hd
    · rw [Option.some.inj (hkey.symm.trans hd)] at hnodup
      exact (nodup_cons.mp hnodup).1 hmem

theorem AllNew.perm {events' : List Event} (h : AllNew d events) (hperm : events.Perm events') :
    AllNew d events' := by
  have hkeys := hperm.filterMap dedupeKeyForEvent
  exact ⟨hkeys.nodup_iff.mp h.1, fun key hkey => h.2 key (hkeys.mem_iff.mpr hkey)⟩

end Deduper

end FlareIm.Events

namespace FlareIm.Dispatcher

open Lib Message Store Events List

variable {key : EventDedupeKey} {s s' : DispatcherState} {ev : Event} {t : RowTable}

structure EventEnvelope where
  conversationId : String
  events : List Event
  maxConversationSeq : ℕ

/-- What the dispatcher was built with for messages. -/
structure InboundPath where
  converger : Option IncomingMessageConverger
  /-- What the waterline check reads once messages have been saved. -/
  readsAfterSave : RowTable → LocalStores → LocalStores

namespace DispatcherState

def messages (s : DispatcherState) : Option RowTable := s.stores.map (·.messages)

section Dispatch

variable [EventCodes] (path : InboundPath)

/-- The messages are converged, and what is left of them is saved. -/
def receive (now : ℕ) (userId : String) (t : RowTable) (ms : List InboundMessage) : RowTable :=
  match path.converger with
  | none => t.saveBatch now ms
  | some converger =>
    let (converged, u) := converger.convergeMessages t now userId ms
    u.saveBatch now converged

def storeMessages (s : DispatcherState) (ms : List InboundMessage) : DispatcherState :=
  { s with
    stores := s.stores.map fun stores =>
      let received := receive path s.nowMs s.userId stores.messages ms
      ⟨received, path.readsAfterSave received stores.reads⟩ }

def dispatchMessage (s : DispatcherState) (ev : Event) (m : InboundMessage) : DispatcherState :=
  if (s.deduper.recordIfNew ev).1 then
    storeMessages path { s with deduper := (s.deduper.recordIfNew ev).2 } [m]
  else s

def dispatchSingleEvent (s : DispatcherState) (ev : Event) : DispatcherState :=
  match ev.message? with
  | some m => s.dispatchMessage path ev m
  | none => (s.dispatchOperation ev).2

/-- One event of an envelope; messages are put aside. -/
def collectEvent (acc : DispatcherState × List InboundMessage) (ev : Event) :
    DispatcherState × List InboundMessage :=
  match ev.message? with
  | some m =>
    if (acc.1.deduper.recordIfNew ev).1 then
      ({ acc.1 with deduper := (acc.1.deduper.recordIfNew ev).2 }, acc.2 ++ [m])
    else acc
  | none => (acc.1.dispatchSingleEvent path ev, acc.2)

variable (s : DispatcherState) (env : EventEnvelope)

def maybeTriggerEventEnvelopeWaterline : DispatcherState :=
  if isBlank env.conversationId || env.maxConversationSeq = 0 then s
  else s.maybeTriggerWaterlinePull (.ofSeq (trim env.conversationId) env.maxConversationSeq)

def dispatchEnvelope : DispatcherState :=
  let (collected, batch) := env.events.foldl (collectEvent path) (s, [])
  let stored := if batch.isEmpty then collected else collected.storeMessages path batch
  stored.maybeTriggerEventEnvelopeWaterline env

end Dispatch

/-! ### What one event changes -/

/-- Only pulls and applied seqs differ. -/
structure Quiet (s s' : DispatcherState) : Prop where
  userId : s'.userId = s.userId
  nowMs : s'.nowMs = s.nowMs
  stores : s'.stores = s.stores
  deduper : s'.deduper = s.deduper

theorem Quiet.trans {s'' : DispatcherState} (h : Quiet s s') (h' : Quiet s' s'') : Quiet s s'' :=
  ⟨h'.userId.trans h.userId, h'.nowMs.trans h.nowMs, h'.stores.trans h.stores, h'.deduper.trans h.deduper⟩

section

variable (s : DispatcherState)

theorem quiet_maybeTriggerWaterlinePull (p : WaterlinePing) : Quiet s (s.maybeTriggerWaterlinePull p) := by
  unfold maybeTriggerWaterlinePull
  split
  · exact ⟨rfl, rfl, rfl, rfl⟩
  · split
    · exact ⟨rfl, rfl, rfl, rfl⟩
    · split
      · exact ⟨rfl, rfl, rfl, rfl⟩
      · split <;> exact ⟨rfl, rfl, rfl, rfl⟩

theorem quiet_maybeTriggerEventWaterline (ev : Event) : Quiet s (s.maybeTriggerEventWaterline ev) := by
  unfold maybeTriggerEventWaterline
  split
  · exact ⟨rfl, rfl, rfl, rfl⟩
  · exact quiet_maybeTriggerWaterlinePull s _

theorem quiet_afterOperation (ev : Event) : Quiet s (s.afterOperation ev) := by
  unfold afterOperation
  split
  · split
    · exact quiet_maybeTriggerWaterlinePull s _
    · exact ⟨rfl, rfl, rfl, rfl⟩
  · exact ⟨rfl, rfl, rfl, rfl⟩

theorem quiet_maybeTriggerEventEnvelopeWaterline (env : EventEnvelope) :
    Quiet s (s.maybeTriggerEventEnvelopeWaterline env) := by
  unfold maybeTriggerEventEnvelopeWaterline
  split
  · exact ⟨rfl, rfl, rfl, rfl⟩
  · exact quiet_maybeTriggerWaterlinePull s _

end

theorem Quiet.messages (h : Quiet s s') : s'.messages = s.messages :=
  congrArg (Option.map _) h.stores

/-- A new event was dispatched with effect `f` on the message table. -/
structure Handled (s s' : DispatcherState) (ev : Event) (f : RowTable → RowTable) : Prop where
  userId : s'.userId = s.userId
  nowMs : s'.nowMs = s.nowMs
  messages : s'.messages = s.messages.map f
  deduper : ∀ key ∈ s'.deduper.order, key ∈ s.deduper.order ∨ dedupeKeyForEvent ev = some key

section Effects

variable [EventCodes] (path : InboundPath)

theorem handled_applyOperation (s : DispatcherState) (ev : Event) :
    Handled s (s.applyOperation ev).2 ev fun t => (applyRealtime t s.nowMs s.userId ev).2 := by
  have hstored : Handled s (s.storeOperation ev).2 ev fun t => (applyRealtime t s.nowMs s.userId ev).2 := by
    unfold storeOperation
    split
    · next hnone => exact ⟨rfl, rfl, by rw [messages, hnone]; rfl, fun _ => .inl⟩
    · next stores hsome => exact ⟨rfl, rfl, by rw [messages, messages, hsome]; rfl, fun _ => .inl⟩
  unfold applyOperation
  generalize s.storeOperation ev = stored at hstored ⊢
  obtain ⟨outcome, after⟩ := stored
  have hquiet := quiet_afterOperation after ev
  have hdone : Handled s (after.afterOperation ev) ev fun t => (applyRealtime t s.nowMs s.userId ev).2 :=
    ⟨hquiet.userId.trans hstored.userId, hquiet.nowMs.trans hstored.nowMs,
      hquiet.messages.trans hstored.messages, by rw [hquiet.deduper]; exact hstored.deduper⟩
  cases outcome with
  | rolledBack =>
    exact ⟨hstored.userId, hstored.nowMs, hstored.messages,
      fun key hkey => hstored.deduper key (EventDeduper.mem_of_mem_forget hkey)⟩
  | applied => exact hdone
  | ignored => exact hdone

/-- What a new event does to the message table. -/
def eventEffect (now : ℕ) (userId : String) (t : RowTable) (ev : Event) : RowTable :=
  match ev.message? with
  | some m => receive path now userId t [m]
  | none => (applyRealtime t now userId ev).2

theorem handled_dispatchSingleEvent (hnew : (s.deduper.recordIfNew ev).1 = true) :
    Handled s (s.dispatchSingleEvent path ev) ev fun t => eventEffect path s.nowMs s.userId t ev := by
  unfold dispatchSingleEvent eventEffect
  split
  · rw [dispatchMessage, if_pos hnew]
    refine ⟨rfl, rfl, ?_, fun key hkey => EventDeduper.mem_recordIfNew hkey⟩
    rw [messages, messages, storeMessages, Option.map_map, Option.map_map]
    rfl
  · rw [dispatchOperation, if_pos hnew]
    let known := { s with deduper := (s.deduper.recordIfNew ev).2 }
    have hrecorded : Quiet known (known.recordEvent ev) := ⟨rfl, rfl, rfl, rfl⟩
    have hquiet : Quiet known (s.announce ev) := hrecorded.trans (quiet_maybeTriggerEventWaterline _ ev)
    have happlied := handled_applyOperation (s.announce ev) ev
    rw [hquiet.userId, hquiet.nowMs] at happlied
    refine ⟨happlied.userId.trans hquiet.userId, happlied.nowMs.trans hquiet.nowMs,
      happlied.messages.trans (congrArg (Option.map _) hquiet.messages), fun key hkey => ?_⟩
    rcases happlied.deduper key hkey with h | h
    · rw [hquiet.deduper] at h
      exact EventDeduper.mem_recordIfNew h
    · exact .inr h

/-- New events one at a time leave their effects one after the other. -/
theorem messages_foldl_dispatchSingleEvent (events : List Event) (s : DispatcherState)
    (hnew : AllNew s.deduper events) :
    (events.foldl (dispatchSingleEvent path) s).messages =
      s.messages.map fun t => events.foldl (eventEffect path s.nowMs s.userId) t := by
  induction events generalizing s with
  | nil => exact Option.map_id'.symm
  | cons ev events ih =>
    have h := handled_dispatchSingleEvent path hnew.recordIfNew
    rw [foldl_cons, ih _ (hnew.tail h.deduper), h.messages, h.userId, h.nowMs, Option.map_map]
    rfl

/-- The loop of an envelope leaves the effects of its operations, and its messages put aside. -/
theorem foldl_collectEvent (events : List Event) (s : DispatcherState) (batch : List InboundMessage)
    (hnew : AllNew s.deduper events) :
    let r := events.foldl (collectEvent path) (s, batch)
    r.2 = batch ++ messagesOf events ∧ r.1.userId = s.userId ∧ r.1.nowMs = s.nowMs ∧
      r.1.messages = s.messages.map fun t =>
        (operations events).foldl (eventEffect path s.nowMs s.userId) t := by
  induction events generalizing s batch with
  | nil => exact ⟨(append_nil batch).symm, rfl, rfl, Option.map_id'.symm⟩
  | cons ev events ih =>
    rw [foldl_cons]
    cases hmsg : ev.message? with
    | some m =>
      have hcollect : collectEvent path (s, batch) ev =
          ({ s with deduper := (s.deduper.recordIfNew ev).2 }, batch ++ [m]) := by
        rw [collectEvent, hmsg]
        exact if_pos hnew.recordIfNew
      obtain ⟨hbatch, hrest⟩ := ih { s with deduper := (s.deduper.recordIfNew ev).2 } (batch ++ [m])
        (hnew.tail fun _ => EventDeduper.mem_recordIfNew)
      rw [hcollect, messagesOf, filterMap_cons_some hmsg, operations_cons_of_some events hmsg]
      exact ⟨hbatch.trans (append_cons _ _ _).symm, hrest⟩
    | none =>
      have hcollect : collectEvent path (s, batch) ev = (s.dispatchSingleEvent path ev, batch) := by
        rw [collectEvent, hmsg]
      have h := handled_dispatchSingleEvent path hnew.recordIfNew
      obtain ⟨hbatch, huser, hnow, hmessages⟩ := ih _ batch (hnew.tail h.deduper)
      rw [hcollect, messagesOf, filterMap_cons_none hmsg, operations_cons_of_none events hmsg]
      refine ⟨hbatch, huser.trans h.userId, hnow.trans h.nowMs, hmessages.trans ?_⟩
      rw [h.messages, h.userId, h.nowMs, Option.map_map]
      rfl

/-! ### New messages, in a batch or one at a time -/

variable (userId : String)

/-- A message as it is saved when it is new. -/
def saved (m : InboundMessage) : InboundMessage :=
  match path.converger with
  | none => m
  | some converger => converger.received userId m

def CanonicalIds (ms : List InboundMessage) : Prop :=
  ∀ converger ∈ path.converger, ∀ m ∈ ms, (converger.canonicalizeSingleChatMessage userId m).2 = none
  deriving Decidable

theorem ids_saved (m : InboundMessage) :
    (saved path userId m).serverId = m.serverId ∧ (saved path userId m).clientMsgId = m.clientMsgId := by
  unfold saved
  split
  · exact ⟨rfl, rfl⟩
  · next converger _ => exact ⟨converger.received_serverId userId m, converger.received_clientMsgId userId m⟩

theorem apart_saved_iff (r : IMMessage) (m : InboundMessage) :
    Apart r (saved path userId m).toIMMessage ↔ Apart r m.toIMMessage := by
  unfold Apart
  rw [(ids_saved path userId m).1, (ids_saved path userId m).2]

variable {now : ℕ} {userId : String} {ms : List InboundMessage} (hnew : ∀ m ∈ ms, t.NewTo m.toIMMessage)
    (hcanonical : CanonicalIds path userId ms)

include hnew hcanonical

/-- New messages of conversations that need no rewriting pass through. -/
theorem receive_of_newTo : receive path now userId t ms = t.saveBatch now (ms.map (saved path userId)) := by
  unfold receive saved
  split
  · exact congrArg _ (map_id' ms).symm
  · next converger hconverger =>
    rw [converger.convergeMessages_of_canonical now (hcanonical converger hconverger)]
    refine congrArg (fun p => p.2.saveBatch now p.1)
      (converger.foldl_convergeMessage_of_newTo now userId _ [] fun m hm => ?_)
    obtain ⟨m₀, hm₀, rfl⟩ := mem_map.mp hm
    exact converger.newTo_received.mpr (hnew m₀ hm₀)

theorem receive_eq_foldl (hapart : ms.Pairwise (fun a b => Apart a.toIMMessage b.toIMMessage)) :
    receive path now userId t ms = ms.foldl (fun u m => receive path now userId u [m]) t := by
  have hsaved : ∀ m ∈ ms.map (saved path userId), t.NewTo m.toIMMessage := by
    intro m hm r hr
    obtain ⟨m₀, hm₀, rfl⟩ := mem_map.mp hm
    exact (apart_saved_iff path userId _ m₀).mpr (hnew m₀ hm₀ r hr)
  have hsavedApart : (ms.map (saved path userId)).Pairwise (fun a b => Apart a.toIMMessage b.toIMMessage) := by
    refine pairwise_map.mpr (hapart.imp fun {a b} hab => ?_)
    exact (apart_saved_iff path userId _ b).mpr ((apart_saved_iff path userId _ a).mpr hab.symm).symm
  have hsettles : t.Settles (ms.map (saved path userId)) := fun m hm hclient r hr hcid =>
    absurd hcid ((hsaved m hm r hr).clientMsgId_ne hclient)
  rw [receive_of_newTo path hnew hcanonical, RowTable.saveBatch_eq_foldl now hsettles hsavedApart, foldl_map]
  -- One message at a time: every message is still new when its turn comes.
  clear hsettles hsaved hsavedApart
  induction ms generalizing t with
  | nil => rfl
  | cons m ms ih =>
    obtain ⟨hfirst, hrest⟩ := pairwise_cons.mp hapart
    have hm := hnew m mem_cons_self
    have hone : receive path now userId t [m] = t.saveBatch now [saved path userId m] :=
      receive_of_newTo path (forall_mem_singleton.mpr hm) fun converger hconverger =>
        forall_mem_singleton.mpr (hcanonical converger hconverger m mem_cons_self)
    rw [foldl_cons, foldl_cons, hone]
    refine ih (fun m' hm' r hr => ?_) (fun converger hconverger m' hm' =>
      hcanonical converger hconverger m' (mem_cons_of_mem m hm')) hrest
    rcases RowTable.mem_saveBatch_singleton hr with ⟨hserver, hclient⟩ | hold
    · have hapart := ((apart_saved_iff path userId _ m).mpr (hfirst m' hm').symm).symm
      rwa [Apart, hserver, hclient]
    · exact hnew m' (mem_cons_of_mem m hm') r hold

end Effects

/-! ### Envelopes -/

/-- The envelope repeats no event and no message: the keys of its events are new to the window, and
the ids of its messages are new to the table. -/
structure NoDuplicates (s : DispatcherState) (env : EventEnvelope) : Prop where
  events : AllNew s.deduper env.events
  apart : (messagesOf env.events).Pairwise (fun a b => Apart a.toIMMessage b.toIMMessage)
  rows : ∀ t ∈ s.messages, ∀ m ∈ messagesOf env.events, t.NewTo m.toIMMessage

theorem noDuplicates_iff (s : DispatcherState) (env : EventEnvelope) :
    s.NoDuplicates env ↔ AllNew s.deduper env.events ∧
      (messagesOf env.events).Pairwise (fun a b => Apart a.toIMMessage b.toIMMessage) ∧
      ∀ t ∈ s.messages, ∀ m ∈ messagesOf env.events, t.NewTo m.toIMMessage :=
  ⟨fun h => ⟨h.events, h.apart, h.rows⟩, fun h => ⟨h.1, h.2.1, h.2.2⟩⟩

instance (s : DispatcherState) (env : EventEnvelope) : Decidable (s.NoDuplicates env) :=
  decidable_of_iff _ (noDuplicates_iff s env).symm

theorem newTo_of_keepsIds {u : RowTable} {m : IMMessage} (h : t.KeepsIds u) (hnew : t.NewTo m) : u.NewTo m := by
  intro r hr
  obtain ⟨q, hq, hserver, hclient⟩ := h r hr
  have hapart := hnew q hq
  unfold Apart at hapart ⊢
  rwa [← hserver, ← hclient]

section Envelope

variable [EventCodes] (path : InboundPath)

section

variable (now : ℕ) (userId : String) (events : List Event) (t : RowTable)

theorem keepsIds_foldl_eventEffect : t.KeepsIds ((operations events).foldl (eventEffect path now userId) t) := by
  induction events generalizing t with
  | nil => exact .refl t
  | cons ev events ih =>
    cases hmsg : ev.message? with
    | none =>
      have heffect : eventEffect path now userId t ev = (applyRealtime t now userId ev).2 := by
        rw [eventEffect, hmsg]
      rw [operations_cons_of_none events hmsg, foldl_cons, heffect]
      exact (traces_applyRealtime t now userId ev).keepsIds.trans (ih _)
    | some m =>
      rw [operations_cons_of_some events hmsg]
      exact ih t

theorem foldl_eventEffect_messages : (messageEvents events).foldl (eventEffect path now userId) t =
      (messagesOf events).foldl (fun u m => receive path now userId u [m]) t := by
  induction events generalizing t with
  | nil => rfl
  | cons ev events ih =>
    cases hmsg : ev.message? with
    | none =>
      rw [messagesOf, filterMap_cons_none hmsg, messageEvents, filter_cons_of_neg (by simp [ev.isMessage_eq, hmsg])]
      exact ih t
    | some m =>
      have heffect : eventEffect path now userId t ev = receive path now userId t [m] := by
        rw [eventEffect, hmsg]
      rw [messagesOf, filterMap_cons_some hmsg, messageEvents,
        filter_cons_of_pos (by simp [ev.isMessage_eq, hmsg]), foldl_cons, foldl_cons, heffect]
      exact ih _

end

/-- An envelope leaves the message store that its events leave one at a time, first its operations
and then its messages, each in the order of the envelope. -/
theorem messages_dispatchEnvelope (s : DispatcherState) (env : EventEnvelope) (hnew : s.NoDuplicates env)
    (hcanonical : CanonicalIds path s.userId (messagesOf env.events)) :
    (s.dispatchEnvelope path env).messages = ((operations env.events ++ messageEvents env.events).foldl
        (dispatchSingleEvent path) s).messages := by
  rw [messages_foldl_dispatchSingleEvent path _ s
    (hnew.events.perm (perm_operations_append_messageEvents env.events))]
  obtain ⟨hbatch, huser, hnow, hmessages⟩ := foldl_collectEvent path env.events s [] hnew.events
  unfold dispatchEnvelope
  generalize env.events.foldl (collectEvent path) (s, []) = collected at hbatch huser hnow hmessages ⊢
  obtain ⟨after, batch⟩ := collected
  rw [nil_append] at hbatch
  subst hbatch
  rw [(quiet_maybeTriggerEventEnvelopeWaterline _ env).messages]
  have hstored : ∀ ms : List InboundMessage, (after.storeMessages path ms).messages =
      after.messages.map fun t => receive path s.nowMs s.userId t ms := by
    intro ms
    rw [messages, messages, storeMessages, huser, hnow, Option.map_map, Option.map_map]
    rfl
  have hsame : (s.messages.map fun t => receive path s.nowMs s.userId
        ((operations env.events).foldl (eventEffect path s.nowMs s.userId) t)
        (messagesOf env.events)) =
      s.messages.map fun t => (operations env.events ++
        messageEvents env.events).foldl (eventEffect path s.nowMs s.userId) t := by
    refine Option.map_congr fun t ht => ?_
    have hkept := keepsIds_foldl_eventEffect path s.nowMs s.userId env.events t
    rw [foldl_append, foldl_eventEffect_messages,
      receive_eq_foldl path (fun m hm => newTo_of_keepsIds hkept (hnew.rows t ht m hm)) hcanonical hnew.apart]
  split
  · next hempty =>
    rw [hmessages, ← hsame, isEmpty_iff.mp hempty]
    refine Option.map_congr fun t _ => ?_
    exact (receive_eq_foldl path (forall_mem_nil _) (fun _ _ => forall_mem_nil _) List.Pairwise.nil).symm
  · rw [hstored, hmessages, Option.map_map]
    exact hsame

end Envelope

/-! ### Two envelopes -/

/-- No message is of a single chat, and nothing is sent from here. -/
def samplePath : InboundPath where
  converger := some ⟨fun _ _ => none, fun _ floor => floor, none⟩
  readsAfterSave _ reads := reads

def sampleMessage (serverId clientMsgId : String) (seq : ℕ) : InboundMessage where
  serverId := serverId
  clientMsgId := clientMsgId
  conversationId := "conv"
  senderId := "bob"
  conversationSeq := seq
  createdAt := 5
  status := 1

def messageEvent (serverId clientMsgId : String) (seq : UInt64) : Event where
  conversationId := "conv"
  conversationSeq := seq.toNat
  payload := some (.message (sampleMessage serverId clientMsgId seq.toNat))
  seq_le := uint64_le_maxU64 seq

def recallEvent (serverId : String) (seq : UInt64) : Event where
  conversationId := "conv"
  type := 1
  conversationSeq := seq.toNat
  payload := some (.recall serverId)
  seq_le := uint64_le_maxU64 seq

/-- Two messages, and a recall of a third one that is not stored. -/
def strangeRecall : EventEnvelope :=
  ⟨"conv", [messageEvent "m5" "c5" 5, recallEvent "m4" 6, messageEvent "m7" "c7" 7], 7⟩

/-- A message, and its recall. -/
def ownRecall : EventEnvelope :=
  ⟨"conv", [messageEvent "m5" "c5" 5, recallEvent "m5" 6], 6⟩

theorem messages_dispatchEnvelope_strangeRecall :
    let rowIds := (@dispatchEnvelope sampleEventCodes samplePath sampleState strangeRecall).messages.map
      fun t => t.rows.items.map (·.serverId)
    rowIds = some ["m7", "m5"] ∧
    (@dispatchEnvelope sampleEventCodes samplePath sampleState strangeRecall).messages =
      ((operations strangeRecall.events ++ messageEvents strangeRecall.events).foldl
        (@dispatchSingleEvent sampleEventCodes samplePath) sampleState).messages :=
  ⟨by decide, @messages_dispatchEnvelope sampleEventCodes samplePath sampleState strangeRecall
    (by decide) (by decide)⟩

/-- In an envelope the recall comes before its message is saved. -/
theorem not_messages_dispatchEnvelope_ownRecall : sampleState.NoDuplicates ownRecall ∧
    (@dispatchEnvelope sampleEventCodes samplePath sampleState ownRecall).messages ≠
      (ownRecall.events.foldl (@dispatchSingleEvent sampleEventCodes samplePath) sampleState).messages := by
  refine ⟨by decide, fun h => ?_⟩
  have hrecalled := congrArg (Option.map fun t => (t.get "m5").map (·.isRecalled)) h
  revert hrecalled
  decide

end DispatcherState

end FlareIm.Dispatcher
