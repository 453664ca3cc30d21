import FlareIm.Lib.Contiguous
import FlareIm.Lib.KeyedMap
import FlareIm.Lib.Run
import FlareIm.Message.Model

/-! Gap repair after a batch of messages was stored. For every conversation of the batch the
dispatcher puts the stored tail, the new numbers and the numbers taken by applied events into
one window, counts up from the sync cursor, and looks for a hole. A hole starts a background
pull of the conversation from there; a map entry per conversation says whether one is in
flight, and holds the backoff of the next attempt.

Reading the store and taking the map's lock are separate steps of an asynchronous task, so
what the reads returned is data of the step that takes the lock, and any value can be met.
A window without a hole removes the entry whether or not a pull is in flight, and with it the
only record of that pull. -/

namespace FlareIm.Dispatcher

open Lib Message List KeyedMap

/-! ### Holes in a window -/

def firstGapAfter (knownSeq : ℕ) (seqs : List ℕ) : Option ℕ :=
  let contiguous := maxContiguousSeq knownSeq seqs
  if seqs.any (contiguous + 1 < ·) then some contiguous else none

/-- The first pair of neighbours of an ascending list that are not consecutive. -/
def firstBrokenPair : List ℕ → Option ℕ
  | a :: b :: rest => if b > a + 1 then some a else firstBrokenPair (b :: rest)
  | _ => none

def firstInternalGapAfter (seqs : List ℕ) : Option ℕ :=
  firstBrokenPair (sortedSeqs (seqs.filter (0 < ·)))

def firstInternalGapAfterFrom (baseSeq : ℕ) (seqs : List ℕ) : Option ℕ :=
  firstInternalGapAfter (sortedSeqs (seqs.filter (baseSeq ≤ ·)))

def seqRepairGapAfter (cursorSeq localBeforeSeq : ℕ) (seqs : List ℕ) : Option ℕ :=
  let prefixGap := firstGapAfter cursorSeq seqs
  let recentFloor := max cursorSeq localBeforeSeq
  let recentInternalGap := firstInternalGapAfterFrom recentFloor seqs
  let recentTailGap := if recentFloor > 0 then firstGapAfter recentFloor seqs else none
  let recentGap := match recentInternalGap, recentTailGap with
    | some internal, some tail => some (max internal tail)
    | some internal, none => some internal
    | none, some tail => some tail
    | none, none => none
  match prefixGap, recentGap with
  | some gap, some recent => if recent > gap then some recent else some gap
  | some gap, none => some gap
  | none, recent => recent

/-! ### The repair map -/

def seqRepairBaseBackoffMs : ℕ := 1000
def seqRepairMaxBackoffMs : ℕ := 60000
def seqRepairIdleTtlMs : ℕ := 10 * 60 * 1000
def seqRepairMaxTrackedConversations : ℕ := 2048

structure SeqRepairState where
  conversationId : String
  inFlight : Bool := false
  lastGapAfter : ℕ := 0
  lastProgressSeq : ℕ := 0
  attempts : ℕ := 0
  nextAttemptAtMs : ℕ := 0
  updatedAtMs : ℕ := 0

abbrev SeqRepairStates := KeyedMap String SeqRepairState SeqRepairState.conversationId

def seqRepairBackoffMs (attempt : ℕ) : ℕ :=
  min (seqRepairBaseBackoffMs * 2 ^ min (attempt - 1) 6) seqRepairMaxBackoffMs

/-- Drop idle entries that are out of date, and the oldest idle ones above the limit. -/
def pruneSeqRepairState (states : SeqRepairStates) (now : ℕ) : SeqRepairStates :=
  let kept := states.filter fun state =>
    state.inFlight || now < satAddU64 state.updatedAtMs seqRepairIdleTtlMs || now < state.nextAttemptAtMs
  if kept.size ≤ seqRepairMaxTrackedConversations then kept
  else
    let idle := (kept.items.filter (fun state => !state.inFlight)).insertionSort
      (fun a b => a.updatedAtMs ≤ b.updatedAtMs)
    let excess := kept.size - seqRepairMaxTrackedConversations
    (idle.take excess).foldl (fun states state => states.erase state.conversationId) kept

/-! ### Steps -/

/-- One conversation of a stored batch, with what the reads before the lock returned. -/
structure PersistedWindow where
  conversationId : String
  cursorSeq : ℕ
  /-- Stored numbers below the smallest new one, ascending. -/
  localTailSeqs : List ℕ
  /-- Numbers of the batch, ascending. -/
  seqs : List ℕ
  appliedEventSeqs : List ℕ
  now : ℕ

namespace PersistedWindow

variable (w : PersistedWindow)

def continuityWindow : List ℕ :=
  sortedSeqs (w.localTailSeqs ++ w.seqs ++ w.appliedEventSeqs)

def contiguousSeq : ℕ := maxContiguousSeq w.cursorSeq w.continuityWindow

def windowGapAfter : Option ℕ :=
  seqRepairGapAfter w.cursorSeq (w.localTailSeqs.getLast?.getD 0) w.continuityWindow

end PersistedWindow

structure SeqRepair where
  /-- A session sync runner is configured. -/
  hasSync : Bool
  states : SeqRepairStates
  /-- The conversations of the background pulls that have not ended. -/
  running : List String

namespace SeqRepair

def start (hasSync : Bool) : SeqRepair := ⟨hasSync, empty, []⟩

/-- The entry of a conversation, a new one if it has none, touched at `now`. -/
def touched (states : SeqRepairStates) (conversationId : String) (now : ℕ) : SeqRepairState :=
  match states.find? conversationId with
  | some state => { state with conversationId := conversationId, updatedAtMs := now }
  | none => ⟨conversationId, false, 0, 0, 0, 0, now⟩

/-- The entry of a conversation after an attempt was started. -/
def attempted (state : SeqRepairState) (now firstGapAfter contiguousSeq : ℕ) : SeqRepairState :=
  let hasProgress := contiguousSeq > state.lastProgressSeq
  let attempts := if state.lastGapAfter ≠ firstGapAfter ∨ hasProgress then 0 else state.attempts
  let attempts := satAddU32 attempts 1
  { state with
    inFlight := true
    lastGapAfter := firstGapAfter
    lastProgressSeq := max state.lastProgressSeq contiguousSeq
    attempts := attempts
    nextAttemptAtMs := now + seqRepairBackoffMs attempts }

variable (s : SeqRepair)

/-- The locked part of the repair for a window with a hole. -/
def onGap (conversationId : String) (firstGapAfter contiguousSeq now : ℕ) : SeqRepair :=
  let states := pruneSeqRepairState s.states now
  if (states.find? conversationId).isNone ∧ states.size ≥ seqRepairMaxTrackedConversations then
    { s with states := states }
  else
    let state := touched states conversationId now
    if state.inFlight then { s with states := states.insert state }
    else if state.lastGapAfter = firstGapAfter ∧ ¬ contiguousSeq > state.lastProgressSeq ∧
        now < state.nextAttemptAtMs then
      { s with states := states.insert state }
    else
      { s with
        states := states.insert (attempted state now firstGapAfter contiguousSeq)
        running := conversationId :: s.running }

def afterPersist (w : PersistedWindow) : SeqRepair :=
  match w.windowGapAfter with
  | some gap => if s.hasSync then s.onGap w.conversationId gap w.contiguousSeq w.now else s
  | none => { s with states := s.states.erase w.conversationId }

/-- A background pull ends: success forgets the conversation, failure ends the attempt. -/
def repairFinished (conversationId : String) (ok : Bool) (now : ℕ) : SeqRepair :=
  if conversationId ∈ s.running then
    { s with
      running := s.running.erase conversationId
      states :=
        if ok then s.states.erase conversationId
        else match s.states.find? conversationId with
          | some state => s.states.insert { state with inFlight := false, updatedAtMs := now }
          | none => s.states }
  else s

inductive Event
  | persisted (window : PersistedWindow)
  | finished (conversationId : String) (ok : Bool) (now : ℕ)

def step : Event → SeqRepair
  | .persisted w => s.afterPersist w
  | .finished c ok now => s.repairFinished c ok now

/-- No pull of the conversation is in flight when a window without a hole is stored. -/
def QuietWhenWhole : Event → Prop
  | .persisted w => w.windowGapAfter = none → w.conversationId ∉ s.running
  | .finished _ _ _ => True

instance (s : SeqRepair) : (e : Event) → Decidable (QuietWhenWhole s e)
  | .persisted _ => inferInstanceAs (Decidable (_ → _))
  | .finished _ _ _ => inferInstanceAs (Decidable True)

/-! ### The flag of a conversation -/

/-- The map says that a pull of the conversation is in flight. -/
def flagged (states : SeqRepairStates) (c : String) : Bool :=
  (states.find? c).elim false SeqRepairState.inFlight

section Flags

variable (states : SeqRepairStates) (c d : String)

theorem flagged_insert (state : SeqRepairState) :
    flagged (states.insert state) d = if d = state.conversationId then state.inFlight else flagged states d := by
  rw [flagged, find?_insert]
  split <;> rfl

theorem flagged_erase : flagged (states.erase c) d = if d = c then false else flagged states d := by
  rw [flagged, find?_erase]
  split <;> rfl

theorem flagged_filter {p : SeqRepairState → Bool} (hp : ∀ state, state.inFlight = true → p state = true) :
    flagged (states.filter p) d = flagged states d := by
  rw [flagged, KeyedMap.find?_filter, flagged]
  cases hfind : states.find? d with
  | none => rfl
  | some state =>
    cases hflight : state.inFlight with
    | true => simp [Option.filter, hp state hflight, hflight]
    | false => by_cases hkeep : p state <;> simp [Option.filter, hkeep, hflight]

theorem flagged_foldl_erase : ∀ (idle : List SeqRepairState) (states : SeqRepairStates),
    (∀ state ∈ idle, flagged states state.conversationId = false) →
      flagged (idle.foldl (fun m state => m.erase state.conversationId) states) d = flagged states d := by
  intro idle
  induction idle with
  | nil => intro states _; rfl
  | cons state idle ih =>
    intro states hidle
    rw [foldl_cons, ih]
    · rw [flagged_erase]
      split
      · rename_i hd
        rw [hd, hidle state mem_cons_self]
      · rfl
    · intro other hother
      rw [flagged_erase]
      split
      · rfl
      · exact hidle other (mem_cons_of_mem _ hother)

variable (now : ℕ)

theorem flagged_prune : flagged (pruneSeqRepairState states now) d = flagged states d := by
  have hkept := flagged_filter states d (p := fun state => state.inFlight ||
    now < satAddU64 state.updatedAtMs seqRepairIdleTtlMs || now < state.nextAttemptAtMs)
    (fun state h => by simp [h])
  unfold pruneSeqRepairState
  dsimp only
  split
  · exact hkept
  · refine (flagged_foldl_erase d _ _ fun state hstate => ?_).trans hkept
    obtain ⟨hmem, hidle⟩ := mem_filter.mp ((mem_insertionSort _).mp (mem_of_mem_take hstate))
    rw [flagged, find?_of_mem _ hmem]
    simpa using hidle

theorem touched_conversationId : (touched states c now).conversationId = c := by
  unfold touched
  split <;> rfl

theorem touched_inFlight : (touched states c now).inFlight = flagged states c := by
  unfold touched flagged
  split <;> simp_all

theorem flagged_insert_touched : flagged (states.insert (touched states c now)) d = flagged states d := by
  rw [flagged_insert, touched_conversationId, touched_inFlight]
  split
  · rename_i hd
    rw [hd]
  · rfl

end Flags

/-! ### One pull at a time -/

/-- The map flags exactly the conversations with a pull in flight, and each of those has one. -/
def Tracked (s : SeqRepair) : Prop :=
  ∀ c, s.running.count c = if flagged s.states c then 1 else 0

theorem tracked_onGap {s : SeqRepair} (h : s.Tracked) (c : String) (gap contiguous now : ℕ) :
    (s.onGap c gap contiguous now).Tracked := by
  have hprune := fun d => flagged_prune s.states d now
  intro d
  unfold onGap
  dsimp only
  split
  · rw [hprune]
    exact h d
  · split
    · rw [flagged_insert_touched, hprune]
      exact h d
    · rename_i hidle
      rw [touched_inFlight, hprune] at hidle
      split
      · rw [flagged_insert_touched, hprune]
        exact h d
      · -- The pull starts: it is the only one, since the entry was not flagged.
        rw [flagged_insert, hprune, count_cons, h d]
        by_cases hd : d = c
        · subst hd
          simp [attempted, touched_conversationId, hidle]
        · simp [attempted, touched_conversationId, hd, Ne.symm hd]

theorem tracked_step (s : SeqRepair) (e : Event) (h : s.Tracked) (hquiet : QuietWhenWhole s e) :
    (step s e).Tracked := by
  cases e with
  | persisted w =>
    rw [step, afterPersist]
    cases hgap : w.windowGapAfter with
    | some gap =>
      dsimp only
      split
      · exact tracked_onGap h _ _ _ _
      · exact h
    | none =>
      intro d
      rw [flagged_erase]
      by_cases hd : d = w.conversationId
      · rw [if_pos hd, hd, count_eq_zero.mpr (hquiet hgap)]
        rfl
      · rw [if_neg hd]
        exact h d
  | finished c ok now =>
    rw [step, repairFinished]
    split
    · rename_i hrunning
      have hcount := h c
      have hpos := count_pos_iff.mpr hrunning
      have hflag : flagged s.states c = true := by
        by_contra hno
        rw [if_neg hno] at hcount
        omega
      have hafter : ∀ d, (s.running.erase c).count d = if d = c then 0 else s.running.count d := by
        intro d
        by_cases hd : d = c
        · subst hd
          rw [if_pos rfl, count_erase_self, hcount, if_pos hflag]
        · rw [if_neg hd, count_erase_of_ne hd]
      intro d
      rw [hafter, h d]
      cases ok with
      | true => by_cases hd : d = c <;> simp [flagged_erase, hd]
      | false =>
        cases hfind : s.states.find? c with
        | none => simp [flagged, hfind] at hflag
        | some state =>
          have hkey := key_of_find? hfind
          by_cases hd : d = c <;> simp [flagged_insert, hkey, hd]
    · exact h

/-- At most one gap repair of a conversation is in flight. -/
theorem repairs_in_flight_le_one (hasSync : Bool) (es : List Event)
    (hquiet : AllSteps step QuietWhenWhole (start hasSync) es) (c : String) :
    (run step (start hasSync) es).running.count c ≤ 1 := by
  have htracked : (run step (start hasSync) es).Tracked :=
    run_invariant tracked_step es (start hasSync) (fun _ => rfl) hquiet
  rw [htracked c]
  split <;> omega

/-- A message arrives over a hole, and again while the pull it started is in flight. -/
def repeatedGap : List Event :=
  [.persisted ⟨"c", 0, [], [2], [], 1000⟩, .persisted ⟨"c", 0, [2], [4], [], 1500⟩]

theorem repairs_in_flight_repeatedGap : (run step (start true) repeatedGap).running.count "c" ≤ 1 ∧
    (run step (start true) repeatedGap).running = ["c"] :=
  ⟨repairs_in_flight_le_one true repeatedGap (by decide) "c", by decide⟩

/-- The missing message arrives while the pull for it is in flight, and the next one leaves a
new hole. -/
def filledWhileRunning : List Event :=
  [.persisted ⟨"c", 0, [], [2], [], 1000⟩, .persisted ⟨"c", 0, [], [1], [], 1100⟩,
    .persisted ⟨"c", 1, [1, 2], [4], [], 1200⟩]

theorem not_repairs_in_flight_le_one_filledWhileRunning :
    ¬ (run step (start true) filledWhileRunning).running.count "c" ≤ 1 := by
  decide

end SeqRepair

end FlareIm.Dispatcher
