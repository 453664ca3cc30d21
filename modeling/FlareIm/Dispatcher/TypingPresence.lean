import Mathlib.Data.List.Sort
import Mathlib.Data.String.Basic
import FlareIm.Lib.KeyedMap
import FlareIm.Lib.Run
import FlareIm.Message.Model

/-! Who is typing, as the receiving side tracks it. Every signal renews or drops entries
with an expiry time, and the caller publishes a set only when a call reports one: a signal
reports the live set when it differs from the live set just before it, the sweep reports a
conversation when it removes an entry. A set that was reported stays on the screen, so what
matters over a run is that the last reported set is the live one after a sweep.

An entry that has expired is still in the table until the sweep removes it, and its removal
is what makes the sweep report. A signal that removes it first without changing the live set
reports nothing, and then neither does the sweep. -/

namespace FlareIm.Dispatcher

open Lib Message List

structure TypingUser where
  userId : String
  /-- Epoch milliseconds. -/
  expiry : ℕ

open TypingUser

abbrev TypingUsers := KeyedMap String TypingUser userId

structure ConversationTyping where
  conversationId : String
  users : TypingUsers

structure TypingPresence where
  byConversation : KeyedMap String ConversationTyping ConversationTyping.conversationId

def TypingUser.isLive (now : ℕ) (entry : TypingUser) : Bool := now < entry.expiry

namespace TypingPresence

def new : TypingPresence := ⟨KeyedMap.empty⟩

section

variable (p : TypingPresence) (conversationId : String)

def usersOf : TypingUsers :=
  match p.byConversation.find? conversationId with
  | some entry => entry.users
  | none => KeyedMap.empty

def setUsers (users : TypingUsers) : TypingPresence :=
  ⟨p.byConversation.insert ⟨conversationId, users⟩⟩

def removeConversation : TypingPresence :=
  ⟨p.byConversation.erase conversationId⟩

end

def liveUsers (users : TypingUsers) (now : ℕ) : List String :=
  (users.filter (isLive now)).keys.insertionSort (· ≤ ·)

section

variable (p : TypingPresence) (conversationId : String) (now : ℕ)

def snapshot : List String :=
  liveUsers (p.usersOf conversationId) now

/-- Drop the conversation when it has no entry left, and report the live set if it changed. -/
def finish (before : List String) :
    Option (List String) × TypingPresence :=
  let q := if (p.usersOf conversationId).items.isEmpty then p.removeConversation conversationId else p
  let after := q.snapshot conversationId now
  (if before = after then none else some after, q)

end

def applyUser (p : TypingPresence) (conversationId userId : String) (typing : Bool) (now ttl : ℕ) :
    Option (List String) × TypingPresence :=
  let before := p.snapshot conversationId now
  let users := p.usersOf conversationId
  let renewed :=
    if typing then users.insert ⟨userId, satAddU64 now ttl⟩ else users.erase userId
  (p.setUsers conversationId renewed).finish conversationId now before

/-- One entry with the same expiry for each listed user. -/
def usersUntil (typingUserIds : List String) (expiry : ℕ) : TypingUsers :=
  typingUserIds.foldl (fun users userId => users.insert ⟨userId, expiry⟩) KeyedMap.empty

def applyAggregate (p : TypingPresence) (conversationId : String) (typingUserIds : List String)
    (now ttl : ℕ) : Option (List String) × TypingPresence :=
  let before := p.snapshot conversationId now
  let users := usersUntil typingUserIds (satAddU64 now ttl)
  let replaced :=
    if users.items.isEmpty then p.removeConversation conversationId
    else p.setUsers conversationId users
  replaced.finish conversationId now before

def pruneOne (now : ℕ) (acc : List (String × List String) × TypingPresence) (conversationId : String) :
    List (String × List String) × TypingPresence :=
  let (changed, p) := acc
  match p.byConversation.find? conversationId with
  | none => (changed, p)
  | some entry =>
    let kept := entry.users.filter (isLive now)
    let q := if kept.items.isEmpty then p.removeConversation conversationId
      else p.setUsers conversationId kept
    if kept.size ≠ entry.users.size then
      (changed ++ [(conversationId, q.snapshot conversationId now)], q)
    else (changed, q)

/-- Drop every expired entry; report the conversations that lost one. -/
def prune (p : TypingPresence) (now : ℕ) : List (String × List String) × TypingPresence :=
  p.byConversation.keys.foldl (pruneOne now) ([], p)

/-! ### Live and expired entries of a table -/

/-- Some entry of the table has expired and is still there. -/
def HasExpired (users : TypingUsers) (now : ℕ) : Prop := ∃ e ∈ users.items, e.isLive now = false
  deriving Decidable

variable {userId : String} {expiry t ttl : ℕ}

section

variable {users : TypingUsers}

theorem mem_liveUsers {now : ℕ} :
    userId ∈ liveUsers users now ↔ ∃ e ∈ users.items, e.isLive now = true ∧ e.userId = userId := by
  simp [liveUsers, KeyedMap.keys, KeyedMap.filter, and_assoc]

theorem filter_live_eq_self {now : ℕ} (h : ¬ HasExpired users now) : users.filter (isLive now) = users := by
  have hitems : users.items.filter (isLive now) = users.items := by
    rw [filter_eq_self]
    intro e he
    by_contra hlive
    exact h ⟨e, he, by simpa using hlive⟩
  obtain ⟨items, nodup⟩ := users
  simpa only [KeyedMap.filter, KeyedMap.mk.injEq] using hitems

theorem hasExpired_of_le {now : ℕ} (hle : t ≤ now) (h : HasExpired users t) : HasExpired users now := by
  obtain ⟨e, he, hexpired⟩ := h
  refine ⟨e, he, ?_⟩
  simp only [isLive, decide_eq_false_iff_not] at hexpired ⊢
  omega

/-- Time alone changes the live set only by letting an entry expire. -/
theorem liveUsers_eq_of_le {now : ℕ} (hle : t ≤ now)
    (h : ¬ HasExpired users now) : liveUsers users t = liveUsers users now := by
  rw [liveUsers, liveUsers, filter_live_eq_self h, filter_live_eq_self (mt (hasExpired_of_le hle) h)]

theorem not_hasExpired_empty {now : ℕ} : ¬ HasExpired KeyedMap.empty now := fun ⟨_, he, _⟩ => not_mem_nil he

end

section

variable (users : TypingUsers) (now : ℕ)

theorem liveUsers_filter : liveUsers (users.filter (isLive now)) now = liveUsers users now := by
  simp [liveUsers, KeyedMap.filter, filter_filter]

theorem hasExpired_iff_size_ne : HasExpired users now ↔ (users.filter (isLive now)).size ≠ users.size := by
  rw [KeyedMap.size, KeyedMap.size, KeyedMap.filter, ne_eq, length_filter_eq_length_iff]
  simp [HasExpired]

theorem not_hasExpired_filter : ¬ HasExpired (users.filter (isLive now)) now := by
  rintro ⟨e, he, hexpired⟩
  have hlive := (mem_filter.mp he).2
  rw [hlive] at hexpired
  exact Bool.noConfusion hexpired

end

/-! ### What each call leaves in the tables -/

variable {ids : List String}

section Tables

variable (p : TypingPresence) (c d : String) (users : TypingUsers) (now : ℕ)

theorem eq_empty_of_isEmpty {users : TypingUsers} (h : users.items.isEmpty = true) : users = KeyedMap.empty := by
  obtain ⟨items, nodup⟩ := users
  simpa only [KeyedMap.empty, KeyedMap.mk.injEq, List.isEmpty_iff] using h

theorem usersOf_setUsers : (p.setUsers c users).usersOf d = if d = c then users else p.usersOf d := by
  by_cases hd : d = c <;> simp [usersOf, setUsers, KeyedMap.find?_insert, hd]

theorem usersOf_removeConversation :
    (p.removeConversation c).usersOf d = if d = c then KeyedMap.empty else p.usersOf d := by
  by_cases hd : d = c <;> simp [usersOf, removeConversation, KeyedMap.find?_erase, hd]

theorem usersOf_replace : (if users.items.isEmpty then p.removeConversation c else p.setUsers c users).usersOf d =
      if d = c then users else p.usersOf d := by
  split
  · rename_i hempty
    rw [usersOf_removeConversation, eq_empty_of_isEmpty hempty]
  · exact usersOf_setUsers p c d users

theorem usersOf_finish (before : List String) : (p.finish c now before).2.usersOf d = p.usersOf d := by
  unfold finish
  split
  · rw [usersOf_removeConversation]
    split
    · rename_i hempty hd
      rw [hd, eq_empty_of_isEmpty hempty]
    · rfl
  · rfl

theorem finish_report (before : List String) : (p.finish c now before).1 =
      if before = p.snapshot c now then none else some (p.snapshot c now) := by
  have hsnapshot : (p.finish c now before).2.snapshot c now = p.snapshot c now := by
    rw [snapshot, usersOf_finish, snapshot]
  rw [← hsnapshot]
  rfl

/-- A signal replaces one table and reports the live set if that changed it. -/
structure Replaces (result : Option (List String) × TypingPresence) : Prop where
  usersOf : ∀ d, result.2.usersOf d = if d = c then users else p.usersOf d
  report : result.1 = if p.snapshot c now = liveUsers users now then none else some (liveUsers users now)

theorem replaces_finish {q : TypingPresence}
    (h : ∀ d, q.usersOf d = if d = c then users else p.usersOf d) :
    Replaces p c users now (q.finish c now (p.snapshot c now)) where
  usersOf d := by rw [usersOf_finish, h]
  report := by rw [finish_report, snapshot, snapshot, h, if_pos rfl]

theorem mem_usersUntil {e : TypingUser} :
    e ∈ (usersUntil ids expiry).items ↔ e.userId ∈ ids ∧ e.expiry = expiry := by
  -- The fold is generalised over the table it starts from.
  have key : ∀ (ids : List String) (start : TypingUsers),
      e ∈ (ids.foldl (fun users id => users.insert ⟨id, expiry⟩) start).items ↔
        (e.userId ∈ ids ∧ e.expiry = expiry) ∨ (e.userId ∉ ids ∧ e ∈ start.items) := by
    intro ids
    induction ids with
    | nil => intro start; simp
    | cons id ids ih =>
      intro start
      rw [foldl_cons, ih, KeyedMap.mem_insert]
      obtain ⟨userId, exp⟩ := e
      by_cases hid : userId = id <;> by_cases hmem : userId ∈ ids <;> simp [hid, hmem]
      all_goals subst hid; simp_all
  rw [usersUntil, key]
  simp [KeyedMap.empty]

/-! ### The sweep -/

theorem pruneOne_spec (changed : List (String × List String)) : ∃ q : TypingPresence, (∀ d, q.usersOf d =
        if d = c then (p.usersOf d).filter (isLive now) else p.usersOf d) ∧
      pruneOne now (changed, p) c =
        (if HasExpired (p.usersOf c) now then changed ++ [(c, p.snapshot c now)] else changed, q) := by
  cases hfind : p.byConversation.find? c with
  | none =>
    have hempty : p.usersOf c = KeyedMap.empty := by rw [usersOf, hfind]
    have hnone : ¬ HasExpired (p.usersOf c) now := hempty ▸ not_hasExpired_empty
    refine ⟨p, fun d => ?_, ?_⟩
    · split
      · rename_i hd
        rw [hd, filter_live_eq_self hnone]
      · rfl
    · rw [if_neg hnone, pruneOne, hfind]
  | some entry =>
    have hentry : p.usersOf c = entry.users := by rw [usersOf, hfind]
    have hreplace := fun d => usersOf_replace p c d (entry.users.filter (isLive now))
    refine ⟨_, fun d => (hreplace d).trans ?_, ?_⟩
    · split
      · rename_i hd
        rw [hd, hentry]
      · rfl
    · simp only [pruneOne, hfind, hentry, hasExpired_iff_size_ne]
      split
      · rw [snapshot, hreplace, if_pos rfl, liveUsers_filter, snapshot, hentry]
      · rfl

section

variable (reported : String → List String) (changed : List (String × List String))

/-- What the caller has on screen after it published the reported sets. -/
def published : String → List String :=
  changed.foldl (fun r entry => Function.update r entry.1 entry.2) reported

theorem published_append_singleton (live : List String) :
    published reported (changed ++ [(c, live)]) d = if d = c then live else published reported changed d := by
  rw [published, foldl_append, foldl_cons, foldl_nil, Function.update_apply]
  rfl

end

theorem foldl_pruneOne (reported : String → List String) :
    ∀ (ids : List String) (acc : List (String × List String) × TypingPresence),
      (ids.foldl (pruneOne now) acc).2.usersOf d =
          (if d ∈ ids then (acc.2.usersOf d).filter (isLive now) else acc.2.usersOf d) ∧
        published reported (ids.foldl (pruneOne now) acc).1 d =
          if d ∈ ids ∧ HasExpired (acc.2.usersOf d) now then acc.2.snapshot d now
          else published reported acc.1 d := by
  intro ids
  induction ids with
  | nil => intro acc; simp
  | cons c ids ih =>
    rintro ⟨changed, p⟩
    obtain ⟨q, hq, hstep⟩ := pruneOne_spec p c now changed
    rw [foldl_cons, hstep]
    obtain ⟨husers, hpublished⟩ := ih (_, q)
    refine ⟨husers.trans ?_, hpublished.trans ?_⟩
    · rw [hq]
      by_cases hd : d = c <;> by_cases hmem : d ∈ ids <;>
        simp [hd, hmem, KeyedMap.filter, filter_filter]
    · by_cases hd : d = c
      · -- The conversation was swept in this step: the rest of the sweep finds nothing expired.
        have hnone := not_hasExpired_filter (p.usersOf d) now
        subst hd
        by_cases hexpired : HasExpired (p.usersOf d) now <;>
          simp [hq, hnone, hexpired, published_append_singleton]
      · by_cases hexpired : HasExpired (p.usersOf c) now <;>
          simp [hq, hd, hexpired, published_append_singleton, snapshot]

variable {d} in
theorem usersOf_of_not_mem (h : d ∉ p.byConversation.keys) : p.usersOf d = KeyedMap.empty := by
  rw [usersOf, (p.byConversation.find?_eq_none_iff d).mpr h]

theorem usersOf_prune : (p.prune now).2.usersOf d = (p.usersOf d).filter (isLive now) := by
  rw [prune, (foldl_pruneOne d now (fun _ => []) _ _).1]
  split
  · rfl
  · rename_i hmem
    simp [p.usersOf_of_not_mem hmem, KeyedMap.filter, KeyedMap.empty]

theorem published_prune (reported : String → List String) : published reported (p.prune now).1 d =
      if HasExpired (p.usersOf d) now then p.snapshot d now else reported d := by
  rw [prune, (foldl_pruneOne d now reported _ _).2]
  refine if_congr (and_iff_right_of_imp fun hexpired => ?_) rfl rfl
  by_contra hmem
  exact not_hasExpired_empty (p.usersOf_of_not_mem hmem ▸ hexpired)

end Tables

/-! ### Runs -/

inductive Call
  | applyUser (conversationId userId : String) (typing : Bool) (now ttl : ℕ)
  | applyAggregate (conversationId : String) (typingUserIds : List String) (now ttl : ℕ)
  | prune (now : ℕ)

def Call.now : Call → ℕ
  | .applyUser _ _ _ now _ => now
  | .applyAggregate _ _ now _ => now
  | .prune now => now

/-- The presence, the time of the last call, and the last set reported for each conversation. -/
structure Watched where
  presence : TypingPresence
  now : ℕ
  reported : String → List String

def start : Watched := ⟨new, 0, fun _ => []⟩

variable (s : Watched)

/-- Publish what a signal reports. -/
def Watched.signal (conversationId : String) (now : ℕ)
    (result : Option (List String) × TypingPresence) : Watched where
  presence := result.2
  now := now
  reported := match result.1 with
    | none => s.reported
    | some live => Function.update s.reported conversationId live

def step : Call → Watched
  | .applyUser c userId typing now ttl =>
    s.signal c now (s.presence.applyUser c userId typing now ttl)
  | .applyAggregate c ids now ttl => s.signal c now (s.presence.applyAggregate c ids now ttl)
  | .prune now =>
    let (changed, p) := s.presence.prune now
    ⟨p, now, published s.reported changed⟩

/-- Calls come with non-decreasing times. -/
def InOrder (call : Call) : Prop := s.now ≤ call.now
  deriving Decidable

/-- The last reported set of a conversation is not the live one any more. -/
def Watched.Stale (c : String) (now : ℕ) : Prop := s.reported c ≠ s.presence.snapshot c now
  deriving Decidable

/-- A signal for a conversation with a stale report leaves the sweep something to remove. A stop
of an expired user leaves another expired entry; an aggregate does not repeat the live users,
unless its own entries have expired on arrival. -/
def LeavesSweepWork : Call → Prop
  | .applyUser c userId typing now _ =>
    s.Stale c now → typing = false →
    (∃ e ∈ (s.presence.usersOf c).items, e.userId = userId ∧ e.isLive now = false) →
        ∃ e ∈ (s.presence.usersOf c).items, e.userId ≠ userId ∧ e.isLive now = false
  | .applyAggregate c ids now ttl =>
    s.Stale c now → (∃ userId ∈ ids, userId ∉ s.presence.snapshot c now) ∨
        (∃ userId ∈ s.presence.snapshot c now, userId ∉ ids) ∨ (ids ≠ [] ∧ satAddU64 now ttl ≤ now)
  | .prune _ => True

instance (s : Watched) : (call : Call) → Decidable (LeavesSweepWork s call)
  | .applyUser _ _ _ _ _ => inferInstanceAs (Decidable (_ → _ → _ → _))
  | .applyAggregate _ _ _ _ => inferInstanceAs (Decidable (_ → _ ∨ _ ∨ _))
  | .prune _ => inferInstanceAs (Decidable True)

/-- Every report is the live set, or the sweep has an expired entry to remove. -/
def Reportable (now : ℕ) : Prop :=
  ∀ c, s.reported c = s.presence.snapshot c now ∨ HasExpired (s.presence.usersOf c) now

section Step

variable {s : Watched} {c : String} {now : ℕ} {users : TypingUsers} {result : Option (List String) × TypingPresence}

theorem Reportable.of_le (h : Reportable s t) (hle : t ≤ now) : Reportable s now := by
  intro c
  rcases h c with heq | hexpired
  · by_cases hnow : HasExpired (s.presence.usersOf c) now
    · exact .inr hnow
    · left
      rw [heq, snapshot, snapshot, liveUsers_eq_of_le hle hnow]
  · exact .inr (hasExpired_of_le hle hexpired)

section

variable (hresult : Replaces s.presence c users now result) (d : String)

include hresult

theorem reported_signal : (s.signal c now result).reported d =
      if d = c ∧ s.presence.snapshot c now ≠ liveUsers users now then liveUsers users now
      else s.reported d := by
  rw [Watched.signal, hresult.report]
  by_cases hsilent : s.presence.snapshot c now = liveUsers users now
  · simp [hsilent]
  · simp [hsilent, Function.update_apply]

theorem snapshot_signal : (s.signal c now result).presence.snapshot d now =
      if d = c then liveUsers users now else s.presence.snapshot d now := by
  rw [snapshot, Watched.signal, hresult.usersOf]
  split <;> rfl

end

/-- A signal keeps reports right if it changes the live set, or finds the report right, or leaves
an expired entry. -/
theorem reportable_signal (h : Reportable s now) (hresult : Replaces s.presence c users now result)
    (hkeep : s.Stale c now → HasExpired (s.presence.usersOf c) now →
      s.presence.snapshot c now ≠ liveUsers users now ∨ HasExpired users now) :
    Reportable (s.signal c now result) now := by
  intro d
  rw [reported_signal hresult, snapshot_signal hresult, Watched.signal, hresult.usersOf]
  by_cases hd : d = c
  · subst hd
    simp only [true_and]
    by_cases hsilent : s.presence.snapshot d now = liveUsers users now
    · rw [if_neg (not_not.mpr hsilent)]
      by_cases hstale : s.Stale d now
      · have hexpired := (h d).resolve_left hstale
        exact .inr ((hkeep hstale hexpired).resolve_left (not_not.mpr hsilent))
      · exact .inl ((not_not.mp hstale).trans hsilent)
    · exact .inl (if_pos hsilent)
  · simpa only [hd, false_and, if_false] using h d

/-- The sweep reports what it removes from, and the other reports were right. -/
theorem reported_prune (h : Reportable s now) (c : String) :
    (step s (.prune now)).reported c = (step s (.prune now)).presence.snapshot c now := by
  have hsnapshot : (step s (.prune now)).presence.snapshot c now = s.presence.snapshot c now := by
    change (s.presence.prune now).2.snapshot c now = _
    rw [snapshot, usersOf_prune, liveUsers_filter, snapshot]
  refine (published_prune s.presence c now s.reported).trans (Eq.trans ?_ hsnapshot.symm)
  split
  · rfl
  · exact (h c).resolve_right ‹_›

theorem applyUser_keeps {typing : Bool}
    (hc : LeavesSweepWork s (.applyUser c userId typing now ttl)) (hstale : s.Stale c now)
    (hexpired : HasExpired (s.presence.usersOf c) now) :
    s.presence.snapshot c now ≠ liveUsers (if typing then
        (s.presence.usersOf c).insert ⟨userId, satAddU64 now ttl⟩
        else (s.presence.usersOf c).erase userId) now ∨
      HasExpired (if typing then (s.presence.usersOf c).insert ⟨userId, satAddU64 now ttl⟩
        else (s.presence.usersOf c).erase userId) now := by
  obtain ⟨e, he, hdead⟩ := hexpired
  cases typing with
  | false =>
    right
    obtain ⟨e', he', hne, hdead'⟩ : ∃ e' ∈ (s.presence.usersOf c).items,
        e'.userId ≠ userId ∧ e'.isLive now = false := by
      by_cases heu : e.userId = userId
      · exact hc hstale rfl ⟨e, he, heu, hdead⟩
      · exact ⟨e, he, heu, hdead⟩
    exact ⟨e', mem_filter.mpr ⟨he', by simpa using hne⟩, hdead'⟩
  | true =>
    by_cases heu : e.userId = userId
    · -- The renewed user was expired: they come back to the live set, or expire again at once.
      by_cases hlive : now < satAddU64 now ttl
      · left
        intro hsame
        have hback : userId ∈ s.presence.snapshot c now := by
          rw [hsame, mem_liveUsers]
          exact ⟨⟨userId, satAddU64 now ttl⟩, (KeyedMap.mem_insert ..).mpr (.inl rfl),
            by simpa [isLive] using hlive, rfl⟩
        obtain ⟨e', he', halive, heu'⟩ := mem_liveUsers.mp hback
        rw [(s.presence.usersOf c).eq_of_key_eq he' he (heu'.trans heu.symm), hdead] at halive
        exact Bool.noConfusion halive
      · right
        exact ⟨⟨userId, satAddU64 now ttl⟩, (KeyedMap.mem_insert ..).mpr (.inl rfl),
          by simpa [isLive] using hlive⟩
    · right
      exact ⟨e, (KeyedMap.mem_insert ..).mpr (.inr ⟨he, heu⟩), hdead⟩

theorem mem_liveUsers_usersUntil :
    userId ∈ liveUsers (usersUntil ids expiry) now ↔ userId ∈ ids ∧ now < expiry := by
  rw [mem_liveUsers]
  constructor
  · rintro ⟨e, he, hlive, rfl⟩
    obtain ⟨hmem, rfl⟩ := mem_usersUntil.mp he
    exact ⟨hmem, by simpa [isLive] using hlive⟩
  · rintro ⟨hmem, hlt⟩
    exact ⟨⟨userId, expiry⟩, mem_usersUntil.mpr ⟨hmem, rfl⟩, by simpa [isLive] using hlt, rfl⟩

theorem hasExpired_usersUntil : HasExpired (usersUntil ids expiry) now ↔ ids ≠ [] ∧ expiry ≤ now := by
  constructor
  · rintro ⟨e, he, hdead⟩
    obtain ⟨hmem, rfl⟩ := mem_usersUntil.mp he
    exact ⟨ne_nil_of_mem hmem, by simpa [isLive] using hdead⟩
  · rintro ⟨hne, hle⟩
    obtain ⟨userId, hmem⟩ := exists_mem_of_ne_nil ids hne
    exact ⟨⟨userId, expiry⟩, mem_usersUntil.mpr ⟨hmem, rfl⟩, by simpa [isLive] using hle⟩

theorem applyAggregate_keeps
    (hc : LeavesSweepWork s (.applyAggregate c ids now ttl)) (hstale : s.Stale c now) :
    s.presence.snapshot c now ≠ liveUsers (usersUntil ids (satAddU64 now ttl)) now ∨
      HasExpired (usersUntil ids (satAddU64 now ttl)) now := by
  by_cases hdead : HasExpired (usersUntil ids (satAddU64 now ttl)) now
  · exact .inr hdead
  · left
    intro hsame
    rw [hasExpired_usersUntil] at hdead
    have hmem : ∀ userId, userId ∈ s.presence.snapshot c now ↔ userId ∈ ids := by
      intro userId
      rw [hsame, mem_liveUsers_usersUntil, and_iff_left_iff_imp]
      intro hid
      exact not_le.mp fun hle => hdead ⟨ne_nil_of_mem hid, hle⟩
    rcases hc hstale with ⟨userId, hid, hnot⟩ | ⟨userId, hlive, hnot⟩ | hearly
    · exact hnot ((hmem userId).mpr hid)
    · exact hnot ((hmem userId).mp hlive)
    · exact hdead hearly

theorem reportable_step (s : Watched) (call : Call) (h : Reportable s s.now)
    (hc : InOrder s call ∧ LeavesSweepWork s call) : Reportable (step s call) (step s call).now := by
  have hnow := h.of_le hc.1
  cases call with
  | applyUser c userId typing now ttl =>
    exact reportable_signal hnow (replaces_finish s.presence c _ now fun d => usersOf_setUsers s.presence c d _)
      (applyUser_keeps hc.2)
  | applyAggregate c ids now ttl =>
    exact reportable_signal hnow (replaces_finish s.presence c _ now fun d => usersOf_replace s.presence c d _)
      fun hstale _ => applyAggregate_keeps hc.2 hstale
  | prune now => exact fun c => .inl (reported_prune hnow c)

theorem reportable_start : Reportable start start.now := fun _ => .inl rfl

end Step

/-- After a sweep the last report of every conversation is its live set. -/
theorem reported_eq_snapshot_after_prune (calls : List Call) (now : ℕ)
    (htimes : AllSteps step InOrder start (calls ++ [.prune now]))
    (hwork : AllSteps step LeavesSweepWork start (calls ++ [.prune now])) (c : String) :
    (run step start (calls ++ [.prune now])).reported c =
      (run step start (calls ++ [.prune now])).presence.snapshot c now := by
  have hsteps := htimes.and hwork
  have hbefore : Reportable (run step start calls) (run step start calls).now :=
    run_invariant reportable_step calls start reportable_start hsteps.init
  rw [run_append]
  exact reported_prune (hbefore.of_le hsteps.last.1) c

/-- Two users start typing, the first one falls silent and the sweep finds their entry. -/
def twoTypists : List Call := [.applyUser "c" "u1" true 0 7000, .applyUser "c" "u2" true 1000 7000]

theorem reported_eq_snapshot_twoTypists : (run step start (twoTypists ++ [.prune 7500])).reported "c" =
        (run step start (twoTypists ++ [.prune 7500])).presence.snapshot "c" 7500 ∧
      (run step start (twoTypists ++ [.prune 7500])).reported "c" = ["u2"] :=
  ⟨reported_eq_snapshot_after_prune twoTypists 7500 (by decide) (by decide) "c", by decide⟩

/-- A stop that arrives after the entry expired and before the sweep. -/
def lateStop : List Call :=
  [.applyUser "c" "u1" true 0 7000, .applyUser "c" "u1" false 7500 7000, .prune 8000]

/-- The last report still names the user, who is not typing any more. -/
theorem not_reported_eq_snapshot_lateStop : AllSteps step InOrder start lateStop ∧
      (run step start lateStop).reported "c" = ["u1"] ∧
      (run step start lateStop).presence.snapshot "c" 8000 = [] := by
  decide

end TypingPresence

end FlareIm.Dispatcher
