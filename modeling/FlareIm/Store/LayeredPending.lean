import FlareIm.Lib.Run
import FlareIm.Store.PendingSend

/-! The pending-send store with a cache in front of its backend. Reads fill the cache, writes go to the
backend first, and each call gives way to others between its steps. Healing deletes entries from the
backend only. A get called while the backend has no entry finds none, as long as nothing is deleted
that is cached or about to be, and no such get looks into the cache between the deletion of a pop and
its eviction. -/

namespace FlareIm.Store

open Lib Message List PendingEntries Option

def PendingEntries.holds (p : PendingEntries) (clientMsgId : String) : Bool := (p.get clientMsgId).isSome

namespace PendingEntries

variable (p : PendingEntries) (entry : PendingSendVo) (id k : String)

theorem holds_eq : p.holds k = (p.byId.find? k).isSome := isSome_map

theorem holds_push : (p.push entry).holds k ↔ k = entry.clientMsgId ∨ p.holds k := by
  rw [holds_eq, holds_eq, find?_push]
  split <;> simp_all

theorem holds_pop : (p.pop id).holds k ↔ k ≠ id ∧ p.holds k := by
  rw [holds_eq, holds_eq, find?_pop]
  split <;> simp_all

theorem holds_deleteAll (ids : List String) : (p.deleteAll ids).holds k ↔ k ∉ ids ∧ p.holds k := by
  rw [holds_eq, holds_eq, find?_deleteAll]
  split <;> simp_all

end PendingEntries

/-- A call, by the step it takes next. A get is `gone` when the backend had no entry as it was called and
none was pushed since. -/
inductive PendingCall
  | get (clientMsgId : String) (gone : Bool)
  | getMissed (clientMsgId : String) (gone : Bool)
  | getFound (entry : PendingSendVo) (gone : Bool)
  | answered (clientMsgId : String) (gone : Bool) (answer : Option PendingSendVo)
  | push (entry : PendingSendVo)
  | pushWritten (entry : PendingSendVo)
  | pop (clientMsgId : String)
  | popFound (clientMsgId : String)
  | popDeleted (clientMsgId : String)
  | ended
  deriving DecidableEq

namespace PendingCall

/-- An entry is pushed: a get that waits may well find it. -/
def pushedAgain (pushed : String) : PendingCall → PendingCall
  | .get id gone => .get id (gone && id ≠ pushed)
  | .getMissed id gone => .getMissed id (gone && id ≠ pushed)
  | call => call

/-- The entry that the call puts into the cache next. -/
def refills : PendingCall → Option String
  | .getFound entry _ => some entry.clientMsgId
  | .pushWritten entry => some entry.clientMsgId
  | _ => none

/-- What the backend has while the call is where it is. -/
def Fits (backend : PendingEntries) : PendingCall → Prop
  | .get id gone => gone = true → ¬ backend.holds id
  | .getMissed id gone => gone = true → ¬ backend.holds id
  | .getFound entry gone => backend.holds entry.clientMsgId = true ∧ gone = false
  | .answered _ gone answer => gone = true → answer = none
  | .pushWritten entry => backend.holds entry.clientMsgId = true
  | _ => True

end PendingCall

structure LayeredPendingSendStore where
  cache : KeyedMap String PendingSendVo PendingSendVo.clientMsgId := .empty
  backend : PendingEntries
  calls : List PendingCall := []

namespace LayeredPendingSendStore

inductive Event
  | get (clientMsgId : String)
  | push (entry : PendingSendVo)
  | pop (clientMsgId : String)
  /-- The `i`-th call goes on to where it gives way next. -/
  | advance (i : ℕ)
  /-- The backend fails in it, or its caller drops it. -/
  | abandon (i : ℕ)
  /-- `heal_cross_account_pending_messages` deletes from `pending_sends`. -/
  | heal (clientMsgIds : List String)
  deriving DecidableEq

section

variable (s : LayeredPendingSendStore)

def put (i : ℕ) (call : PendingCall) : LayeredPendingSendStore :=
  { s with calls := s.calls.set i call }

def advance (i : ℕ) : PendingCall → LayeredPendingSendStore
  | .get id gone => match s.cache.find? id with
    | some entry => s.put i (.answered id gone (some entry))
    | none => s.put i (.getMissed id gone)
  | .getMissed id gone => match s.backend.get id with
    | some entry => s.put i (.getFound entry gone)
    | none => s.put i (.answered id gone none)
  | .getFound entry gone =>
    { s with cache := s.cache.insert entry }.put i (.answered entry.clientMsgId gone (some entry))
  | .push entry =>
    { s with
      backend := s.backend.push entry
      calls := s.calls.map (PendingCall.pushedAgain entry.clientMsgId) }.put i (.pushWritten entry)
  | .pushWritten entry => { s with cache := s.cache.insert entry }.put i .ended
  | .pop id => s.put i (if s.backend.holds id then .popFound id else .ended)
  | .popFound id => { s with backend := s.backend.pop id }.put i (.popDeleted id)
  | .popDeleted id => { s with cache := s.cache.erase id }.put i .ended
  | .answered _ _ _ => s
  | .ended => s

def step : Event → LayeredPendingSendStore
  | .get id => { s with calls := s.calls ++ [.get id (!s.backend.holds id)] }
  | .push entry => { s with calls := s.calls ++ [.push entry] }
  | .pop id => { s with calls := s.calls ++ [.pop id] }
  | .advance i => match s.calls[i]? with
    | some call => s.advance i call
    | none => s
  | .abandon i => s.put i .ended
  | .heal ids => { s with backend := s.backend.deleteAll ids }

end

def start (backend : PendingEntries) : LayeredPendingSendStore := { backend := backend }

section

variable (s : LayeredPendingSendStore)

/-- No call is about to put the entry into the cache. -/
def Settled (id : String) : Prop := ∀ call ∈ s.calls, call.refills ≠ some id
  deriving Decidable

/-- A pop does not delete what a call is about to put into the cache, and a get that is gone does not look
into the cache while a pop is about to evict from it. -/
def CarefulAdvance : PendingCall → Prop
  | .popFound id => s.Settled id
  | .get id gone => gone = true → .popDeleted id ∉ s.calls
  | _ => True

/-- A pop is not given up between its deletion and its eviction. -/
def CarefulAbandon : PendingCall → Prop
  | .popDeleted id => (s.cache.find? id).isSome → s.backend.holds id
  | _ => True

/-- Healing deletes nothing that is cached or about to be. -/
def Careful : Event → Prop
  | .advance i => ∀ call ∈ s.calls[i]?, s.CarefulAdvance call
  | .abandon i => ∀ call ∈ s.calls[i]?, s.CarefulAbandon call
  | .heal ids => ∀ id ∈ ids, s.backend.holds id → s.cache.find? id = none ∧ s.Settled id
  | _ => True

end

instance (s : LayeredPendingSendStore) : (call : PendingCall) → Decidable (s.CarefulAdvance call)
  | .popFound id => inferInstanceAs (Decidable (s.Settled id))
  | .get _ _ => inferInstanceAs (Decidable (_ → _))
  | .getMissed _ _ | .getFound _ _ | .answered _ _ _ | .push _ | .pushWritten _ | .pop _ | .popDeleted _ | .ended =>
    inferInstanceAs (Decidable True)

instance (s : LayeredPendingSendStore) : (call : PendingCall) → Decidable (s.CarefulAbandon call)
  | .popDeleted _ => inferInstanceAs (Decidable (_ → _))
  | .get _ _ | .getMissed _ _ | .getFound _ _ | .answered _ _ _ | .push _
  | .pushWritten _ | .pop _ | .popFound _ | .ended =>
    inferInstanceAs (Decidable True)

instance (s : LayeredPendingSendStore) : (e : Event) → Decidable (s.Careful e)
  | .get _ | .push _ | .pop _ => inferInstanceAs (Decidable True)
  | .advance i => inferInstanceAs (Decidable (∀ call ∈ s.calls[i]?, s.CarefulAdvance call))
  | .abandon i => inferInstanceAs (Decidable (∀ call ∈ s.calls[i]?, s.CarefulAbandon call))
  | .heal _ => List.decidableBAll _ _

/-! ### What is cached is stored, or about to be evicted -/

structure Coherent (s : LayeredPendingSendStore) : Prop where
  cached : ∀ id, (s.cache.find? id).isSome → s.backend.holds id ∨ .popDeleted id ∈ s.calls
  fits : ∀ call ∈ s.calls, call.Fits s.backend

theorem coherent_start (backend : PendingEntries) : (start backend).Coherent :=
  ⟨fun _ h => absurd h (by simp [start]), fun _ h => absurd h not_mem_nil⟩

variable {s : LayeredPendingSendStore}

section Step

variable {i : ℕ} {call next : PendingCall}
  {backend : PendingEntries} {calls : List PendingCall} {entry : PendingSendVo} {id : String}

theorem fits_put (h : ∀ call ∈ calls, call.Fits backend)
    (hnext : next.Fits backend) : ∀ call ∈ calls.set i next, call.Fits backend := by
  intro call hcall
  rcases mem_or_eq_of_mem_set hcall with hold | rfl
  · exact h call hold
  · exact hnext

theorem mem_set_of_ne {other : PendingCall} (hi : calls[i]? = some call) (hmem : other ∈ calls)
    (hne : other ≠ call) : other ∈ calls.set i next := by
  obtain ⟨j, hj⟩ := mem_iff_getElem?.mp hmem
  have hij : i ≠ j := by
    rintro rfl
    exact hne (some.inj (hj.symm.trans hi))
  exact mem_iff_getElem?.mpr ⟨j, by rw [getElem?_set_ne hij, hj]⟩

section

variable (h : s.Coherent) (hi : s.calls[i]? = some call) (hcall : ∀ id, .popDeleted id ≠ call)

include h hi hcall

theorem coherent_put (hnext : next.Fits s.backend) : (s.put i next).Coherent where
  cached id hid := (h.cached id hid).imp_right fun hmem => mem_set_of_ne hi hmem (hcall id)
  fits := fits_put h.fits hnext

theorem coherent_fill (hheld : s.backend.holds entry.clientMsgId) (hnext : next.Fits s.backend) :
    ({ s with cache := s.cache.insert entry }.put i next).Coherent where
  cached id hid := by
    by_cases hid' : id = entry.clientMsgId
    · exact .inl (hid' ▸ hheld)
    · have hfind : (s.cache.insert entry).find? id = s.cache.find? id :=
        (s.cache.find?_insert entry id).trans (if_neg hid')
      rw [put, hfind] at hid
      exact (h.cached id hid).imp_right fun hmem => mem_set_of_ne hi hmem (hcall id)
  fits := fits_put h.fits hnext

end

theorem fits_pushedAgain (h : call.Fits backend) :
    (call.pushedAgain entry.clientMsgId).Fits (backend.push entry) := by
  cases call with
  | getFound entry' gone =>
    exact ⟨(holds_push ..).mpr (.inr h.1), h.2⟩
  | answered id gone answer => exact h
  | pushWritten entry' => exact (holds_push ..).mpr (.inr h)
  | push entry' => trivial
  | pop id => trivial
  | popFound id => trivial
  | popDeleted id => trivial
  | ended => trivial
  | _ =>
    intro hgone
    simp only [Bool.and_eq_true, decide_eq_true_eq] at hgone
    rw [holds_push, not_or]
    exact ⟨hgone.2, h hgone.1⟩

/-- Entries disappear from the backend that no call is about to put into the cache. -/
theorem fits_of_holds_le {backend' : PendingEntries} (h : call.Fits backend)
    (hle : ∀ id, backend'.holds id → backend.holds id)
    (hkept : ∀ id, call.refills = some id → backend.holds id → backend'.holds id) : call.Fits backend' := by
  cases call with
  | get id gone => exact fun hgone hheld => h hgone (hle id hheld)
  | getMissed id gone => exact fun hgone hheld => h hgone (hle id hheld)
  | getFound entry gone => exact ⟨hkept _ rfl h.1, h.2⟩
  | answered id gone answer => exact h
  | pushWritten entry => exact hkept _ rfl h
  | _ => trivial

theorem coherent_popFound (h : s.Coherent) (hi : s.calls[i]? = some (.popFound id)) (hsettled : s.Settled id) :
    ({ s with backend := s.backend.pop id }.put i (.popDeleted id)).Coherent where
  cached id' hid' := by
    by_cases heq : id' = id
    · subst heq
      exact .inr (List.mem_set (List.getElem?_eq_some_iff.mp hi).1 _)
    · exact (h.cached id' hid').imp (fun hheld => (holds_pop ..).mpr ⟨heq, hheld⟩)
        fun hmem => mem_set_of_ne hi hmem nofun
  fits := by
    refine fits_put (fun call hcall => fits_of_holds_le (h.fits call hcall)
      (fun id' hheld => ?_) fun id' href hheld => ?_)
      trivial
    · exact ((holds_pop ..).mp hheld).2
    · have hne : id' ≠ id := fun heq => hsettled call hcall (heq ▸ href)
      exact (holds_pop ..).mpr ⟨hne, hheld⟩

theorem coherent_popDeleted (h : s.Coherent) (hi : s.calls[i]? = some (.popDeleted id)) :
    ({ s with cache := s.cache.erase id }.put i .ended).Coherent where
  cached id' hid' := by
    rw [put, s.cache.find?_erase] at hid'
    split at hid'
    · exact absurd hid' (by decide)
    · next hne =>
      exact (h.cached id' hid').imp_right fun hmem => mem_set_of_ne hi hmem (by simpa using hne)
  fits := fits_put h.fits trivial

theorem coherent_advance (h : s.Coherent) (hi : s.calls[i]? = some call) (hc : s.CarefulAdvance call) :
    (s.advance i call).Coherent := by
  have hfits := h.fits call (mem_of_getElem? hi)
  cases call with
  | get id gone =>
    rw [advance]
    cases hcache : s.cache.find? id with
    | none => exact coherent_put h hi nofun hfits
    | some entry =>
      refine coherent_put h hi nofun fun hgone => ?_
      -- the entry is not in the backend, and no pop is about to evict it
      rcases h.cached id (by rw [hcache, isSome_some]) with hheld | hpop
      · exact absurd hheld (hfits hgone)
      · exact absurd hpop (hc hgone)
  | getMissed id gone =>
    rw [advance]
    cases hget : s.backend.get id with
    | none => exact coherent_put h hi nofun fun _ => rfl
    | some entry =>
      have hheld : s.backend.holds id = true := by rw [holds, hget, isSome_some]
      obtain ⟨numbered, hnumbered, rfl⟩ := map_eq_some_iff.mp hget
      obtain rfl : NumberedEntry.clientMsgId numbered = id := KeyedMap.key_of_find? hnumbered
      exact coherent_put h hi nofun ⟨hheld, Bool.eq_false_iff.mpr fun hgone => hfits hgone hheld⟩
  | getFound entry gone =>
    refine coherent_fill h hi nofun hfits.1 fun hgone => ?_
    rw [hfits.2] at hgone
    exact absurd hgone (by decide)
  | answered id gone answer => exact h
  | push entry =>
    refine ⟨fun id hid => (h.cached id hid).imp (fun hheld => ?_) fun hmem => ?_, fits_put ?_ ?_⟩
    · exact (holds_push ..).mpr (.inr hheld)
    · have hmap : (s.calls.map (PendingCall.pushedAgain entry.clientMsgId))[i]? = some (.push entry) := by
        rw [getElem?_map, hi]
        rfl
      exact mem_set_of_ne hmap (mem_map.mpr ⟨_, hmem, rfl⟩) nofun
    · intro call hcall
      obtain ⟨before, hbefore, rfl⟩ := mem_map.mp hcall
      exact fits_pushedAgain (h.fits before hbefore)
    · exact (holds_push ..).mpr (.inl rfl)
  | pushWritten entry => exact coherent_fill h hi nofun hfits trivial
  | pop id =>
    refine coherent_put h hi nofun ?_
    split <;> trivial
  | popFound id => exact coherent_popFound h hi hc
  | popDeleted id => exact coherent_popDeleted h hi
  | ended => exact h

theorem coherent_call (h : s.Coherent) (hnext : next.Fits s.backend) :
    ({ s with calls := s.calls ++ [next] } : LayeredPendingSendStore).Coherent where
  cached id hid := (h.cached id hid).imp_right fun hmem => mem_append_left _ hmem
  fits call hcall := by
    rcases mem_append.mp hcall with hold | hnew
    · exact h.fits call hold
    · rw [mem_singleton.mp hnew]
      exact hnext

theorem coherent_abandon (h : s.Coherent) (hc : s.Careful (.abandon i)) : (s.put i .ended).Coherent where
  cached id hid := by
    refine or_iff_not_imp_left.mpr fun hheld => ?_
    have hmem := (h.cached id hid).resolve_left hheld
    cases hi : s.calls[i]? with
    | none =>
      rw [put, set_eq_of_length_le (getElem?_eq_none_iff.mp hi)]
      exact hmem
    | some call =>
      refine mem_set_of_ne hi hmem fun heq => hheld ?_
      exact hc (.popDeleted id) (heq ▸ hi) hid
  fits := fits_put h.fits trivial

theorem coherent_heal {ids : List String} (h : s.Coherent) (hc : s.Careful (.heal ids)) :
    ({ s with backend := s.backend.deleteAll ids } : LayeredPendingSendStore).Coherent where
  cached id hid := by
    refine (h.cached id hid).imp_left fun hheld => (holds_deleteAll ..).mpr ⟨fun hmem => ?_, hheld⟩
    rw [(hc id hmem hheld).1] at hid
    exact absurd hid (by decide)
  fits call hcall := by
    refine fits_of_holds_le (h.fits call hcall) (fun id hheld => ?_) fun id href hheld => ?_
    · exact ((holds_deleteAll ..).mp hheld).2
    · refine (holds_deleteAll ..).mpr ⟨fun hmem => ?_, hheld⟩
      exact (hc id hmem hheld).2 call hcall href

theorem coherent_step (s : LayeredPendingSendStore) (e : Event) (h : s.Coherent) (hc : s.Careful e) :
    (step s e).Coherent := by
  cases e with
  | get id => exact coherent_call h fun hgone => by simpa using hgone
  | advance i =>
    rw [step]
    cases hi : s.calls[i]? with
    | none => exact h
    | some call => exact coherent_advance h hi (hc call hi)
  | abandon i => exact coherent_abandon h hc
  | heal ids => exact coherent_heal h hc
  | _ => exact coherent_call h trivial

end Step

/-! ### Whole runs -/

/-- A get that is gone misses the cache, and then the backend. -/
def GoneFindsNone (s : LayeredPendingSendStore) : Event → Prop
  | .advance i => ∀ id,
    (s.calls[i]? = some (.get id true) → (step s (.advance i)).calls[i]? = some (.getMissed id true)) ∧
    (s.calls[i]? = some (.getMissed id true) → (step s (.advance i)).calls[i]? = some (.answered id true none))
  | _ => True

theorem goneFindsNone_of_careful {e : Event} (h : s.Coherent) (hc : s.Careful e) :
    s.GoneFindsNone e := by
  cases e with
  | advance i =>
    refine fun id => ⟨fun hi => ?_, fun hi => ?_⟩
    · have hlt := (List.getElem?_eq_some_iff.mp hi).1
      have hgone := h.fits _ (mem_of_getElem? hi) rfl
      have hmiss : s.cache.find? id = none := by
        by_contra hcached
        rcases h.cached id (isSome_iff_ne_none.mpr hcached) with hheld | hpop
        · exact hgone hheld
        · exact hc _ hi rfl hpop
      simp only [step, hi, advance, hmiss, put, getElem?_set_self hlt]
    · have hlt := (List.getElem?_eq_some_iff.mp hi).1
      have hgone := h.fits _ (mem_of_getElem? hi) rfl
      have hmiss : s.backend.get id = none := not_isSome_iff_eq_none.mp hgone
      simp only [step, hi, advance, hmiss, put, getElem?_set_self hlt]
  | get id => trivial
  | push entry => trivial
  | pop id => trivial
  | abandon i => trivial
  | heal ids => trivial

/-- In every run whose steps are careful, a get called while its entry is gone misses the cache and then the
backend, and its answer is none. -/
theorem gone_finds_none_of_careful (backend : PendingEntries) (events : List Event)
    (h : AllSteps step Careful (start backend) events) :
    AllSteps step GoneFindsNone (start backend) events ∧
      ∀ id answer, .answered id true answer ∈ (run step (start backend) events).calls → answer = none := by
  refine ⟨AllSteps.of_invariant coherent_step (fun _ _ => goneFindsNone_of_careful) events _
    (coherent_start backend) h, ?_⟩
  intro id answer hmem
  exact (run_invariant coherent_step events _ (coherent_start backend) h).fits _ hmem rfl

def sampleEntry : PendingSendVo :=
  ⟨"c1", "conv", { clientMsgId := "c1", conversationId := "conv", senderId := "u1", status := 1 }, 0, rfl,
    Nat.zero_le _⟩

/-- An entry is pushed and popped, and then asked for. -/
def sampleEvents : List Event :=
  [.push sampleEntry, .advance 0, .advance 0, .pop "c1", .advance 1, .advance 1, .advance 1,
    .get "c1", .advance 2, .advance 2]

theorem gone_finds_none_sampleEvents : AllSteps step Careful (start .empty) sampleEvents ∧
      .answered "c1" true none ∈ (run step (start .empty) sampleEvents).calls ∧
      AllSteps step GoneFindsNone (start .empty) sampleEvents :=
  ⟨by decide, by decide, (gone_finds_none_of_careful .empty sampleEvents (by decide)).1⟩

/-- The entry is returned after healing deleted it, after a pop deleted it and before the pop evicts it, and
after a get that had read it before the pop put it back into the cache. -/
theorem gone_finds_entry : .answered "c1" true (some sampleEntry) ∈ (run step (start .empty)
      [.push sampleEntry, .advance 0, .advance 0, .heal ["c1"], .get "c1", .advance 1]).calls ∧
    .answered "c1" true (some sampleEntry) ∈ (run step (start .empty)
      [.push sampleEntry, .advance 0, .advance 0, .pop "c1", .advance 1, .advance 1, .get "c1", .advance 2]).calls ∧
    .answered "c1" true (some sampleEntry) ∈ (run step (start (empty.push sampleEntry))
      [.get "c1", .advance 0, .advance 0, .pop "c1", .advance 1, .advance 1, .advance 1, .advance 0,
        .get "c1", .advance 2]).calls := by
  decide

end LayeredPendingSendStore

end FlareIm.Store
