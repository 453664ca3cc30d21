import FlareIm.Access.Trust
import FlareIm.Lib.Run
import FlareIm.Store.Attributes

/-! The last trusted copy of each document and the guard against rollback. A manifest
store keeps, for every kind of document, a record of the current copy and the largest
serial accepted so far, and for access manifests the record before. A commit checks
the serial against the maximum, which it reads once and then keeps in a cache, and
writes everything in one batch.

A commit is a sequence of store operations, and other commits can run between two of
them: `CommitState.step` is one such operation. A commit that runs alone is
`CommitState.finish`, the same steps to their end. -/

namespace FlareIm.Access

open Lib Message Store List Function Option

/-! ### Records -/

inductive ManifestSource
  | seed
  | lkg
  | https (url : String)
  | wellKnown (apId : String)
  | recovery
  deriving DecidableEq, Repr

def ManifestSource.label : ManifestSource → String
  | .seed => "seed"
  | .lkg => "lkg"
  | .https url => "https:" ++ url
  | .wellKnown apId => "wellKnown:" ++ apId
  | .recovery => "recovery"

structure FetchMeta where
  source : ManifestSource
  etag : Option String := none
  fetchedAtMs : Int64
  deriving DecidableEq

/-- The envelope is kept as the bytes that were verified; base64 goes there and back. -/
structure StoredDocument where
  envelope : Bytes
  serial : ℕ
  etag : Option String
  source : ManifestSource
  fetchedAtMs : Int64
  deriving DecidableEq

/-- A stored value: the JSON of a record, or any other text. -/
inductive Value
  | record (document : StoredDocument)
  | text (s : String)
  deriving DecidableEq

namespace Value

def asRecord : Value → Option StoredDocument
  | .record document => some document
  | .text _ => none

def asSerial : Value → Option ℕ
  | .record _ => none
  | .text s => parseU64 (trim s)

end Value

abbrev Entries := Std.ExtTreeMap String Value

inductive StoreOp
  | put (key : String) (value : Value)
  | delete (key : String)

def StoreOp.run (entries : Entries) : StoreOp → Entries
  | .put key value => entries.insert key value
  | .delete key => entries.erase key

/-- `apply`: all operations or none. -/
def applyOps (entries : Entries) (ops : List StoreOp) : Entries := ops.foldl StoreOp.run entries

/-! ### Keys -/

structure DocKeys where
  current : String
  previous : Option String
  serial : String
  deriving DecidableEq

open DocKeys

/-- What a manifest store is made for. `releaseTarget` is `platform/channel`. -/
structure ManifestStore where
  bootstrapId : String
  rootset : String
  releaseTarget : String
  deriving DecidableEq

/-- `DocType::as_str`, which is also the part of a key. -/
def DocType.asStr : DocType → String
  | .access => "access"
  | .keyState => "keys"
  | .release => "release"

/-- The part of the keys that tells two apps, sets of roots or channels apart. -/
def ManifestStore.place (m : ManifestStore) : DocType → String
  | .access => m.bootstrapId
  | .keyState => m.rootset
  | .release => m.bootstrapId ++ "/" ++ m.releaseTarget

def DocType.keys (doc : DocType) (place : String) : DocKeys where
  current := "manifest/" ++ doc.asStr ++ "/" ++ place ++ "/current"
  previous := if doc = .access then some ("manifest/" ++ doc.asStr ++ "/" ++ place ++ "/previous") else none
  serial := "serial/" ++ doc.asStr ++ "/" ++ place

def ManifestStore.keysFor (m : ManifestStore) (doc : DocType) : DocKeys := doc.keys (m.place doc)

variable {doc doc' : DocType} {key place place' : String}

section Keys

theorem asStr_append_inj (h : doc.asStr ++ ("/" ++ place) = doc'.asStr ++ ("/" ++ place')) :
    doc = doc' ∧ place = place' := by
  have hlist := congrArg String.toList h
  cases doc <;> cases doc' <;> simp [DocType.asStr] at hlist ⊢ <;> exact String.toList_inj.mp hlist

theorem serial_inj (h : (doc.keys place).serial = (doc'.keys place').serial) : doc = doc' ∧ place = place' := by
  unfold DocType.keys at h
  simp only [String.append_assoc, String.append_right_inj] at h
  exact asStr_append_inj h

theorem current_inj (h : (doc.keys place).current = (doc'.keys place').current) : doc = doc' ∧ place = place' := by
  unfold DocType.keys at h
  simp only [String.append_assoc, String.append_right_inj] at h
  simp only [← String.append_assoc, String.append_left_inj] at h
  exact asStr_append_inj (by simpa only [String.append_assoc] using h)

theorem current_ne_serial : (doc.keys place).current ≠ (doc'.keys place').serial := by
  unfold DocType.keys
  intro h
  have hlist := congrArg String.toList h
  simp at hlist

variable (h : (doc.keys place).previous = some key)

include h

theorem previous_eq_some : doc = .access ∧ key = "manifest/" ++ doc.asStr ++ "/" ++ place ++ "/previous" := by
  unfold DocType.keys at h
  split_ifs at h with hdoc
  exact ⟨hdoc, (some.inj h).symm⟩

theorem previous_ne_serial : key ≠ (doc'.keys place').serial := by
  unfold DocType.keys
  obtain ⟨-, rfl⟩ := previous_eq_some h
  intro heq
  have hlist := congrArg String.toList heq
  simp at hlist

theorem previous_ne_current : key ≠ (doc'.keys place').current := by
  obtain ⟨-, rfl⟩ := previous_eq_some h
  intro heq
  unfold DocType.keys at heq
  dsimp only at heq
  -- The two texts end in different letters.
  generalize "manifest/" ++ doc.asStr ++ "/" ++ place = start at heq
  generalize "manifest/" ++ doc'.asStr ++ "/" ++ place' = start' at heq
  have hlast := congrArg (fun s => s.toList.getLast?) heq
  simp at hlast

theorem previous_inj (h' : (doc'.keys place').previous = some key) : doc = doc' ∧ place = place' := by
  obtain ⟨-, rfl⟩ := previous_eq_some h
  obtain ⟨-, heq⟩ := previous_eq_some h'
  simp only [String.append_assoc, String.append_right_inj] at heq
  simp only [← String.append_assoc, String.append_left_inj] at heq
  exact asStr_append_inj (by simpa only [String.append_assoc] using heq)

end Keys

/-! ### What is stored -/

section

variable (keys : DocKeys) (entries : Entries)

def DocKeys.serialIn : Option ℕ :=
  entries[keys.serial]?.bind Value.asSerial

def DocKeys.currentIn : Option StoredDocument :=
  entries[keys.current]?.bind Value.asRecord

def DocKeys.previousIn : Option StoredDocument :=
  (keys.previous.bind fun key => entries[key]?).bind Value.asRecord

/-- The largest serial accepted so far: the number under the serial key, or the
record's when that is missing or damaged. -/
def DocKeys.maxIn : Option ℕ :=
  (keys.serialIn entries).or ((keys.currentIn entries).map (·.serial))

end

/-! ### Commits -/

inductive StoreError
  | backend
  | corrupt
  deriving DecidableEq, Repr

inductive AcceptError
  | trust (error : TrustError)
  | store (error : StoreError)
  | developmentMode
  deriving DecidableEq, Repr

inductive AcceptOutcome
  | adopted (serial : ℕ) (previousSerial : Option ℕ)
  | unchanged (serial : ℕ)
  deriving DecidableEq, Repr

/-- A verified document on its way to the store. -/
structure Commit where
  doc : DocType
  serial : ℕ
  serial_le : serial ≤ maxU64
  envelope : Bytes
  info : FetchMeta

def Commit.record (c : Commit) : StoredDocument where
  envelope := c.envelope
  serial := c.serial
  etag := c.info.etag
  source := c.info.source
  fetchedAtMs := c.info.fetchedAtMs

/-- The batch of a commit over what is under the current key: the copy it replaces
becomes the previous one, unless it has the same serial. -/
def Commit.ops (c : Commit) (keys : DocKeys) (current : Option Value) : List StoreOp :=
  let previous :=
    match keys.previous, current with
    | some key, some value =>
      if (value.asRecord.map (·.serial)) = some c.serial then [] else [.put key value]
    | _, _ => []
  previous ++ [.put keys.current (.record c.record), .put keys.serial (.text (toString c.serial))]

variable {keys : DocKeys}

section Batch

variable {c : Commit} {current : Option Value} {entries : Entries}

/-- A batch writes the keys of its document and no others. -/
theorem getElem?_applyOps_of_ne (hcurrent : keys.current ≠ key) (hserial : keys.serial ≠ key)
    (hprevious : keys.previous ≠ some key) : (applyOps entries (c.ops keys current))[key]? = entries[key]? := by
  have hput : ∀ (entries : Entries) (other : String) (value : Value), other ≠ key →
      (entries.insert other value)[key]? = entries[key]? := fun entries other value hne => by
    rw [Std.ExtTreeMap.getElem?_insert, if_neg (by simpa using hne)]
  simp only [applyOps, Commit.ops, foldl_append, foldl_cons, foldl_nil, StoreOp.run, hput _ _ _ hserial,
    hput _ _ _ hcurrent]
  cases hk : keys.previous with
  | none => rfl
  | some other =>
    cases current with
    | none => rfl
    | some value =>
      dsimp only
      split_ifs
      · rfl
      · exact hput _ _ _ fun heq => hprevious (hk.trans (congrArg some heq))

theorem serialIn_applyOps : keys.serialIn (applyOps entries (c.ops keys current)) = some c.serial := by
  simp only [serialIn, applyOps, Commit.ops, foldl_append, foldl_cons, foldl_nil, StoreOp.run,
    Std.ExtTreeMap.getElem?_insert_self, bind_some, Value.asSerial]
  rw [trim_toString, parseU64_toString c.serial_le]

theorem maxIn_applyOps : keys.maxIn (applyOps entries (c.ops keys current)) = some c.serial := by
  rw [maxIn, serialIn_applyOps]
  rfl

theorem currentIn_applyOps :
    (doc.keys place).currentIn (applyOps entries (c.ops (doc.keys place) current)) = some c.record := by
  simp only [currentIn, applyOps, Commit.ops, foldl_append, foldl_cons, foldl_nil, StoreOp.run]
  rw [Std.ExtTreeMap.getElem?_insert, if_neg (by simpa using current_ne_serial.symm),
    Std.ExtTreeMap.getElem?_insert_self]
  rfl

variable (doc place c current entries) in
/-- The previous copy stays, or is the one that was current with another serial. -/
theorem previousIn_applyOps : (doc.keys place).previousIn (applyOps entries (c.ops (doc.keys place) current)) =
        (doc.keys place).previousIn entries ∨
      ∃ value, current = some value ∧ value.asRecord.map (·.serial) ≠ some c.serial ∧
        (doc.keys place).previousIn (applyOps entries (c.ops (doc.keys place) current)) = value.asRecord := by
  rw [previousIn, previousIn]
  cases hprevious : (doc.keys place).previous with
  | none => exact .inl rfl
  | some key =>
    simp only [applyOps, Commit.ops, hprevious, foldl_append, foldl_cons, foldl_nil, StoreOp.run,
      bind_some]
    rw [Std.ExtTreeMap.getElem?_insert, if_neg (by simpa using (previous_ne_serial hprevious).symm),
      Std.ExtTreeMap.getElem?_insert, if_neg (by simpa using (previous_ne_current hprevious).symm)]
    cases current with
    | none => exact .inl rfl
    | some value =>
      dsimp only
      split_ifs with hserial
      · exact .inl rfl
      · refine .inr ⟨value, rfl, hserial, ?_⟩
        rw [foldl_cons, foldl_nil, StoreOp.run, Std.ExtTreeMap.getElem?_insert_self]
        rfl

variable (c current entries) in
theorem keys_applyOps_of_ne (hne : ¬ (doc = doc' ∧ place = place')) :
    (doc.keys place).serialIn (applyOps entries (c.ops (doc'.keys place') current)) =
        (doc.keys place).serialIn entries ∧
      (doc.keys place).currentIn (applyOps entries (c.ops (doc'.keys place') current)) =
        (doc.keys place).currentIn entries ∧
      (doc.keys place).previousIn (applyOps entries (c.ops (doc'.keys place') current)) =
        (doc.keys place).previousIn entries := by
  refine ⟨?_, ?_, ?_⟩
  · rw [serialIn, getElem?_applyOps_of_ne current_ne_serial (fun h => hne (serial_inj h.symm))
      (fun h => previous_ne_serial h rfl)]
    rfl
  · rw [currentIn, getElem?_applyOps_of_ne (fun h => hne (current_inj h.symm)) current_ne_serial.symm
      (fun h => previous_ne_current h rfl)]
    rfl
  · rw [previousIn, previousIn]
    cases hprevious : (doc.keys place).previous with
    | none => rfl
    | some key =>
      rw [bind_some, bind_some, getElem?_applyOps_of_ne (previous_ne_current hprevious).symm
        (previous_ne_serial hprevious).symm (fun h => hne (previous_inj hprevious h))]

theorem maxIn_applyOps_of_ne (hne : ¬ (doc = doc' ∧ place = place')) :
    (doc.keys place).maxIn (applyOps entries (c.ops (doc'.keys place') current)) =
      (doc.keys place).maxIn entries := by
  obtain ⟨hserial, hcurrent, -⟩ := keys_applyOps_of_ne c current entries hne
  rw [maxIn, hserial, hcurrent, maxIn]

end Batch

/-- What a commit does next. -/
inductive Phase
  /-- Waiting for the gate. -/
  | waiting
  /-- `max_serial` reads the serial key. -/
  | readSerial
  /-- `max_serial` reads the record, as the serial key has no number. -/
  | readRecord
  | readCurrent (max : Option ℕ) (check : SerialCheck)
  | write (max : Option ℕ) (check : SerialCheck) (current : Option Value)
  | done (result : Except AcceptError AcceptOutcome)

/-- The operations of a commit that the store refuses. -/
structure Faults where
  readSerial : Bool := false
  readRecord : Bool := false
  readCurrent : Bool := false
  write : Bool := false

def Faults.refuses (faults : Faults) : Phase → Bool
  | .readSerial => faults.readSerial
  | .readRecord => faults.readRecord
  | .readCurrent .. => faults.readCurrent
  | .write .. => faults.write
  | _ => false

abbrev MaxCache := DocType → Option (Option ℕ)

def Commit.checked (c : Commit) (max : Option ℕ) : Phase :=
  match checkSerial c.serial max with
  | .ok check => .readCurrent max check
  | .error error => .done (.error (.trust error))

/-- The serial is known and the record with it is in place. -/
def Commit.IsStored (c : Commit) (check : SerialCheck) (current : Option Value) : Prop :=
  check = .same ∧ (current.bind Value.asRecord).map (·.serial) = some c.serial
  deriving Decidable

def Commit.outcome (c : Commit) (max : Option ℕ) : SerialCheck → AcceptOutcome
  | .same => .unchanged c.serial
  | .newer => .adopted c.serial max

/-- The store, the cache of the manifest store that commits, and how far it is. -/
structure CommitState where
  entries : Entries
  cache : MaxCache
  phase : Phase

namespace CommitState

variable (m : ManifestStore) (c : Commit)

/-- The next operation of a commit; `fails` says that the store refuses it. -/
def step (s : CommitState) (fails : Bool) : CommitState :=
  let keys := m.keysFor c.doc
  match s.phase with
  | .waiting =>
    match s.cache c.doc with
    | some max => { s with phase := c.checked max }
    | none => { s with phase := .readSerial }
  | .readSerial =>
    if fails then { s with phase := .done (.error (.store .backend)) }
    else
      match keys.serialIn s.entries with
      | some serial =>
        { s with cache := Function.update s.cache c.doc (some (some serial)), phase := c.checked (some serial) }
      | none => { s with phase := .readRecord }
  | .readRecord =>
    if fails then { s with phase := .done (.error (.store .backend)) }
    else
      let max := (keys.currentIn s.entries).map (·.serial)
      { s with cache := Function.update s.cache c.doc (some max), phase := c.checked max }
  | .readCurrent max check =>
    if fails then { s with phase := .done (.error (.store .backend)) }
    else
      let current := s.entries[keys.current]?
      if c.IsStored check current then { s with phase := .done (.ok (.unchanged c.serial)) }
      else { s with phase := .write max check current }
  | .write max check current =>
    if fails then { s with phase := .done (.error (.store .backend)) }
    else
      { entries := applyOps s.entries (c.ops keys current)
        cache := Function.update s.cache c.doc (some (some (max.elim c.serial (Nat.max · c.serial))))
        phase := .done (.ok (c.outcome max check)) }
  | .done _ => s

/-- The moves of a commit, one for each way a step can go. -/
inductive Moves (s : CommitState) : Bool → CommitState → Prop
  | cached {fails max} (hphase : s.phase = .waiting) (hcache : s.cache c.doc = some max) :
    Moves s fails { s with phase := c.checked max }
  | uncached {fails} (hphase : s.phase = .waiting) (hcache : s.cache c.doc = none) :
    Moves s fails { s with phase := .readSerial }
  | serial {serial} (hphase : s.phase = .readSerial)
      (hserial : (m.keysFor c.doc).serialIn s.entries = some serial) :
    Moves s false
      { s with cache := Function.update s.cache c.doc (some (some serial)), phase := c.checked (some serial) }
  | noSerial (hphase : s.phase = .readSerial) (hserial : (m.keysFor c.doc).serialIn s.entries = none) :
    Moves s false { s with phase := .readRecord }
  | record (hphase : s.phase = .readRecord) :
    Moves s false
      { s with
        cache := Function.update s.cache c.doc (some (((m.keysFor c.doc).currentIn s.entries).map (·.serial)))
        phase := c.checked (((m.keysFor c.doc).currentIn s.entries).map (·.serial)) }
  | stored {max check} (hphase : s.phase = .readCurrent max check)
      (hstored : c.IsStored check s.entries[(m.keysFor c.doc).current]?) :
    Moves s false { s with phase := .done (.ok (.unchanged c.serial)) }
  | plan {max check} (hphase : s.phase = .readCurrent max check)
      (hstored : ¬ c.IsStored check s.entries[(m.keysFor c.doc).current]?) :
    Moves s false { s with phase := .write max check s.entries[(m.keysFor c.doc).current]? }
  | write {max check current} (hphase : s.phase = .write max check current) :
    Moves s false
      { entries := applyOps s.entries (c.ops (m.keysFor c.doc) current)
        cache := Function.update s.cache c.doc (some (some (max.elim c.serial (Nat.max · c.serial))))
        phase := .done (.ok (c.outcome max check)) }
  | fail (hphase : s.phase ≠ .waiting) (hbusy : ∀ result, s.phase ≠ .done result) :
    Moves s true { s with phase := .done (.error (.store .backend)) }
  | rest {fails result} (hphase : s.phase = .done result) : Moves s fails s

variable {m c}

theorem moves_step (s : CommitState) (fails : Bool) : Moves m c s fails (s.step m c fails) := by
  rw [step]
  cases hphase : s.phase with
  | waiting =>
    cases hcache : s.cache c.doc with
    | some max => exact .cached hphase hcache
    | none => exact .uncached hphase hcache
  | readSerial =>
    cases fails with
    | true => exact .fail (by simp [hphase]) (by simp [hphase])
    | false =>
      cases hserial : (m.keysFor c.doc).serialIn s.entries with
      | some serial => exact .serial hphase hserial
      | none => exact .noSerial hphase hserial
  | readRecord =>
    cases fails with
    | true => exact .fail (by simp [hphase]) (by simp [hphase])
    | false => exact .record hphase
  | readCurrent max check =>
    cases fails with
    | true => exact .fail (by simp [hphase]) (by simp [hphase])
    | false =>
      simp only [Bool.false_eq_true, if_false]
      split_ifs with hstored
      · exact .stored hphase hstored
      · exact .plan hphase hstored
  | write max check current =>
    cases fails with
    | true => exact .fail (by simp [hphase]) (by simp [hphase])
    | false => exact .write hphase
  | done result => exact .rest hphase

variable {s t : CommitState} {fails : Bool}

theorem Moves.eq_of_done {result : Except AcceptError AcceptOutcome} (h : Moves m c s fails t)
    (hdone : s.phase = .done result) : t = s := by
  cases h with
  | rest => rfl
  | fail _ hbusy => exact absurd hdone (hbusy result)
  | cached hphase | uncached hphase | serial hphase | noSerial hphase | record hphase | stored hphase | plan hphase
  | write hphase =>
    rw [hdone] at hphase
    cases hphase

/-- Only the write changes what is stored. -/
theorem Moves.entries (h : Moves m c s fails t) :
    t.entries = s.entries ∨ fails = false ∧ ∃ max check current, s.phase = .write max check current ∧
      t.entries = applyOps s.entries (c.ops (m.keysFor c.doc) current) := by
  cases h with
  | write hphase => exact .inr ⟨rfl, _, _, _, hphase, rfl⟩
  | _ => exact .inl rfl

/-- A commit past its serial check. -/
def Passed (c : Commit) : Phase → Prop
  | .readCurrent max check | .write max check _ => checkSerial c.serial max = .ok check
  | _ => True

theorem passed_checked (c : Commit) (max : Option ℕ) : Passed c (c.checked max) := by
  rw [Commit.checked]
  cases hcheck : checkSerial c.serial max with
  | ok check => exact hcheck
  | error e => exact trivial

theorem Moves.passed (h : Moves m c s fails t) (hs : Passed c s.phase) : Passed c t.phase := by
  cases h with
  | cached => exact passed_checked c _
  | serial => exact passed_checked c _
  | record => exact passed_checked c _
  | plan hphase =>
    rw [hphase] at hs
    exact hs
  | rest => exact hs
  | _ => exact trivial

/-! ### A commit that runs alone -/

/-- How many operations a commit still has before it at most. -/
def left : Phase → ℕ
  | .waiting => 5
  | .readSerial => 4
  | .readRecord => 3
  | .readCurrent .. => 2
  | .write .. => 1
  | .done _ => 0

theorem left_checked_le (c : Commit) (max : Option ℕ) : left (c.checked max) ≤ 2 := by
  rw [Commit.checked]
  split <;> simp [left]

theorem Moves.left (h : Moves m c s fails t) : left t.phase ≤ left s.phase - 1 := by
  cases h with
  | cached hphase _ | serial hphase _ | record hphase =>
    have hle := left_checked_le c
    simp only [hphase, left]
    exact (hle _).trans (by decide)
  | uncached hphase _ | noSerial hphase _ | stored hphase _ | plan hphase _ | write hphase | rest hphase =>
    simp [hphase, left]
  | fail => exact Nat.zero_le _

/-- One operation of a commit whose faults are known. -/
def stepWith (m : ManifestStore) (c : Commit) (faults : Faults) (s : CommitState) : CommitState :=
  s.step m c (faults.refuses s.phase)

def finish (m : ManifestStore) (c : Commit) (faults : Faults) (entries : Entries) (cache : MaxCache) :
    CommitState :=
  (stepWith m c faults)^[5] ⟨entries, cache, .waiting⟩

theorem left_iterate (faults : Faults) (n : ℕ) (s : CommitState) :
    left ((stepWith m c faults)^[n] s).phase ≤ left s.phase - n := by
  induction n generalizing s with
  | zero => simp
  | succ n ih =>
    have hstep : left (stepWith m c faults s).phase ≤ left s.phase - 1 := (moves_step s _).left
    have hrest := ih (stepWith m c faults s)
    rw [iterate_succ_apply]
    omega

theorem exists_finish_done (m : ManifestStore) (c : Commit) (faults : Faults) (entries : Entries)
    (cache : MaxCache) :
    ∃ result, (finish m c faults entries cache).phase = .done result := by
  have hzero : left (finish m c faults entries cache).phase = 0 :=
    Nat.le_zero.mp (left_iterate faults 5 ⟨entries, cache, .waiting⟩)
  cases hphase : (finish m c faults entries cache).phase with
  | done result => exact ⟨result, rfl⟩
  | _ => simp [hphase, left] at hzero

def result (s : CommitState) : Except AcceptError AcceptOutcome :=
  match s.phase with
  | .done result => result
  | _ => .error (.store .backend)

/-- The serial key names the record's serial, and the copy before it is older. -/
structure Consistent (keys : DocKeys) (entries : Entries) : Prop where
  serialIn_eq : keys.serialIn entries = (keys.currentIn entries).map (·.serial)
  previous_lt : ∀ previous ∈ keys.previousIn entries, ∃ current ∈ keys.currentIn entries,
    previous.serial < current.serial

variable {cache : MaxCache} {entries : Entries}

theorem Consistent.maxIn_eq (h : Consistent keys entries) :
    keys.maxIn entries = (keys.currentIn entries).map (·.serial) := by
  rw [maxIn, h.serialIn_eq, Option.or_self]

/-- What a commit has read is what is stored. -/
def Knows (m : ManifestStore) (c : Commit) (entries : Entries) : Phase → Prop
  | .readRecord => (m.keysFor c.doc).serialIn entries = none
  | .readCurrent max check => max = (m.keysFor c.doc).maxIn entries ∧ checkSerial c.serial max = .ok check
  | .write max check current => max = (m.keysFor c.doc).maxIn entries ∧ checkSerial c.serial max = .ok check ∧
      current = entries[(m.keysFor c.doc).current]?
  | _ => True

/-- What holds of a manifest store over documents that no other writes: its cache and
its commit know what is stored. -/
structure Aligned (m : ManifestStore) (c : Commit) (s : CommitState) : Prop where
  consistent : ∀ doc, Consistent (m.keysFor doc) s.entries
  cached : ∀ doc max, s.cache doc = some max → max = (m.keysFor doc).maxIn s.entries
  knows : Knows m c s.entries s.phase

theorem knows_checked {max : Option ℕ} (h : max = (m.keysFor c.doc).maxIn entries) :
    Knows m c entries (c.checked max) := by
  rw [Commit.checked]
  cases hcheck : checkSerial c.serial max with
  | ok check => exact ⟨h, hcheck⟩
  | error e => exact trivial

/-- The batch of a commit that knows what is stored. -/
theorem consistent_applyOps {check : SerialCheck} (h : ∀ doc, Consistent (m.keysFor doc) entries)
    (hcheck : checkSerial c.serial ((m.keysFor c.doc).maxIn entries) = .ok check) (doc : DocType) :
    Consistent (m.keysFor doc)
    (applyOps entries (c.ops (m.keysFor c.doc) entries[(m.keysFor c.doc).current]?)) := by
  by_cases hdoc : doc = c.doc
  · subst hdoc
    have hold := h c.doc
    -- Whatever was current is not newer than the document.
    have hle : ∀ current ∈ (m.keysFor c.doc).currentIn entries, current.serial ≤ c.serial := by
      intro current hcurrent
      have hmax := le_of_checkSerial hcheck
      rw [hold.maxIn_eq, hcurrent] at hmax
      exact some_le_some.mp hmax
    refine ⟨serialIn_applyOps.trans ?_, ?_⟩
    · rw [ManifestStore.keysFor, currentIn_applyOps]
      rfl
    · intro previous hprevious
      refine ⟨c.record, currentIn_applyOps, ?_⟩
      obtain hsame | ⟨value, hvalue, hserial, hnew⟩ :=
        previousIn_applyOps c.doc (m.place c.doc) c entries[(m.keysFor c.doc).current]? entries
      · obtain ⟨current, hcurrent, hlt⟩ := hold.previous_lt previous (hsame ▸ hprevious)
        exact hlt.trans_le (hle current hcurrent)
      · have hrecord : value.asRecord = some previous := hnew.symm.trans hprevious
        have hcurrent : (m.keysFor c.doc).currentIn entries = some previous := by
          rw [currentIn, hvalue]
          exact hrecord
        have hne : previous.serial ≠ c.serial := fun heq => hserial (by rw [hrecord, ← heq]; rfl)
        exact lt_of_le_of_ne (hle previous hcurrent) hne
  · have hne : ¬ (doc = c.doc ∧ m.place doc = m.place c.doc) := fun hsame => hdoc hsame.1
    obtain ⟨hserial, hcurrent, hprevious⟩ :=
      keys_applyOps_of_ne c entries[(m.keysFor c.doc).current]? entries hne
    refine ⟨?_, ?_⟩
    · exact hserial.trans ((h doc).serialIn_eq.trans (congrArg _ hcurrent.symm))
    · intro previous hmem
      obtain ⟨current, hcurrent', hlt⟩ := (h doc).previous_lt previous (hprevious ▸ hmem)
      exact ⟨current, hcurrent.trans hcurrent', hlt⟩

theorem Moves.aligned (h : Moves m c s fails t) (hs : Aligned m c s) : Aligned m c t := by
  obtain ⟨hconsistent, hcached, hknows⟩ := hs
  -- A read of the maximum goes to the cache as it is stored.
  have hread : ∀ max, max = (m.keysFor c.doc).maxIn s.entries → ∀ doc max',
      update s.cache c.doc (some max) doc = some max' → max' = (m.keysFor doc).maxIn s.entries := by
    intro max hmax doc max' hupdate
    by_cases hdoc : doc = c.doc
    · rw [hdoc, update_self] at hupdate
      rw [hdoc, ← hmax]
      exact (some.inj hupdate).symm
    · rw [update_of_ne hdoc] at hupdate
      exact hcached doc max' hupdate
  cases h with
  | cached hphase hcache => exact ⟨hconsistent, hcached, knows_checked (hcached _ _ hcache)⟩
  | uncached | stored | fail => exact ⟨hconsistent, hcached, trivial⟩
  | noSerial hphase hserial => exact ⟨hconsistent, hcached, hserial⟩
  | rest => exact ⟨hconsistent, hcached, hknows⟩
  | @serial serial hphase hserial =>
    have hmax : some serial = (m.keysFor c.doc).maxIn s.entries := by
      rw [maxIn, hserial]
      rfl
    exact ⟨hconsistent, hread _ hmax, knows_checked hmax⟩
  | record hphase =>
    have hmax := (hconsistent c.doc).maxIn_eq.symm
    exact ⟨hconsistent, hread _ hmax, knows_checked hmax⟩
  | plan hphase =>
    rw [hphase] at hknows
    exact ⟨hconsistent, hcached, hknows.1, hknows.2, rfl⟩
  | @write max check current hphase =>
    rw [hphase] at hknows
    obtain ⟨rfl, hcheck, rfl⟩ := hknows
    refine ⟨consistent_applyOps hconsistent hcheck, ?_, trivial⟩
    intro doc max' hupdate
    dsimp only at hupdate ⊢
    by_cases hdoc : doc = c.doc
    · subst hdoc
      rw [update_self] at hupdate
      rw [maxIn_applyOps, ← some.inj hupdate]
      have hle := le_of_checkSerial hcheck
      cases hmax : (m.keysFor c.doc).maxIn s.entries with
      | none => rfl
      | some max =>
        rw [hmax, some_le_some] at hle
        exact congrArg some (Nat.max_eq_right hle)
    · rw [update_of_ne hdoc] at hupdate
      rw [ManifestStore.keysFor, ManifestStore.keysFor, maxIn_applyOps_of_ne fun hsame => hdoc hsame.1]
      exact hcached doc max' hupdate

theorem aligned_finish (faults : Faults)
    (hconsistent : ∀ doc, Consistent (m.keysFor doc) entries)
    (hcached : ∀ doc max, cache doc = some max → max = (m.keysFor doc).maxIn entries) :
    Aligned m c (finish m c faults entries cache) := by
  have hstart : Aligned m c ⟨entries, cache, .waiting⟩ := ⟨hconsistent, hcached, trivial⟩
  exact Function.Iterate.rec (Aligned m c) hstart (fun s hs => (moves_step s _).aligned hs) 5

/-- The document is in use after this result: it is stored, or only the store failed. -/
def IsUsed : Except AcceptError AcceptOutcome → Prop
  | .ok _ | .error (.store _) => True
  | _ => False

/-- How a commit alone stands to what was stored before it: nothing is written and a
document in use has a serial that is not behind, or that document is written. -/
def Grown (m : ManifestStore) (c : Commit) (before : Entries) (s : CommitState) : Prop :=
  s.entries = before ∧
      (∀ result, s.phase = .done result → IsUsed result → (m.keysFor c.doc).maxIn before ≤ some c.serial) ∨
    (∃ result, s.phase = .done result) ∧ (m.keysFor c.doc).maxIn before ≤ some c.serial ∧
      (m.keysFor c.doc).maxIn s.entries = some c.serial ∧ (m.keysFor c.doc).currentIn s.entries = some c.record

/-- Only writes fail. -/
theorem Moves.grown {before : Entries} (h : Moves m c s fails t) (hs : Aligned m c s)
    (hwrite : fails = true → ∃ max check current, s.phase = .write max check current)
    (hgrown : Grown m c before s) :
    Grown m c before t := by
  obtain ⟨rfl, hused⟩ | hwritten := hgrown
  · have hknows := hs.knows
    cases h with
    | cached | serial | record =>
      refine .inl ⟨rfl, fun result hdone hresult => ?_⟩
      rw [Commit.checked] at hdone
      split at hdone <;> cases hdone
      exact hresult.elim
    | uncached | noSerial | plan => exact .inl ⟨rfl, fun result hdone => by cases hdone⟩
    | stored hphase =>
      rw [hphase] at hknows
      exact .inl ⟨rfl, fun _ _ _ => hknows.1 ▸ le_of_checkSerial hknows.2⟩
    | write hphase =>
      rw [hphase] at hknows
      exact .inr ⟨⟨_, rfl⟩, hknows.1 ▸ le_of_checkSerial hknows.2.1, maxIn_applyOps, currentIn_applyOps⟩
    | fail =>
      obtain ⟨max, check, current, hphase⟩ := hwrite rfl
      rw [hphase] at hknows
      exact .inl ⟨rfl, fun _ _ _ => hknows.1 ▸ le_of_checkSerial hknows.2.1⟩
    | rest => exact .inl ⟨rfl, hused⟩
  · obtain ⟨⟨result, hdone⟩, hrest⟩ := hwritten
    rw [h.eq_of_done hdone]
    exact .inr ⟨⟨result, hdone⟩, hrest⟩

theorem grown_finish (writeFails : Bool)
    (hconsistent : ∀ doc, Consistent (m.keysFor doc) entries)
    (hcached : ∀ doc max, cache doc = some max → max = (m.keysFor doc).maxIn entries) :
    Grown m c entries (finish m c { write := writeFails } entries cache) := by
  have hstart : Aligned m c ⟨entries, cache, .waiting⟩ ∧ Grown m c entries ⟨entries, cache, .waiting⟩ :=
    ⟨⟨hconsistent, hcached, trivial⟩, .inl ⟨rfl, fun _ hdone => by cases hdone⟩⟩
  refine (Function.Iterate.rec (fun s => Aligned m c s ∧ Grown m c entries s) hstart ?_ 5).2
  intro s hs
  have hmoves := moves_step (m := m) (c := c) s (Faults.refuses { write := writeFails } s.phase)
  refine ⟨hmoves.aligned hs.1, hmoves.grown hs.1 (fun hfails => ?_) hs.2⟩
  cases hphase : s.phase with
  | write max check current => exact ⟨max, check, current, rfl⟩
  | _ => simp [hphase, Faults.refuses] at hfails

end CommitState

end FlareIm.Access
