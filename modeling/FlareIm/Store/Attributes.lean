import Mathlib.Data.String.Basic
import FlareIm.Lib.Decimal
import FlareIm.Message.Model

/-! The attribute map of a message row. Operation events leave their marks here: what they
set, and under a key of their own the sequence number of the last one applied, as decimal
text. A row that is saved again replaces the stored one, and its attributes are merged with
the stored ones key by key; the rules differ from key to key. -/

namespace FlareIm.Store

open Lib Message List Std.ExtTreeMap

abbrev Attributes := Std.ExtTreeMap String String

def parseU64 (s : String) : Option ℕ := parseUnsigned maxU64 s

def parseI32 (s : String) : Option ℤ := parseSigned (2 ^ 31 - 1) s

theorem parseU64_toString {n : ℕ} (h : n ≤ maxU64) : parseU64 (toString n) = some n :=
  parseUnsigned_toString h

theorem isWhitespace_of_isDigit {c : Char} (h : c.isDigit = true) : isWhitespace c = false := by
  simp only [Char.isDigit, Bool.and_eq_true, decide_eq_true_eq] at h
  have hlow : 48 ≤ c.toNat := h.1
  have hhigh : c.toNat ≤ 57 := h.2
  simp only [isWhitespace, Bool.or_eq_false_iff, Bool.and_eq_false_iff, decide_eq_false_iff_not,
    beq_eq_false_iff_ne]
  omega

theorem trim_toString (n : ℕ) : trim (toString n) = toString n :=
  trim_of_forall fun _ hc => isWhitespace_of_isDigit (isDigit_of_mem_toString hc)

variable (attributes : Attributes)

def messageAttributeSeq (key : String) : ℕ :=
  (attributes[key]?.bind parseU64).getD 0

theorem messageAttributeSeq_le (key : String) :
    messageAttributeSeq attributes key ≤ maxU64 := by
  unfold messageAttributeSeq
  cases hparse : attributes[key]?.bind parseU64 with
  | none => exact Nat.zero_le _
  | some n =>
    obtain ⟨text, -, htext⟩ := Option.bind_eq_some_iff.mp hparse
    exact le_of_parseUnsigned htext

def startsWith (start key : String) : Bool := start.toList.isPrefixOf key.toList

theorem startsWith_append (start rest : String) : startsWith start (start ++ rest) = true := by
  rw [startsWith, String.toList_append, isPrefixOf_iff_prefix]
  exact prefix_append ..

/-- Two starts of one text start one another. -/
theorem startsWith_or_startsWith {a b key : String} (ha : startsWith a key = true) (hb : startsWith b key = true) :
    startsWith a b = true ∨ startsWith b a = true := by
  rw [startsWith, isPrefixOf_iff_prefix] at ha hb ⊢
  rw [startsWith, isPrefixOf_iff_prefix]
  exact prefix_or_prefix_of_prefix ha hb

/-- `incoming` takes the entry of `existing`, or loses its own when there is none. -/
def copyAttribute (incoming existing : Attributes) (key : String) : Attributes :=
  match existing[key]? with
  | some value => incoming.insert key value
  | none => incoming.erase key

def preserveAttributeIfMissing (incoming existing : Attributes) (key : String) : Attributes :=
  match incoming[key]?, existing[key]? with
  | none, some value => incoming.insert key value
  | _, _ => incoming

/-! ### Plugin state -/

def pluginStateJsonKey : String := "pluginStateJson"
def pluginStateVersionKey : String := "pluginStateVersion"
def pluginStateBasedOnKey : String := "pluginStateBasedOnVersion"
def pluginSharedStateJsonKey : String := "pluginSharedStateJson"
def pluginSharedStateVersionKey : String := "pluginSharedStateVersion"
def pluginSharedEntityKey : String := "pluginSharedEntity"

/-- The stored shared version; it counts only with a value and when it is positive. -/
def pluginSharedStateVersion : Option ℕ := do
  let _ ← attributes[pluginSharedStateJsonKey]?
  let text ← attributes[pluginSharedStateVersionKey]?
  let version ← parseU64 text
  if version > 0 then some version else none

section

variable (incoming existing : Attributes)

def carryPluginSharedState : Attributes :=
  let incoming := preserveAttributeIfMissing incoming existing pluginSharedEntityKey
  match pluginSharedStateVersion existing with
  | none => incoming
  | some existingVersion =>
    if (pluginSharedStateVersion incoming).any (existingVersion < ·) then incoming
    else [pluginSharedStateJsonKey, pluginSharedStateVersionKey].foldl (fun attributes key =>
      match existing[key]? with
      | some value => attributes.insert key value
      | none => attributes) incoming

def carryPluginMessageState : Attributes :=
  let incoming := carryPluginSharedState incoming existing
  match existing[pluginStateJsonKey]? with
  | none => incoming
  | some values =>
    let existingVersion := messageAttributeSeq existing pluginStateVersionKey
    if incoming.contains pluginStateJsonKey ∧
        messageAttributeSeq incoming pluginStateVersionKey > existingVersion then incoming
    else
      copyAttribute ((incoming.insert pluginStateJsonKey values).insert pluginStateVersionKey
        (toString existingVersion)) existing pluginStateBasedOnKey

/-! ### Saving a row over a stored one -/

/-- The pin of a row belongs to its pin event's number. -/
def mergePin : Attributes :=
  let existingPinSeq := messageAttributeSeq existing "lastPinEventSeq"
  if existingPinSeq > messageAttributeSeq incoming "lastPinEventSeq" then
    (copyAttribute incoming existing "pinned").insert "lastPinEventSeq" (toString existingPinSeq)
  else
    preserveAttributeIfMissing (preserveAttributeIfMissing incoming existing "pinned") existing "lastPinEventSeq"

end

def mergeMark (existing incoming : Attributes) (seqKey : String) : Attributes :=
  let existingSeq := messageAttributeSeq existing seqKey
  if existingSeq > messageAttributeSeq incoming seqKey then
    copyAttribute (copyAttribute (incoming.insert seqKey (toString existingSeq)) existing "markType")
      existing "markColor"
  else preserveAttributeIfMissing incoming existing seqKey

def mergeMessageEventAttributes (incoming existing : Attributes) : Attributes :=
  let incoming := mergePin incoming existing
  let markKeys := existing.keys.filter (startsWith "lastMarkEventSeq:")
  let incoming := markKeys.foldl (mergeMark existing) incoming
  let reactionKeys := existing.keys.filter (startsWith "lastReactionEventSeq:")
  let keys := ["markType", "markColor", "reactionsJson"] ++ reactionKeys ++
    ["lastRetentionScheduledEventSeq", "lastRetentionExpiredEventSeq", "lastRetentionPurgedEventSeq",
      "retention_event", "retention_expired_at", "retention_purged_at"]
  let incoming := keys.foldl (fun attributes key => preserveAttributeIfMissing attributes existing key) incoming
  carryPluginMessageState incoming existing

/-! ### Keys that a merge leaves alone -/

def isUnmerged (key : String) : Bool :=
  key ∉ ["pinned", "lastPinEventSeq", "markType", "markColor", "reactionsJson",
    "lastRetentionScheduledEventSeq", "lastRetentionExpiredEventSeq", "lastRetentionPurgedEventSeq",
    "retention_event", "retention_expired_at", "retention_purged_at", pluginStateJsonKey,
    pluginStateVersionKey, pluginStateBasedOnKey, pluginSharedStateJsonKey, pluginSharedStateVersionKey,
    pluginSharedEntityKey] &&
  !startsWith "lastMarkEventSeq:" key && !startsWith "lastReactionEventSeq:" key

section Merge

variable {incoming existing : Attributes} {key k : String}

theorem getElem?_insert_of_ne (h : key ≠ k) (value : String) : (incoming.insert key value)[k]? = incoming[k]? := by
  rw [Std.ExtTreeMap.getElem?_insert, if_neg]
  simpa using h

theorem getElem?_erase_of_ne (h : key ≠ k) : (incoming.erase key)[k]? = incoming[k]? := by
  rw [getElem?_erase, if_neg]
  simpa using h

theorem insert_eq_self_iff {attributes : Attributes} {key value : String} :
    attributes.insert key value = attributes ↔ attributes[key]? = some value := by
  refine ⟨fun h => ?_, fun h => ext_getElem? fun k => ?_⟩
  · rw [← h, getElem?_insert_self]
  · by_cases hk : key = k
    · rw [← hk, getElem?_insert_self, h]
    · exact getElem?_insert_of_ne hk value

theorem getElem?_copyAttribute_of_ne (h : key ≠ k) : (copyAttribute incoming existing key)[k]? = incoming[k]? := by
  unfold copyAttribute
  split
  · exact getElem?_insert_of_ne h _
  · rw [getElem?_erase, if_neg]
    simpa using h

theorem getElem?_preserve_of_ne (h : key ≠ k) :
    (preserveAttributeIfMissing incoming existing key)[k]? = incoming[k]? := by
  unfold preserveAttributeIfMissing
  split
  · exact getElem?_insert_of_ne h _
  · rfl

theorem getElem?_foldl_of_ne {f : Attributes → String → Attributes} (keys : List String)
    (hf : ∀ attributes, ∀ key ∈ keys, (f attributes key)[k]? = attributes[k]?) (incoming : Attributes) :
    (keys.foldl f incoming)[k]? = incoming[k]? := by
  induction keys generalizing incoming with
  | nil => rfl
  | cons key keys ih =>
    rw [foldl_cons, ih fun attributes other hother => hf attributes other (mem_cons_of_mem _ hother)]
    exact hf incoming key mem_cons_self

theorem getElem?_carryPluginSharedState (hjson : pluginSharedStateJsonKey ≠ k)
    (hversion : pluginSharedStateVersionKey ≠ k) (hentity : pluginSharedEntityKey ≠ k) :
    (carryPluginSharedState incoming existing)[k]? = incoming[k]? := by
  unfold carryPluginSharedState
  dsimp only
  split
  · exact getElem?_preserve_of_ne hentity
  · split
    · exact getElem?_preserve_of_ne hentity
    · rw [getElem?_foldl_of_ne, getElem?_preserve_of_ne hentity]
      intro attributes key hkey
      have hne : key ≠ k := by
        rcases mem_pair.mp hkey with rfl | rfl
        · exact hjson
        · exact hversion
      split
      · exact getElem?_insert_of_ne hne _
      · rfl

theorem getElem?_carryPluginMessageState (hstate : pluginStateJsonKey ≠ k)
    (hstateVersion : pluginStateVersionKey ≠ k) (hbased : pluginStateBasedOnKey ≠ k)
    (hjson : pluginSharedStateJsonKey ≠ k) (hversion : pluginSharedStateVersionKey ≠ k)
    (hentity : pluginSharedEntityKey ≠ k) :
    (carryPluginMessageState incoming existing)[k]? = incoming[k]? := by
  have hshared : (carryPluginSharedState incoming existing)[k]? = incoming[k]? :=
    getElem?_carryPluginSharedState hjson hversion hentity
  unfold carryPluginMessageState
  dsimp only
  split
  · exact hshared
  · split
    · exact hshared
    · rw [getElem?_copyAttribute_of_ne hbased, getElem?_insert_of_ne hstateVersion,
        getElem?_insert_of_ne hstate, hshared]

theorem getElem?_mergeMark_of_ne (hseq : key ≠ k) (htype : "markType" ≠ k) (hcolor : "markColor" ≠ k) :
    (mergeMark existing incoming key)[k]? = incoming[k]? := by
  unfold mergeMark
  dsimp only
  split
  · rw [getElem?_copyAttribute_of_ne hcolor, getElem?_copyAttribute_of_ne htype, getElem?_insert_of_ne hseq]
  · exact getElem?_preserve_of_ne hseq

theorem getElem?_mergePin_of_ne (hpin : "pinned" ≠ k) (hseq : "lastPinEventSeq" ≠ k) :
    (mergePin incoming existing)[k]? = incoming[k]? := by
  unfold mergePin
  dsimp only
  split
  · rw [getElem?_insert_of_ne hseq, getElem?_copyAttribute_of_ne hpin]
  · rw [getElem?_preserve_of_ne hseq, getElem?_preserve_of_ne hpin]

theorem getElem?_preserve_self :
    (preserveAttributeIfMissing incoming existing k)[k]? = incoming[k]?.or existing[k]? := by
  unfold preserveAttributeIfMissing
  cases hincoming : incoming[k]? with
  | some value => rw [hincoming]; rfl
  | none =>
    cases hexisting : existing[k]? with
    | none => rw [hincoming]; rfl
    | some value => exact getElem?_insert_self

theorem getElem?_foldl_preserve (keys : List String) (incoming : Attributes) :
    (keys.foldl (fun attributes key => preserveAttributeIfMissing attributes existing key) incoming)[k]? =
      if k ∈ keys then incoming[k]?.or existing[k]? else incoming[k]? := by
  induction keys generalizing incoming with
  | nil => rfl
  | cons key keys ih =>
    rw [foldl_cons, ih]
    by_cases hk : key = k
    · subst hk
      rw [getElem?_preserve_self, if_pos mem_cons_self, Option.or_assoc, Option.or_self, ite_self]
    · rw [getElem?_preserve_of_ne hk]
      refine if_congr ?_ rfl rfl
      rw [mem_cons, or_iff_right (Ne.symm hk)]

/-- The keys with a rule that does more than keep a missing entry. -/
def isVersioned (key : String) : Bool :=
  key ∈ ["pinned", "lastPinEventSeq", "markType", "markColor", pluginStateJsonKey, pluginStateVersionKey,
    pluginStateBasedOnKey, pluginSharedStateJsonKey, pluginSharedStateVersionKey, pluginSharedEntityKey] ||
  startsWith "lastMarkEventSeq:" key

def retentionKeys : List String :=
  ["lastRetentionScheduledEventSeq", "lastRetentionExpiredEventSeq", "lastRetentionPurgedEventSeq",
    "retention_event", "retention_expired_at", "retention_purged_at"]

/-- The keys whose stored entry is kept when the saved row has none. -/
def isPreserved (key : String) : Bool :=
  key = "reactionsJson" || startsWith "lastReactionEventSeq:" key || key ∈ retentionKeys

theorem not_mem_filter_of_startsWith {start : String} (h : startsWith start k = false) :
    k ∉ existing.keys.filter (startsWith start) := by
  rw [mem_filter, h]
  exact fun hmem => Bool.noConfusion hmem.2

theorem isVersioned_of_startsWith_reaction (h : startsWith "lastReactionEventSeq:" k = true) :
    isVersioned k = false := by
  rw [isVersioned, Bool.or_eq_false_iff, decide_eq_false_iff_not]
  constructor
  · intro hmem
    have hnone : ∀ key ∈ ["pinned", "lastPinEventSeq", "markType", "markColor", pluginStateJsonKey,
      pluginStateVersionKey,
        pluginStateBasedOnKey, pluginSharedStateJsonKey, pluginSharedStateVersionKey, pluginSharedEntityKey],
        startsWith "lastReactionEventSeq:" key = false := by decide
    rw [hnone k hmem] at h
    exact absurd h (by decide)
  · by_contra hmark
    have hboth := startsWith_or_startsWith h (by simpa using hmark)
    exact absurd hboth (by decide)

/-- A key that no version guards is that of the saved row, or else that of the stored one. -/
theorem getElem?_merge_of_not_versioned (h : isVersioned k = false) :
    (mergeMessageEventAttributes incoming existing)[k]? =
      if isPreserved k then incoming[k]?.or existing[k]? else incoming[k]? := by
  simp only [isVersioned, mem_cons, not_mem_nil, or_false, Bool.or_eq_false_iff, decide_eq_false_iff_not,
    not_or] at h
  obtain ⟨⟨hpin, hpinSeq, htype, hcolor, hjson, hversion, hbased, hsharedJson, hsharedVersion, hentity⟩, hmark⟩ := h
  have hmarks : ∀ key ∈ existing.keys.filter (startsWith "lastMarkEventSeq:"), key ≠ k :=
    fun key hkey heq => not_mem_filter_of_startsWith hmark (heq ▸ hkey)
  rw [mergeMessageEventAttributes, getElem?_carryPluginMessageState (Ne.symm hjson) (Ne.symm hversion)
    (Ne.symm hbased) (Ne.symm hsharedJson) (Ne.symm hsharedVersion) (Ne.symm hentity), getElem?_foldl_preserve,
    getElem?_foldl_of_ne _ fun _ key hkey => getElem?_mergeMark_of_ne (hmarks key hkey) (Ne.symm htype)
      (Ne.symm hcolor), getElem?_mergePin_of_ne (Ne.symm hpin) (Ne.symm hpinSeq)]
  by_cases hstored : existing[k]? = none
  · rw [hstored, Option.or_none, ite_self, ite_self]
  · have hkey : k ∈ existing.keys := by
      rw [Std.ExtTreeMap.mem_keys, mem_iff_isSome_getElem?]
      exact Option.isSome_iff_ne_none.mpr hstored
    refine if_congr ?_ rfl rfl
    show k ∈ ["markType", "markColor", "reactionsJson"] ++ _ ++ retentionKeys ↔ _
    rw [mem_append, mem_append, List.mem_filter, and_iff_right hkey, mem_cons, or_iff_right htype,
      mem_cons, or_iff_right hcolor, mem_singleton]
    simp only [isPreserved, Bool.or_eq_true, decide_eq_true_eq]

/-- A key without a rule of its own has the value of the row that is saved. -/
theorem getElem?_mergeMessageEventAttributes (h : isUnmerged k = true) :
    (mergeMessageEventAttributes incoming existing)[k]? = incoming[k]? := by
  simp only [isUnmerged, mem_cons, not_mem_nil, or_false, not_or, Bool.and_eq_true,
    decide_eq_true_eq, Bool.not_eq_true'] at h
  obtain ⟨⟨⟨hpin, hpinSeq, htype, hcolor, hreactions, hscheduled, hexpired, hpurged, hevent, hexpiredAt,
    hpurgedAt, hjson, hversion, hbased, hsharedJson, hsharedVersion, hentity⟩, hmark⟩, hreaction⟩ := h
  have hversioned : isVersioned k = false := by
    simp [isVersioned, hpin, hpinSeq, htype, hcolor, hjson, hversion, hbased, hsharedJson,
      hsharedVersion, hentity, hmark]
  have hpreserved : isPreserved k = false := by
    simp [isPreserved, retentionKeys, hreactions, hscheduled, hexpired, hpurged, hevent,
      hexpiredAt, hpurgedAt, hreaction]
  rw [getElem?_merge_of_not_versioned hversioned, hpreserved]
  rfl

end Merge

end FlareIm.Store
