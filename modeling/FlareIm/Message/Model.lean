import Mathlib.Algebra.Order.Ring.Int
import Mathlib.Data.List.Basic
import Mathlib.Data.List.Infix
import Mathlib.Data.List.DropRight

/-! The message values that the outbox, the stores and the sync page application
exchange: `IMMessage` with its local state, the server's `SendAck`, the entry of the
pending store, and the errors of fallible calls. A message carries here the fields
that these components read or write; its content is only seen through the preview
text kept with the conversation. Numeric status and error codes come from the wire
schema, which is not part of this repository, so they are parameters with the order
and the distinctions that the code relies on. -/

namespace FlareIm.Message

open List

/-! ### Text -/

/-- The Unicode `White_Space` characters, which Rust's `str::trim` removes. -/
def isWhitespace (c : Char) : Bool :=
  let n := c.toNat
  (0x9 ≤ n && n ≤ 0xD) || n == 0x20 || n == 0x85 || n == 0xA0 || n == 0x1680 ||
    (0x2000 ≤ n && n ≤ 0x200A) || n == 0x2028 || n == 0x2029 || n == 0x202F || n == 0x205F ||
    n == 0x3000

def trim (s : String) : String :=
  String.ofList ((s.toList.dropWhile isWhitespace).reverse.dropWhile isWhitespace).reverse

/-- `s.trim().is_empty()`. -/
def isBlank (s : String) : Bool := s.toList.all isWhitespace

theorem isBlank_trim (s : String) : isBlank (trim s) = isBlank s := by
  have hdrop : ∀ l : List Char, (l.dropWhile isWhitespace).all isWhitespace = l.all isWhitespace := by
    intro l
    induction l with
    | nil => rfl
    | cons c l ih =>
      rw [dropWhile_cons]
      split
      · next hc => rw [ih, all_cons, hc, Bool.true_and]
      · rfl
  rw [isBlank, trim, String.toList_ofList, all_reverse, hdrop, all_reverse, hdrop, isBlank]

theorem trim_of_isBlank {s : String} (h : isBlank s = true) : trim s = "" := by
  have hnil : s.toList.dropWhile isWhitespace = [] := dropWhile_eq_nil_iff.mpr (all_eq_true.mp h)
  rw [trim, hnil]
  rfl

theorem trim_trim (s : String) : trim (trim s) = trim s := by
  have hstart := rdropWhile_prefix isWhitespace (s.toList.dropWhile isWhitespace)
  -- What is left starts with the first character that is not white space.
  have hhead : ((s.toList.dropWhile isWhitespace).rdropWhile isWhitespace).dropWhile isWhitespace =
      (s.toList.dropWhile isWhitespace).rdropWhile isWhitespace := by
    refine dropWhile_eq_self_iff.mpr fun hpos => ?_
    rw [hstart.getElem hpos]
    exact dropWhile_get_zero_not _ _ _
  have htrim : trim s = String.ofList ((s.toList.dropWhile isWhitespace).rdropWhile isWhitespace) := rfl
  nth_rewrite 1 [trim]
  rw [htrim, String.toList_ofList, hhead]
  exact congrArg String.ofList (rdropWhile_idempotent isWhitespace _)

theorem trim_of_forall {s : String} (h : ∀ c ∈ s.toList, isWhitespace c = false) : trim s = s := by
  have hdrop : ∀ l : List Char, (∀ c ∈ l, isWhitespace c = false) → l.dropWhile isWhitespace = l := by
    intro l hl
    cases l with
    | nil => rfl
    | cons c l => rw [dropWhile_cons, hl c mem_cons_self]; rfl
  rw [trim, hdrop _ h, hdrop _ fun c hc => h c (mem_reverse.mp hc), reverse_reverse, String.ofList_toList]

def containsText (s pattern : String) : Bool := decide (pattern.toList <:+: s.toList)

/-! ### Saturating machine arithmetic -/

def maxU32 : ℕ := 2 ^ 32 - 1

def maxU64 : ℕ := 2 ^ 64 - 1

theorem uint64_le_maxU64 (n : UInt64) : n.toNat ≤ maxU64 := Nat.le_pred_of_lt n.toNat_lt

theorem uint8_le_maxU64 (n : UInt8) : n.toNat ≤ maxU64 := (UInt8.toNat_lt n).le.trans (by decide)

def satAddU32 (a b : ℕ) : ℕ := min (a + b) maxU32

def satAddU64 (a b : ℕ) : ℕ := min (a + b) maxU64

/-! ### Codes of the wire schema -/

/-- The numeric codes of `MessageStatus` and of the retryable part of `ErrorCode`. -/
class ProtoCodes where
  statusCreated : ℤ
  statusSent : ℤ
  statusFailed : ℤ
  created_lt_sent : statusCreated < statusSent
  failed_ne_sent : statusFailed ≠ statusSent
  errorUnavailable : ℤ
  errorTimeout : ℤ
  errorRateLimited : ℤ
  errorSlowDown : ℤ
  errorNeedsRetry : ℤ

/-! ### Errors -/

/-- An error of a store call or of a send attempt; callers only log or return it. -/
structure FlareError where
  text : String
  deriving DecidableEq, Repr

/-! ### Messages -/

structure MessageLocalState where
  sending : Bool := false
  failed : Bool := false
  isLocal : Bool := false
  uploading : Bool := false
  uploadProgress : ℕ := 0
  sortTs : ℕ := 0
  deriving DecidableEq, Repr

structure IMMessage where
  serverId : String := ""
  clientMsgId : String
  conversationId : String
  senderId : String
  conversationSeq : ℕ := 0
  createdAt : ℕ := 0
  clientCreatedAt : ℕ := 0
  status : ℤ
  isRead : Bool := false
  updatedAt : ℕ := 0
  localState : MessageLocalState := {}
  /-- What `text_for_storage` renders of the content. -/
  textForStorage : Option String := none
  deriving DecidableEq, Repr

/-- The time a message is ordered by in the local list: the server's once it has a seq. -/
def IMMessage.timelineSortTs (m : IMMessage) : ℕ :=
  if m.conversationSeq > 0 then
    if m.createdAt > 0 then m.createdAt
    else if m.clientCreatedAt > 0 then m.clientCreatedAt
    else m.localState.sortTs
  else max (max m.localState.sortTs m.createdAt) m.clientCreatedAt

/-! ### Acknowledgements -/

inductive SendAckDurability
  | unspecified
  | transientAccepted
  | walAccepted
  | brokerAccepted
  | persisted
  deriving DecidableEq, Repr

structure SendAccepted where
  serverMsgId : String
  conversationSeq : ℕ
  serverTime : ℤ
  durability : SendAckDurability
  deriving DecidableEq, Repr

structure ErrorDetail where
  code : ℤ
  reason : String := ""
  message : String := ""
  deriving DecidableEq, Repr

inductive SendAckResult
  | accepted (accepted : SendAccepted)
  | error (error : ErrorDetail)
  deriving DecidableEq, Repr

structure SendAck where
  clientMsgId : String
  conversationId : String := ""
  result : Option SendAckResult
  deriving DecidableEq, Repr

/-! ### Pending entries -/

/-- One entry of the pending store; it is filed under the id of the message it holds. -/
structure PendingSendVo where
  clientMsgId : String
  conversationId : String
  message : IMMessage
  enqueuedAtMs : ℕ
  message_clientMsgId : message.clientMsgId = clientMsgId
  enqueuedAtMs_le : enqueuedAtMs ≤ maxU64
  deriving DecidableEq, Repr

end FlareIm.Message
