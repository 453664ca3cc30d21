import FlareIm.Access.Trust
import Mathlib.Data.Fintype.Basic

/-! The URLs of the access layer, as the bytes of their text, and the recovery link, a URL whose query carries
the payload and the one signature of a recovery envelope. What is appended to a query is encoded as form data,
and reading the pairs of the query decodes it. IP literals, `trim` and the lossy reading of UTF-8 are the
standard library's; they are the fields of `Std`. -/

namespace FlareIm.Access

open Lib List

structure Std (Ip : Type) where
  trim : Bytes → Bytes
  fromUtf8Lossy : Bytes → String
  parseIpv6 : Bytes → Option Ip
  ipv6Text : Ip → Bytes
  parseIpv4 : Bytes → Option Ip

inductive UrlError
  | forbiddenCharacter
  | invalidScheme
  | unsupportedScheme
  | missingAuthority
  | userInfo
  | invalidHost
  | invalidPort
  | dotSegment

structure ParsedUrl (Ip : Type) where
  scheme : Bytes
  host : Bytes
  ip : Option Ip
  port : Option ℕ
  path : Bytes
  query : Option Bytes
  fragment : Option Bytes

open ParsedUrl

/-! ### Bytes -/

def byte (c : Char) : UInt8 := c.toUInt8

def between (low high : Char) (b : UInt8) : Bool := byte low ≤ b && b ≤ byte high

def isAsciiDigit : UInt8 → Bool := between '0' '9'

def isAsciiAlphabetic (b : UInt8) : Bool := between 'A' 'Z' b || between 'a' 'z' b

def isAsciiAlphanumeric (b : UInt8) : Bool := isAsciiAlphabetic b || isAsciiDigit b

def toAsciiLowercase (text : Bytes) : Bytes := text.map fun b => if between 'A' 'Z' b then b + 32 else b

def oneOf (chars : List Char) (b : UInt8) : Bool := chars.any (b = byte ·)

def splitOnce (separator : Char) (text : Bytes) : Option (Bytes × Bytes) :=
  match text.dropWhile (· ≠ byte separator) with
  | [] => none
  | _ :: rest => some (text.takeWhile (· ≠ byte separator), rest)

def split (separator : Char) (text : Bytes) : List Bytes := text.splitOnP (· = byte separator)

def stripSuffix (c : Char) (text : Bytes) : Bytes := if text.getLast? = some (byte c) then text.dropLast else text

def hexByte (n : UInt8) : UInt8 := if n < 10 then byte '0' + n else byte 'A' + (n - 10)

section

variable (b : UInt8)

def toDigit16 : Option UInt8 :=
  if isAsciiDigit b then some (b - byte '0')
  else if between 'a' 'f' b then some (b - byte 'a' + 10)
  else if between 'A' 'F' b then some (b - byte 'A' + 10)
  else none

def percentBytes : Bytes := [byte '%', hexByte (b >>> 4), hexByte (b &&& 15)]

def inFragmentSet : Bool := 128 ≤ b || oneOf ['"', '<', '>', '\x60'] b

def inPathSet : Bool := inFragmentSet b || oneOf ['#', '?', '\x7b', '\x7d'] b

def inQuerySet : Bool := 128 ≤ b || oneOf ['"', '#', '<', '>'] b

def inSpecialQuerySet : Bool := inQuerySet b || b = 39

end

def percentEncode (raw : Bytes) (encoded : UInt8 → Bool) : Bytes :=
  raw.flatMap fun b => if encoded b then percentBytes b else [b]

/-! ### Parsing -/

/-- What stands before the separator, and what stands behind it if there is one. -/
def splitTail (text : Bytes) (separator : Char) : Bytes × Option Bytes :=
  match splitOnce separator text with
  | some (head, tail) => (head, some tail)
  | none => (text, none)

def parseScheme (raw : Bytes) : Except UrlError Bytes := do
  require (raw.head?.any isAsciiAlphabetic && raw.all fun b => isAsciiAlphanumeric b || oneOf ['+', '-', '.'] b)
    .invalidScheme
  let scheme := toAsciiLowercase raw
  require (scheme ≠ utf8 "file" && scheme ≠ utf8 "ftp") .unsupportedScheme
  return scheme

def defaultPort (scheme : Bytes) : Option ℕ :=
  if scheme = utf8 "http" || scheme = utf8 "ws" then some 80
  else if scheme = utf8 "https" || scheme = utf8 "wss" then some 443
  else none

def parsePort (raw : Bytes) : Except UrlError ℕ := do
  require (!raw.isEmpty && raw.all isAsciiDigit) .invalidPort
  let port := raw.foldl (fun n b => n * 10 + (b - byte '0').toNat) 0
  require (port < 2 ^ 16) .invalidPort
  return port

/-- A label that makes the host a number: decimal, octal, or hexadecimal after `0x`. -/
def isIpv4Number (label : Bytes) : Bool :=
  match label with
  | 48 :: 120 :: digits => digits.all fun b => (toDigit16 b).isSome
  | _ => label.all isAsciiDigit

def isDotSegment (segment : Bytes) : Bool :=
  toAsciiLowercase segment ∈ [".", "..", "%2e", ".%2e", "%2e.", "%2e%2e"].map utf8

def parsePath (raw : Bytes) (special : Bool) : Except UrlError Bytes := do
  require (!(split '/' raw).any isDotSegment) .dotSegment
  return if special && raw.isEmpty then utf8 "/" else percentEncode raw inPathSet

variable {Ip : Type} (S : Std Ip)

def parseDomain (raw : Bytes) (special : Bool) : Except UrlError (Bytes × Option Ip) := do
  require (raw.all (fun b => isAsciiAlphanumeric b || oneOf ['.', '-', '_'] b) &&
    !(split '.' (stripSuffix '.' raw)).any List.isEmpty) .invalidHost
  if !special then return (raw, none)
  let host := toAsciiLowercase raw
  if (split '.' (stripSuffix '.' host)).getLast?.any isIpv4Number then
    let address ← okOr (S.parseIpv4 host) .invalidHost
    return (host, some address)
  return (host, none)

def parseAuthority (authority : Bytes) (special : Bool) : Except UrlError (Bytes × Option Ip × Option ℕ) := do
  require (!authority.contains (byte '@')) .userInfo
  match authority with
  | 91 :: rest =>
    let (literal, tail) ← okOr (splitOnce ']' rest) .invalidHost
    let address ← okOr (S.parseIpv6 literal) .invalidHost
    match tail with
    | [] => return (S.ipv6Text address, some address, none)
    | c :: port =>
      require (c = byte ':') .invalidHost
      return (S.ipv6Text address, some address, some (← parsePort port))
  | _ =>
    let (host, port) := splitTail authority ':'
    let (host, ip) ← parseDomain S host special
    match port with
    | none => return (host, ip, none)
    | some port => return (host, ip, some (← parsePort port))

namespace ParsedUrl

def parse (input : Bytes) : Except UrlError (ParsedUrl Ip) := do
  require (!input.any fun b => b ≤ 32 || b = 127 || b = byte '\\') .forbiddenCharacter
  let (scheme, rest) ← okOr (splitOnce ':' input) .invalidScheme
  let scheme ← parseScheme scheme
  let special := (defaultPort scheme).isSome
  require ((utf8 "//").isPrefixOf rest) .missingAuthority
  let (rest, fragment) := splitTail (rest.drop 2) '#'
  let (rest, query) := splitTail rest '?'
  let authority := rest.takeWhile (· ≠ byte '/')
  let (host, ip, port) ← parseAuthority S authority special
  let path ← parsePath (rest.dropWhile (· ≠ byte '/')) special
  return {
    scheme, host, ip, path
    port := port.filter (defaultPort scheme ≠ some ·)
    query := query.map (percentEncode · (if special then inSpecialQuerySet else inQuerySet))
    fragment := fragment.map (percentEncode · inFragmentSet) }

end ParsedUrl

/-! ### Queries -/

def formEncodeByte (b : UInt8) : Bytes :=
  if b = 32 then [byte '+']
  else if oneOf ['*', '-', '.', '_'] b || isAsciiAlphanumeric b then [b]
  else percentBytes b

def formEncode (raw : Bytes) : Bytes := raw.flatMap formEncodeByte

def formDecode : Bytes → Bytes
  | [] => []
  | 37 :: high :: low :: rest =>
    match toDigit16 high, toDigit16 low with
    | some h, some l => (h * 16 + l) :: formDecode rest
    | _, _ => 37 :: formDecode (high :: low :: rest)
  | b :: rest => (if b = byte '+' then 32 else b) :: formDecode rest

def encodePair (name value : String) : Bytes := formEncode (utf8 name) ++ byte '=' :: formEncode (utf8 value)

def decodePair (pair : Bytes) : String × String :=
  let (name, value) := (splitOnce '=' pair).getD (pair, [])
  (S.fromUtf8Lossy (formDecode name), S.fromUtf8Lossy (formDecode value))

namespace ParsedUrl

variable (url : ParsedUrl Ip)

def queryPairs : List (String × String) :=
  ((split '&' (url.query.getD [])).filter (!·.isEmpty)).map (decodePair S)

def appendQueryPair (name value : String) : ParsedUrl Ip :=
  let query := url.query.getD []
  { url with query := some ((if query.isEmpty then [] else query ++ [byte '&']) ++ encodePair name value) }

/-- The text that `Display` writes. -/
def text : Bytes :=
  url.scheme ++ utf8 "://" ++ url.host ++ (url.port.elim [] fun port => utf8 (":" ++ toString port)) ++ url.path ++
    (url.query.elim [] (byte '?' :: ·)) ++ url.fragment.elim [] (byte '#' :: ·)

end ParsedUrl

/-! ### Recovery links -/

def recoveryLinkScheme : String := "flare-recover"

def recoveryLinkPrefix : String := "flare-recover://v1"

namespace Envelope

def toRecoveryLink (envelope : Envelope) : Option Bytes :=
  match envelope.signatures with
  | [signature] =>
    match ParsedUrl.parse S (utf8 recoveryLinkPrefix) with
    | .error _ => none
    | .ok link =>
      some (((link.appendQueryPair "p" envelope.payload).appendQueryPair "k" signature.keyid).appendQueryPair
        "s" signature.sig).text
  | _ => none

def fromRecoveryLink (text : Bytes) : Except TrustError Envelope := do
  let text := S.trim text
  require (text.length ≤ maxRecoveryLinkBytes) (.tooLarge text.length maxRecoveryLinkBytes)
  let link ← (ParsedUrl.parse S text).mapError fun _ => .malformedEnvelope "not a recovery link"
  require (link.scheme = utf8 recoveryLinkScheme && link.host = utf8 "v1")
    (.malformedEnvelope "not a recovery link")
  let field (name : String) : Except TrustError String :=
    okOr ((((link.queryPairs S).find? (·.1 = name)).map Prod.snd).filter (· ≠ ""))
      (.malformedEnvelope "recovery link is incomplete")
  let payload ← field "p"
  let keyid ← field "k"
  let sig ← field "s"
  return ⟨recoveryPayloadType, payload, [⟨keyid, sig⟩], []⟩

end Envelope

/-! ### Reading back -/

section Forms

theorem forall_byte {p : UInt8 → Prop} (h : ∀ n : Fin 256, p (.ofFin n)) (b : UInt8) : p b := h b.toFin

def isFormByte (b : UInt8) : Bool := isAsciiAlphanumeric b || oneOf ['*', '-', '.', '_', '+', '%'] b

theorem isFormByte_of_mem_formEncode {raw : Bytes} {b : UInt8} (h : b ∈ formEncode raw) : isFormByte b = true := by
  have hbyte : ∀ a, (formEncodeByte a).all isFormByte = true := forall_byte (by decide +kernel)
  obtain ⟨a, -, hb⟩ := mem_flatMap.mp h
  exact all_eq_true.mp (hbyte a) b hb

theorem formDecode_cons {b : UInt8} (h : b ≠ 37) (rest : Bytes) :
    formDecode (b :: rest) = (if b = byte '+' then 32 else b) :: formDecode rest := by
  rw [formDecode]
  rintro _ _ _ rfl
  exact absurd rfl h

theorem formDecode_formEncodeByte (b : UInt8) (rest : Bytes) :
    formDecode (formEncodeByte b ++ rest) = b :: formDecode rest := by
  have hplain : ∀ b, oneOf ['*', '-', '.', '_'] b || isAsciiAlphanumeric b → b ≠ 37 ∧ b ≠ byte '+' :=
    forall_byte (by decide +kernel)
  have hdigits : ∀ b : UInt8, toDigit16 (hexByte (b >>> 4)) = some (b >>> 4) ∧
    toDigit16 (hexByte (b &&& 15)) = some (b &&& 15) ∧
      (b >>> 4) * 16 + (b &&& 15) = b := forall_byte (by decide +kernel)
  unfold formEncodeByte
  split_ifs with hspace hsame
  · rw [singleton_append, formDecode_cons (by decide), if_pos rfl, hspace]
  · rw [singleton_append, formDecode_cons (hplain b hsame).1, if_neg (hplain b hsame).2]
  · obtain ⟨hhigh, hlow, hvalue⟩ := hdigits b
    show formDecode (37 :: hexByte (b >>> 4) :: hexByte (b &&& 15) :: rest) = _
    simp only [formDecode, hhigh, hlow, hvalue]

theorem formDecode_formEncode (raw : Bytes) : formDecode (formEncode raw) = raw := by
  induction raw with
  | nil => rfl
  | cons b raw ih => rw [formEncode, flatMap_cons, formDecode_formEncodeByte, ← formEncode, ih]

end Forms

theorem splitOnce_append {separator : Char} {left : Bytes} (h : byte separator ∉ left) (right : Bytes) :
    splitOnce separator (left ++ byte separator :: right) = some (left, right) := by
  have hkeep : ∀ b ∈ left, decide (b ≠ byte separator) = true := fun b hb => decide_eq_true fun heq => h (heq ▸ hb)
  rw [splitOnce, dropWhile_append_of_pos hkeep, takeWhile_append_of_pos hkeep]
  simp

/-- The bytes of a query made of appended pairs. -/
def isQueryByte (b : UInt8) : Bool := isFormByte b || oneOf ['&', '='] b

theorem not_mem_formEncode {c : Char} (h : isFormByte (byte c) = false) (raw : Bytes) : byte c ∉ formEncode raw :=
  fun hmem => Bool.false_ne_true (h.symm.trans (isFormByte_of_mem_formEncode hmem))

theorem not_mem_encodePair (name value : String) : byte '&' ∉ encodePair name value := by
  have hraw := not_mem_formEncode (c := '&') (by decide)
  simp [encodePair, hraw, show byte '&' ≠ byte '=' by decide]

theorem isQueryByte_of_mem_encodePair {name value : String} {b : UInt8} (h : b ∈ encodePair name value) :
    isQueryByte b = true := by
  rcases mem_append.mp h with h | h
  · rw [isQueryByte, isFormByte_of_mem_formEncode h, Bool.true_or]
  · rcases mem_cons.mp h with rfl | h
    · decide
    · rw [isQueryByte, isFormByte_of_mem_formEncode h, Bool.true_or]

section Pairs

variable (hlossy : ∀ s, S.fromUtf8Lossy (utf8 s) = s)

include hlossy

/-- A pair that is appended is read back, behind those that were there. -/
theorem queryPairs_appendQueryPair (url : ParsedUrl Ip) (name value : String) :
    (url.appendQueryPair name value).queryPairs S = url.queryPairs S ++ [(name, value)] := by
  have hone : split '&' (encodePair name value) = [encodePair name value] :=
    splitOnP_eq_singleton fun b hb => decide_eq_false fun heq => not_mem_encodePair name value (heq ▸ hb)
  have hpair : ([encodePair name value].filter (!·.isEmpty)).map (decodePair S) = [(name, value)] := by
    rw [filter_cons_of_pos (by simp [encodePair]), filter_nil, map_singleton, decodePair, encodePair,
      splitOnce_append (not_mem_formEncode (by decide) _)]
    simp [formDecode_formEncode, hlossy]
  rw [queryPairs, queryPairs, appendQueryPair]
  generalize url.query.getD [] = query
  dsimp only [Option.getD_some]
  split_ifs with hempty
  · rw [isEmpty_iff.mp hempty, nil_append, hone, hpair]
    rfl
  · rw [append_assoc, singleton_append, split, splitOnP_append_cons _ _ (by simp), ← split, ← split, hone,
      filter_append, map_append, hpair]

end Pairs

theorem parse_recoveryLink {query : Bytes} (hquery : ∀ b ∈ query, isQueryByte b = true) :
    parse S (utf8 recoveryLinkPrefix ++ byte '?' :: query) =
      .ok ⟨utf8 recoveryLinkScheme, utf8 "v1", none, none, [], some query, none⟩ := by
  have hbyte : ∀ b, isQueryByte b = true →
      (b ≤ 32 || b = 127 || b = byte '\\') = false ∧ inQuerySet b = false ∧
      b ≠ byte '#' := forall_byte (by decide +kernel)
  have htext : utf8 recoveryLinkPrefix ++ byte '?' :: query =
      utf8 recoveryLinkScheme ++ byte ':' :: (utf8 "//" ++ (utf8 "v1" ++ byte '?' :: query)) := rfl
  have hvisible : (utf8 recoveryLinkPrefix ++ byte '?' :: query).any
    (fun b => b ≤ 32 || b = 127 || b = byte '\\') = false := by
    have hrest : query.any (fun b => b ≤ 32 || b = 127 || b = byte '\\') = false :=
      any_eq_false.mpr fun b hb => by simp [(hbyte b (hquery b hb)).1]
    rw [any_append, any_cons, hrest]
    decide
  have hplain : percentEncode query inQuerySet = query := by
    rw [percentEncode, flatMap_congr fun b hb => if_neg (by simp [(hbyte b (hquery b hb)).2.1])]
    simp
  have hfragment : byte '#' ∉ utf8 "v1" ++ byte '?' :: query := by
    have hfront : byte '#' ∉ utf8 "v1" ++ [byte '?'] := by decide
    rw [append_cons, mem_append, not_or]
    exact ⟨hfront, fun hmem => (hbyte _ (hquery _ hmem)).2.2 rfl⟩
  have hhost : parseAuthority S (utf8 "v1") false = .ok (utf8 "v1", none, none) := rfl
  have hscheme : parseScheme (utf8 recoveryLinkScheme) = .ok (utf8 recoveryLinkScheme) := rfl
  have hport : defaultPort (utf8 recoveryLinkScheme) = none := by decide
  have hauthority : splitTail (utf8 "v1" ++ byte '?' :: query) '?' = (utf8 "v1", some query) := by
    rw [splitTail, splitOnce_append (by decide)]
  have hsplit : splitOnce ':'
    (utf8 recoveryLinkScheme ++ byte ':' :: (utf8 "//" ++ (utf8 "v1" ++ byte '?' :: query))) =
      some (utf8 recoveryLinkScheme,
        utf8 "//" ++ (utf8 "v1" ++ byte '?' :: query)) := splitOnce_append (by decide) _
  rw [parse, hvisible, htext]
  refine bind_eq_ok_iff.mpr ⟨(), rfl, bind_eq_ok_iff.mpr ⟨_, okOr_eq_ok_iff.mpr hsplit, ?_⟩⟩
  refine bind_eq_ok_iff.mpr ⟨_, hscheme, bind_eq_ok_iff.mpr ⟨(), rfl, ?_⟩⟩
  have hdrop : (utf8 "v1" ++ byte '?' :: query).dropWhile (· ≠ byte '#') = [] :=
    dropWhile_eq_nil_iff.mpr fun b hb => decide_eq_true fun heq => hfragment (heq ▸ hb)
  rw [show (utf8 "//" ++ (utf8 "v1" ++ byte '?' :: query)).drop 2 = utf8 "v1" ++
    byte '?' :: query from rfl, splitTail,
    splitOnce, hdrop]
  dsimp only
  rw [hauthority, hport]
  refine bind_eq_ok_iff.mpr ⟨_, hhost, bind_eq_ok_iff.mpr ⟨[], rfl, ?_⟩⟩
  exact congrArg (fun q => Except.ok (mk _ _ _ _ _ (some q) _)) hplain

theorem isQueryByte_appendQueryPair {url : ParsedUrl Ip} (h : ∀ b ∈ url.query.getD [], isQueryByte b = true)
    (name value : String) : ∀ b ∈ (url.appendQueryPair name value).query.getD [], isQueryByte b = true := by
  intro b hb
  rcases mem_append.mp hb with hb | hb
  · split_ifs at hb
    · cases hb
    · rcases mem_append.mp hb with hb | hb
      · exact h b hb
      · rw [mem_singleton.mp hb]
        decide
  · exact isQueryByte_of_mem_encodePair hb

/-- What a field takes in a link: letters, digits, `*-._` and blanks one byte, the rest three. -/
def formSize (field : String) : ℕ :=
  ((utf8 field).map fun b => if b = 32 || oneOf ['*', '-', '.', '_'] b || isAsciiAlphanumeric b then 1 else 3).sum

theorem length_encodePair (name value : String) :
    (encodePair name value).length = formSize name + 1 + formSize value := by
  have hlength (field : String) : (formEncode (utf8 field)).length = formSize field := by
    rw [formEncode, length_flatMap, formSize]
    refine congrArg sum (map_congr_left fun b _ => ?_)
    unfold formEncodeByte
    split_ifs <;> simp_all [percentBytes]
  rw [encodePair, length_append, length_cons, hlength, hlength]
  omega

/-- A recovery envelope with one signature, no certificates and fields that fit into a link has a link, and
it is read
as the envelope. The link holds `flare-recover://v1?p=`, `&k=` and `&s=` besides the fields. -/
theorem fromRecoveryLink_toRecoveryLink (htrim : ∀ text, (∀ b ∈ text, 32 < b ∧ b < 127) → S.trim text = text)
    (hlossy : ∀ s, S.fromUtf8Lossy (utf8 s) = s) (payload keyid sig : String) (hpayload : payload ≠ "")
    (hkeyid : keyid ≠ "") (hsig : sig ≠ "")
    (hfits : 27 + formSize payload + formSize keyid + formSize sig ≤ maxRecoveryLinkBytes) :
    ∃ link, Envelope.toRecoveryLink S ⟨recoveryPayloadType, payload, [⟨keyid, sig⟩], []⟩ = some link ∧
      Envelope.fromRecoveryLink S link = .ok ⟨recoveryPayloadType, payload, [⟨keyid, sig⟩], []⟩ := by
  let base : ParsedUrl Ip := ⟨utf8 recoveryLinkScheme, utf8 "v1", none, none, [], none, none⟩
  have hbase : ParsedUrl.parse S (utf8 recoveryLinkPrefix) = .ok base := rfl
  let link := ((base.appendQueryPair "p" payload).appendQueryPair "k" keyid).appendQueryPair "s" sig
  have hpairs : link.queryPairs S = [("p", payload), ("k", keyid), ("s", sig)] := by
    simp only [link, queryPairs_appendQueryPair S hlossy]
    rfl
  obtain ⟨query, hlink, hquery⟩ : ∃ query, link = { base with query := some query } ∧
      ∀ b ∈ query, isQueryByte b = true :=
    ⟨_, rfl, isQueryByte_appendQueryPair (isQueryByte_appendQueryPair (isQueryByte_appendQueryPair
      (fun _ hb => by cases hb) "p" payload) "k" keyid) "s" sig⟩
  have htext : link.text = utf8 recoveryLinkPrefix ++ byte '?' :: query := by
    rw [hlink, text]
    exact append_nil _
  have hvisible : ∀ b ∈ link.text, 32 < b ∧ b < 127 := by
    have hfront : ∀ b ∈ utf8 recoveryLinkPrefix ++ [byte '?'], 32 < b ∧ b < 127 := by decide +kernel
    have hbyte : ∀ b, isQueryByte b = true → 32 < b ∧ b < 127 := forall_byte (by decide +kernel)
    rw [htext, append_cons]
    exact forall_mem_append.mpr ⟨hfront, fun b hb => hbyte b (hquery b hb)⟩
  have hlen : link.text.length = 27 + formSize payload + formSize keyid + formSize sig := by
    have hbytes : link.text = utf8 recoveryLinkPrefix ++ byte '?' :: (encodePair "p" payload ++ [byte '&'] ++
        encodePair "k" keyid ++ [byte '&'] ++ encodePair "s" sig) := by
      simp [link, base, text, appendQueryPair, encodePair]
      rfl
    have hnames : formSize "p" = 1 ∧ formSize "k" = 1 ∧ formSize "s" = 1 ∧
      (utf8 recoveryLinkPrefix).length = 18 := by
      decide +kernel
    simp only [hbytes, length_append, length_cons, length_nil, length_encodePair, hnames]
    omega
  refine ⟨link.text, ?_, ?_⟩
  · rw [Envelope.toRecoveryLink, hbase]
  · have hparse : ParsedUrl.parse S link.text = .ok link := by
      rw [htext, hlink, parse_recoveryLink S hquery]
    have hfield : ∀ {s : String}, s ≠ "" → (some s).filter (· ≠ "") = some s := fun h =>
      Option.filter_some_pos (decide_eq_true h)
    rw [Envelope.fromRecoveryLink, htrim _ hvisible]
    refine bind_eq_ok_iff.mpr ⟨(), require_eq_ok_iff.mpr (decide_eq_true (hlen.trans_le hfits)), ?_⟩
    refine bind_eq_ok_iff.mpr ⟨link, mapError_eq_ok_iff.mpr hparse, bind_eq_ok_iff.mpr ⟨(), rfl, ?_⟩⟩
    rw [hpairs]
    refine bind_eq_ok_iff.mpr ⟨payload, okOr_eq_ok_iff.mpr (hfield hpayload), ?_⟩
    refine bind_eq_ok_iff.mpr ⟨keyid, okOr_eq_ok_iff.mpr (hfield hkeyid), ?_⟩
    exact bind_eq_ok_iff.mpr ⟨sig, okOr_eq_ok_iff.mpr (hfield hsig), rfl⟩

theorem fromRecoveryLink_toRecoveryLink_escaped :
    let S : Std Unit := ⟨id, Function.invFun utf8, fun _ => none, fun _ => [], fun _ => none⟩
    ∃ link, Envelope.toRecoveryLink S ⟨recoveryPayloadType, "a&b=é +", [⟨"%41", "#"⟩], []⟩ = some link ∧
      Envelope.fromRecoveryLink S link = .ok ⟨recoveryPayloadType, "a&b=é +", [⟨"%41", "#"⟩], []⟩ := by
  intro S
  exact fromRecoveryLink_toRecoveryLink S (fun _ _ => rfl)
    (Function.leftInverse_invFun utf8_injective) _ _ _ (by decide)
    (by decide) (by decide) (by decide +kernel)

end FlareIm.Access
