import FlareIm.Access.Trust
import FlareIm.Lib.Prog
import FlareIm.Lib.Run
import FlareIm.Lib.StreamHash

/-! A resumable download. What is received goes to a partial file beside the
destination and through a running hash; a stream that breaks off is taken up again where
the file ends, at the next address. A file left over from an earlier run is hashed
first, one that is too long is thrown away. The file that is complete is renamed only
when its hash is the one asked for. The transport and the disk are the environment: it
chooses where a stream starts, its pieces and its end, and which operation of the disk
fails. Progress notices have no part here. -/

namespace FlareIm.Access

open Lib Prog

structure DownloadSpec where
  urls : List String
  sha256 : String
  sizeBytes : ℕ
  signingCertSha256 : Option String
  build : ℕ
  fileName : String
  deriving DecidableEq, Repr

/-- A file that was downloaded and has the hash asked for. -/
structure VerifiedArtifact where
  path : String
  sha256 : String
  signingCertSha256 : Option String
  build : ℕ
  sizeBytes : ℕ
  deriving DecidableEq, Repr

def VerifiedArtifact.new (path : String) (spec : DownloadSpec) : VerifiedArtifact where
  path := path
  sha256 := spec.sha256
  signingCertSha256 := spec.signingCertSha256
  build := spec.build
  sizeBytes := spec.sizeBytes

inductive TransportError
  | unreachable
  | timeout
  | tls
  | http (status : ℕ)
  | interrupted
  deriving DecidableEq, Repr

inductive DownloadError
  | insufficientSpace (required available : ℕ)
  | failed (error : Option TransportError)
  | hashMismatch
  | io (text : String)
  deriving DecidableEq, Repr

/-- `SPACE_FACTOR`: the file once, and once more for the installer. -/
def spaceFactor : ℕ := 2

def hexDigit (n : ℕ) : Char := "0123456789abcdef".toList.getD n '0'

def hex (bytes : Bytes) : String :=
  String.ofList (bytes.flatMap fun b => [hexDigit (b.toNat / 16), hexDigit (b.toNat % 16)])

/-! ### The partial file -/

structure File where
  content : Bytes
  position : ℕ
  deriving DecidableEq, Repr

namespace File

def write (f : File) (chunk : Bytes) : File where
  content := f.content.take f.position ++ List.replicate (f.position - f.content.length) 0 ++ chunk ++
    f.content.drop (f.position + chunk.length)
  position := f.position + chunk.length

def setLen (f : File) (n : ℕ) : File :=
  { f with content := f.content.take n ++ List.replicate (n - f.content.length) 0 }

def seek (f : File) (n : ℕ) : File := { f with position := n }

end File

/-- What the platform gives: SHA-256, and the pieces in which it reads a file to its end. -/
structure Platform where
  hash : StreamHash UInt8 Bytes
  read : Bytes → List Bytes
  flatten_read : ∀ content, (read content).flatten = content

/-- The SHA-256 of a text, in hexadecimal digits. -/
def Platform.sha256 (os : Platform) (text : Bytes) : String := hex (os.hash.digest text)

/-- Which operations on the files fail, and with what text. A write that fails has
written some of its chunk. -/
structure DiskFaults where
  setLen : Option String := none
  seek : Option String := none
  write : Option (ℕ × String) := none
  flush : Option String := none
  sync : Option String := none
  rename : Option String := none
  remove : Option String := none

def failing {σ : Type} : Option String → Prog σ String Unit
  | none => pure ()
  | some text => fail text

/-- `Partial`: what is written is hashed at the same time. -/
structure PartialFile (os : Platform) where
  file : File
  hasher : os.hash.State
  received : ℕ

open PartialFile

variable {faults : DiskFaults} {os : Platform}

namespace PartialFile

variable (faults : DiskFaults)

def restart : Prog (PartialFile os) String Unit := do
  failing faults.setLen
  modify fun p => { p with file := p.file.setLen 0 }
  failing faults.seek
  modify fun p => { p with file := p.file.seek 0 }
  modify fun p => { p with hasher := os.hash.init, received := 0 }

def append (chunk : Bytes) : Prog (PartialFile os) String Unit :=
  match faults.write with
  | some (written, text) => do
    modify fun p => { p with file := p.file.write (chunk.take written) }
    fail text
  | none =>
    modify fun p =>
      { file := p.file.write chunk, hasher := os.hash.update p.hasher chunk, received := p.received + chunk.length }

def ofContent (content : Bytes) : PartialFile os := ⟨⟨content, 0⟩, os.hash.init, content.length⟩

/-- The loop of `open` that reads the file to its end. -/
def readToEnd : Prog (PartialFile os) String Unit :=
  modify fun p =>
    { p with
      file := p.file.seek p.file.content.length
      hasher := (os.read p.file.content).foldl os.hash.update p.hasher }

end PartialFile

def fileSha256 (os : Platform) (content : Bytes) : String :=
  hex (os.hash.finalize ((os.read content).foldl os.hash.update os.hash.init))

/-! ### The download -/

/-- What is at the destination and in the partial file. -/
structure Files where
  destination : Option Bytes := none
  part : Option Bytes := none
  deriving DecidableEq, Repr

/-- What a download meets before the first request. -/
structure Opening where
  createDirFails : Option String := none
  destinationReads : Bool := true
  openFails : Option String := none
  metadataFails : Option String := none
  readFails : Option String := none
  faults : DiskFaults := {}
  available : Option ℕ := none

/-- The loop of `download` at a request. -/
structure Attempt (os : Platform) where
  destination : Option Bytes
  part : PartialFile os
  failures : ℕ
  next : ℕ
  lastError : Option TransportError
  url : String
  before : ℕ

inductive Download (os : Platform)
  /-- The address was asked for its stream. -/
  | asking (a : Attempt os)
  /-- The next piece of the stream is awaited. -/
  | receiving (a : Attempt os)
  | finished (result : Except DownloadError VerifiedArtifact) (files : Files)

open Download

inductive TransportEvent
  | refused (error : TransportError)
  | opened (start : ℕ)
  | chunk (bytes : Bytes)
  | ended
  | broken (error : TransportError)

namespace Attempt

variable (spec : DownloadSpec) (directory : String) (faults : DiskFaults) (a : Attempt os)

def destinationPath : String := directory ++ "/" ++ spec.fileName

/-- The partial file is left for the next download. -/
def leave (result : Except DownloadError VerifiedArtifact) : Download os :=
  .finished result ⟨a.destination, some a.part.file.content⟩

/-- The partial file is removed, if that works. -/
def discard (error : DownloadError) : Download os :=
  .finished (.error error) ⟨a.destination, if faults.remove.isSome then some a.part.file.content else none⟩

/-- `finish` and what follows: the file is complete. -/
def complete : Download os :=
  match faults.flush, faults.sync with
  | some text, _ => a.leave (.error (.io text))
  | none, some text => a.leave (.error (.io text))
  | none, none =>
    if hex (os.hash.finalize a.part.hasher) ≠ spec.sha256 then a.discard faults .hashMismatch
    else
      match faults.rename with
      | some text => a.leave (.error (.io text))
      | none =>
        .finished (.ok (.new (destinationPath spec directory) spec)) ⟨some a.part.file.content, none⟩

/-- The head of the loop over the addresses. -/
def turn : Download os :=
  if a.part.received < spec.sizeBytes then
    if spec.urls.length ≤ a.failures then
      match faults.flush with
      | some text => a.leave (.error (.io text))
      | none => a.leave (.error (.failed a.lastError))
    else
      .asking
        { a with
          url := (spec.urls[a.next % spec.urls.length]?).getD "", next := a.next + 1, before := a.part.received }
  else a.complete spec directory faults

/-- `pump` returned, with the error of the transport if there was one. -/
def pumped (error : Option TransportError) : Download os :=
  match error with
  | none => a.turn spec directory faults
  | some error =>
    { a with
      lastError := some error
      failures := if a.before < a.part.received then 0 else a.failures + 1 }.turn spec directory faults

/-- An operation on the partial file, and what the loop does after it. -/
def onPart (x : Prog (PartialFile os) String Unit) (next : Attempt os → Download os) : Download os :=
  match x.run a.part with
  | (.ok (), part) => next { a with part }
  | (.error text, part) => { a with part }.discard faults (.io text)

/-- The first half of `pump`. -/
def onAnswer : TransportEvent → Download os
  | .refused error => a.pumped spec directory faults (some error)
  | .opened start =>
    if start ≠ a.part.received then
      if start ≠ 0 then a.pumped spec directory faults (some .interrupted)
      else a.onPart faults (restart faults) .receiving
    else .receiving a
  | _ => .asking a

/-- The loop of `pump`. -/
def onStream : TransportEvent → Download os
  | .chunk bytes =>
    if spec.sizeBytes < a.part.received + bytes.length then
      -- Longer than the file asked for: this address has another one.
      a.onPart faults (restart faults) fun a => a.discard faults .hashMismatch
    else a.onPart faults (append faults bytes) .receiving
  | .ended =>
    a.pumped spec directory faults (if a.part.received = spec.sizeBytes then none else some .interrupted)
  | .broken error => a.pumped spec directory faults (some error)
  | _ => .receiving a

end Attempt

namespace Download

variable (spec : DownloadSpec) (directory : String)

/-- `ensure_space`; a volume that does not say is taken to have room. -/
def ensureSpace (available : Option ℕ) (sizeBytes received : ℕ) : Option DownloadError :=
  match available with
  | none => none
  | some available =>
    let required := min (sizeBytes * spaceFactor) Message.maxU64
    if min (available + received) Message.maxU64 < required then some (.insufficientSpace required available)
    else none

/-- `Partial::open`, once the file is open. -/
def openPart (opening : Opening) (content : Bytes) : Prog (PartialFile os) String Unit := do
  failing opening.metadataFails
  if spec.sizeBytes < content.length then restart opening.faults
  else do
    failing opening.readFails
    readToEnd

/-- `download` after the partial file was opened. -/
def opened (opening : Opening) (destination : Option Bytes) : Except String Unit × PartialFile os → Download os
  | (.error text, part) => .finished (.error (.io text)) ⟨destination, some part.file.content⟩
  | (.ok (), part) =>
    let a : Attempt os := ⟨destination, part, 0, 0, none, "", 0⟩
    match ensureSpace opening.available spec.sizeBytes part.received with
    | some error => a.leave (.error error)
    | none => a.turn spec directory opening.faults

/-- The beginning of `download`, up to the first request. -/
def start (opening : Opening) (files : Files) : Download os :=
  match opening.createDirFails with
  | some text => .finished (.error (.io text)) files
  | none =>
    if opening.destinationReads && files.destination.any fun content => fileSha256 os content == spec.sha256 then
      .finished (.ok (.new (Attempt.destinationPath spec directory) spec)) files
    else
      match opening.openFails with
      | some text => .finished (.error (.io text)) files
      | none =>
        let content := files.part.getD []
        opened spec directory opening files.destination ((openPart spec opening content).run (.ofContent content))

def step (d : Download os) (e : TransportEvent × DiskFaults) : Download os :=
  match d with
  | .asking a => a.onAnswer spec directory e.2 e.1
  | .receiving a => a.onStream spec directory e.2 e.1
  | .finished result files => .finished result files

def part? : Download os → Option (PartialFile os)
  | .asking a | .receiving a => some a.part
  | .finished .. => none

end Download

/-! ### The running hash -/

section Hash

variable {spec : DownloadSpec} {directory : String}

/-- The position is the end of the file, everything in it was counted, and the hash has
taken it all. -/
structure PartialFile.Sound (p : PartialFile os) : Prop where
  position : p.file.position = p.file.content.length
  received : p.received = p.file.content.length
  hasher : p.hasher = os.hash.absorb p.file.content

theorem File.content_write {f : File} (h : f.position = f.content.length) (chunk : Bytes) :
    (f.write chunk).content = f.content ++ chunk := by
  simp [write, h]

theorem yields_failing {σ : Type} (fault : Option String) (s : σ) :
    (failing fault : Prog σ String Unit).Yields s fun _ t => t = s := by
  cases fault with
  | none => exact .pure rfl
  | some text => intro _ _ h; cases h

namespace PartialFile

theorem sound_restart (p : PartialFile os) : (restart faults).Yields p fun _ q => q.Sound ∧ q.received = 0 := by
  refine (yields_failing _ _).bind fun _ q hq => .modify_bind ?_
  refine (yields_failing _ _).bind fun _ r hr => .modify_bind ?_
  refine (Yields.modify _ _).mono fun _ t ht => ?_
  subst hq hr ht
  exact ⟨⟨by simp [File.seek, File.setLen], by simp [File.seek, File.setLen],
    by simp [File.seek, File.setLen]⟩, rfl⟩

theorem Sound.append {p : PartialFile os} (h : p.Sound) (chunk : Bytes) :
    (append faults chunk).Yields p fun _ q => q.Sound ∧ q.received = p.received + chunk.length := by
  rw [PartialFile.append]
  split
  · intro _ _ hrun
    cases hrun
  · refine (Yields.modify _ _).mono fun _ q hq => ?_
    subst hq
    have hcontent := File.content_write h.position chunk
    refine ⟨⟨?_, ?_, ?_⟩, rfl⟩
    · rw [hcontent, List.length_append, ← h.position]
      rfl
    · rw [hcontent, List.length_append, ← h.received]
    · rw [hcontent, h.hasher]
      exact (os.hash.update_append _ _ _).symm

theorem sound_readToEnd (content : Bytes) :
    (readToEnd : Prog (PartialFile os) String Unit).Yields (ofContent content) fun _ q =>
      q.Sound ∧ q.received = content.length := by
  refine (Yields.modify _ _).mono fun _ q hq => ?_
  subst hq
  refine ⟨⟨rfl, rfl, ?_⟩, rfl⟩
  simp only [ofContent, StreamHash.foldl_update, os.flatten_read]
  rfl

end PartialFile

theorem fileSha256_eq (content : Bytes) : fileSha256 os content = os.sha256 content := by
  rw [fileSha256, StreamHash.foldl_update, os.flatten_read]
  rfl

namespace Download

theorem sound_openPart (opening : Opening) (content : Bytes) :
    (openPart spec opening content).Yields (ofContent content : PartialFile os) fun _ q =>
      q.Sound ∧ q.received ≤ spec.sizeBytes := by
  refine (yields_failing _ _).bind fun _ p hp => ?_
  split_ifs with hlong
  · exact (sound_restart p).mono fun _ q hq => ⟨hq.1, hq.2 ▸ Nat.zero_le _⟩
  · refine (yields_failing _ _).bind fun _ q hq => ?_
    subst hp hq
    exact (sound_readToEnd content).mono fun _ r hr => ⟨hr.1, hr.2 ▸ Nat.le_of_not_lt hlong⟩

variable (spec) in
/-- Where the partial file is open it is sound and not too long; a download that returned
an artifact has the file asked for at the destination. -/
def Sound : Download os → Prop
  | .asking a | .receiving a => a.part.Sound ∧ a.part.received ≤ spec.sizeBytes
  | .finished (.ok _) files => ∃ content ∈ files.destination, os.sha256 content = spec.sha256
  | .finished (.error _) _ => True

end Download

namespace Attempt

variable {a : Attempt os}

theorem sound_complete (h : a.part.Sound) : (a.complete spec directory faults).Sound spec := by
  rw [complete]
  split
  · exact trivial
  · exact trivial
  · split_ifs with hhash
    · exact trivial
    · split
      · exact trivial
      · refine ⟨_, rfl, ?_⟩
        rw [Platform.sha256, StreamHash.digest, ← h.hasher]
        exact not_not.mp hhash

section

variable (h : a.part.Sound ∧ a.part.received ≤ spec.sizeBytes)

include h

theorem sound_turn : (a.turn spec directory faults).Sound spec := by
  rw [turn]
  split_ifs
  · split <;> exact trivial
  · exact h
  · exact sound_complete h.1

theorem sound_pumped (error : Option TransportError) : (a.pumped spec directory faults error).Sound spec := by
  cases error with
  | none => exact sound_turn h
  | some error => exact sound_turn (a := { a with lastError := _, failures := _ }) h

end

/-- What holds of the rest of the loop after every end of an operation that returns. -/
theorem sound_onPart {x : Prog (PartialFile os) String Unit} {Q : Unit → PartialFile os → Prop}
    {next : Attempt os → Download os} (hx : x.Yields a.part Q)
    (hnext : ∀ part, Q () part → (next { a with part }).Sound spec) : (a.onPart faults x next).Sound spec := by
  rw [onPart]
  split
  · next part hrun => exact hnext part (hx () part hrun)
  · exact trivial

variable (h : a.part.Sound ∧ a.part.received ≤ spec.sizeBytes) (e : TransportEvent)

include h

theorem sound_onAnswer : (a.onAnswer spec directory faults e).Sound spec := by
  cases e with
  | refused error => exact sound_pumped h (some error)
  | opened start =>
    rw [onAnswer]
    split_ifs
    · exact sound_pumped h _
    · exact sound_onPart (sound_restart a.part) fun part hpart => ⟨hpart.1, hpart.2 ▸ Nat.zero_le _⟩
    · exact h
  | _ => exact h

theorem sound_onStream : (a.onStream spec directory faults e).Sound spec := by
  cases e with
  | chunk bytes =>
    rw [onStream]
    split_ifs with hlong
    · exact sound_onPart (sound_restart a.part) fun _ _ => trivial
    · exact sound_onPart (h.1.append _) fun part hpart => ⟨hpart.1, hpart.2 ▸ Nat.le_of_not_lt hlong⟩
  | ended => exact sound_pumped h _
  | broken error => exact sound_pumped h (some error)
  | _ => exact h

end Attempt

namespace Download

theorem sound_opened {opening : Opening} {destination : Option Bytes} {result : Except String Unit × PartialFile os}
    (h : ∀ part, result = (.ok (), part) → part.Sound ∧ part.received ≤ spec.sizeBytes) :
    (opened spec directory opening destination result).Sound spec := by
  rcases result with ⟨_ | _, part⟩
  · exact trivial
  · simp only [opened]
    split
    · exact trivial
    · exact Attempt.sound_turn (h part rfl)

theorem sound_start (opening : Opening) (files : Files) :
    (start spec directory opening files : Download os).Sound spec := by
  rw [start]
  split
  · exact trivial
  · split_ifs with hbefore
    · obtain ⟨content, hcontent, hhash⟩ := (Option.any_eq_true _ _).mp (Bool.and_eq_true_iff.mp hbefore).2
      exact ⟨content, hcontent, (fileSha256_eq content).symm.trans (beq_iff_eq.mp hhash)⟩
    · split
      · exact trivial
      · exact sound_opened fun part hopen => sound_openPart opening _ () part hopen

theorem sound_step {d : Download os} (h : d.Sound spec) (e : TransportEvent × DiskFaults) :
    (d.step spec directory e).Sound spec := by
  cases d with
  | asking a => exact a.sound_onAnswer h e.1
  | receiving a => exact a.sound_onStream h e.1
  | finished result files => exact h

end Download

end Hash

/-- Whatever the addresses and the disk do and whatever an earlier run has left behind: a
download that succeeds leaves at the destination a file with the hash asked for, and as
long as the partial file is open the running hash is the hash of what was received. -/
theorem sha256_of_download (os : Platform) (spec : DownloadSpec) (directory : String)
    (opening : Opening) (files : Files)
    (events : List (TransportEvent × DiskFaults)) :
    let d := run (step spec directory) (start spec directory opening files : Download os) events
    (∀ artifact files', d = .finished (.ok artifact) files' →
        ∃ content ∈ files'.destination, os.sha256 content = spec.sha256) ∧
      ∀ p ∈ d.part?, p.received ≤ p.file.content.length ∧
        p.hasher = os.hash.absorb (p.file.content.take p.received) := by
  intro d
  have hsound : d.Sound spec :=
    run_invariant (I := Download.Sound spec) (c := fun _ _ => True) (fun _ e hd _ => sound_step hd e) events _
      (sound_start opening files) (AllSteps.intro fun _ _ => trivial)
  refine ⟨fun artifact files' hd => ?_, fun p hp => ?_⟩
  · rw [hd] at hsound
    exact hsound
  · have hpart : p.Sound := by
      cases hd : d with
      | finished result files' =>
        rw [hd] at hp
        cases hp
      | _ =>
        rw [hd] at hsound hp
        exact Option.some.inj hp ▸ hsound.1
    refine ⟨hpart.received.le, ?_⟩
    rw [hpart.received, List.take_length]
    exact hpart.hasher

/-! ### Streams that end -/

/-- What an address makes of a request: a stream ends after some pieces. -/
inductive StreamAnswer
  | refused (error : TransportError) (faults : DiskFaults)
  | stream (start : ℕ) (faults : DiskFaults) (chunks : List (Bytes × DiskFaults)) (ending : Option TransportError)
      (endFaults : DiskFaults)

def StreamAnswer.events : StreamAnswer → List (TransportEvent × DiskFaults)
  | .refused error faults => [(.refused error, faults)]
  | .stream start faults chunks ending endFaults =>
    (.opened start, faults) :: (chunks.map fun c => (.chunk c.1, c.2)) ++ [(ending.elim .ended .broken, endFaults)]

/-- What the addresses do: the `n`-th request, the url and the offset asked for. -/
abbrev Transport := ℕ → String → ℕ → StreamAnswer

namespace Download

section Attempts

variable (spec : DownloadSpec) (directory : String)

def attempt (d : Download os) (answer : String → ℕ → StreamAnswer) : Download os :=
  match d with
  | .asking a => run (step spec directory) d (answer a.url a.part.received).events
  | _ => d

/-- The download after `n` requests were answered. -/
def attempts (transport : Transport) (d : Download os) : ℕ → Download os
  | 0 => d
  | n + 1 => (attempts transport d n).attempt spec directory (transport n)

def IsFinished : Download os → Prop
  | .finished .. => True
  | _ => False

instance : ∀ d : Download os, Decidable d.IsFinished
  | .finished .. => inferInstanceAs (Decidable True)
  | .asking _ | .receiving _ => inferInstanceAs (Decidable False)

/-- No bytes are lost between two requests. -/
def KeepsReceived (d d' : Download os) : Prop :=
  ∀ p ∈ d.part?, ∀ p' ∈ d'.part?, p.received ≤ p'.received

/-- A request of the loop: bytes are missing and not every address has failed. -/
structure Waiting (a : Attempt os) : Prop where
  before : a.before = a.part.received
  missing : a.part.received < spec.sizeBytes
  failures : a.failures < spec.urls.length

/-- Where a request can lead. -/
def Follows (a : Attempt os) : Download os → Prop
  | .receiving b => b.before = a.part.received ∧ b.failures = a.failures
  | .asking b => Waiting spec b ∧ (b.failures = 0 ∧ a.part.received < b.part.received ∨
      b.failures = a.failures + 1 ∧ b.part.received ≤ a.part.received)
  | .finished .. => True

variable {spec directory} {a b : Attempt os} {d : Download os}

theorem isFinished_complete (b : Attempt os) : (b.complete spec directory faults).IsFinished := by
  rw [Attempt.complete]
  split
  · exact trivial
  · exact trivial
  · split_ifs
    · exact trivial
    · split <;> exact trivial

/-- The head of the loop ends the download or makes the next request. -/
theorem turn_cases (spec : DownloadSpec) (directory : String) (faults : DiskFaults) (b : Attempt os) :
    (b.turn spec directory faults).IsFinished ∨
      ∃ c, b.turn spec directory faults = .asking c ∧ Waiting spec c ∧ c.part = b.part ∧
      c.failures = b.failures := by
  rw [Attempt.turn]
  split_ifs with hmissing hfailures
  · refine .inl ?_
    split <;> exact trivial
  · exact .inr ⟨_, rfl, ⟨rfl, hmissing, Nat.lt_of_not_le hfailures⟩, rfl, rfl⟩
  · exact .inl (isFinished_complete b)

theorem Follows.of_isFinished (h : d.IsFinished) : Follows spec a d := by
  cases d with
  | finished result files => trivial
  | _ => exact absurd h id

/-- An attempt that failed: the count starts again where there was progress. -/
theorem follows_pumped (h : b.before = a.part.received ∧ b.failures = a.failures) (error : TransportError) :
    Follows spec a (b.pumped spec directory faults (some error)) ∧
      ∀ c, b.pumped spec directory faults (some error) ≠ .receiving c := by
  rw [Attempt.pumped]
  rcases turn_cases spec directory faults
    { b with lastError := some error, failures := if b.before < b.part.received then 0 else b.failures + 1 }
    with hdone | ⟨c, hturn, hwaiting, hpart, hfailures⟩
  · refine ⟨.of_isFinished hdone, fun c hc => ?_⟩
    rw [hc] at hdone
    exact hdone
  · dsimp only at hpart hfailures
    rw [hturn]
    refine ⟨⟨hwaiting, ?_⟩, fun _ hc => by cases hc⟩
    rw [hpart, hfailures, ← h.1]
    split_ifs with hprogress
    · exact .inl ⟨rfl, hprogress⟩
    · exact .inr ⟨congrArg (· + 1) h.2, Nat.le_of_not_lt hprogress⟩

theorem follows_onAnswer (h : Waiting spec a) {e : TransportEvent}
    (he : (∃ error, e = .refused error) ∨ ∃ start, e = .opened start) :
    Follows spec a (a.onAnswer spec directory faults e) := by
  rcases he with ⟨error, rfl⟩ | ⟨start, rfl⟩
  · exact (follows_pumped ⟨h.before, rfl⟩ error).1
  · rw [Attempt.onAnswer]
    split_ifs
    · exact (follows_pumped ⟨h.before, rfl⟩ .interrupted).1
    · rw [Attempt.onPart]
      split
      · exact ⟨h.before, rfl⟩
      · exact trivial
    · exact ⟨h.before, rfl⟩

theorem follows_chunk (h : Follows spec a d) (bytes : Bytes) :
    Follows spec a (d.step spec directory (.chunk bytes, faults)) := by
  cases d with
  | asking b => exact h
  | finished result files => exact trivial
  | receiving b =>
    rw [step, Attempt.onStream]
    split_ifs
    all_goals
      rw [Attempt.onPart]
      split
    · exact trivial
    · exact trivial
    · exact h
    · exact trivial

theorem follows_end (h : Follows spec a d) (ending : Option TransportError) :
    Follows spec a (d.step spec directory (ending.elim .ended .broken, faults)) ∧
      ∀ c, d.step spec directory (ending.elim .ended .broken, faults) ≠ .receiving c := by
  cases d with
  | asking b => cases ending <;> exact ⟨h, fun _ hc => by cases hc⟩
  | finished result files => exact ⟨trivial, fun _ hc => by cases hc⟩
  | receiving b =>
    cases ending with
    | some error => exact follows_pumped h error
    | none =>
      simp only [step, Option.elim, Attempt.onStream]
      split_ifs with hall
      · -- Everything is there, so the loop does not turn again.
        have hdone : (b.pumped spec directory faults none).IsFinished := by
          rw [Attempt.pumped, Attempt.turn, if_neg hall.not_lt]
          exact isFinished_complete b
        refine ⟨.of_isFinished hdone, fun c hc => ?_⟩
        rw [hc] at hdone
        exact hdone
      · exact follows_pumped h .interrupted

theorem follows_attempt (directory : String) (h : Waiting spec a) (answer : String → ℕ → StreamAnswer) :
    Follows spec a ((asking a).attempt spec directory answer) ∧
      ∀ c, (asking a).attempt spec directory answer ≠ .receiving c := by
  rw [attempt]
  cases answer a.url a.part.received with
  | refused error faults => exact follows_pumped ⟨h.before, rfl⟩ error
  | stream start faults chunks ending endFaults =>
    rw [StreamAnswer.events, List.cons_append, run_cons, run_append]
    have hchunks : ∀ (chunks : List (Bytes × DiskFaults)) (d : Download os), Follows spec a d →
        Follows spec a (run (step spec directory) d (chunks.map fun c => (.chunk c.1, c.2))) := by
      intro chunks
      induction chunks with
      | nil => exact fun _ hd => hd
      | cons c chunks ih => exact fun d hd => ih _ (follows_chunk hd c.1)
    exact follows_end (hchunks chunks _ (follows_onAnswer h (.inr ⟨start, rfl⟩))) ending

variable (spec) in
/-- Between two attempts the download waits for an answer or is over. -/
def Settled : Download os → Prop
  | .asking a => Waiting spec a
  | .receiving _ => False
  | .finished .. => True

theorem settled_start (opening : Opening) (files : Files) :
    (start spec directory opening files : Download os).Settled spec := by
  have hturn : ∀ (b : Attempt os) (faults : DiskFaults), (b.turn spec directory faults).Settled spec := by
    intro b faults
    rcases turn_cases spec directory faults b with hdone | ⟨c, hc, hwaiting, -⟩
    · revert hdone
      cases b.turn spec directory faults with
      | finished result files => exact fun _ => trivial
      | asking c => exact fun hdone => absurd hdone id
      | receiving c => exact fun hdone => hdone
    · rw [hc]
      exact hwaiting
  rw [start]
  split
  · exact trivial
  · split_ifs
    · exact trivial
    · split
      · exact trivial
      · dsimp only
        rcases (openPart spec opening (files.part.getD [])).run (ofContent (files.part.getD []) : PartialFile os)
          with ⟨_ | _, part⟩
        · exact trivial
        · simp only [opened]
          split
          · exact trivial
          · exact hturn _ _

theorem settled_attempt (h : d.Settled spec) (answer : String → ℕ → StreamAnswer) :
    (d.attempt spec directory answer).Settled spec := by
  cases d with
  | finished result files => exact trivial
  | receiving b => exact h
  | asking a =>
    obtain ⟨hfollows, hnot⟩ := follows_attempt directory h answer
    revert hfollows hnot
    cases (asking a).attempt spec directory answer with
    | finished result files => exact fun _ _ => trivial
    | receiving c => exact fun _ hnot => hnot c rfl
    | asking c => exact fun hfollows _ => hfollows.1

theorem settled_attempts (transport : Transport) (h : d.Settled spec) (n : ℕ) :
    (attempts spec directory transport d n).Settled spec := by
  induction n with
  | zero => exact h
  | succ n ih => exact settled_attempt ih (transport n)

variable (spec) in
/-- What is still to come: bytes first, and then addresses to try without a new byte. -/
def left : Download os → ℕ
  | .asking a | .receiving a =>
    (spec.sizeBytes - a.part.received) * (spec.urls.length + 1) + (spec.urls.length - a.failures)
  | .finished .. => 0

theorem IsFinished.attempt (h : d.IsFinished) (answer : String → ℕ → StreamAnswer) :
    (d.attempt spec directory answer).IsFinished := by
  cases d with
  | finished result files => exact trivial
  | asking a => exact absurd h id
  | receiving a => exact h

theorem IsFinished.attempts_add {transport : Transport} {n : ℕ}
    (h : (attempts spec directory transport d n).IsFinished)
    (k : ℕ) : (attempts spec directory transport d (n + k)).IsFinished := by
  induction k with
  | zero => exact h
  | succ k ih => exact ih.attempt _

theorem IsFinished.part?_eq_none (h : d.IsFinished) : d.part? = none := by
  cases d with
  | finished result files => rfl
  | _ => exact absurd h id

/-- The measure falls with every attempt that loses no bytes, and with every attempt
where there is one address only. -/
theorem left_attempt_lt (h : d.Settled spec) {answer : String → ℕ → StreamAnswer}
    (hkeep : spec.urls.length = 1 ∨ KeepsReceived d (d.attempt spec directory answer)) (hd : ¬ d.IsFinished)
    (hd' : ¬ (d.attempt spec directory answer).IsFinished) :
    (d.attempt spec directory answer).left spec < d.left spec := by
  cases d with
  | finished result files => exact absurd trivial hd
  | receiving b => exact absurd h id
  | asking a =>
    obtain ⟨hfollows, hnot⟩ := follows_attempt directory h answer
    revert hkeep hd' hfollows hnot
    cases (asking a).attempt spec directory answer with
    | finished result files => exact fun _ hd' => absurd trivial hd'
    | receiving c => exact fun _ _ _ hnot => absurd rfl (hnot c)
    | asking c =>
      rintro hkeep - ⟨hwaiting, ⟨hzero, hmore⟩ | ⟨hfailed, hless⟩⟩ -
      · -- A new byte pays for all addresses.
        have hbytes : spec.sizeBytes - c.part.received + 1 ≤ spec.sizeBytes - a.part.received := by
          have := hwaiting.missing
          omega
        calc (spec.sizeBytes - c.part.received) * (spec.urls.length + 1) + (spec.urls.length - c.failures)
            < (spec.sizeBytes - c.part.received + 1) * (spec.urls.length + 1) := by
              rw [Nat.add_mul]
              omega
          _ ≤ (spec.sizeBytes - a.part.received) * (spec.urls.length + 1) := Nat.mul_le_mul_right _ hbytes
          _ ≤ _ := Nat.le_add_right _ _
      · have hsame : c.part.received = a.part.received := by
          rcases hkeep with hone | hkeep
          · -- The only address has failed, and the loop would have ended.
            have := hwaiting.failures
            omega
          · exact Nat.le_antisymm hless (hkeep _ rfl _ rfl)
        have := hwaiting.failures
        simp only [left, hsame, hfailed]
        omega

end Attempts

end Download

/-- A download ends after finitely many requests, each answered by a stream that ends, exactly when only finitely
many attempts end with fewer bytes than they began with. Where there is one address only it always ends. -/
theorem exists_attempts_isFinished (os : Platform) (spec : DownloadSpec) (directory : String) (opening : Opening)
    (files : Files) (transport : Transport) :
    let d := attempts spec directory transport (start spec directory opening files : Download os)
    ((∃ n, (d n).IsFinished) ↔ {n | ¬(d n).KeepsReceived (d (n + 1))}.Finite) ∧
      (spec.urls.length = 1 → ∃ n, (d n).IsFinished) := by
  intro d
  have hfalls {n : ℕ} (hkeep : spec.urls.length = 1 ∨ (d n).KeepsReceived (d (n + 1))) (hn : ¬(d n).IsFinished)
      (hn' : ¬(d (n + 1)).IsFinished) : (d (n + 1)).left spec < (d n).left spec :=
    left_attempt_lt (settled_attempts transport (settled_start opening files) n) hkeep hn hn'
  refine ⟨⟨fun ⟨n, hn⟩ => ?_, fun hlost => ?_⟩, fun hone => ?_⟩
  · -- Nothing is received after the end.
    refine (Set.finite_lt_nat n).subset fun k hk => Nat.lt_of_not_le fun hle => hk ?_
    have hdone : (d k).IsFinished := Nat.add_sub_cancel' hle ▸ hn.attempts_add (k - n)
    intro p hp
    rw [hdone.part?_eq_none] at hp
    cases hp
  · -- The number falls after the last attempt that loses bytes.
    obtain ⟨last, hlast⟩ := hlost.bddAbove
    obtain ⟨n, hn⟩ := exists_done_of_decreases (fun n => d (last + 1 + n)) (left spec) fun n hn hn' =>
      hfalls (.inr (not_not.mp fun hloses => (hlast hloses).not_gt (Nat.lt_of_lt_of_le last.lt_succ_self
        (Nat.le_add_right _ n)))) hn hn'
    exact ⟨_, hn⟩
  · exact exists_done_of_decreases d (left spec) fun n hn hn' => hfalls (.inl hone) hn hn'

/-! ### Two addresses -/

/-- A hash that is the text itself, and files read at one go. -/
def plainPlatform : Platform where
  hash := .ofDigest id
  read content := [content]
  flatten_read _ := List.flatten_singleton

def fiveBytes : DownloadSpec where
  urls := ["https://a", "https://b"]
  sha256 := "0000000000"
  sizeBytes := 5
  signingCertSha256 := none
  build := 1
  fileName := "app.apk"

/-- The first address goes on where it is asked to and breaks off after `n` bytes; the
second one always begins with the first byte and breaks off after three. -/
def shortStreams (n : ℕ) : Transport := fun _ url offset =>
  if url = "https://a" then .stream offset {} [(List.replicate n 0, {})] none {}
  else .stream 0 {} [([0, 0, 0], {})] none {}

/-- The download of the five bytes, from an empty disk. -/
def fiveAttempts (n : ℕ) : ℕ → Download plainPlatform :=
  attempts fiveBytes "/data" (shortStreams n) (start fiveBytes "/data" {} {})

/-- Where the download with one byte from the first address comes back to. -/
def fourReceived (k : ℕ) : Attempt plainPlatform where
  destination := none
  part := ⟨⟨[0, 0, 0, 0], 4⟩, [0, 0, 0, 0], 4⟩
  failures := 0
  next := 2 * k + 4
  lastError := some .interrupted
  url := "https://b"
  before := 4

theorem fiveAttempts_one (k : ℕ) : fiveAttempts 1 (2 * k + 3) = .asking (fourReceived k) := by
  induction k with
  | zero => rfl
  | succ k ih =>
    -- The second address brings three bytes, which is no progress; the first one a fourth.
    have hsecond : fiveAttempts 1 (2 * k + 4) = .asking
          { fourReceived k with
            part := ⟨⟨[0, 0, 0], 3⟩, [0, 0, 0], 3⟩, failures := 1, next := 2 * k + 5, before := 3
            url := (fiveBytes.urls[(2 * k + 4) % 2]?).getD "" } :=
      congrArg (attempt fiveBytes "/data" · _) ih
    rw [show (2 * k + 4) % 2 = 0 by omega] at hsecond
    have hfirst : fiveAttempts 1 (2 * k + 5) =
        .asking { fourReceived (k + 1) with
          next := 2 * k + 6
          url := (fiveBytes.urls[(2 * k + 5) % 2]?).getD "" } :=
      congrArg (attempt fiveBytes "/data" · _) hsecond
    rw [show (2 * k + 5) % 2 = 1 by omega] at hfirst
    exact hfirst

/-- Every stream ends, and the download goes on asking: each time the first address
brings a byte the count of failures starts again, and each time the second address
takes it back. -/
theorem fiveAttempts_one_not_isFinished : ¬ ∃ n, (fiveAttempts 1 n).IsFinished := by
  rintro ⟨n, hn⟩
  have hodd := hn.attempts_add (n + 3)
  rw [show n + (n + 3) = 2 * n + 3 by omega] at hodd
  have hasking : (asking (fourReceived n)).IsFinished := fiveAttempts_one n ▸ hodd
  exact hasking

example : fiveAttempts 2 3 = .finished (.ok (.new "/data/app.apk" fiveBytes)) ⟨some [0, 0, 0, 0, 0], none⟩ := rfl

end FlareIm.Access
