/-
# `Karu.Download` — `src/download.cpp`, and its options from `src/karu.cpp`

An object is read into a temporary file and published.  A probe of at most a
mebibyte tells the size and the ETag; what is behind it is cut into chunks, and each
chunk is a batch of one request.  As many batches as there are slots are under way
at a time: a slot whose batch is done writes its bytes and takes the next chunk.

| source                     | here                                      |
|----------------------------|-------------------------------------------|
| `download_options`         | `downloadOptions`                         |
| `download`                 | `download`, in the steps `saveProbe`, ... |
| the lambda `submit_chunk`  | `submitChunk`                             |
| the body of the `for` loop | `visit`, and `save` where a batch is done |
| the `while` loop           | `rounds`                                  |

The engine, the batches and the callback answer for themselves (`Client`); the
counters of a `DownloadSummary` are left out.
-/
import Karu.OutputFile

namespace Karu

open Base

namespace Download

open Output

/-! ## Options -/

/-- `DownloadSettings`; `progress` says whether there is a callback. -/
structure DownloadSettings where
  chunkSize : Nat := 8 * 2 ^ 20
  parallelism : Nat := 8
  overwrite : Bool := false
  progress : Bool := false
deriving DecidableEq, Repr

/-- `karu_download_options`. -/
structure DownloadOptions where
  structSize : Nat
  chunkSize : Word
  parallelism : Word
  overwrite : Int
  progress : Bool

/-- The last checks of `download_options`. -/
def checkSettings (result : DownloadSettings) : Except Text DownloadSettings :=
  if result.chunkSize = 0 ∨ result.chunkSize = maxWord then
    .error (text "karu_client_download: chunk_size must be nonzero and finite")
  else if result.parallelism = 0 ∨ maxWord < result.parallelism then
    .error (text "karu_client_download: parallelism is outside the supported range")
  else if maxWord < result.chunkSize ∨ maxWord / result.chunkSize < result.parallelism then
    .error (text "karu_client_download: chunk_size times parallelism is too large")
  else .ok result

/-- `download_options`: a field counts if the structure reaches behind it. -/
def downloadOptions : Option DownloadOptions → Except Text DownloadSettings
  | none => .ok {}
  | some options =>
      if options.structSize < 16 then
        .error (text "karu_client_download: download options structure is too small")
      else if 28 ≤ options.structSize ∧ options.overwrite ≠ 0 ∧ options.overwrite ≠ 1 then
        .error (text "karu_client_download: overwrite must be zero or one")
      else
        checkSettings
          { chunkSize := options.chunkSize
            parallelism := if 24 ≤ options.structSize then options.parallelism else 8
            overwrite := decide (28 ≤ options.structSize ∧ options.overwrite ≠ 0)
            progress := decide (40 ≤ options.structSize) && options.progress }

/-! ## What `download` talks to -/

/-- A status, and the text of `set_error`. -/
structure Failure where
  status : Status
  message : Text
deriving DecidableEq, Repr

/-- `DownloadPart`. -/
structure DownloadPart where
  offset : Nat
  length : Nat
deriving DecidableEq, Repr

/-- What `read_ends` has put out. -/
structure Probe where
  size : Nat
  size_lt : size < 2 ^ 64
  etag : Text
  buffer : Nat → UInt8

/-- A `karu_done`; `tagged` says whether its tag is that of the slot's part. -/
structure Done where
  status : Status
  detail : Text
  tagged : Bool
  got : Nat
  buffer : Nat → UInt8

/-- What `karu_batch_next` answers. -/
inductive Next where
  | timeout
  | failed (failure : Failure)
  | done (done : Done)

/-- The engine, the batches, the callback and the system.  An answer may depend on how many
have been given before. -/
structure Client extends Surroundings where
  /-- `error.message()`. -/
  message : Errno → Text
  /-- `read_ends` with a head of this capacity and no tail. -/
  readEnds : Nat → Nat → Except Failure Probe
  /-- `karu_client_submit_with`, for a part and an `if_match`. -/
  submit : Nat → DownloadPart → Option Text → Option Failure
  /-- `karu_batch_next`, with its timeout. -/
  next : Nat → DownloadPart → Nat → Next
  /-- `karu_batch_get_stats`. -/
  stats : Nat → Option Failure
  /-- The callback; zero is `false`. -/
  progress : Nat → Nat → Nat → Bool

/-- What `download` does apart from its calls of the system. -/
inductive Note where
  | delivered (offset : Nat) (bytes : Content)
  | submitted (slot : Nat) (part : DownloadPart) (ifMatch : Option Text)
  | freed (slot : Nat)
  | progress (completed total : Nat)
  | publish
deriving DecidableEq, Repr

/-- A program of `download`. -/
abbrev Action (α : Type) := Program (World Note) Failure α

variable (env : Client)

/-- A question, and its answer. -/
def ask {α : Type} (answer : Nat → α) : Action α := fun w =>
  some (.ok (answer w.calls), w.turn env.toSurroundings)

/-- Something is noted. -/
def note (n : Note) : Action Unit := Program.change (World.note n)

/-- `kProbeSize`. -/
def kProbeSize : Nat := 2 ^ 20

/-- `add_saturated`. -/
def addSaturated (destination value : Nat) : Nat :=
  if maxWord - destination < value then maxWord else destination + value

/-- `output_error`. -/
def outputError (destination : Text) (action : String) (error : Errno) : Failure :=
  ⟨.errIo, destination ++ text ": cannot " ++ text action ++ text ": " ++ env.message error⟩

/-- The first bytes of a buffer. -/
def bytesOf (buffer : Nat → UInt8) (n : Nat) : Content := (List.range n).map buffer

/-! ## The chunks -/

/-- What is fixed once the probe is there. -/
structure Job where
  destination : Text
  settings : DownloadSettings
  size : Nat
  etag : Text
  /-- `probe_length`. -/
  probeLength : Nat
deriving DecidableEq, Repr

namespace Job

variable (job : Job)

/-- `remaining`. -/
def remaining : Nat := job.size - job.probeLength

/-- `chunks`. -/
def chunks : Nat :=
  if job.remaining = 0 then 0 else 1 + (job.remaining - 1) / job.settings.chunkSize

/-- `slot_count`. -/
def slotCount : Nat := min job.settings.parallelism job.chunks

/-- `slot_capacity`. -/
def slotCapacity : Nat := min job.settings.chunkSize job.remaining

/-- `DownloadPart{offset, length}` of `submit_chunk`. -/
def part (chunk : Nat) : DownloadPart :=
  let offset := add64 job.probeLength (chunk * job.settings.chunkSize % 2 ^ 64)
  { offset, length := min job.settings.chunkSize (sub64 job.size offset) }

/-- `if_match` of `submit_chunk`. -/
def ifMatch : Option Text := if job.etag.isEmpty then none else some job.etag

end Job

/-- `Slot`; `batch` says whether it has one. -/
structure Slot where
  capacity : Nat
  part : DownloadPart
  batch : Bool
deriving DecidableEq, Repr

/-- `submit_chunk`. -/
def submitChunk (job : Job) (slot chunk : Nat) : Action Slot := do
  match ← ask env fun n => env.submit n (job.part chunk) job.ifMatch with
  | some failure => Program.fail failure
  | none => do
      note (.submitted slot (job.part chunk) job.ifMatch)
      pure { capacity := job.slotCapacity, part := job.part chunk, batch := true }

/-- The slots, before they have a batch. -/
def Job.emptySlots (job : Job) : List Slot :=
  List.replicate job.slotCount { capacity := job.slotCapacity, part := ⟨0, 0⟩, batch := false }

/-- The loop that gives each slot its first chunk. -/
def startSlots (job : Job) : Nat → Nat → List Slot → Action (List Slot)
  | 0, _, slots => pure slots
  | left + 1, index, slots => do
      let slot ← submitChunk env job index index
      startSlots job left (index + 1) (slots.set index slot)

/-- `settings.progress`, if there is one. -/
def report (job : Job) (completed : Nat) : Action Unit :=
  if job.settings.progress then do
    note (.progress completed job.size)
    if ← ask env fun n => env.progress n completed job.size then pure ()
    else
      Program.fail
        ⟨.errCancelled, job.destination ++ text ": download cancelled by progress callback"⟩
  else pure ()

/-- Bytes that have arrived are written. -/
def write (turns : Nat) (job : Job) (offset : Nat) (bytes : Content) : Action Unit := do
  note (.delivered offset bytes)
  (OutputFile.writeAt env.toSurroundings turns bytes offset).failingWith
    (outputError env job.destination "write temporary output")

/-! ## The loop -/

/-- The variables of the `while` loop. -/
structure Loop where
  slots : List Slot
  nextChunk : Nat
  active : Nat
  waitCursor : Nat
  downloaded : Nat
deriving DecidableEq, Repr

/-- Those of the `for` loop in it. -/
structure Sweep where
  loop : Loop
  completedOne : Bool := false
  waited : Bool := false
deriving DecidableEq, Repr

/-- The slot is free; it takes the next chunk if there is one. -/
def refill (job : Job) (index : Nat) (slot : Slot) (loop : Loop) : Action Loop :=
  if loop.nextChunk < job.chunks then do
    let slot ← submitChunk env job index loop.nextChunk
    pure { loop with slots := loop.slots.set index slot, nextChunk := add64 loop.nextChunk 1 }
  else
    pure { loop with
      slots := loop.slots.set index { slot with batch := false }
      active := sub64 loop.active 1 }

/-- A batch is done, with all its bytes. -/
def save (turns : Nat) (job : Job) (index : Nat) (slot : Slot) (done : Done) (loop : Loop) :
    Action Loop := do
  write env turns job slot.part.offset (bytesOf done.buffer slot.part.length)
  let downloaded := addSaturated loop.downloaded done.got
  report env job downloaded
  match ← ask env env.stats with
  | some failure => Program.fail failure
  | none => do
      note (.freed index)
      let loop ← refill env job index slot { loop with downloaded }
      pure { loop with waitCursor := add64 index 1 % loop.slots.length }

/-- The message about a completion that is not the slot's. -/
def completedPart (job : Job) (part : DownloadPart) (done : Done) : Text :=
  job.destination ++ text ": download completed " ++ decimal done.got ++ text " of " ++
    decimal part.length ++ text " bytes at offset " ++ decimal part.offset

/-- A slot is asked for its completion. -/
def visit (turns : Nat) (job : Job) (index : Nat) (s : Sweep) : Action Sweep :=
  match s.loop.slots[index]? with
  | none => pure s
  | some slot =>
      if slot.batch then do
        match ← ask env fun n => env.next n slot.part (if s.waited then 0 else 10) with
        | .timeout => pure { s with waited := true }
        | .failed failure => Program.fail failure
        | .done done =>
            if done.status ≠ .ok then Program.fail ⟨done.status, done.detail⟩
            else if done.tagged = false ∨ done.got ≠ slot.part.length then
              Program.fail ⟨.errIo, completedPart job slot.part done⟩
            else do
              let loop ← save env turns job index slot done s.loop
              pure { loop, completedOne := true, waited := true }
      else pure s

/-- The `for` loop; the cursor may move while `step` counts. -/
def sweep (turns : Nat) (job : Job) : Nat → Nat → Sweep → Action Sweep
  | 0, _, s => pure s
  | left + 1, step, s => do
      let s ← visit env turns job (add64 s.loop.waitCursor step % s.loop.slots.length) s
      sweep turns job left (step + 1) s

/-- The `while` loop. -/
def rounds (turns : Nat) (job : Job) : Nat → Loop → Action Loop
  | 0, _ => Program.stuck
  | left + 1, loop =>
      if 0 < loop.active then do
        let s ← sweep env turns job loop.slots.length 0 { loop }
        rounds turns job left
          (if s.completedOne then s.loop
            else { s.loop with
              waitCursor := add64 s.loop.waitCursor 1 % s.loop.slots.length })
      else pure loop

/-! ## `download` -/

/-- The probe, if it has bytes. -/
def saveProbe (turns : Nat) (job : Job) (buffer : Nat → UInt8) : Action Nat :=
  if 0 < job.probeLength then do
    write env turns job 0 (bytesOf buffer job.probeLength)
    report env job job.probeLength
    pure job.probeLength
  else pure 0

/-- `probe_capacity`. -/
def probeCapacity (settings : DownloadSettings) : Nat := min settings.chunkSize kProbeSize

/-- The probe and the resizing. -/
def probeObject (destination : Text) (settings : DownloadSettings) :
    Action (Job × (Nat → UInt8)) := do
  match ← ask env fun n => env.readEnds n (probeCapacity settings) with
  | .error failure => Program.fail failure
  | .ok probe => do
      (OutputFile.resize env.toSurroundings probe.size).failingWith
        (outputError env destination "resize temporary output")
      pure
        ({ destination, settings, size := probe.size, etag := probe.etag
           probeLength := min (probeCapacity settings) probe.size }, probe.buffer)

/-- From the probe to the end of the loop. -/
def fetch (turns : Nat) (destination : Text) (settings : DownloadSettings) :
    Action (Job × Loop) := do
  let (job, buffer) ← probeObject env destination settings
  let downloaded ← saveProbe env turns job buffer
  let slots ← startSlots env job job.slotCount 0 job.emptySlots
  let loop ← rounds env turns job turns
    { slots, nextChunk := slots.length, active := slots.length, waitCursor := 0, downloaded }
  pure (job, loop)

/-- The failure of `create_near`. -/
def createFailure (destination : Text) (error : Errno) : Failure :=
  if error = .fileExists then ⟨.errIo, destination ++ text ": destination already exists"⟩
  else outputError env destination "create temporary output" error

/-- `size` and `downloaded` of a `DownloadSummary`, and its ETag. -/
structure DownloadSummary where
  size : Nat
  downloaded : Nat
  etag : Text
deriving DecidableEq, Repr

/-- `publish`, at the end of `download`. -/
def finish (destination : Text) (settings : DownloadSettings) (job : Job) (loop : Loop) :
    Action DownloadSummary := do
  note .publish
  (OutputFile.publish env.toSurroundings settings.overwrite).failingWith
    (outputError env destination "publish downloaded file")
  pure { size := job.size, downloaded := loop.downloaded, etag := job.etag }

/-- `download`, in at most so many turns of its loops; the destructor of the file has run. -/
def download (turns : Nat) (destination : Text) (settings : DownloadSettings) :
    Action DownloadSummary :=
  Program.leaving (do
    (OutputFile.createNear env.toSurroundings destination settings.overwrite).failingWith
      (createFailure env destination)
    let (job, loop) ← fetch env turns destination settings
    finish env destination settings job loop)
    (OutputFile.destroy env.toSurroundings)

end Download

end Karu
