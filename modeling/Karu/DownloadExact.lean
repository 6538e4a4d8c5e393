/-
# `Karu.DownloadExact` — what a download writes, and that it publishes

A client serves an object of any size, in any order, with any number of timeouts,
interrupted and partial writes.  `download` then comes to its publication, and what
it has recorded by then says that every byte was written once and is the object's.

There is one limit, and it is in the code: `resize` takes no size above the largest
`std::int64_t`.  Such an object is refused before anything is written.
-/
import Karu.DownloadRuns

namespace Karu

open Base

namespace Download

open Output

/-! ## Options -/

theorem checkSettings_ok {settings result : DownloadSettings}
    (h : checkSettings settings = .ok result) :
    result = settings ∧ 0 < settings.chunkSize ∧ 0 < settings.parallelism := by
  unfold checkSettings at h
  split at h
  · cases h
  · rename_i hchunk
    split at h
    · cases h
    · rename_i hparallel
      split at h
      · cases h
      · cases h
        exact ⟨rfl, Nat.pos_of_ne_zero fun hzero => hchunk (Or.inl hzero),
          Nat.pos_of_ne_zero fun hzero => hparallel (Or.inl hzero)⟩

/-- The settings that are let through. -/
theorem downloadOptions_ok {options : Option DownloadOptions} {settings : DownloadSettings}
    (h : downloadOptions options = .ok settings) :
    0 < settings.chunkSize ∧ 0 < settings.parallelism := by
  cases options with
  | none =>
      cases h
      exact ⟨Nat.mul_pos (Nat.succ_pos 7) (Nat.two_pow_pos 20), Nat.succ_pos 7⟩
  | some options =>
      unfold downloadOptions at h
      simp only at h
      split at h
      · cases h
      · split at h
        · cases h
        · obtain ⟨rfl, hpos⟩ := checkSettings_ok h
          exact hpos

/-! ## The bytes -/

/-- What an honest client delivers inside the object is the object's. -/
theorem Client.Serves.byte_eq {env : Client} {object : Content} {etag : Text}
    (hserves : env.Serves object etag) {offset : Nat} {bytes : Content}
    (hreceived : Received env offset bytes) (hinside : offset + bytes.length ≤ object.length)
    {i : Nat} {b : UInt8} (hb : bytes[i]? = some b) : object[offset + i]? = some b := by
  have hread : ∀ {buffer : Nat → UInt8} {n : Nat}, (bytesOf buffer n)[i]? = some b →
      i < n ∧ b = buffer i := by
    intro buffer n hget
    rw [bytesOf, List.getElem?_map, Option.map_eq_some_iff] at hget
    obtain ⟨j, hj, rfl⟩ := hget
    obtain ⟨hlt, rfl⟩ := List.getElem?_eq_some_iff.mp hj
    rw [List.length_range] at hlt
    rw [List.getElem_range]
    exact ⟨hlt, rfl⟩
  rcases hreceived with ⟨n, capacity, probe, hanswer, rfl, rfl⟩ |
    ⟨n, part, wait, done, hanswer, -, -, -, rfl, rfl⟩
  · obtain ⟨probe', hprobe, hsize, -, hbytes⟩ := hserves.probes n capacity
    cases hanswer.symm.trans hprobe
    obtain ⟨hi, rfl⟩ := hread hb
    rw [hsize] at hi
    rw [Nat.zero_add]
    exact hbytes i hi
  · rw [bytesOf, List.length_map, List.length_range] at hinside
    obtain ⟨hi, rfl⟩ := hread hb
    rcases hserves.answers n part wait hinside with htimeout | ⟨done', hdone, hexact⟩
    · cases hanswer.symm.trans htimeout
    · cases hanswer.symm.trans hdone
      exact hexact.bytes_eq i hi

/-- Where each position is in one piece, a byte of a piece is the object's. -/
theorem Client.Serves.piece_eq {env : Client} {object : Content} {etag : Text}
    (hserves : env.Serves object etag) {w : World Note} (hreceived : AllReceived env w)
    (hexact : Exact object.length (Record.pieces w.log))
    (hsame : Same (Record.deliveries w.log) (Record.pieces w.log)) {p : Nat} {b : UInt8}
    (h : HasAt (Record.pieces w.log) p b) : object[p]? = some b := by
  obtain ⟨x, hx, hle, hb⟩ := (hsame.has p b).mpr h
  have hexact' : Exact object.length (Record.deliveries w.log) :=
    fun q => (hsame.count q).trans (hexact q)
  have hne : x.2 ≠ [] := by
    intro hnil
    rw [hnil] at hb
    cases hb
  have hbyte := hserves.byte_eq (hreceived x hx) (hexact'.within hx hne) hb
  rwa [Nat.add_sub_cancel' hle] at hbyte

/-! ## To the publication -/

section Publication

variable {ν : Type} {env : Surroundings} {log : List (Event ν)}

/-- What is recorded stays. -/
def Extends (log : List (Event ν)) (w : World ν) : Prop := log <+: w.log

theorem Extends.step {w w' : World ν} {e : Event ν} (h : Extends log w)
    (hlog : w'.log = w.log ++ [e]) : Extends log w' := by
  unfold Extends
  rw [hlog]
  exact List.IsPrefix.trans h (List.prefix_append _ _)

theorem system_ends (call : Call) (effect : FileSystem → Except Errno FileSystem) :
    Program.Ends (Extends log) (OutputFile.system env call effect) := by
  intro w hw
  unfold OutputFile.system
  cases env.fails w.calls call with
  | some e => exact ⟨_, _, rfl, hw⟩
  | none =>
      simp only
      cases effect (w.turn env).fs with
      | error e => exact ⟨_, _, rfl, hw⟩
      | ok after => exact ⟨_, _, rfl, hw.step rfl⟩

theorem statusExists_ends (name : Text) :
    Program.Ends (Extends log) (OutputFile.statusExists env name) := by
  intro w hw
  unfold OutputFile.statusExists
  cases env.fails w.calls (.status name) with
  | some e =>
      simp only
      split
      · exact ⟨_, _, rfl, hw⟩
      · exact ⟨_, _, rfl, hw⟩
  | none => exact ⟨_, _, rfl, hw⟩

theorem publishRename_ends : Program.Ends (Extends log) (OutputFile.publishRename (ν := ν) env) :=
  Program.Ends.bind Program.Ends.get fun _ => Program.Ends.bind (system_ends _ _) fun _ =>
    Program.Ends.change fun _ hw => hw

theorem publishLink_ends : Program.Ends (Extends log) (OutputFile.publishLink (ν := ν) env) := by
  intro w hw
  obtain ⟨r, w', hsystem, hw'⟩ := system_ends .link
    (OutputFile.linked w.file.temporary w.file.destination) w hw
  unfold OutputFile.publishLink
  rw [hsystem]
  cases r with
  | ok u => exact ⟨_, _, rfl, hw'.step rfl⟩
  | error e =>
      simp only
      split
      · refine Program.Ends.bind (statusExists_ends _) (fun present => ?_) w' hw'
        split
        · exact Program.Ends.fail _
        · exact publishRename_ends
      · exact ⟨_, _, rfl, hw'⟩

theorem publish_ends (overwrite : Bool) :
    Program.Ends (Extends log) (OutputFile.publish (ν := ν) env overwrite) := by
  have hclose : Program.Ends (Extends log) (OutputFile.close (ν := ν) env) := by
    intro w hw
    unfold OutputFile.close
    split
    · exact system_ends .close .ok { w with file := { w.file with fd := false } } hw
    · exact ⟨_, _, rfl, hw⟩
  refine Program.Ends.bind hclose fun _ => Program.Ends.bind Program.Ends.get fun w => ?_
  split
  · exact Program.Ends.fail _
  · refine Program.Ends.bind ?_ fun _ => Program.Ends.change fun _ hw => hw
    unfold OutputFile.publishClosed
    split
    · exact publishRename_ends
    · exact publishLink_ends

theorem destroy_extends {w : World ν} (h : Extends log w) :
    Extends log (OutputFile.destroy env w) := by
  unfold OutputFile.destroy
  split <;> simp only <;> split
  · exact h
  · exact h.step rfl
  · exact h
  · exact h.step rfl

end Publication

/-- Where the loop comes to its end, `publish` is called next. -/
theorem download_publishes {env : Client} {turns : Nat} {destination : Text}
    {settings : DownloadSettings} {w₀ w₁ w₂ : World Note} {job : Job} {loop : Loop}
    (hcreate : OutputFile.createNear env.toSurroundings destination settings.overwrite w₀ =
      some (.ok (), w₁))
    (hfetch : fetch env turns destination settings w₁ = some (.ok (job, loop), w₂)) :
    ∃ r w, download env turns destination settings w₀ = some (r, w) ∧
      w₂.log ++ [.note .publish] <+: w.log ∧
      ∀ summary, r = .ok summary → summary = ⟨job.size, loop.downloaded, job.etag⟩ := by
  obtain ⟨r, w, hpublish, hlog⟩ := @publish_ends Note env.toSurroundings
    (w₂.note Note.publish).log settings.overwrite (w₂.note .publish) (List.prefix_refl _)
  have hrun : ∀ r', (finish env destination settings job loop) w₂ = some (r', w) →
      download env turns destination settings w₀ =
        some (r', OutputFile.destroy env.toSurroundings w) := by
    intro r' hfinish
    unfold download
    show ((_ >>= _ : Action DownloadSummary) w₀).map _ = _
    rw [Program.bind_ok (show Program.failingWith _ _ _ = some (.ok (), w₁) by
      rw [Program.failingWith, hcreate]; rfl), Program.bind_ok hfetch]
    simp only [hfinish]
    rfl
  cases r with
  | ok u =>
      refine ⟨.ok ⟨job.size, loop.downloaded, job.etag⟩, _, hrun _ ?_, destroy_extends hlog, ?_⟩
      · unfold finish
        rw [Program.bind_ok (show Download.note .publish w₂ = some (.ok (), _) from rfl),
          Program.bind_ok (show Program.failingWith _ _ _ = some (.ok (), w) by
            rw [Program.failingWith, hpublish]; rfl)]
        rfl
      · intro summary hr
        exact (Except.ok.inj hr).symm
  | error e =>
      refine ⟨.error (outputError env destination "publish downloaded file" e), _, hrun _ ?_,
        destroy_extends hlog, ?_⟩
      · unfold finish
        rw [Program.bind_ok (show Download.note .publish w₂ = some (.ok (), _) from rfl)]
        show ((Program.failingWith _ _ _).bind _) = _
        rw [Program.failingWith, hpublish]
        rfl
      · intro summary hr
        cases hr

/-! ## The whole download -/

/-- What has been recorded when a download of the object is published. -/
structure Downloaded (settings : DownloadSettings) (object : Content) (job : Job) (log : Record) :
    Prop where
  /-- Every position of the object is in exactly one write, and no write is outside. -/
  once : Exact object.length log.pieces
  /-- A write has the object's byte. -/
  byte : ∀ p b, HasAt log.pieces p b → object[p]? = some b
  /-- A request is for its chunk and carries the ETag; its slot is free, and so is a batch. -/
  requests : AtEach (Sound job) log
  increasing : log.progresses.Pairwise (· < ·)
  last : settings.progress = true → 0 < object.length →
    log.progresses.getLast? = some object.length

/-- An object that is too large is refused, with nothing written. -/
theorem download_refuses {env : Client} {object : Content} {etag : Text}
    (hserves : env.Serves object etag) (hlarge : offsetMax < object.length) {destination : Text}
    {settings : DownloadSettings} {fs : FileSystem} {w₁ : World Note}
    (hcreate : OutputFile.createNear env.toSurroundings destination settings.overwrite { fs } =
      some (.ok (), w₁)) (turns : Nat) :
    ∃ e w, download env turns destination settings { fs } = some (.error e, w) ∧
      e.status = .errIo ∧ Record.pieces w.log = [] ∧ .note .publish ∉ w.log := by
  obtain ⟨e, w, hprobe, hstatus, hlog, hfile⟩ := @Client.Serves.probe_refused env object etag
    hserves destination settings hlarge w₁
  obtain ⟨-, -, temporary, hcreated⟩ | ⟨e, hr, -⟩ := OutputFile.createNear_cases hcreate
  · obtain ⟨number, hname⟩ := hcreated.name
    obtain ⟨before, hcreated', -⟩ := hcreated.log
    obtain ⟨-, before', hremoved⟩ := @OutputFile.destroy_removes Note env.toSurroundings w temporary
      (hname ▸ OutputFile.temporaryName_ne_nil number) (by rw [hfile, hcreated.file])
    refine ⟨e, OutputFile.destroy env.toSurroundings w, ?_, hstatus, ?_, ?_⟩
    · unfold download
      show ((_ >>= _ : Action DownloadSummary) _).map _ = _
      rw [Program.bind_ok (show Program.failingWith _ _ _ = some (.ok (), w₁) by
        rw [Program.failingWith, hcreate]; rfl)]
      show ((((_ >>= _ : Action (Job × Loop)) w₁).bind _).map _) = _
      show (((Download.probeObject env destination settings w₁).bind _).bind _).map _ = _
      rw [hprobe]
      rfl
    · rw [hremoved, hlog, hcreated']
      rfl
    · rw [hremoved, hlog, hcreated']
      intro hmem
      rcases List.mem_append.mp hmem with hmem | hmem
      · cases List.mem_singleton.mp hmem
      · cases List.mem_singleton.mp hmem
  · cases hr

/-- A download whose client serves the object comes to its publication, having written every byte
once; if the object is too large, it is refused. -/
theorem download_exact_cover {options : Option DownloadOptions} {settings : DownloadSettings}
    (hoptions : downloadOptions options = .ok settings) {env : Client} {object : Content}
    {etag : Text} (hserves : env.Serves object etag) {destination : Text} {fs : FileSystem}
    {w₁ : World Note}
    (hcreate : OutputFile.createNear env.toSurroundings destination settings.overwrite { fs } =
      some (.ok (), w₁)) :
    (object.length ≤ offsetMax → ∃ log enough,
      Downloaded settings object (objectJob destination settings object etag) log ∧
      ∀ turns, enough ≤ turns → ∃ r w loop w₂,
        download env turns destination settings { fs } = some (r, w) ∧
        fetch env turns destination settings w₁ =
          some (.ok (objectJob destination settings object etag, loop), w₂) ∧
        loop.downloaded = object.length ∧ w₂.log = log ∧ log ++ [.note .publish] <+: w.log ∧
        ∀ summary, r = .ok summary → summary = ⟨object.length, object.length, etag⟩) ∧
    (offsetMax < object.length → ∀ turns, ∃ e w,
      download env turns destination settings { fs } = some (.error e, w) ∧ e.status = .errIo ∧
      Record.pieces w.log = [] ∧ .note .publish ∉ w.log) := by
  refine ⟨fun hsize => ?_, fun hlarge turns => download_refuses hserves hlarge hcreate turns⟩
  obtain ⟨hchunk, hparallel⟩ := downloadOptions_ok hoptions
  obtain ⟨-, -, temporary, hcreated⟩ | ⟨e, hr, -⟩ := OutputFile.createNear_cases hcreate
  · have hbare : Bare w₁.log := by
      obtain ⟨before, hlog, -⟩ := hcreated.log
      rw [hlog]
      exact Bare.call ⟨rfl, rfl, rfl, rfl, rfl⟩ rfl
    obtain ⟨loop, w₂, enough, hfetch⟩ := @fetch_completes env object etag hserves destination
      settings hsize hchunk w₁ hbare (by rw [hcreated.file])
    have hrun := hfetch enough (Nat.le_refl _)
    obtain ⟨-, hdownloaded, hcomplete, -⟩ := fetch_ok hbare hchunk hparallel hrun
    have hreceived : AllReceived env w₂ := by
      obtain ⟨e, -, hr⟩ | ⟨job, buffer, t, hprobe, hkept⟩ :=
        (stable_received env).fetch hbare hchunk hrun
      · cases hr
      · refine hkept fun x hx => ?_
        rw [(probeObject_ok hbare hchunk hprobe).1.deliveries] at hx
        cases hx
    refine ⟨w₂.log, enough, ⟨hcomplete.once, fun p b hb => ?_, hcomplete.requests,
      hcomplete.increasing, hcomplete.last⟩, fun turns hturns => ?_⟩
    · exact hserves.piece_eq hreceived hcomplete.once hcomplete.same hb
    · obtain ⟨r, w, hdownload, hlog, hsummary⟩ := download_publishes hcreate (hfetch turns hturns)
      refine ⟨r, w, loop, w₂, hdownload, hfetch turns hturns, hdownloaded, rfl, hlog, ?_⟩
      intro summary hr
      rw [hsummary summary hr, hdownloaded]
      rfl
  · cases hr

/-! ## A client -/

/-- A client that serves an object: a write takes one byte at a time, every third call is
interrupted, and the batches need some time. -/
def plainClient (object : Content) (hobject : object.length < 2 ^ 64) (etag : Text) : Client where
  others _ _ fs := fs
  leave_hidden _ _ _ := rfl
  fails _ _ := none
  interrupted n := n % 3 == 0
  taken _ := 1
  pid := 7
  number n := n
  message _ := []
  readEnds _ _ :=
    .ok { size := object.length, size_lt := hobject, etag, buffer := fun i => object.getD i 0 }
  submit _ _ _ := none
  next n part _ :=
    if n < 20 then .timeout
    else
      .done { status := .ok, detail := [], tagged := true, got := part.length
              buffer := fun i => object.getD (part.offset + i) 0 }
  stats _ := none
  progress _ _ _ := true

theorem plainClient_serves (object : Content) (hobject : object.length < 2 ^ 64) (etag : Text) :
    (plainClient object hobject etag).Serves object etag := by
  have hget : ∀ {i : Nat}, i < object.length → object[i]? = some (object.getD i 0) := by
    intro i hi
    rw [List.getD_eq_getElem?_getD, List.getElem?_eq_getElem hi]
    rfl
  refine ⟨fun _ _ => rfl, fun _ => Nat.one_pos, fun n => ?_, fun n capacity => ?_, fun _ _ _ => rfl,
    fun n part wait hinside => ?_, fun part => ?_, fun _ => rfl, fun _ _ _ => rfl⟩
  · refine ⟨3 * n + 1, by omega, ?_⟩
    show ((3 * n + 1) % 3 == 0) = false
    rw [Nat.mul_add_mod]
    rfl
  · exact ⟨_, rfl, rfl, rfl, fun i hi => hget (Nat.lt_of_lt_of_le hi (Nat.min_le_right _ _))⟩
  · by_cases hearly : n < 20
    · exact Or.inl (if_pos hearly)
    · exact Or.inr ⟨_, if_neg hearly, rfl, rfl, rfl, fun i hi => hget (by omega)⟩
  · refine ⟨20, fun m wait hm => ?_⟩
    show (if m < 20 then Next.timeout else _) ≠ _
    rw [if_neg (by omega)]
    intro hdone
    cases hdone

/-- Its first attempt at a temporary file succeeds. -/
theorem plainClient_creates (object : Content) (hobject : object.length < 2 ^ 64) (etag : Text)
    {overwrite : Bool} (hoverwrite : overwrite = true) : ∃ w₁ : World Note,
      OutputFile.createNear (plainClient object hobject etag).toSurroundings (text "out") overwrite
        { fs := fun _ => none } = some (.ok (), w₁) := by
  subst hoverwrite
  exact ⟨_, rfl⟩

/-- Chunks of one byte, two at a time. -/
def smallSettings : DownloadSettings :=
  { chunkSize := 1, parallelism := 2, overwrite := true, progress := true }

theorem two_lt_word : 2 < 2 ^ 64 := by decide

def smallOptions : DownloadOptions :=
  { structSize := 40
    chunkSize := ⟨1, one_lt_word⟩
    parallelism := ⟨2, two_lt_word⟩
    overwrite := 1
    progress := true }

theorem smallOptions_settings : downloadOptions (some smallOptions) = .ok smallSettings := by
  decide

def fourBytes : Content := [1, 2, 3, 4]

theorem fourBytes_lt : fourBytes.length < 2 ^ 64 := by decide

/-- One byte is the probe's, and three chunks are read in two slots. -/
theorem download_four_bytes : ∃ log enough,
    Downloaded smallSettings fourBytes
      (objectJob (text "out") smallSettings fourBytes (text "tag")) log ∧
    ∀ turns, enough ≤ turns → ∃ r w,
      download (plainClient fourBytes fourBytes_lt (text "tag")) turns (text "out") smallSettings
        { fs := fun _ => none } = some (r, w) ∧ log ++ [.note .publish] <+: w.log := by
  obtain ⟨w₁, hcreate⟩ := plainClient_creates fourBytes fourBytes_lt (text "tag")
    (show smallSettings.overwrite = true from rfl)
  obtain ⟨log, enough, hdownloaded, hruns⟩ := (download_exact_cover smallOptions_settings
    (plainClient_serves fourBytes fourBytes_lt (text "tag")) hcreate).1 (by decide)
  refine ⟨log, enough, hdownloaded, fun turns hturns => ?_⟩
  obtain ⟨r, w, loop, w₂, hdownload, -, -, -, hlog, -⟩ := hruns turns hturns
  exact ⟨r, w, hdownload, hlog⟩

/-- One byte more than an offset of a file can count. -/
def largeObject : Content := List.replicate (2 ^ 63) 0

theorem largeObject_length : largeObject.length = 2 ^ 63 := List.length_replicate

theorem largeObject_lt : largeObject.length < 2 ^ 64 := by
  rw [largeObject_length]
  decide

/-- A size that the probe may see, with every answer in order, and no publication. -/
theorem download_large_refused :
    (plainClient largeObject largeObject_lt []).Serves largeObject [] ∧
    (∃ w₁ : World Note, OutputFile.createNear (plainClient largeObject largeObject_lt []).toSurroundings
      (text "out") true { fs := fun _ => none } = some (.ok (), w₁)) ∧
    ∀ turns, ∃ e w, download (plainClient largeObject largeObject_lt []) turns (text "out")
      smallSettings { fs := fun _ => none } = some (.error e, w) ∧ .note .publish ∉ w.log := by
  have hserves := plainClient_serves largeObject largeObject_lt []
  obtain ⟨w₁, hcreate⟩ := plainClient_creates largeObject largeObject_lt []
    (show smallSettings.overwrite = true from rfl)
  refine ⟨hserves, ⟨w₁, hcreate⟩, fun turns => ?_⟩
  obtain ⟨e, w, hdownload, -, -, hpublish⟩ := download_refuses hserves
    (by rw [largeObject_length]; decide) hcreate turns
  exact ⟨e, w, hdownload, hpublish⟩

end Download

end Karu
