/-
# `Karu.DownloadAtomic` — the destination changes at one step, or never

Other processes may do what they like to every name but the temporary one, and every
call, answer and callback may fail.  Up to the publication a download touches its
temporary file only (`Apart`), and that file holds what has been written (`Filled`).
The publication is one call of the system; whatever happens before it, the
destructor removes the temporary file.
-/
import Karu.DownloadExact

namespace Karu

open Base

namespace Download

open Output

variable {destination temporary : Text}

/-! ## Up to the publication -/

/-- The file is the temporary one, and no call has touched the destination. -/
structure Apart (destination temporary : Text) (w : World Note) : Prop where
  file : w.file = { fd := true, temporary, destination }
  hidden : w.hidden = some temporary
  kept : ∀ call before after, .call call before after ∈ w.log →
    after destination = before destination
  created : ∀ name before after, .call (.create name) before after ∈ w.log → name = temporary

/-- A call that leaves the destination alone is added to the record. -/
theorem Apart.concat {log : Record} {call : Call} {before after : FileSystem}
    (h : ∀ call before after, .call call before after ∈ log →
      after destination = before destination)
    (hcall : after destination = before destination) :
    ∀ call' before' after', .call call' before' after' ∈ log ++ [.call call before after] →
      after' destination = before' destination := by
  intro call' before' after' hmem
  rcases List.mem_append.mp hmem with hmem | hmem
  · exact h call' before' after' hmem
  · cases List.mem_singleton.mp hmem
    exact hcall

theorem FileSystem.put_ne {fs : FileSystem} {content : Option Content}
    (hne : temporary ≠ destination) : fs.put temporary content destination = fs destination :=
  if_neg (Ne.symm hne)

theorem stable_apart (env : Client) (hne : temporary ≠ destination) :
    Stable env (Apart destination temporary) where
  turn _ hw := ⟨hw.file, hw.hidden, hw.kept, hw.created⟩
  note n w _ hw := by
    have hmem : ∀ {call before after}, .call call before after ∈ (w.note n).log →
        Event.call call before after ∈ w.log := by
      intro call before after hmem
      rcases List.mem_append.mp hmem with hmem | hmem
      · exact hmem
      · cases List.mem_singleton.mp hmem
    exact ⟨hw.file, hw.hidden, fun call before after h => hw.kept call before after (hmem h),
      fun name before after h => hw.created name before after (hmem h)⟩
  write w position bytes after hw hafter := by
    cases hafter
    refine ⟨hw.file, hw.hidden, Apart.concat hw.kept ?_, fun name before after hmem => ?_⟩
    · rw [show w.file.temporary = temporary by rw [hw.file]]
      exact FileSystem.put_ne hne
    · rcases List.mem_append.mp hmem with hmem | hmem
      · exact hw.created name before after hmem
      · cases List.mem_singleton.mp hmem

/-- The temporary file holds what has been written. -/
structure Filled (temporary : Text) (size : Nat) (w : World Note) : Prop where
  file : w.file.temporary = temporary
  hidden : w.hidden = some temporary
  content : w.fs temporary = some (replay 0 (Record.pieces w.log) (List.replicate size 0))

theorem stable_filled (env : Client) (size : Nat) : Stable env (Filled temporary size) where
  turn w hw := ⟨hw.file, hw.hidden, (OutputFile.turn_hidden hw.hidden).trans hw.content⟩
  note n w _ hw := by
    refine ⟨hw.file, hw.hidden, ?_⟩
    rw [show (w.note n).log = w.log ++ [.note n] from rfl, Record.pieces_append,
      show Record.pieces [.note n] = [] from rfl, List.append_nil]
    exact hw.content
  write w position bytes after hw hafter := by
    cases hafter
    refine ⟨hw.file, hw.hidden, ?_⟩
    rw [show Record.pieces ((w.turn env.toSurroundings).perform (.pwrite position bytes) _).log =
      Record.pieces w.log ++ [(position, bytes)] from Record.pieces_append _ _, replay,
      List.foldl_append]
    show (if temporary = w.file.temporary then _ else _) = _
    rw [if_pos hw.file.symm, hw.file, OutputFile.turn_hidden hw.hidden, hw.content]
    rfl

/-- However `fetch` ends, the destination has not been touched. -/
theorem fetch_apart {env : Client} {turns : Nat} {settings : DownloadSettings} {w w' : World Note}
    {r : Except Failure (Job × Loop)} (hne : temporary ≠ destination) (hbare : Bare w.log)
    (hchunk : 0 < settings.chunkSize) (hw : Apart destination temporary w)
    (h : fetch env turns destination settings w = some (r, w')) :
    Apart destination temporary w' := by
  have hprobe : ∀ {r : Except Failure (Job × (Nat → UInt8))} {t : World Note},
      probeObject env destination settings w = some (r, t) → Apart destination temporary t := by
    intro r t hprobe
    obtain ⟨u, hlog, hfile, hhidden, -, hcase⟩ := probeObject_cases hprobe
    have hu : Apart destination temporary u :=
      ⟨hfile.trans hw.file, hhidden.trans hw.hidden, by rw [hlog]; exact hw.kept,
        by rw [hlog]; exact hw.created⟩
    rcases hcase with ⟨e, -, rfl⟩ | ⟨job, buffer, -, rfl⟩
    · exact hu
    · refine ⟨hu.file, hu.hidden, Apart.concat hu.kept ?_, fun name before after hmem => ?_⟩
      · rw [show w.file.temporary = temporary by rw [hw.file]]
        exact FileSystem.put_ne hne
      · rcases List.mem_append.mp hmem with hmem | hmem
        · exact hu.created name before after hmem
        · cases List.mem_singleton.mp hmem
  rcases (stable_apart env hne).fetch hbare hchunk h with
    ⟨e, hfailed, -⟩ | ⟨job, buffer, t, hok, hkept⟩
  · exact hprobe hfailed
  · exact hkept (hprobe hok)

/-- Where `fetch` ends with a value, the temporary file holds what was written. -/
theorem fetch_filled {env : Client} {turns : Nat} {settings : DownloadSettings} {w w' : World Note}
    {job : Job} {loop : Loop} (hbare : Bare w.log) (hchunk : 0 < settings.chunkSize)
    (hparallel : 0 < settings.parallelism) (hw : Apart destination temporary w)
    (hempty : w.fs temporary = some [])
    (h : fetch env turns destination settings w = some (.ok (job, loop), w')) :
    Filled temporary job.size w' := by
  obtain ⟨-, -, -, probe, hanswer, hjob⟩ := fetch_ok hbare hchunk hparallel h
  rcases (stable_filled env job.size).fetch hbare hchunk h with
    ⟨e, -, hr⟩ | ⟨job', buffer, t, hok, hkept⟩
  · cases hr
  · obtain ⟨hbare', -, probe', hanswer', -, hjob'⟩ := probeObject_ok hbare hchunk hok
    cases hanswer.symm.trans hanswer'
    obtain ⟨u, hlog, hfile, hhidden, hfs, ⟨e, hr, -⟩ | ⟨job'', buffer', hr, rfl⟩⟩ :=
      probeObject_cases hok
    · cases hr
    · cases hr
      have hsize : job'.size = job.size := by rw [hjob, hjob']
      have htemporary : w.file.temporary = temporary := by rw [hw.file]
      refine hkept ⟨?_, hhidden.trans hw.hidden, ?_⟩
      · show u.file.temporary = temporary
        rw [hfile, htemporary]
      · rw [hbare'.pieces]
        show (if temporary = w.file.temporary then _ else _) = _
        rw [if_pos htemporary.symm, htemporary, hfs temporary hw.hidden, hempty, hsize,
          Option.map_some, OutputFile.truncated, List.take_nil, List.nil_append]
        rfl

/-! ## All exits -/

/-- The content has each byte of what was delivered, and nothing else: every position of the object
was delivered once, by the client. -/
structure Whole (env : Client) (size : Nat) (log : Record) (content : Content) : Prop where
  probed : ∃ n capacity probe, env.readEnds n capacity = .ok probe ∧ probe.size = size
  length : content.length = size
  once : Exact size log.deliveries
  byte : ∀ p b, HasAt log.deliveries p b → content[p]? = some b
  received : ∀ x ∈ log.deliveries, Received env x.1 x.2

theorem Whole.append {env : Client} {size : Nat} {log es : Record} {content : Content}
    (h : Whole env size log content) (hes : es.deliveries = []) :
    Whole env size (log ++ es) content := by
  have hsame : Record.deliveries (log ++ es) = log.deliveries := by
    rw [Record.deliveries_append, hes, List.append_nil]
  exact ⟨h.probed, h.length, by rw [hsame]; exact h.once, by rw [hsame]; exact h.byte,
    by rw [hsame]; exact h.received⟩

theorem Quiet.deliveries {es : Record} (h : OutputFile.Quiet es) : es.deliveries = [] := by
  refine List.filterMap_eq_nil_iff.mpr fun e he => ?_
  obtain ⟨fs, rfl⟩ := h e he
  rfl

/-- What `fetch` leaves in the temporary file. -/
theorem fetch_whole {env : Client} {turns : Nat} {settings : DownloadSettings} {w w' : World Note}
    {job : Job} {loop : Loop} (hbare : Bare w.log) (hchunk : 0 < settings.chunkSize)
    (hparallel : 0 < settings.parallelism) (hw : Apart destination temporary w)
    (hempty : w.fs temporary = some [])
    (h : fetch env turns destination settings w = some (.ok (job, loop), w')) :
    ∃ content, w'.fs temporary = some content ∧ Whole env job.size w'.log content := by
  obtain ⟨-, -, hcomplete, probe, hanswer, hjob⟩ := fetch_ok hbare hchunk hparallel h
  have hfilled := fetch_filled hbare hchunk hparallel hw hempty h
  have hlength : (List.replicate job.size (0 : UInt8)).length = job.size := List.length_replicate
  refine ⟨_, hfilled.content, ⟨_, _, probe, hanswer, by rw [hjob]⟩, ?_, fun p => ?_,
    fun p b hb => ?_, ?_⟩
  · exact length_replay 0 hlength fun x hx => hcomplete.once.within hx
  · exact (hcomplete.same.count p).trans (hcomplete.once p)
  · exact byte_replay hlength hcomplete.once hcomplete.same hb
  · obtain ⟨e, -, hr⟩ | ⟨job', buffer, t, hprobe, hkept⟩ :=
      (stable_received env).fetch hbare hchunk h
    · cases hr
    · refine hkept fun x hx => ?_
      rw [(probeObject_ok hbare hchunk hprobe).1.deliveries] at hx
      cases hx

/-- No call has touched the destination. -/
def Untouched (destination : Text) (log : Record) : Prop :=
  ∀ call before after, .call call before after ∈ log → after destination = before destination

/-- A step has given the destination the whole content. -/
def PublishedAt (env : Client) (destination : Text) (size : Nat) (log : Record) : Prop :=
  ∃ earlier call before after later content,
    log = earlier ++ .call call before after :: later ∧ (call = .link ∨ call = .rename) ∧
    after destination = some content ∧ Whole env size earlier content

/-- A temporary file of the run. -/
def IsTemporary (log : Record) (name : Text) : Prop :=
  ∃ before after, .call (.create name) before after ∈ log

/-- No call has replaced a destination that was there. -/
def NotReplaced (destination : Text) (log : Record) : Prop :=
  ∀ call before after, .call call before after ∈ log → before destination ≠ none →
    after destination = before destination

/-- What holds after each exit. -/
structure Atomic (env : Client) (destination : Text) (settings : DownloadSettings)
    (r : Except Failure DownloadSummary) (w : World Note) : Prop where
  removed : ∀ name, IsTemporary w.log name → w.fs name = none
  failed : ∀ e, r = .error e → Untouched destination w.log
  published : ∀ summary, r = .ok summary → PublishedAt env destination summary.size w.log
  kept : settings.overwrite = false →
    (∀ n e, env.fails n .link = some e → hardLinksUnavailable e = false) →
    NotReplaced destination w.log

section Exits

variable {env : Client} {settings : DownloadSettings} {w w' : World Note}
  {r : Except Failure DownloadSummary}

/-- The exits at which the temporary file is still there. -/
theorem atomic_of_failed {e : Failure} (hne : temporary ≠ destination) (hname : temporary ≠ [])
    (hfile : w.file.temporary = temporary) (huntouched : Untouched destination w.log)
    (hcreated : ∀ name before after, .call (.create name) before after ∈ w.log →
      name = temporary) :
    Atomic env destination settings (.error e) (OutputFile.destroy env.toSurroundings w) := by
  obtain ⟨hgone, before, hlog⟩ := @OutputFile.destroy_removes Note env.toSurroundings w temporary
    hname hfile
  have hkept : Untouched destination (OutputFile.destroy env.toSurroundings w).log := by
    rw [hlog]
    exact Apart.concat huntouched (FileSystem.put_ne hne)
  refine ⟨fun name hname => ?_, fun _ _ => hkept, fun summary hr => ?_, fun _ _ => ?_⟩
  · obtain ⟨before', after', hmem⟩ := hname
    rw [hlog] at hmem
    rcases List.mem_append.mp hmem with hmem | hmem
    · rw [hcreated name before' after' hmem]
      exact hgone
    · cases List.mem_singleton.mp hmem
  · cases hr
  · exact fun call before' after' hmem _ => hkept call before' after' hmem

/-- The publication, at the end of `download`. -/
theorem finish_cases {job : Job} {loop : Loop} {content : Content} (hne : temporary ≠ destination)
    (hname : temporary ≠ []) (hdestination : destination ≠ []) (hw : Apart destination temporary w)
    (hcontent : w.fs temporary = some content)
    (h : finish env destination settings job loop w = some (r, w')) :
    w'.file.fd = false ∧
    ((∃ e, r = .error e) ∧ w'.file.temporary = temporary ∧
        (∃ es, w'.log = w.log ++ [.note .publish] ++ es ∧ OutputFile.Quiet es) ∨
      (∃ summary, r = .ok summary ∧ summary.size = job.size) ∧ w'.file.temporary = [] ∧
        w'.fs temporary = none ∧ ∃ es, w'.log = w.log ++ [.note .publish] ++ es ∧
          OutputFile.Publication env.toSurroundings settings.overwrite temporary destination content
            es) := by
  obtain ⟨e, hnote, -⟩ | ⟨u, t, hnote, h⟩ := Program.bind_cases h
  · cases hnote
  · cases hnote
    have hcases : ∀ {r : Except Errno Unit} {t : World Note},
        OutputFile.publish env.toSurroundings settings.overwrite (w.note .publish) =
          some (r, t) → _ := fun hpublish =>
      @OutputFile.publish_cases Note env.toSurroundings (w.note .publish) _ destination
        settings.overwrite temporary content _ hne hw.hidden hcontent hname hdestination hw.file
        hpublish
    obtain ⟨e, hfailed, rfl⟩ | ⟨u, t, hok, h⟩ := Program.bind_cases h
    · obtain ⟨⟨first, t⟩, hpublish, hr⟩ := Option.map_eq_some_iff.mp hfailed
      cases first with
      | ok a => cases hr
      | error e' =>
          cases hr
          obtain ⟨hfd, ⟨-, hfile, -, es, hlog, hquiet⟩ | ⟨hr, -⟩⟩ := hcases hpublish
          · exact ⟨hfd, Or.inl ⟨⟨_, rfl⟩, hfile, es, hlog, hquiet⟩⟩
          · cases hr
    · cases h
      obtain ⟨hfd, ⟨⟨e, hr⟩, -⟩ | ⟨-, hfile, hgone, es, hlog, hpublication⟩⟩ :=
        hcases (Program.failingWith_ok hok)
      · cases hr
      · exact ⟨hfd, Or.inr ⟨⟨_, rfl, rfl⟩, hfile, hgone, es, hlog, hpublication⟩⟩

/-- The exit at which the file has been published. -/
theorem atomic_of_published {size : Nat} {content : Content} {earlier es : Record}
    {summary : DownloadSummary} (hsize : summary.size = size)
    (huntouched : Untouched destination earlier)
    (hcreated : ∀ name before after, .call (.create name) before after ∈ earlier →
      name = temporary)
    (hwhole : Whole env size earlier content) (hgone : w.fs temporary = none)
    (hlog : w.log = earlier ++ es)
    (hpublication : OutputFile.Publication env.toSurroundings settings.overwrite temporary
      destination content es) :
    Atomic env destination settings (.ok summary) w := by
  obtain ⟨quiet, call, before, after, later, rfl, hquiet, hstep, hlater⟩ := hpublication
  refine ⟨fun name hname => ?_, fun e hr => ?_, fun summary' hr => ?_, fun hoverwrite hlink => ?_⟩
  · obtain ⟨before', after', hmem⟩ := hname
    rw [hlog] at hmem
    rcases List.mem_append.mp hmem with hmem | hmem
    · rw [hcreated name before' after' hmem]
      exact hgone
    · -- There is no creation among the calls of a publication.
      rcases List.mem_append.mp hmem with hmem | hmem
      · obtain ⟨fs, heq⟩ := hquiet _ hmem
        cases heq
      · rcases List.mem_cons.mp hmem with heq | hmem
        · cases heq
          rcases hstep.kind with ⟨hkind, -⟩ | ⟨hkind, -⟩
          · cases hkind
          · cases hkind
        · cases (hlater _ _ _ hmem).1
  · cases hr
  · cases hr
    refine ⟨earlier ++ quiet, call, before, after, later, content, ?_, ?_, hstep.content, ?_⟩
    · rw [hlog, List.append_assoc]
    · exact hstep.kind.imp And.left And.left
    · rw [hsize]
      exact hwhole.append (Quiet.deliveries hquiet)
  · intro call' before' after' hmem hthere
    rw [hlog] at hmem
    rcases List.mem_append.mp hmem with hmem | hmem
    · exact huntouched call' before' after' hmem
    · rcases List.mem_append.mp hmem with hmem | hmem
      · obtain ⟨fs, heq⟩ := hquiet _ hmem
        cases heq
        rfl
      · rcases List.mem_cons.mp hmem with heq | hmem
        · cases heq
          rcases hstep.kind with ⟨-, hfree⟩ | ⟨-, hreason⟩
          · exact absurd hfree hthere
          · rcases hreason with hyes | ⟨n, e, hfails, hunavailable⟩
            · rw [hoverwrite] at hyes
              cases hyes
            · rw [hlink n e hfails] at hunavailable
              cases hunavailable
        · exact (hlater _ _ _ hmem).2

end Exits

/-- No exit of `download` leaves a temporary file or half a destination, whatever fails and
whatever others do. -/
theorem download_atomic {options : Option DownloadOptions} {settings : DownloadSettings}
    (hoptions : downloadOptions options = .ok settings) {env : Client} {turns : Nat}
    {destination : Text} {fs : FileSystem} {r : Except Failure DownloadSummary} {w : World Note}
    (h : download env turns destination settings { fs } = some (r, w)) :
    Atomic env destination settings r w := by
  obtain ⟨hchunk, hparallel⟩ := downloadOptions_ok hoptions
  obtain ⟨⟨r', t⟩, hbody, hr⟩ := Option.map_eq_some_iff.mp h
  cases hr
  obtain ⟨e, hfailed, rfl⟩ | ⟨u, w₁, hcreate, hbody⟩ := Program.bind_cases hbody
  · obtain ⟨⟨first, t'⟩, hcreate, hr⟩ := Option.map_eq_some_iff.mp hfailed
    cases first with
    | ok a => cases hr
    | error e' =>
        cases hr
        obtain ⟨hok, -⟩ | ⟨-, -, hlog, hfd, hnone⟩ := OutputFile.createNear_cases hcreate
        · cases hok
        · rw [OutputFile.destroy_published hfd hnone]
          refine ⟨fun name hname => ?_, fun _ _ call before after hmem => ?_, fun summary hr => ?_,
            fun _ _ call before after hmem _ => ?_⟩
          · obtain ⟨before, after, hmem⟩ := hname
            rw [hlog] at hmem
            cases hmem
          · rw [hlog] at hmem
            cases hmem
          · cases hr
          · rw [hlog] at hmem
            cases hmem
  · obtain ⟨-, hdestination, temporary, hcreated⟩ | ⟨e, hr, -⟩ :=
      OutputFile.createNear_cases (Program.failingWith_ok hcreate)
    · obtain ⟨number, hname⟩ := hcreated.name
      obtain ⟨before, hlog, hsame⟩ := hcreated.log
      have hne : temporary ≠ destination := hname ▸ OutputFile.temporaryName_ne number
      have hnil : temporary ≠ [] := hname ▸ OutputFile.temporaryName_ne_nil number
      have hbare : Bare w₁.log := by
        rw [hlog]
        exact Bare.call ⟨rfl, rfl, rfl, rfl, rfl⟩ rfl
      have hapart : Apart destination temporary w₁ := by
        refine ⟨hcreated.file, hcreated.hidden, ?_, fun name before' after' hmem => ?_⟩
        · rw [hlog]
          exact @Apart.concat destination [] _ _ _ (fun _ _ _ hmem => by cases hmem)
            (hsame destination (Ne.symm hne))
        · rw [hlog] at hmem
          cases List.mem_singleton.mp hmem
          rfl
      obtain ⟨e, hfetch, rfl⟩ | ⟨⟨job, loop⟩, w₂, hfetch, hfinish⟩ := Program.bind_cases hbody
      · have hapart' := fetch_apart hne hbare hchunk hapart hfetch
        exact atomic_of_failed hne hnil (by rw [hapart'.file]) hapart'.kept hapart'.created
      · have hapart' := fetch_apart hne hbare hchunk hapart hfetch
        obtain ⟨content, hcontent, hwhole⟩ := fetch_whole hbare hchunk hparallel hapart
          hcreated.content hfetch
        have hnoted := (stable_apart env hne).note .publish w₂ trivial hapart'
        obtain ⟨hfd, hcase⟩ := finish_cases hne hnil hdestination hapart' hcontent hfinish
        rcases hcase with ⟨⟨e, rfl⟩, hfile, es, hes, hquiet⟩ |
          ⟨⟨summary, rfl, hsize⟩, hfile, hgone, es, hes, hpublication⟩
        · refine atomic_of_failed hne hnil hfile ?_ ?_
          · intro call before' after' hmem
            rw [hes] at hmem
            rcases List.mem_append.mp hmem with hmem | hmem
            · exact hnoted.kept call before' after' hmem
            · obtain ⟨fs', heq⟩ := hquiet _ hmem
              cases heq
              rfl
          · intro name before' after' hmem
            rw [hes] at hmem
            rcases List.mem_append.mp hmem with hmem | hmem
            · exact hnoted.created name before' after' hmem
            · obtain ⟨fs', heq⟩ := hquiet _ hmem
              cases heq
        · rw [OutputFile.destroy_published hfd hfile]
          exact atomic_of_published hsize hnoted.kept hnoted.created
            (hwhole.append (show Record.deliveries [.note .publish] = [] from rfl)) hgone hes
            hpublication
    · cases hr

/-- A run with two slots, interrupted writes and timeouts. -/
theorem download_four_bytes_atomic : ∃ summary w,
    download (plainClient fourBytes fourBytes_lt (text "tag")) 40 (text "out") smallSettings
      { fs := fun _ => none } = some (.ok summary, w) ∧
    Atomic (plainClient fourBytes fourBytes_lt (text "tag")) (text "out") smallSettings
      (.ok summary) w := by
  have hends : ((download (plainClient fourBytes fourBytes_lt (text "tag")) 40 (text "out")
      smallSettings { fs := fun _ => none }).any fun x => x.1.isOk) = true := by
    decide +kernel
  obtain ⟨⟨r, w⟩, hrun, hok⟩ := (Option.any_eq_true _ _).mp hends
  cases r with
  | error e => cases hok
  | ok summary => exact ⟨summary, w, hrun, download_atomic smallOptions_settings hrun⟩

end Download

end Karu
