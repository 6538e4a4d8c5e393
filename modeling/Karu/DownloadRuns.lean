/-
# `Karu.DownloadRuns` — a download that is served ends

`Stable` properties of the world are kept by everything between the probe and the
publication, in runs that fail as in runs that do not: it is enough to look at the
turn of the others, at notes and at a write.

The second part is about a client that serves the object.  A batch may be asked for
in vain as often as it likes, if only it is done at some time (`Serves.eventually`);
a write may be interrupted, and may take a part of the bytes.  A round of the loop
then completes a chunk, or time has passed that the batches need (`rounds_completes`).
-/
import Karu.DownloadCover

namespace Karu

open Base

namespace Download

open Output

/-! ## What is kept all the way -/

/-- The bytes were in an answer of the client: in that to the probe, or in the completion of a
part. -/
def Received (env : Client) (offset : Nat) (bytes : Content) : Prop :=
  (∃ n capacity probe, env.readEnds n capacity = .ok probe ∧ offset = 0 ∧
    bytes = bytesOf probe.buffer (min capacity probe.size)) ∨
  ∃ n part wait done, env.next n part wait = .done done ∧ done.status = .ok ∧
    done.tagged = true ∧ done.got = part.length ∧ offset = part.offset ∧
    bytes = bytesOf done.buffer part.length

/-- What is delivered was received. -/
def Note.Allowed (env : Client) : Note → Prop
  | .delivered offset bytes => Received env offset bytes
  | _ => True

/-- What others, notes and writes do not change. -/
structure Stable (env : Client) (I : World Note → Prop) : Prop where
  turn : ∀ w, I w → I (w.turn env.toSurroundings)
  note : ∀ n w, Note.Allowed env n → I w → I (w.note n)
  write : ∀ w position bytes after, I w →
    OutputFile.onTemporary (splice 0 · (position, bytes)) w.file.temporary
      (w.turn env.toSurroundings).fs = .ok after →
    I ((w.turn env.toSurroundings).perform (.pwrite position bytes) after)

section Stable

variable {env : Client} {I : World Note → Prop} (hI : Stable env I)
include hI

/-- A question, and what is done with each of the answers there may be. -/
theorem Stable.ask {α β : Type} {answer : Nat → α} {k : α → Action β}
    (hk : ∀ n, Program.Keeps I (k (answer n))) : Program.Keeps I (ask env answer >>= k) := by
  intro w r w' hw h
  exact hk w.calls _ r w' (hI.turn w hw) h

theorem Stable.noted {n : Note} (hn : Note.Allowed env n) :
    Program.Keeps I (Download.note n) :=
  Program.Keeps.change fun w hw => hI.note n w hn hw

theorem Stable.pwrite (bytes : Content) (position : Nat) :
    Program.Keeps I (OutputFile.pwrite env.toSurroundings bytes position) := by
  intro w r w' hw h
  unfold OutputFile.pwrite at h
  split at h
  · cases h
    exact hI.turn w hw
  · simp only at h
    split at h
    · cases h
    · rename_i e w'' hsystem
      cases h
      rcases OutputFile.system_cases hsystem with ⟨-, -, rfl, -⟩ | ⟨hr, -⟩
      · exact hI.turn w hw
      · cases hr
    · rename_i w'' hsystem
      cases h
      obtain ⟨after, hafter, rfl⟩ := system_ok hsystem
      exact hI.write w _ _ after hw hafter

theorem Stable.writeLoop (bytes : Content) (offset : Nat) : ∀ turns written : Nat,
    Program.Keeps I (OutputFile.writeLoop env.toSurroundings bytes offset turns written) := by
  intro turns
  induction turns with
  | zero => exact fun _ => Program.Keeps.stuck
  | succ turns ih =>
      intro written
      unfold OutputFile.writeLoop
      split
      · split
        · exact Program.Keeps.fail _
        · simp only
          split
          · exact Program.Keeps.fail _
          · refine Program.Keeps.bind (hI.pwrite _ _) fun count => ?_
            cases count with
            | none => exact ih written
            | some count =>
                simp only
                split
                · exact Program.Keeps.fail _
                · exact ih _
      · exact Program.Keeps.pure _

theorem Stable.written (turns : Nat) (job : Job) {offset : Nat} {bytes : Content}
    (hreceived : Received env offset bytes) :
    Program.Keeps I (Download.write env turns job offset bytes) := by
  refine Program.Keeps.bind (hI.noted hreceived) fun _ => Program.Keeps.failingWith _ ?_
  refine Program.Keeps.bind Program.Keeps.get fun w => ?_
  split
  · exact Program.Keeps.fail _
  · exact hI.writeLoop _ _ _ _

theorem Stable.report (job : Job) (completed : Nat) :
    Program.Keeps I (Download.report env job completed) := by
  unfold Download.report
  split
  · refine Program.Keeps.bind (hI.noted trivial) fun _ => hI.ask fun n => ?_
    split
    · exact Program.Keeps.pure _
    · exact Program.Keeps.fail _
  · exact Program.Keeps.pure _

theorem Stable.submitChunk (job : Job) (slot chunk : Nat) :
    Program.Keeps I (Download.submitChunk env job slot chunk) := by
  refine hI.ask fun n => ?_
  cases env.submit n (job.part chunk) job.ifMatch with
  | some failure => exact Program.Keeps.fail _
  | none => exact Program.Keeps.bind (hI.noted trivial) fun _ => Program.Keeps.pure _

theorem Stable.save (turns : Nat) (job : Job) (index : Nat) {slot : Slot} {done : Done}
    (loop : Loop)
    (hreceived : Received env slot.part.offset (bytesOf done.buffer slot.part.length)) :
    Program.Keeps I (Download.save env turns job index slot done loop) := by
  refine Program.Keeps.bind (hI.written _ _ hreceived) fun _ =>
    Program.Keeps.bind (hI.report _ _) fun _ => hI.ask fun n => ?_
  cases env.stats n with
  | some failure => exact Program.Keeps.fail _
  | none =>
      refine Program.Keeps.bind (hI.noted trivial) fun _ => Program.Keeps.bind ?_ fun _ =>
        Program.Keeps.pure _
      unfold refill
      split
      · exact Program.Keeps.bind (hI.submitChunk _ _ _) fun _ => Program.Keeps.pure _
      · exact Program.Keeps.pure _

theorem Stable.visit (turns : Nat) (job : Job) (index : Nat) (s : Sweep) :
    Program.Keeps I (Download.visit env turns job index s) := by
  unfold Download.visit
  cases s.loop.slots[index]? with
  | none => exact Program.Keeps.pure _
  | some slot =>
      simp only
      split
      · refine hI.ask fun n => ?_
        cases hanswer : env.next n slot.part (if s.waited then 0 else 10) with
        | timeout => exact Program.Keeps.pure _
        | failed failure => exact Program.Keeps.fail _
        | done done =>
            simp only
            split
            · exact Program.Keeps.fail _
            · rename_i hstatus
              split
              · exact Program.Keeps.fail _
              · rename_i hmatches
                rw [not_or, Bool.not_eq_false, not_not] at hmatches
                exact Program.Keeps.bind (hI.save _ _ _ _ (Or.inr ⟨n, slot.part, _, done, hanswer,
                  not_not.mp hstatus, hmatches.1, hmatches.2, rfl, rfl⟩)) fun _ =>
                  Program.Keeps.pure _
      · exact Program.Keeps.pure _

theorem Stable.sweep (turns : Nat) (job : Job) : ∀ (left step : Nat) (s : Sweep),
    Program.Keeps I (Download.sweep env turns job left step s) := by
  intro left
  induction left with
  | zero => exact fun _ _ => Program.Keeps.pure _
  | succ left ih =>
      intro step s
      exact Program.Keeps.bind (hI.visit _ _ _ _) fun s' => ih _ s'

theorem Stable.rounds (turns : Nat) (job : Job) : ∀ (left : Nat) (loop : Loop),
    Program.Keeps I (Download.rounds env turns job left loop) := by
  intro left
  induction left with
  | zero => exact fun _ => Program.Keeps.stuck
  | succ left ih =>
      intro loop
      unfold Download.rounds
      split
      · exact Program.Keeps.bind (hI.sweep _ _ _ _ _) fun s => ih _
      · exact Program.Keeps.pure _

theorem Stable.startSlots (job : Job) : ∀ (left index : Nat) (slots : List Slot),
    Program.Keeps I (Download.startSlots env job left index slots) := by
  intro left
  induction left with
  | zero => exact fun _ _ => Program.Keeps.pure _
  | succ left ih =>
      intro index slots
      exact Program.Keeps.bind (hI.submitChunk _ _ _) fun slot => ih _ _

theorem Stable.saveProbe (turns : Nat) (job : Job) {buffer : Nat → UInt8}
    (hreceived : Received env 0 (bytesOf buffer job.probeLength)) :
    Program.Keeps I (Download.saveProbe env turns job buffer) := by
  unfold Download.saveProbe
  split
  · exact Program.Keeps.bind (hI.written _ _ hreceived) fun _ =>
      Program.Keeps.bind (hI.report _ _) fun _ => Program.Keeps.pure _
  · exact Program.Keeps.pure _

end Stable

/-! ## A client that serves the object -/

/-- The completion of a part, with its bytes of the object. -/
structure Done.Exact (object : Content) (part : DownloadPart) (done : Done) : Prop where
  status_eq : done.status = .ok
  tagged_eq : done.tagged = true
  got_eq : done.got = part.length
  bytes_eq : ∀ i, i < part.length → object[part.offset + i]? = some (done.buffer i)

/-- Nothing fails, and what comes is the object's. -/
structure Client.Serves (env : Client) (object : Content) (etag : Text) : Prop where
  unfailing : ∀ n call, env.fails n call = none
  takes : ∀ n, 0 < env.taken n
  uninterrupted : ∀ n, ∃ m, n ≤ m ∧ env.interrupted m = false
  probes : ∀ n capacity, ∃ probe, env.readEnds n capacity = .ok probe ∧
    probe.size = object.length ∧ probe.etag = etag ∧
    ∀ i, i < min capacity object.length → object[i]? = some (probe.buffer i)
  submits : ∀ n part ifMatch, env.submit n part ifMatch = none
  answers : ∀ n part wait, part.offset + part.length ≤ object.length →
    env.next n part wait = .timeout ∨
      ∃ done, env.next n part wait = .done done ∧ done.Exact object part
  eventually : ∀ part, ∃ n, ∀ m wait, n ≤ m → env.next m part wait ≠ .timeout
  counts : ∀ n, env.stats n = none
  goesOn : ∀ n completed total, env.progress n completed total = true

section Serves

variable {env : Client} {object : Content} {etag : Text} (hserves : env.Serves object etag)
include hserves

/-- A write is interrupted, or takes some of its bytes. -/
theorem Client.Serves.pwrite {bytes : Content} (hbytes : bytes ≠ []) (position : Nat)
    (w : World Note) :
    (env.interrupted w.calls = true ∧ OutputFile.pwrite env.toSurroundings bytes position w =
      some (.ok none, w.turn env.toSurroundings)) ∨
    (∃ count w', 0 < count ∧ count ≤ bytes.length ∧
      OutputFile.pwrite env.toSurroundings bytes position w = some (.ok (some count), w')) := by
  unfold OutputFile.pwrite
  cases hsignal : env.interrupted w.calls with
  | true => exact Or.inl ⟨rfl, rfl⟩
  | false =>
      have hlength : 0 < bytes.length := List.length_pos_iff.mpr hbytes
      have htaken := hserves.takes w.calls
      have hsystem : ∀ call (f : Content → Content), OutputFile.system env.toSurroundings call
          (OutputFile.onTemporary f w.file.temporary) w =
            some (.ok (), (w.turn env.toSurroundings).perform call
              ((w.turn env.toSurroundings).fs.put w.file.temporary
                (((w.turn env.toSurroundings).fs w.file.temporary).map f))) := by
        intro call f
        simp only [OutputFile.system, hserves.unfailing, OutputFile.onTemporary]
      refine Or.inr ⟨min (env.taken w.calls) bytes.length, ?_⟩
      apply Exists.intro
      refine ⟨by omega, Nat.min_le_right _ _, ?_⟩
      simp only [Bool.false_eq_true, if_false]
      rw [hsystem]

theorem Client.Serves.writeLoop {bytes : Content} {offset : Nat}
    (hfits : offset + bytes.length ≤ offsetMax) : ∀ (left written : Nat) (w : World Note),
    bytes.length - written ≤ left → ∃ w', Program.Completes
      (fun turns => OutputFile.writeLoop env.toSurroundings bytes offset turns written) w () w' := by
  intro left
  induction left with
  | zero =>
      intro written w hleft
      refine ⟨w, 1, fun turns hturns => ?_⟩
      cases turns with
      | zero => cases hturns
      | succ turns =>
          show OutputFile.writeLoop env.toSurroundings bytes offset (turns + 1) written w = _
          rw [OutputFile.writeLoop, if_neg (by omega)]
          rfl
  | succ left ih =>
      intro written w hleft
      by_cases hlt : written < bytes.length
      · have hmax : offsetMax = 2 ^ 63 - 1 := rfl
        have hposition : add64 offset written = offset + written := add64_of_lt (by omega)
        have hstep : ∀ turns (w : World Note), ∃ k : Option Nat → Program (World Note) Errno Unit,
            OutputFile.writeLoop env.toSurroundings bytes offset (turns + 1) written w =
              (OutputFile.pwrite env.toSurroundings
                ((bytes.drop written).take (min (bytes.length - written) offsetMax))
                (offset + written) >>= k) w ∧
            k none = OutputFile.writeLoop env.toSurroundings bytes offset turns written ∧
            ∀ count, count ≠ 0 → k (some count) =
              OutputFile.writeLoop env.toSurroundings bytes offset turns (written + count) := by
          intro turns w
          apply Exists.intro
          refine ⟨?_, ?_, ?_⟩
          · rw [OutputFile.writeLoop, if_pos hlt, if_neg (by unfold maxWord; omega), hposition,
              if_neg (by omega)]
          · rfl
          · exact fun count hcount => if_neg hcount
        have hne : (bytes.drop written).take (min (bytes.length - written) offsetMax) ≠ [] := by
          refine List.ne_nil_of_length_pos ?_
          rw [List.length_take, List.length_drop]
          omega
        -- The signals before the next write that is not interrupted.
        have hsignals : ∀ (signals : Nat) (w : World Note),
            env.interrupted (w.calls + signals) = false → ∃ w', Program.Completes
              (fun turns => OutputFile.writeLoop env.toSurroundings bytes offset turns written)
              w () w' := by
          intro signals
          induction signals with
          | zero =>
              intro w hfree
              rcases hserves.pwrite hne (offset + written) w with
                ⟨hsignal, -⟩ | ⟨count, t, hpos, hcount, hwrite⟩
              · rw [Nat.add_zero, hsignal] at hfree
                cases hfree
              · obtain ⟨w', hrest⟩ := ih (written + count) t (by omega)
                refine ⟨w', hrest.step fun turns => ?_⟩
                obtain ⟨k, hk, -, hcounted⟩ := hstep turns w
                rw [hk, Program.bind_ok hwrite, hcounted count (by omega)]
          | succ signals ihs =>
              intro w hfree
              rcases hserves.pwrite hne (offset + written) w with
                ⟨-, hwrite⟩ | ⟨count, t, hpos, hcount, hwrite⟩
              · obtain ⟨w', hrest⟩ := ihs (w.turn env.toSurroundings)
                  (by rw [← hfree]; congr 1; show w.calls + 1 + signals = _; omega)
                refine ⟨w', hrest.step fun turns => ?_⟩
                obtain ⟨k, hk, hnone, -⟩ := hstep turns w
                rw [hk, Program.bind_ok hwrite, hnone]
              · obtain ⟨w', hrest⟩ := ih (written + count) t (by omega)
                refine ⟨w', hrest.step fun turns => ?_⟩
                obtain ⟨k, hk, -, hcounted⟩ := hstep turns w
                rw [hk, Program.bind_ok hwrite, hcounted count (by omega)]
        obtain ⟨m, hm, hfree⟩ := hserves.uninterrupted w.calls
        exact hsignals (m - w.calls) w (by rwa [Nat.add_sub_cancel' hm])
      · exact ih written w (by omega)

theorem Client.Serves.write {offset : Nat} {job : Job} {bytes : Content}
    (hfits : offset + bytes.length ≤ offsetMax) {w : World Note} (hopen : w.file.fd = true) :
    ∃ w', Program.Completes (fun turns => Download.write env turns job offset bytes) w () w' := by
  obtain ⟨w', hloop⟩ := hserves.writeLoop hfits bytes.length 0
    (w.note (.delivered offset bytes)) (Nat.sub_le _ _)
  refine ⟨w', (Program.Completes.of_eq fun _ => rfl).bind (Program.Completes.failingWith ?_)⟩
  refine (Program.Completes.of_eq fun _ => rfl).bind ?_
  have hfd : (!(w.note (.delivered offset bytes)).file.fd) = false := by
    show (!w.file.fd) = false
    rw [hopen]
    rfl
  simp only [hfd, Bool.false_eq_true, if_false]
  exact hloop

theorem Client.Serves.report (job : Job) (completed : Nat) (w : World Note) :
    ∃ w', Download.report env job completed w = some (.ok (), w') := by
  unfold Download.report
  split
  · refine ⟨(w.note (.progress completed job.size)).turn env.toSurroundings, ?_⟩
    rw [Program.bind_ok (show Download.note (.progress completed job.size) w = some (.ok (), _)
      from rfl), Program.bind_ok (show ask env _ _ = some (.ok _, _) from rfl), hserves.goesOn]
    rfl
  · exact ⟨w, rfl⟩

theorem Client.Serves.submitChunk (job : Job) (slot chunk : Nat) (w : World Note) :
    ∃ new w', Download.submitChunk env job slot chunk w = some (.ok new, w') := by
  unfold Download.submitChunk
  rw [Program.bind_ok (show ask env _ _ = some (.ok _, _) from rfl), hserves.submits]
  exact ⟨_, _, rfl⟩

theorem Client.Serves.refill (job : Job) (index : Nat) (slot : Slot) (loop : Loop)
    (w : World Note) : ∃ loop' w', Download.refill env job index slot loop w =
      some (.ok loop', w') := by
  unfold Download.refill
  split
  · obtain ⟨new, w', hsubmit⟩ := hserves.submitChunk job index loop.nextChunk w
    rw [Program.bind_ok hsubmit]
    exact ⟨_, _, rfl⟩
  · exact ⟨_, _, rfl⟩

theorem Client.Serves.save {job : Job} {index : Nat} {slot : Slot} {done : Done} {loop : Loop}
    (hfits : slot.part.offset + slot.part.length ≤ offsetMax) {w : World Note}
    (hopen : w.file.fd = true) : ∃ loop' w', Program.Completes
      (fun turns => Download.save env turns job index slot done loop) w loop' w' := by
  have hlength : (bytesOf done.buffer slot.part.length).length = slot.part.length := by
    rw [bytesOf, List.length_map, List.length_range]
  obtain ⟨t₁, hwrite⟩ := @Client.Serves.write env object etag hserves slot.part.offset job _ (by rwa [hlength]) _ hopen
  obtain ⟨t₂, hreport⟩ := hserves.report job (addSaturated loop.downloaded done.got) t₁
  obtain ⟨loop', t₃, hrefill⟩ := hserves.refill job index slot
    { loop with downloaded := addSaturated loop.downloaded done.got }
    ((t₂.turn env.toSurroundings).note (.freed index))
  refine ⟨{ loop' with waitCursor := add64 index 1 % loop'.slots.length }, t₃, hwrite.bind
    ((Program.Completes.of_eq fun _ => hreport).bind (Program.Completes.of_eq fun _ => ?_))⟩
  rw [Program.bind_ok (show ask env _ _ = some (.ok _, _) from rfl), hserves.counts]
  show (Download.note (.freed index) >>= _) _ = _
  rw [Program.bind_ok (show Download.note (.freed index) _ = some (.ok (), _) from rfl),
    Program.bind_ok hrefill]
  rfl

end Serves

/-! ## The loop ends -/

theorem Underway.part_stop {job : Job} (hjob : job.Fit) {loop : Loop} {w : World Note}
    (h : Underway job loop w) {slot : Slot} (hslot : slot ∈ loop.slots)
    (hwaits : slot.batch = true) : slot.part.offset + slot.part.length ≤ job.size := by
  obtain ⟨chunk, hchunk, hpart⟩ := h.going.parts slot hslot hwaits
  have hstart := hjob.start_lt hchunk
  rw [hpart, hjob.part_eq hchunk]
  simp only
  omega

/-- From some time on, no batch of a chunk times out. -/
theorem Client.Serves.deadline {env : Client} {object : Content} {etag : Text}
    (hserves : env.Serves object etag) (job : Job) : ∃ deadline, ∀ chunk, chunk < job.chunks →
      ∀ m wait, deadline ≤ m → env.next m (job.part chunk) wait ≠ .timeout := by
  generalize job.chunks = chunks
  induction chunks with
  | zero => exact ⟨0, fun chunk hchunk => absurd hchunk (Nat.not_lt_zero _)⟩
  | succ chunks ih =>
      obtain ⟨earlier, hearlier⟩ := ih
      obtain ⟨own, hown⟩ := hserves.eventually (job.part chunks)
      refine ⟨max earlier own, fun chunk hchunk m wait hm => ?_⟩
      by_cases hlast : chunk = chunks
      · subst hlast
        exact hown m wait (Nat.le_trans (Nat.le_max_right _ _) hm)
      · exact hearlier chunk (by omega) m wait (Nat.le_trans (Nat.le_max_left _ _) hm)

/-- Time does not go back. -/
theorem stable_calls (env : Client) (n : Nat) : Stable env fun w => n ≤ w.calls where
  turn _ hw := Nat.le_succ_of_le hw
  note _ _ _ hw := hw
  write _ _ _ _ hw _ := Nat.le_succ_of_le hw

/-- The file stays open. -/
theorem stable_open (env : Client) : Stable env fun w => w.file.fd = true where
  turn _ hw := hw
  note _ _ _ hw := hw
  write _ _ _ _ hw _ := hw

section Rounds

variable {env : Client} {object : Content} {etag : Text} (hserves : env.Serves object etag)
  {job : Job} (hjob : job.Fit) (hsize : job.size = object.length)

include hserves hjob hsize in
theorem Client.Serves.visit {index : Nat} {s : Sweep} {w : World Note}
    (h : Underway job s.loop w) (hopen : w.file.fd = true) :
    ∃ s' w', Program.Completes (fun turns => Download.visit env turns job index s) w s' w' := by
  unfold Download.visit
  cases hslot : s.loop.slots[index]? with
  | none => exact ⟨_, _, Program.Completes.of_eq fun _ => rfl⟩
  | some slot =>
      simp only
      cases hbatch : slot.batch with
      | false => exact ⟨_, _, Program.Completes.of_eq fun _ => rfl⟩
      | true =>
          simp only [if_true]
          have hstop := h.part_stop hjob (List.mem_of_getElem? hslot) hbatch
          have hask : ask env (fun n => env.next n slot.part (if s.waited then 0 else 10)) w =
            some (.ok (env.next w.calls slot.part (if s.waited then 0 else 10)),
              w.turn env.toSurroundings) := rfl
          rcases hserves.answers w.calls slot.part (if s.waited then 0 else 10)
            (by rwa [← hsize]) with htimeout | ⟨done, hdone, hexact⟩
          · rw [htimeout] at hask
            exact ⟨_, _, (Program.Completes.of_eq fun _ => hask).bind
              (Program.Completes.of_eq fun _ => rfl)⟩
          · rw [hdone] at hask
            obtain ⟨loop', w', hsave⟩ := @Client.Serves.save env object etag hserves job index slot
              done s.loop (Nat.le_trans hstop hjob.size_le) (w.turn env.toSurroundings) hopen
            refine ⟨{ loop := loop', completedOne := true, waited := true }, w',
              (Program.Completes.of_eq fun _ => hask).bind ?_⟩
            simp only [hexact.status_eq, hexact.tagged_eq, hexact.got_eq, ne_eq, not_true_eq_false,
              Bool.true_eq_false, or_self, if_false]
            exact hsave.bind (Program.Completes.of_eq fun _ => rfl)

include hserves hjob hsize in
theorem Client.Serves.sweep : ∀ (left step : Nat) {s : Sweep} {w : World Note},
    Underway job s.loop w → w.file.fd = true →
    ∃ s' w', Program.Completes (fun turns => Download.sweep env turns job left step s) w s' w' := by
  intro left
  induction left with
  | zero =>
      intro step s w _ _
      exact ⟨s, w, Program.Completes.of_eq fun _ => rfl⟩
  | succ left ih =>
      intro step s w h hopen
      obtain ⟨s₁, w₁, hvisit⟩ := @Client.Serves.visit env object etag hserves job hjob hsize
        (add64 s.loop.waitCursor step % s.loop.slots.length) s w h hopen
      obtain ⟨turns, hrun⟩ := hvisit.exists_run
      obtain ⟨h₁, -, -⟩ := visit_ok hjob h hrun
      have hopen₁ := (stable_open env).visit _ _ _ _ _ _ _ hopen hrun
      obtain ⟨s₂, w₂, hrest⟩ := ih (step + 1) h₁ hopen₁
      exact ⟨s₂, w₂, hvisit.bind hrest⟩

variable {deadline : Nat} (hdeadline : ∀ chunk, chunk < job.chunks →
  ∀ m wait, deadline ≤ m → env.next m (job.part chunk) wait ≠ .timeout)

include hjob hdeadline in
/-- A slot that waits is asked: a chunk is done, or it was too early. -/
theorem visit_polls {turns index : Nat} {s s' : Sweep} {w w' : World Note} {slot : Slot}
    (h : Underway job s.loop w) (hslot : s.loop.slots[index]? = some slot)
    (hwaits : slot.batch = true)
    (hvisit : Download.visit env turns job index s w = some (.ok s', w')) :
    w.calls < w'.calls ∧ (s'.loop.left job < s.loop.left job ∨ w.calls < deadline) := by
  unfold Download.visit at hvisit
  rw [hslot] at hvisit
  simp only [hwaits, if_true] at hvisit
  obtain ⟨answer, t, hask, hvisit⟩ := Program.ok_of_bind hvisit
  obtain ⟨hanswer, rfl⟩ := Prod.mk.inj (Option.some.inj hask)
  cases answer with
  | timeout =>
      cases hvisit
      refine ⟨Nat.lt_succ_self _, Or.inr ?_⟩
      by_contra hlate
      obtain ⟨chunk, hchunk, hpart⟩ := h.going.parts slot (List.mem_of_getElem? hslot) hwaits
      refine hdeadline chunk hchunk w.calls (if s.waited then 0 else 10) (by omega) ?_
      rw [← hpart]
      exact Except.ok.inj hanswer
  | failed failure => cases hvisit
  | done done =>
      simp only at hvisit
      split at hvisit
      · cases hvisit
      · rename_i hstatus
        split at hvisit
        · cases hvisit
        · rename_i hmatches
          rw [not_or, Bool.not_eq_false, not_not] at hmatches
          obtain ⟨loop, t, hsave, hvisit⟩ := Program.ok_of_bind hvisit
          cases hvisit
          have hreceived : Received env slot.part.offset
              (bytesOf done.buffer slot.part.length) :=
            Or.inr ⟨w.calls, slot.part, _, done, Except.ok.inj hanswer, not_not.mp hstatus,
              hmatches.1, hmatches.2, rfl, rfl⟩
          have hlater := (stable_calls env (w.calls + 1)).save _ _ _ _ hreceived _ _ _
            (Nat.le_refl _) hsave
          obtain ⟨-, hless, -⟩ := save_ok hjob (w := w.turn env.toSurroundings)
            ⟨h.going, h.active, h.full, h.cursor⟩ hslot hwaits hmatches.2 hsave
          exact ⟨hlater, Or.inl (by simp only; omega)⟩

include hjob hdeadline in
/-- So it is if one of the slots that the `for` loop comes to waits. -/
theorem sweep_polls {turns : Nat} : ∀ (left step : Nat) {s s' : Sweep} {w w' : World Note},
    Underway job s.loop w →
    (∃ j slot, j < left ∧ s.loop.slots[add64 s.loop.waitCursor (step + j) %
      s.loop.slots.length]? = some slot ∧ slot.batch = true) →
    Download.sweep env turns job left step s w = some (.ok s', w') →
    w.calls < w'.calls ∧ (s'.loop.left job < s.loop.left job ∨ w.calls < deadline) := by
  intro left
  induction left with
  | zero =>
      rintro step s s' w w' _ ⟨j, slot, hj, -⟩ _
      exact absurd hj (Nat.not_lt_zero _)
  | succ left ih =>
      rintro step s s' w w' h ⟨j, slot, hj, hslot, hwaits⟩ hsweep
      obtain ⟨s₁, t, hvisit, hsweep⟩ := Program.ok_of_bind hsweep
      obtain ⟨h₁, -, hfirst⟩ := visit_ok hjob h hvisit
      obtain ⟨-, -, hrest⟩ := sweep_ok hjob left (step + 1) h₁ hsweep
      have hlater := (stable_calls env t.calls).sweep _ _ _ _ _ _ _ _ (Nat.le_refl _) hsweep
      have hless : s'.loop.left job ≤ s₁.loop.left job := by
        rcases hrest with ⟨hsame, -⟩ | ⟨-, hless⟩
        · rw [hsame]
        · exact Nat.le_of_lt hless
      cases hhere : s.loop.slots[add64 s.loop.waitCursor step % s.loop.slots.length]? with
      | none =>
          unfold Download.visit at hvisit
          rw [hhere] at hvisit
          cases hvisit
          cases j with
          | zero =>
              rw [Nat.add_zero, hhere] at hslot
              cases hslot
          | succ j =>
              refine ih (step + 1) h ⟨j, slot, Nat.lt_of_succ_lt_succ hj, ?_, hwaits⟩ hsweep
              rwa [Nat.add_right_comm, Nat.add_assoc]
      | some slot₀ =>
          cases hbatch : slot₀.batch with
          | true =>
              obtain ⟨hcalls, hcase⟩ := visit_polls hjob hdeadline h hhere hbatch hvisit
              refine ⟨Nat.lt_of_lt_of_le hcalls hlater, ?_⟩
              rcases hcase with hdone | hearly
              · exact Or.inl (Nat.lt_of_le_of_lt hless hdone)
              · exact Or.inr hearly
          | false =>
              unfold Download.visit at hvisit
              rw [hhere] at hvisit
              simp only [hbatch, Bool.false_eq_true, if_false] at hvisit
              cases hvisit
              cases j with
              | zero =>
                  rw [Nat.add_zero, hhere] at hslot
                  cases hslot
                  rw [hbatch] at hwaits
                  cases hwaits
              | succ j =>
                  refine ih (step + 1) h ⟨j, slot, Nat.lt_of_succ_lt_succ hj, ?_, hwaits⟩ hsweep
                  rwa [Nat.add_right_comm, Nat.add_assoc]

/-- While the cursor stands, the `for` loop comes to every slot. -/
theorem cursor_reaches {cursor length i : Nat} (hcursor : cursor ≤ length) (hi : i < length)
    (hlength : length ≤ offsetMax) : ∃ j, j < length ∧ add64 cursor (0 + j) % length = i := by
  have hmax : offsetMax = 2 ^ 63 - 1 := rfl
  by_cases hle : cursor ≤ i
  · refine ⟨i - cursor, by omega, ?_⟩
    rw [add64_of_lt (by omega), show cursor + (0 + (i - cursor)) = i by omega,
      Nat.mod_eq_of_lt hi]
  · refine ⟨i + length - cursor, by omega, ?_⟩
    rw [add64_of_lt (by omega), show cursor + (0 + (i + length - cursor)) = i + length by omega,
      Nat.add_mod_right, Nat.mod_eq_of_lt hi]

include hserves hjob hsize hdeadline in
/-- The `while` loop ends: in each round a chunk is done, or time has passed. -/
theorem rounds_completes : ∀ (measure : Nat) {loop : Loop} {w : World Note}, Underway job loop w →
    w.file.fd = true → deadline - w.calls + loop.left job ≤ measure →
    ∃ loop' w' enough, ∀ turns left, enough ≤ turns → enough ≤ left →
      Download.rounds env turns job left loop w = some (.ok loop', w') := by
  intro measure
  induction measure with
  | zero =>
      intro loop w h _ hmeasure
      have hactive : loop.active = 0 := by
        rw [h.active]
        unfold Loop.left at hmeasure
        omega
      refine ⟨loop, w, 1, fun turns left _ hleft => ?_⟩
      cases left with
      | zero => cases hleft
      | succ left =>
          rw [Download.rounds, if_neg (by omega)]
          rfl
  | succ measure ih =>
      intro loop w h hopen hmeasure
      by_cases hactive : 0 < loop.active
      · obtain ⟨s, t, hsweep⟩ := hserves.sweep hjob hsize loop.slots.length 0
          (show Underway job ({ loop } : Sweep).loop w from h) hopen
        obtain ⟨turns, hrun⟩ := hsweep.exists_run
        obtain ⟨hunderway, hlength, hcase⟩ := sweep_ok hjob _ 0 h hrun
        have hopen' := (stable_open env).sweep _ _ _ _ _ _ _ _ hopen hrun
        have hpos : 0 < loop.slots.length := by
          have := batches_le loop.slots
          have := h.active
          omega
        obtain ⟨i, slot, hslot, hbatch⟩ := Slots.exists_of_sum_pos (h.active ▸ hactive)
        have hwaits : slot.batch = true := by
          cases hb : slot.batch with
          | true => rfl
          | false =>
              rw [hb] at hbatch
              cases hbatch
        obtain ⟨j, hj, hreach⟩ := cursor_reaches h.cursor
          (List.getElem?_eq_some_iff.mp hslot).1 (h.slots_le hjob)
        obtain ⟨hcalls, hprogress⟩ := sweep_polls hjob hdeadline _ 0 h
          ⟨j, slot, hj, by rw [hreach]; exact hslot, hwaits⟩ hrun
        have hleft : s.loop.left job ≤ loop.left job := by
          rcases hcase with ⟨hsame, -⟩ | ⟨-, hless⟩
          · rw [hsame]
          · exact Nat.le_of_lt hless
        generalize hnext : (if s.completedOne then s.loop
          else { s.loop with waitCursor := add64 s.loop.waitCursor 1 % s.loop.slots.length }) =
            next
        have hunderway' : Underway job next t ∧ next.left job = s.loop.left job := by
          rw [← hnext]
          split
          · exact ⟨hunderway, rfl⟩
          · refine ⟨⟨hunderway.going, hunderway.active, hunderway.full, ?_⟩, rfl⟩
            exact Nat.le_of_lt (Nat.mod_lt _ (by rw [hlength]; exact hpos))
        obtain ⟨loop', w', enough, hrest⟩ := ih hunderway'.1 hopen' (by
          rw [hunderway'.2]
          rcases hprogress with hless | hearly
          · have hless : s.loop.left job < loop.left job := hless
            omega
          · omega)
        obtain ⟨enough', hsweep⟩ := hsweep
        refine ⟨loop', w', max enough enough' + 1, fun turns left hturns hleft => ?_⟩
        cases left with
        | zero => exact absurd hleft (Nat.not_succ_le_zero _)
        | succ left =>
            rw [Download.rounds, if_pos hactive, Program.bind_ok (hsweep turns (by omega)), hnext]
            exact hrest turns left (by omega) (by omega)
      · refine ⟨loop, w, 1, fun turns left _ hleft => ?_⟩
        cases left with
        | zero => cases hleft
        | succ left =>
            rw [Download.rounds, if_neg hactive]
            rfl

end Rounds

/-! ## From the probe to the end -/

/-- What the probe fixes. -/
def objectJob (destination : Text) (settings : DownloadSettings) (object : Content) (etag : Text) :
    Job :=
  { destination, settings, size := object.length, etag
    probeLength := min (probeCapacity settings) object.length }

/-- What is delivered has come from the client. -/
def AllReceived (env : Client) (w : World Note) : Prop :=
  ∀ x ∈ Record.deliveries w.log, Received env x.1 x.2

theorem stable_received (env : Client) : Stable env (AllReceived env) where
  turn _ hw := hw
  note n w hn hw := by
    intro x hx
    rw [show (w.note n).log = w.log ++ [.note n] from rfl, Record.deliveries_append] at hx
    rcases List.mem_append.mp hx with hx | hx
    · exact hw x hx
    · cases n with
      | delivered offset bytes =>
          rw [List.mem_singleton.mp hx]
          exact hn
      | _ => cases hx
  write w position bytes after hw _ := by
    intro x hx
    refine hw x ?_
    rw [show ((w.turn env.toSurroundings).perform (.pwrite position bytes) after).log =
      w.log ++ [.call (.pwrite position bytes) _ after] from rfl, Record.deliveries_append] at hx
    rcases List.mem_append.mp hx with hx | hx
    · exact hx
    · cases hx

/-- A run of `fetch`: the probe fails, or what holds then is kept. -/
theorem Stable.fetch {env : Client} {I : World Note → Prop} (hI : Stable env I) {turns : Nat}
    {destination : Text} {settings : DownloadSettings} {w w' : World Note}
    {r : Except Failure (Job × Loop)} (hbare : Bare w.log) (hchunk : 0 < settings.chunkSize)
    (h : fetch env turns destination settings w = some (r, w')) :
    (∃ e, probeObject env destination settings w = some (.error e, w') ∧ r = .error e) ∨
      ∃ job buffer t, probeObject env destination settings w = some (.ok (job, buffer), t) ∧
        (I t → I w') := by
  rcases Program.bind_cases h with hfailed | ⟨⟨job, buffer⟩, t, hprobe, h⟩
  · exact Or.inl hfailed
  · obtain ⟨-, -, probe, hanswer, rfl, rfl⟩ := probeObject_ok hbare hchunk hprobe
    refine Or.inr ⟨_, _, t, hprobe, fun ht => ?_⟩
    have hreceived : Received env 0
        (bytesOf probe.buffer (min (probeCapacity settings) probe.size)) :=
      Or.inl ⟨w.calls, probeCapacity settings, probe, hanswer, rfl, rfl⟩
    refine Program.Keeps.bind (hI.saveProbe turns _ hreceived) (fun downloaded => ?_) t r w' ht h
    exact Program.Keeps.bind (hI.startSlots _ _ _ _) fun slots =>
      Program.Keeps.bind (hI.rounds _ _ _ _) fun loop => Program.Keeps.pure _

/-- The probe fails and nothing has changed, or the file has the size of the object. -/
theorem probeObject_cases {env : Client} {destination : Text} {settings : DownloadSettings}
    {w w' : World Note} {r : Except Failure (Job × (Nat → UInt8))}
    (h : probeObject env destination settings w = some (r, w')) :
    ∃ t : World Note, t.log = w.log ∧ t.file = w.file ∧ t.hidden = w.hidden ∧
      (∀ name, w.hidden = some name → t.fs name = w.fs name) ∧
      ((∃ e, r = .error e ∧ w' = t) ∨
        ∃ job buffer, r = .ok (job, buffer) ∧ w' = t.perform (.truncate job.size)
          (t.fs.put w.file.temporary
            ((t.fs w.file.temporary).map (OutputFile.truncated job.size)))) := by
  have hturn : ∀ name, w.hidden = some name →
      (w.turn env.toSurroundings).fs name = w.fs name := fun name hname =>
    OutputFile.turn_hidden hname
  obtain ⟨e, hask, -⟩ | ⟨answer, t, hask, h⟩ := Program.bind_cases h
  · cases hask
  · obtain ⟨-, rfl⟩ := Prod.mk.inj (Option.some.inj hask)
    cases answer with
    | error failure =>
        cases h
        exact ⟨w.turn env.toSurroundings, rfl, rfl, rfl, hturn, Or.inl ⟨_, rfl, rfl⟩⟩
    | ok probe =>
        -- What `resize` leaves, before the failure is turned into a message.
        have hresize : ∀ {r : Except Errno Unit} {t : World Note},
            OutputFile.resize env.toSurroundings probe.size (w.turn env.toSurroundings) =
              some (r, t) →
            ∃ u : World Note, u.log = w.log ∧ u.file = w.file ∧ u.hidden = w.hidden ∧
              (∀ name, w.hidden = some name → u.fs name = w.fs name) ∧
              ((∃ e, r = .error e ∧ t = u) ∨
                r = .ok () ∧ t = u.perform (.truncate probe.size) (u.fs.put w.file.temporary
                  ((u.fs w.file.temporary).map (OutputFile.truncated probe.size)))) := by
          intro r t hresize
          obtain ⟨e, hget, -⟩ | ⟨v, t', hget, hresize⟩ := Program.bind_cases hresize
          · cases hget
          · cases hget
            split at hresize
            · cases hresize
              exact ⟨w.turn env.toSurroundings, rfl, rfl, rfl, hturn, Or.inl ⟨_, rfl, rfl⟩⟩
            · split at hresize
              · cases hresize
                exact ⟨w.turn env.toSurroundings, rfl, rfl, rfl, hturn, Or.inl ⟨_, rfl, rfl⟩⟩
              · refine ⟨(w.turn env.toSurroundings).turn env.toSurroundings, rfl, rfl, rfl, ?_, ?_⟩
                · intro name hname
                  exact (@OutputFile.turn_hidden _ env.toSurroundings
                    (w.turn env.toSurroundings) name hname).trans (hturn name hname)
                · rcases OutputFile.system_cases hresize with
                    ⟨e, rfl, rfl, -⟩ | ⟨rfl, after, hafter, rfl⟩
                  · exact Or.inl ⟨e, rfl, rfl⟩
                  · cases hafter
                    exact Or.inr ⟨rfl, rfl⟩
        obtain ⟨e, hfailed, rfl⟩ | ⟨u, t, hok, h⟩ := Program.bind_cases h
        · obtain ⟨⟨first, t⟩, hrun, hr⟩ := Option.map_eq_some_iff.mp hfailed
          cases first with
          | ok a => cases hr
          | error e' =>
              cases hr
              obtain ⟨u, hlog, hfile, hhidden, hfs, hcase⟩ := hresize hrun
              refine ⟨u, hlog, hfile, hhidden, hfs, Or.inl ⟨_, rfl, ?_⟩⟩
              rcases hcase with ⟨-, -, rfl⟩ | ⟨hr, -⟩
              · rfl
              · cases hr
        · cases h
          obtain ⟨u, hlog, hfile, hhidden, hfs, hcase⟩ := hresize (Program.failingWith_ok hok)
          rcases hcase with ⟨e, hr, -⟩ | ⟨-, rfl⟩
          · cases hr
          · exact ⟨u, hlog, hfile, hhidden, hfs, Or.inr ⟨_, _, rfl, rfl⟩⟩

section Fetch

variable {env : Client} {object : Content} {etag : Text} (hserves : env.Serves object etag)
  {destination : Text} {settings : DownloadSettings}
include hserves

theorem Client.Serves.startSlots (job : Job) : ∀ (left index : Nat) (slots : List Slot)
    (w : World Note), ∃ slots' w',
      Download.startSlots env job left index slots w = some (.ok slots', w') := by
  intro left
  induction left with
  | zero => exact fun _ slots w => ⟨slots, w, rfl⟩
  | succ left ih =>
      intro index slots w
      obtain ⟨slot, t, hsubmit⟩ := hserves.submitChunk job index index w
      obtain ⟨slots', w', hrest⟩ := ih (index + 1) (slots.set index slot) t
      exact ⟨slots', w', (Program.bind_ok hsubmit).trans hrest⟩

theorem Client.Serves.saveProbe {job : Job} (hjob : job.Fit) (buffer : Nat → UInt8)
    {w : World Note} (hopen : w.file.fd = true) : ∃ downloaded w', Program.Completes
      (fun turns => Download.saveProbe env turns job buffer) w downloaded w' := by
  unfold Download.saveProbe
  by_cases hpos : 0 < job.probeLength
  · have hlength : (bytesOf buffer job.probeLength).length = job.probeLength := by
      rw [bytesOf, List.length_map, List.length_range]
    have hfits : 0 + (bytesOf buffer job.probeLength).length ≤ offsetMax := by
      rw [hlength, Nat.zero_add]
      exact Nat.le_trans hjob.probe_le hjob.size_le
    obtain ⟨t, hwrite⟩ := @Client.Serves.write env object etag hserves 0 job _ hfits _ hopen
    obtain ⟨t', hreport⟩ := hserves.report job job.probeLength t
    simp only [if_pos hpos]
    exact ⟨job.probeLength, t', hwrite.bind ((Program.Completes.of_eq fun _ => hreport).bind
      (Program.Completes.of_eq fun _ => rfl))⟩
  · simp only [if_neg hpos]
    exact ⟨0, w, Program.Completes.of_eq fun _ => rfl⟩

theorem Client.Serves.probeObject (hsize : object.length ≤ offsetMax) {w : World Note}
    (hopen : w.file.fd = true) : ∃ buffer w', Download.probeObject env destination settings w =
      some (.ok (objectJob destination settings object etag, buffer), w') := by
  obtain ⟨probe, hprobe, hlength, htag, -⟩ := hserves.probes w.calls (probeCapacity settings)
  have hask : ask env (fun n => env.readEnds n (probeCapacity settings)) w =
      some (.ok (.ok probe), w.turn env.toSurroundings) := by
    rw [← hprobe]
    rfl
  have hresize : ∃ t, OutputFile.resize env.toSurroundings probe.size
      (w.turn env.toSurroundings) = some (.ok (), t) := by
    unfold OutputFile.resize
    rw [Program.bind_ok (show Program.get _ = some (.ok _, _) from rfl)]
    rw [show (w.turn env.toSurroundings).file = w.file from rfl, hopen, hlength,
      if_neg (by decide), if_neg (by omega)]
    simp only [OutputFile.system, hserves.unfailing, OutputFile.onTemporary]
    exact ⟨_, rfl⟩
  obtain ⟨t, hresize⟩ := hresize
  refine ⟨probe.buffer, t, ?_⟩
  unfold Download.probeObject
  rw [Program.bind_ok hask]
  simp only
  rw [Program.bind_ok (show Program.failingWith _ _ _ = some (.ok (), t) by
    rw [Program.failingWith, hresize]; rfl)]
  rw [objectJob, ← hlength, ← htag]
  rfl

/-- With enough turns, the loop comes to its end. -/
theorem fetch_completes (hsize : object.length ≤ offsetMax) (hchunk : 0 < settings.chunkSize)
    {w : World Note} (hbare : Bare w.log) (hopen : w.file.fd = true) :
    ∃ loop w', Program.Completes (fun turns => fetch env turns destination settings) w
      (objectJob destination settings object etag, loop) w' := by
  obtain ⟨buffer, t, hprobe⟩ := @Client.Serves.probeObject env object etag hserves destination
    settings hsize w hopen
  obtain ⟨hbare', hjob, probe, hanswer, rfl, heq⟩ := probeObject_ok hbare hchunk hprobe
  have hopen₀ : t.file.fd = true := by
    obtain ⟨u, -, hfile, -, -, ⟨e, hr, -⟩ | ⟨job, buffer, -, rfl⟩⟩ := probeObject_cases hprobe
    · cases hr
    · rw [← hopen, ← hfile]
      rfl
  have hreceived : Received env 0 (bytesOf probe.buffer
      (objectJob destination settings object etag).probeLength) := by
    rw [heq]
    exact Or.inl ⟨w.calls, _, probe, hanswer, rfl, rfl⟩
  obtain ⟨downloaded, t₁, hsave⟩ := hserves.saveProbe hjob probe.buffer hopen₀
  obtain ⟨turns₁, hrun₁⟩ := hsave.exists_run
  obtain ⟨-, hgoing⟩ := saveProbe_ok hjob hbare' hrun₁
  have hopen₁ := (stable_open env).saveProbe _ _ hreceived _ _ _ hopen₀ hrun₁
  obtain ⟨slots, t₂, hstart⟩ := hserves.startSlots (objectJob destination settings object etag)
    (objectJob destination settings object etag).slotCount 0
    (objectJob destination settings object etag).emptySlots t₁
  have hopen₂ := (stable_open env).startSlots _ _ _ _ _ _ _ hopen₁ hstart
  have hunderway := startSlots_underway hjob hgoing hstart
  obtain ⟨deadline, hdeadline⟩ := hserves.deadline (objectJob destination settings object etag)
  obtain ⟨loop, w', enough, hrounds⟩ := rounds_completes hserves hjob rfl hdeadline _ hunderway
    hopen₂ (Nat.le_refl _)
  refine ⟨loop, w', (Program.Completes.of_eq fun _ => hprobe).bind (hsave.bind
    ((Program.Completes.of_eq fun _ => hstart).bind (Program.Completes.bind
      ⟨enough, fun turns hturns => hrounds turns turns hturns hturns⟩
      (Program.Completes.of_eq fun _ => rfl))))⟩

/-- An object that no file can hold is refused. -/
theorem Client.Serves.probe_refused (hlarge : offsetMax < object.length) {w : World Note} :
    ∃ e w', Download.probeObject env destination settings w = some (.error e, w') ∧
      e.status = .errIo ∧ w'.log = w.log ∧ w'.file = w.file := by
  obtain ⟨probe, hprobe, hlength, -⟩ := hserves.probes w.calls (probeCapacity settings)
  have hask : ask env (fun n => env.readEnds n (probeCapacity settings)) w =
      some (.ok (.ok probe), w.turn env.toSurroundings) := by
    rw [← hprobe]
    rfl
  have hresize : ∃ e, OutputFile.resize env.toSurroundings probe.size
      (w.turn env.toSurroundings) = some (.error e, w.turn env.toSurroundings) := by
    unfold OutputFile.resize
    rw [Program.bind_ok (show Program.get _ = some (.ok _, _) from rfl), hlength]
    rw [if_pos hlarge]
    split
    · exact ⟨_, rfl⟩
    · exact ⟨_, rfl⟩
  obtain ⟨e, hresize⟩ := hresize
  refine ⟨outputError env destination "resize temporary output" e, w.turn env.toSurroundings, ?_,
    rfl, rfl, rfl⟩
  unfold Download.probeObject
  rw [Program.bind_ok hask]
  simp only
  show ((OutputFile.resize env.toSurroundings probe.size).failingWith _ >>= _) _ = _
  show ((Program.failingWith _ _ _).bind _) = _
  rw [Program.failingWith, hresize]
  rfl

end Fetch

end Download

end Karu
