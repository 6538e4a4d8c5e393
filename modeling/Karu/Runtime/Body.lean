/-
# `Karu.Runtime.Body` — the body callback over a whole body

`write_callback` sees a body in pieces.  What it does to the first piece
depends on the status (`checkStatus_cases`); from then on it drops what it was
told to skip and stores the rest, until the transfer has what it wants.  Taken
together, over any cut of the body into pieces, it appends to what was kept

    (body.drop skip).take (length - kept)

and it refuses a piece only when that is all there is to take
(`Reading.feed`).
-/
import Karu.Runtime.Stored

namespace Karu

open Base

variable {β : Type}

/-! ## The first piece -/

/-- Everything the first piece of a body can lead to. -/
inductive Checked (info : Info) (t : Transfer) : Transfer × Bool → Prop
  | transformed : isSuccess info.responseCode = true → Detail.transformed t.encoding = true →
      Checked info t (seen info t, false)
  | contradicted : isSuccess info.responseCode = true → Detail.transformed t.encoding = false →
      contradictsPin t = true → Checked info t ({ seen info t with versionChanged := true }, false)
  | misranged : info.responseCode = 206 → Detail.transformed t.encoding = false →
      contradictsPin t = false → validContentRange t = false →
      Checked info t (seen info t, false)
  | entered : (isSuccess info.responseCode = true →
        Detail.transformed t.encoding = false ∧ contradictsPin t = false) →
      (info.responseCode = 206 → validContentRange t = true) →
      Checked info t (enterBody info (restart (seen info t)))

theorem checkStatus_checked (info : Info) (t : Transfer) : Checked info t (checkStatus info t) := by
  simp only [checkStatus]
  split
  · rename_i h
    rw [Bool.and_eq_true] at h
    exact .transformed h.1 h.2
  · rename_i hplain
    split
    · rename_i h
      rw [Bool.and_eq_true] at h
      rw [h.1, Bool.true_and, Bool.not_eq_true] at hplain
      exact .contradicted h.1 hplain h.2
    · rename_i hpin
      have hclean : isSuccess info.responseCode = true →
          Detail.transformed t.encoding = false ∧ contradictsPin t = false := by
        intro hs
        have hs' : isSuccess (seen info t).httpStatus = true := hs
        rw [hs', Bool.true_and, Bool.not_eq_true] at hplain hpin
        exact ⟨hplain, hpin⟩
      split
      · rename_i h
        rw [Bool.and_eq_true, beq_iff_eq, Bool.not_eq_true'] at h
        have hs := hclean (by rw [show info.responseCode = 206 from h.1]; rfl)
        exact .misranged h.1 hs.1 hs.2 h.2
      · rename_i hrange
        refine .entered hclean fun h206 => ?_
        have h206' : (seen info t).httpStatus = 206 := h206
        rw [h206', beq_self_eq_true, Bool.true_and, Bool.not_eq_true', Bool.not_eq_false] at hrange
        exact hrange

theorem checkStatus_accepted {info : Info} {t : Transfer} (h : (checkStatus info t).2 = true) :
    checkStatus info t = enterBody info (restart (seen info t)) ∧
      (isSuccess info.responseCode = true →
        Detail.transformed t.encoding = false ∧ contradictsPin t = false) ∧
      (info.responseCode = 206 → validContentRange t = true) := by
  generalize hc : checkStatus info t = r at h ⊢
  have hr : Checked info t r := hc ▸ checkStatus_checked info t
  cases hr with
  | transformed => cases h
  | contradicted => cases h
  | misranged => cases h
  | entered hclean hvalid => exact ⟨rfl, hclean, hvalid⟩

/-- A `200` that is let in starts over, and skips up to the offset. -/
theorem enter_whole {info : Info} {t : Transfer} (h : info.responseCode = 200) :
    (enterBody info (restart (seen info t))).1.resumed = 0 ∧
    (enterBody info (restart (seen info t))).1.received =
      (if 0 < t.resumed then 0 else t.received) ∧
    ((enterBody info (restart (seen info t))).2 = true →
      (enterBody info (restart (seen info t))).1.skip =
        if 0 < add64 t.offset 0 then add64 t.offset 0 else t.skip) ∧
    ((enterBody info (restart (seen info t))).2 = false →
      (enterBody info (restart (seen info t))).1.rangeFallbackRejected = true ∧
      (enterBody info (restart (seen info t))).1.skip = t.skip) := by
  by_cases hr : 0 < t.resumed
  · have hrestart : restart (seen info t) = { seen info t with resumed := 0, received := 0 } :=
      if_pos ⟨h, hr⟩
    rw [hrestart]
    simp only [enterBody, noteLengths, seen, h, hr, true_and, if_true]
    split
    · split <;> simp
    · simp
  · have hrestart : restart (seen info t) = seen info t := if_neg fun hc => hr hc.2
    have hzero : t.resumed = 0 := by omega
    rw [hrestart]
    simp only [enterBody, noteLengths, seen, h, hzero, true_and]
    split
    · split <;> simp
    · simp

/-- Any other status that is let in goes on where the transfer was resumed. -/
theorem enter_other {info : Info} {t : Transfer} (h : info.responseCode ≠ 200) :
    enterBody info (restart (seen info t)) = (noteLengths info (seen info t), true) := by
  have hrestart : restart (seen info t) = seen info t := if_neg fun hc => h hc.1
  rw [hrestart]
  exact if_neg fun hc => h hc.1

theorem checkStatus_unchanged {info : Info} {t : Transfer} (h : (checkStatus info t).2 = true) :
    (checkStatus info t).1.versionChanged = t.versionChanged := by
  have hrestart : (restart (seen info t)).versionChanged = t.versionChanged := by
    unfold restart
    split <;> rfl
  rw [(checkStatus_accepted h).1, ← hrestart]
  simp only [enterBody]
  split
  · split <;> rfl
  · rfl

/-- A whole body that is let in: nothing is kept, and it is skipped up to the offset. -/
theorem checkStatus_whole {info : Info} {t : Transfer} (h : (checkStatus info t).2 = true)
    (h200 : info.responseCode = 200) (hskip : t.skip = 0) (hoffset : t.offset < 2 ^ 64) :
    (checkStatus info t).1.resumed = 0 ∧ (checkStatus info t).1.skip = t.offset := by
  obtain ⟨heq, -, -⟩ := checkStatus_accepted h
  rw [heq] at h ⊢
  obtain ⟨hres, -, hsk, -⟩ := enter_whole (t := t) h200
  refine ⟨hres, (hsk h).trans ?_⟩
  have hadd : add64 t.offset 0 = t.offset := add64_of_lt (by omega)
  rw [hadd, hskip]
  split <;> omega

/-- Any other body that is let in goes on where the transfer was. -/
theorem checkStatus_other {info : Info} {t : Transfer} (h : (checkStatus info t).2 = true)
    (h200 : info.responseCode ≠ 200) :
    (checkStatus info t).1.resumed = t.resumed ∧ (checkStatus info t).1.skip = t.skip := by
  rw [(checkStatus_accepted h).1, enter_other h200]
  exact ⟨rfl, rfl⟩

/-- What the first piece leaves alone. -/
theorem checkStatus_keeps (info : Info) (t : Transfer) :
    (checkStatus info t).1.checkedStatus = true ∧
    (checkStatus info t).1.httpStatus = info.responseCode ∧
    (checkStatus info t).1.satisfied = t.satisfied ∧
    (checkStatus info t).1.scatterCursor = t.scatterCursor := by
  have hrestart : ∀ u : Transfer, (restart u).checkedStatus = u.checkedStatus ∧
      (restart u).httpStatus = u.httpStatus ∧ (restart u).satisfied = u.satisfied ∧
      (restart u).scatterCursor = u.scatterCursor := by
    intro u
    unfold restart
    split <;> exact ⟨rfl, rfl, rfl, rfl⟩
  have henter : ∀ u : Transfer, (enterBody info u).1.checkedStatus = u.checkedStatus ∧
      (enterBody info u).1.httpStatus = u.httpStatus ∧
      (enterBody info u).1.satisfied = u.satisfied ∧
      (enterBody info u).1.scatterCursor = u.scatterCursor := by
    intro u
    simp only [enterBody]
    split
    · split <;> exact ⟨rfl, rfl, rfl, rfl⟩
    · exact ⟨rfl, rfl, rfl, rfl⟩
  generalize hc : checkStatus info t = r
  have hr : Checked info t r := hc ▸ checkStatus_checked info t
  cases hr with
  | transformed => exact ⟨rfl, rfl, rfl, rfl⟩
  | contradicted => exact ⟨rfl, rfl, rfl, rfl⟩
  | misranged => exact ⟨rfl, rfl, rfl, rfl⟩
  | entered =>
      obtain ⟨h₁, h₂, h₃, h₄⟩ := henter (restart (seen info t))
      obtain ⟨k₁, k₂, k₃, k₄⟩ := hrestart (seen info t)
      exact ⟨h₁.trans k₁, h₂.trans k₂, h₃.trans k₃, h₄.trans k₄⟩

/-- Before the first byte is stored, `received` is what is kept, and that is what was
kept before the response or nothing at all. -/
theorem checkStatus_counters (info : Info) {t : Transfer} (h : t.received = t.resumed) :
    (checkStatus info t).1.received = (checkStatus info t).1.resumed ∧
    ((checkStatus info t).1.resumed = t.resumed ∨
      info.responseCode = 200 ∧ (checkStatus info t).1.resumed = 0) := by
  generalize hc : checkStatus info t = r
  have hr : Checked info t r := hc ▸ checkStatus_checked info t
  cases hr with
  | transformed => exact ⟨h, Or.inl rfl⟩
  | contradicted => exact ⟨h, Or.inl rfl⟩
  | misranged => exact ⟨h, Or.inl rfl⟩
  | entered =>
      by_cases h200 : info.responseCode = 200
      · obtain ⟨hres, hrec, -, -⟩ := enter_whole (t := t) h200
        refine ⟨?_, Or.inr ⟨h200, hres⟩⟩
        rw [hres, hrec]
        split <;> omega
      · rw [enter_other h200]
        exact ⟨h, Or.inl rfl⟩

theorem Live.Stored.checkStatus {s : Live β} (h : s.Stored) (hc : s.transfer.checkedStatus = false)
    (info : Info) : (s.update (checkStatus info s.transfer).1).Stored := by
  obtain ⟨hreceived, hcursor, -⟩ := h.fresh hc
  obtain ⟨hchecked, -, hsat, hcur⟩ := checkStatus_keeps info s.transfer
  obtain ⟨heq, hres⟩ := checkStatus_counters info hreceived
  have hlength : (Karu.checkStatus info s.transfer).1.length = s.transfer.length :=
    field_of_head (·.length) (head_checkStatus info s.transfer)
  have hkept := h.resumed_lt
  have hlt : (Karu.checkStatus info s.transfer).1.resumed < s.transfer.length := by omega
  have hplaced : (s.update (Karu.checkStatus info s.transfer).1).Placed := by
    refine h.toPlaced.shrink rfl rfl (plan_of_core (core_of_head (head_checkStatus _ _))) heq.ge hlt
      ?_ (Or.inl (hcur.trans hcursor))
    show (Karu.checkStatus info s.transfer).1.received ≤ s.transfer.received
    omega
  refine ⟨hplaced, ?_, fun hno => by simp [Live.update, hchecked] at hno⟩
  show (Karu.checkStatus info s.transfer).1.satisfied = true ↔
    (Karu.checkStatus info s.transfer).1.received = (Karu.checkStatus info s.transfer).1.length
  rw [hsat, h.satisfied_iff, hlength]
  omega

/-! ## The pieces after it -/

/-- What one piece does once the status has been checked. -/
structure Consumes (data : List β) (s s' : Live β) : Prop where
  stored : s'.Stored
  checked : s'.transfer.checkedStatus = true
  status_eq : s'.transfer.httpStatus = s.transfer.httpStatus
  resumed_eq : s'.transfer.resumed = s.transfer.resumed
  length_eq : s'.transfer.length = s.transfer.length
  changed_eq : s'.transfer.versionChanged = s.transfer.versionChanged
  skip_eq : s'.transfer.skip = s.transfer.skip - data.length
  stream_eq : s'.stream =
    s.stream ++ (data.drop s.transfer.skip).take (s.transfer.length - s.transfer.received)

theorem writePayload_consumes {s : Live β} (h : s.Stored) (hc : s.transfer.checkedStatus = true)
    (hs : s.transfer.satisfied = false) (data : List β) :
    Consumes data s (writePayload data s).1 ∧
      ((writePayload data s).2 = false → (writePayload data s).1.transfer.satisfied = true) := by
  have hmissing : s.transfer.received < s.transfer.length := by
    have := h.received_le
    have : s.transfer.received ≠ s.transfer.length := fun he => by
      simp [h.satisfied_iff.mpr he] at hs
    omega
  have hroom : sub64 s.transfer.length s.transfer.received =
      s.transfer.length - s.transfer.received :=
    sub64_of_le h.received_le h.layout.length_lt
  have hs₁ : (dropSkipped data s).Placed := h.toPlaced.congr rfl rfl rfl rfl rfl rfl
  simp only [writePayload]
  split
  · -- everything was skipped
    rename_i hempty
    have hnil : data.drop s.transfer.skip = [] := List.isEmpty_iff.mp hempty
    refine ⟨⟨⟨hs₁, h.satisfied_iff, fun hno => ?_⟩, hc, rfl, rfl, rfl, rfl, rfl, ?_⟩,
      fun hno => by cases hno⟩
    · exact absurd (hc.symm.trans hno) (by decide)
    · simp [hnil, dropSkipped]
  · rename_i hrest
    set rest := data.drop s.transfer.skip
    have hpos : 0 < rest.length := List.length_pos_iff.mpr fun hnil => hrest (by simp [hnil])
    have htake : min (sub64 (dropSkipped data s).transfer.length
        (dropSkipped data s).transfer.received) rest.length =
        min (s.transfer.length - s.transfer.received) rest.length := by rw [← hroom]; rfl
    rw [htake, if_pos (show 0 < min (s.transfer.length - s.transfer.received) rest.length by omega)]
    set chunk := rest.take (min (s.transfer.length - s.transfer.received) rest.length)
      with hchunk
    have hfits : (dropSkipped data s).transfer.received + chunk.length ≤
        (dropSkipped data s).transfer.length := by
      show s.transfer.received + chunk.length ≤ s.transfer.length
      rw [hchunk, List.length_take]
      omega
    have hstream : (storePayload chunk (dropSkipped data s)).stream =
        s.stream ++ rest.take (s.transfer.length - s.transfer.received) := by
      rw [storePayload_stream, hchunk, ← List.take_eq_take_min]
      rfl
    have hplaced := hs₁.store hfits
    obtain ⟨received, cursor, ht⟩ := storePayload_transfer chunk (dropSkipped data s)
    generalize storePayload chunk (dropSkipped data s) = s₂ at ht hplaced hstream ⊢
    have hchecked : s₂.transfer.checkedStatus = true := by rw [ht]; exact hc
    have hunsat : s₂.transfer.satisfied = false := by rw [ht]; exact hs
    have hstatus : s₂.transfer.httpStatus = s.transfer.httpStatus := by rw [ht]; rfl
    have hresumed : s₂.transfer.resumed = s.transfer.resumed := by rw [ht]; rfl
    have hlength : s₂.transfer.length = s.transfer.length := by rw [ht]; rfl
    have hchanged : s₂.transfer.versionChanged = s.transfer.versionChanged := by rw [ht]; rfl
    have hskip : s₂.transfer.skip = s.transfer.skip - data.length := by rw [ht]; rfl
    have hnotfresh : s₂.transfer.checkedStatus ≠ false := by rw [hchecked]; decide
    split
    · rename_i hfull
      exact ⟨⟨⟨hplaced.congr rfl rfl rfl rfl rfl rfl, iff_of_true rfl hfull,
        fun hno => absurd hno hnotfresh⟩, hchecked, hstatus, hresumed, hlength, hchanged, hskip,
        hstream⟩, fun _ => rfl⟩
    · rename_i hfull
      exact ⟨⟨⟨hplaced, iff_of_false (by rw [hunsat]; decide) hfull,
        fun hno => absurd hno hnotfresh⟩, hchecked, hstatus, hresumed, hlength, hchanged, hskip,
        hstream⟩, fun hno => by cases hno⟩

/-- `read` is the body so far, `kept` what the transfer had before it, and the first
`skip` bytes of the body are not wanted. -/
structure Reading (status : Int) (kept : List β) (skip : Nat) (read : List β) (s : Live β) :
    Prop where
  stored : s.Stored
  checked : s.transfer.checkedStatus = true
  status_eq : s.transfer.httpStatus = status
  unchanged : s.transfer.versionChanged = false
  resumed_eq : s.transfer.resumed = kept.length
  skip_eq : s.transfer.skip = skip - read.length
  stream_eq : s.stream = kept ++ (read.drop skip).take (s.transfer.length - kept.length)

section Reading

variable {status : Int} {kept : List β} {skip : Nat} {read : List β} {s : Live β}

theorem Reading.received_eq (h : Reading status kept skip read s) :
    s.transfer.received = kept.length + min (s.transfer.length - kept.length) (read.length - skip) := by
  rw [← h.stored.stream_length, h.stream_eq, List.length_append, List.length_take, List.length_drop]

/-- Once satisfied, it does not matter what else the body holds. -/
theorem Reading.more (h : Reading status kept skip read s) (hs : s.transfer.satisfied = true)
    (data : List β) : Reading status kept skip (read ++ data) s := by
  have hfull := h.stored.satisfied_iff.mp hs
  have hlt := h.stored.resumed_lt
  rw [h.resumed_eq] at hlt
  rw [h.received_eq] at hfull
  have henough : s.transfer.length - kept.length ≤ (read.drop skip).length := by
    rw [List.length_drop]
    omega
  refine ⟨h.stored, h.checked, h.status_eq, h.unchanged, h.resumed_eq, ?_, ?_⟩
  · rw [h.skip_eq, List.length_append]
    rw [List.length_drop] at henough
    omega
  · rw [h.stream_eq, List.drop_append, List.take_append_of_le_length henough]

variable [Octet β]

theorem writeBody_payload {data : List β} (h : s.transfer.httpStatus < 300) :
    writeBody data s = writePayload data s := by
  have h₁ : isRedirect s.transfer.httpStatus = false := by
    simp only [isRedirect, Bool.and_eq_false_iff, decide_eq_false_iff_not]
    omega
  have h₂ : ¬ (300 : Int) ≤ s.transfer.httpStatus := by omega
  simp only [writeBody, h₁, Bool.false_and, Bool.false_eq_true, if_false, if_neg h₂]

theorem Reading.writeCallback (h : Reading status kept skip read s) (hstatus : status < 300)
    (info : Info) (data : List β) :
    Reading status kept skip (read ++ data) (writeCallback info data s).1 ∧
      ((writeCallback info data s).2 = false →
        (writeCallback info data s).1.transfer.satisfied = true) := by
  unfold Karu.writeCallback
  split
  · rename_i hs
    exact ⟨h.more hs data, fun hno => by cases hno⟩
  · rename_i hs
    rw [if_pos h.checked, writeBody_payload (by rw [h.status_eq]; exact hstatus)]
    obtain ⟨hc, hrefuse⟩ := writePayload_consumes h.stored h.checked (by simpa using hs) data
    refine ⟨⟨hc.stored, hc.checked, hc.status_eq.trans h.status_eq,
      hc.changed_eq.trans h.unchanged, hc.resumed_eq.trans h.resumed_eq, ?_, ?_⟩, hrefuse⟩
    · rw [hc.skip_eq, h.skip_eq, List.length_append]
      omega
    · have hwant : s.transfer.length - s.transfer.received =
          s.transfer.length - kept.length - (read.drop skip).length := by
        rw [h.received_eq, List.length_drop]
        omega
      rw [hc.stream_eq, hc.length_eq, h.stream_eq, h.skip_eq, hwant, List.append_assoc,
        List.drop_append, List.take_append]

/-- The whole rest of a body, however it is cut. -/
theorem Reading.feed (hstatus : status < 300) (info : Info) :
    ∀ (chunks : List (List β)) {read : List β} {s : Live β}, Reading status kept skip read s →
      Reading status kept skip (read ++ chunks.flatten)
          (Base.feed (Karu.writeCallback info) chunks s).1 ∧
        ((Base.feed (Karu.writeCallback info) chunks s).2 = false →
          (Base.feed (Karu.writeCallback info) chunks s).1.transfer.satisfied = true)
  | [], read, s, h => ⟨by simpa using h, fun hno => by cases hno⟩
  | c :: cs, read, s, h => by
      obtain ⟨hnext, hrefuse⟩ := h.writeCallback hstatus info c
      cases hv : (Karu.writeCallback info c s).2 with
      | true =>
          rw [feed_cons_true hv, List.flatten_cons, ← List.append_assoc]
          exact Reading.feed hstatus info cs hnext
      | false =>
          rw [feed_cons_false hv, List.flatten_cons, ← List.append_assoc]
          exact ⟨hnext.more (hrefuse hv) _, fun _ => hrefuse hv⟩

end Reading

/-! ## A body from its first piece to its last -/

section Whole

variable {s : Live β}

/-- The transfer but for the body of an error, which is captured and stored nowhere. -/
def Transfer.uncaptured (t : Transfer) : Transfer :=
  { t with errorBody := [], errorBodyReceived := 0 }

theorem field_of_uncaptured {γ : Type} (f : Transfer → γ) {t t' : Transfer}
    (h : t'.uncaptured = t.uncaptured)
    (hf : ∀ t : Transfer, f t.uncaptured = f t := by intro; rfl) : f t' = f t :=
  (hf t').symm.trans ((congrArg f h).trans (hf t))

/-- Two states that differ in a captured error body only. -/
structure Captured (s s' : Live β) : Prop where
  transfer_eq : s'.transfer.uncaptured = s.transfer.uncaptured
  memory_eq : s'.memory = s.memory
  stream_eq : s'.stream = s.stream

theorem Captured.stored {s s' : Live β} (hc : Captured s s') (h : s.Stored) : s'.Stored := by
  have hreceived : s'.transfer.received = s.transfer.received :=
    field_of_uncaptured (·.received) hc.transfer_eq
  have hresumed : s'.transfer.resumed = s.transfer.resumed :=
    field_of_uncaptured (·.resumed) hc.transfer_eq
  have hcursor : s'.transfer.scatterCursor = s.transfer.scatterCursor :=
    field_of_uncaptured (·.scatterCursor) hc.transfer_eq
  refine ⟨h.toPlaced.congr hc.memory_eq hc.stream_eq (field_of_uncaptured (·.plan) hc.transfer_eq)
    hresumed hreceived hcursor, ?_, ?_⟩
  · rw [hreceived, field_of_uncaptured (·.satisfied) hc.transfer_eq,
      field_of_uncaptured (·.length) hc.transfer_eq]
    exact h.satisfied_iff
  · rw [hreceived, hresumed, hcursor, field_of_uncaptured (·.skip) hc.transfer_eq,
      field_of_uncaptured (·.checkedStatus) hc.transfer_eq]
    exact h.fresh

variable [Octet β]

theorem writeBody_error (data : List β) (hstatus : 300 ≤ s.transfer.httpStatus) :
    Captured s (writeBody data s).1 := by
  simp only [writeBody, hstatus, if_true]
  split
  · exact ⟨rfl, rfl, rfl⟩
  · split <;> exact ⟨rfl, rfl, rfl⟩

theorem writeCallback_error {info : Info} {data : List β} (hc : s.transfer.checkedStatus = true)
    (hstatus : 300 ≤ s.transfer.httpStatus) : Captured s (writeCallback info data s).1 := by
  have hcallback : writeCallback info data s = (s, true) ∨
      writeCallback info data s = writeBody data s := by
    simp only [writeCallback, hc, if_true]
    split
    · exact Or.inl rfl
    · exact Or.inr rfl
  rcases hcallback with h | h
  · rw [h]
    exact ⟨rfl, rfl, rfl⟩
  · rw [h]
    exact writeBody_error data hstatus

theorem feed_error (info : Info) (chunks : List (List β)) (hc : s.transfer.checkedStatus = true)
    (hstatus : 300 ≤ s.transfer.httpStatus) :
    Captured s (feed (writeCallback info) chunks s).1 := by
  refine feed_induct (P := fun s' => Captured s s') (fun data _ s' hs' => ?_) ⟨rfl, rfl, rfl⟩
  have hnext : Captured s' (writeCallback info data s').1 := by
    refine writeCallback_error ?_ ?_
    · rw [field_of_uncaptured (·.checkedStatus) hs'.transfer_eq]
      exact hc
    · rw [field_of_uncaptured (·.httpStatus) hs'.transfer_eq]
      exact hstatus
  exact ⟨hnext.transfer_eq.trans hs'.transfer_eq, hnext.memory_eq.trans hs'.memory_eq,
    hnext.stream_eq.trans hs'.stream_eq⟩

theorem feed_unchecked (info : Info) {chunks : List (List β)} (hne : chunks ≠ [])
    (hc : s.transfer.checkedStatus = false) (hs : s.transfer.satisfied = false) :
    feed (writeCallback info) chunks s =
      if (checkStatus info s.transfer).2 then
        feed (writeCallback info) chunks (s.update (checkStatus info s.transfer).1)
      else (s.update (checkStatus info s.transfer).1, false) := by
  obtain ⟨hchecked, -, hsat, -⟩ := checkStatus_keeps info s.transfer
  obtain ⟨c, cs, rfl⟩ := List.exists_cons_of_ne_nil hne
  cases hv : (checkStatus info s.transfer).2 with
  | true =>
      have hsame : writeCallback info c s =
          writeCallback info c (s.update (checkStatus info s.transfer).1) := by
        have h₁ : (s.update (checkStatus info s.transfer).1).transfer.satisfied = false :=
          hsat.trans hs
        have h₂ : (s.update (checkStatus info s.transfer).1).transfer.checkedStatus = true :=
          hchecked
        simp [writeCallback, hs, hc, hv, h₁, h₂]
      simp only [feed, hsame, if_true]
  | false =>
      have hrefuse : writeCallback info c s = (s.update (checkStatus info s.transfer).1, false) := by
        simp [writeCallback, hs, hc, hv]
      rw [feed_cons_false (by rw [hrefuse]), hrefuse]
      rfl

/-- How a body ends: it has no bytes, its first piece is refused, it is an error's, or
it is read. -/
inductive BodyEnd (r : Response β) (s : Live β) : Live β × Bool → Prop
  | empty : r.chunks = [] → BodyEnd r s (s, true)
  | refused : r.chunks ≠ [] → (checkStatus r.info s.transfer).2 = false →
      BodyEnd r s (s.update (checkStatus r.info s.transfer).1, false)
  | error {s' : Live β} {accepted : Bool} : r.chunks ≠ [] →
      (checkStatus r.info s.transfer).2 = true → 300 ≤ r.code →
      Captured (s.update (checkStatus r.info s.transfer).1) s' → BodyEnd r s (s', accepted)
  | payload {s' : Live β} {accepted : Bool} : r.chunks ≠ [] →
      (checkStatus r.info s.transfer).2 = true → r.code < 300 →
      Reading r.code (s.stream.take (checkStatus r.info s.transfer).1.resumed)
        (checkStatus r.info s.transfer).1.skip r.body s' →
      (accepted = false → s'.transfer.satisfied = true) → BodyEnd r s (s', accepted)

theorem feed_bodyEnd (r : Response β) (h : s.Stored) (hc : s.transfer.checkedStatus = false)
    (hv : s.transfer.versionChanged = false) :
    BodyEnd r s (feed (writeCallback r.info) r.chunks s) := by
  by_cases hne : r.chunks = []
  · rw [hne]
    exact .empty hne
  · obtain ⟨hreceived, -, -⟩ := h.fresh hc
    have hs : s.transfer.satisfied = false := by
      have := h.resumed_lt
      by_contra hsat
      have := h.satisfied_iff.mp (by simpa using hsat)
      omega
    obtain ⟨hchecked, hstatus, hsat, -⟩ := checkStatus_keeps r.info s.transfer
    obtain ⟨heq, -⟩ := checkStatus_counters r.info hreceived
    have hstored := h.checkStatus hc r.info
    rw [feed_unchecked r.info hne hc hs]
    cases hgo : (checkStatus r.info s.transfer).2 with
    | false => exact .refused hne hgo
    | true =>
        simp only [if_true]
        rcases Int.lt_or_le r.code 300 with hcode | hcode
        · have hkept : (s.stream.take (checkStatus r.info s.transfer).1.resumed).length =
              (checkStatus r.info s.transfer).1.resumed := by
            have hle := hstored.stream_length
            simp only [Live.update] at hle
            rwa [heq] at hle
          have hstart : Reading r.code (s.stream.take (checkStatus r.info s.transfer).1.resumed)
              (checkStatus r.info s.transfer).1.skip []
              (s.update (checkStatus r.info s.transfer).1) := by
            refine ⟨hstored, hchecked, hstatus, ?_, hkept.symm, rfl, ?_⟩
            · exact (checkStatus_unchanged hgo).trans hv
            · simp [Live.update, heq]
          obtain ⟨hread, hrefuse⟩ := Reading.feed hcode r.info r.chunks hstart
          exact .payload hne hgo hcode (by simpa [Response.body] using hread) hrefuse
        · exact .error hne hgo hcode (feed_error r.info r.chunks hchecked
            (by show 300 ≤ (checkStatus r.info s.transfer).1.httpStatus; rw [hstatus]; exact hcode))

end Whole

end Karu
