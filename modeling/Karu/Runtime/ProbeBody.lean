/-
# `Karu.Runtime.ProbeBody` — how the body of a response to a probe ends

Once `start_body` has let a body in, the callback skips what comes before the
range and stores what is wanted of the rest (`ProbeReading`).  A body ends
because there is no more of it, or because the callback cuts it off: a `206`
that goes on past its range, a `200` of which all that is wanted has been
stored.  `ProbeEnd` lists the ends, for any server.
-/
import Karu.Runtime.ProbeBounds

namespace Karu

open Base

variable {β : Type}

/-! ## The body of a response -/

/-- The state without what `probe_body_callback` writes once a body has been let in. -/
def ProbeState.settings (p : ProbeState) : ProbeState :=
  { p with skip := 0, stored := 0, cutShort := false, bodyExceededRange := false }

theorem ProbeState.field_of_settings {γ : Type} (f : ProbeState → γ) {p p' : ProbeState}
    (h : p'.settings = p.settings)
    (hf : ∀ p : ProbeState, f p.settings = f p := by intro; rfl) : f p' = f p :=
  (hf p').symm.trans ((congrArg f h).trans (hf p))

/-- `read` is the body so far; `p` is the state in which it was let in, with nothing stored. -/
structure ProbeReading (p : ProbeState) (read : List β) (s : Probing β) : Prop where
  settings_eq : s.state.settings = p.settings
  skip_eq : s.state.skip = p.skip - read.length
  stored_eq : s.state.stored = min p.wanted (read.length - p.skip)
  memory_eq : s.memory.read () 0 s.state.stored = (read.drop p.skip).take p.wanted

/-- Why a body that is being read is cut off: a `206` went on past its range, or a `200` has
all that is wanted. -/
def ProbeReading.CutOff (info : Info) (p : ProbeState) (s : Probing β) : Prop :=
  info.responseCode = 206 ∧ s.state.bodyExceededRange = true ∨
    info.responseCode = 200 ∧ s.state.cutShort = true ∧ s.state.skip = 0 ∧ s.state.stored = p.wanted

section Reading

variable {p : ProbeState} {read : List β} {s : Probing β}

theorem ProbeReading.begin (h : p.stored = 0) (m : Memory Unit β) : ProbeReading p [] ⟨p, m⟩ := by
  refine ⟨rfl, by simp, ?_, ?_⟩
  · show p.stored = _
    rw [h]
    simp
  · show m.read () 0 p.stored = _
    rw [h]
    simp [Memory.read]

/-- What is appended to the destination reads back after what it held. -/
theorem read_append (m : Memory Unit β) {n : Nat} {data : List β} :
    (m.memcpy () n data).read () 0 (n + data.length) = m.read () 0 n ++ data := by
  apply List.ext_getElem
  · simp
  · intro i h₁ h₂
    rw [Memory.length_read] at h₁
    simp only [Memory.read, List.getElem_map, List.getElem_range, Nat.zero_add]
    by_cases hold : i < n
    · rw [Memory.cell_memcpy_outside m (Or.inr (Or.inl hold)),
        List.getElem_append_left (by simpa using hold)]
      simp
    · rw [Memory.cell_memcpy_inside m () (by omega) (by omega),
        List.getElem_append_right (by simpa using Nat.le_of_not_lt hold)]
      simp

/-- One more piece of the body. -/
theorem ProbeReading.payload (h : ProbeReading p read s) (hlt : p.wanted < 2 ^ 64) (info : Info)
    (data : List β) :
    ((probePayload info data s).2 = true →
        ProbeReading p (read ++ data) (probePayload info data s).1) ∧
      ((probePayload info data s).2 = false →
        ProbeReading.CutOff info p (probePayload info data s).1 ∧
          (info.responseCode = 200 →
            ProbeReading p (read ++ data) (probePayload info data s).1)) ∧
      ((probePayload info data s).1.state.settings = p.settings) := by
  have hwanted : s.state.wanted = p.wanted := ProbeState.field_of_settings (·.wanted) h.settings_eq
  have hstored := h.stored_eq
  have hroom : sub64 s.state.wanted s.state.stored = p.wanted - s.state.stored := by
    rw [hwanted]
    exact sub64_of_le (by omega) hlt
  -- what is new of the piece, and how much of it is stored
  have hrest : (data.drop s.state.skip).length = data.length - (p.skip - read.length) := by
    rw [List.length_drop, h.skip_eq]
  have hbytes : ((read ++ data).drop p.skip).take p.wanted =
      (read.drop p.skip).take p.wanted ++
        (data.drop s.state.skip).take (p.wanted - s.state.stored) := by
    rw [List.drop_append, List.take_append, List.length_drop, h.skip_eq, hstored]
    congr 2
    omega
  have hnext : ∀ cut : Bool, ProbeReading p (read ++ data)
      ⟨{ s.state with
          skip := s.state.skip - data.length,
          stored := s.state.stored + min (p.wanted - s.state.stored) (data.drop s.state.skip).length,
          cutShort := cut },
        if 0 < min (p.wanted - s.state.stored) (data.drop s.state.skip).length then
          s.memory.memcpy () s.state.stored ((data.drop s.state.skip).take
            (min (p.wanted - s.state.stored) (data.drop s.state.skip).length))
        else s.memory⟩ := by
    intro cut
    refine ⟨h.settings_eq, ?_, ?_, ?_⟩
    · show s.state.skip - data.length = _
      rw [h.skip_eq, List.length_append]
      omega
    · show s.state.stored + _ = _
      rw [hrest, List.length_append]
      omega
    · have htake : (data.drop s.state.skip).take
          (min (p.wanted - s.state.stored) (data.drop s.state.skip).length) =
          (data.drop s.state.skip).take (p.wanted - s.state.stored) := by
        rw [List.take_eq_take_iff]
        omega
      have hlen : ((data.drop s.state.skip).take (p.wanted - s.state.stored)).length =
          min (p.wanted - s.state.stored) (data.drop s.state.skip).length := List.length_take
      simp only [htake]
      rw [hbytes, ← h.memory_eq]
      split
      · rw [← hlen]
        exact read_append s.memory
      · rename_i hnone
        have hzero : min (p.wanted - s.state.stored) (data.drop s.state.skip).length = 0 := by omega
        rw [hzero, List.length_eq_zero_iff.mp (hlen.trans hzero), List.append_nil, Nat.add_zero]
  simp only [probePayload, hroom]
  split
  · rename_i hover
    refine ⟨fun hno => (by cases hno), fun _ => ⟨Or.inl ⟨hover.1, rfl⟩, fun h200 => ?_⟩,
      h.settings_eq⟩
    omega
  · split
    · rename_i hfull
      refine ⟨fun hno => (by cases hno), fun _ => ⟨Or.inr ⟨hfull.1, rfl, hfull.2.1, ?_⟩, fun _ => hnext true⟩,
        h.settings_eq⟩
      exact hfull.2.2.trans hwanted
    · exact ⟨fun _ => hnext s.state.cutShort, fun hno => (by cases hno), h.settings_eq⟩

variable [Octet β]

theorem probeBodyCallback_payload {info : Info} (hstarted : s.state.started = true)
    (hcode : info.responseCode < 300) (data : List β) :
    probeBodyCallback info data s = probePayload info data s := by
  have hredirect : isRedirect info.responseCode = false := by
    simp only [isRedirect, Bool.and_eq_false_iff, decide_eq_false_iff_not]
    omega
  have hlow : ¬ (300 : Int) ≤ info.responseCode := by omega
  simp only [probeBodyCallback, hredirect, Bool.false_and, Bool.false_eq_true, if_false, if_neg hlow,
    hstarted, if_true]

/-- The whole rest of a body that has been let in. -/
theorem ProbeReading.feed (hlt : p.wanted < 2 ^ 64) (hstarted : p.started = true) {info : Info}
    (hcode : info.responseCode < 300) :
    ∀ (chunks : List (List β)) {read : List β} {s : Probing β}, ProbeReading p read s →
      (Base.feed (probeBodyCallback info) chunks s).1.state.settings = p.settings ∧
      ((Base.feed (probeBodyCallback info) chunks s).2 = true →
        ProbeReading p (read ++ chunks.flatten) (Base.feed (probeBodyCallback info) chunks s).1) ∧
      ((Base.feed (probeBodyCallback info) chunks s).2 = false →
        ProbeReading.CutOff info p (Base.feed (probeBodyCallback info) chunks s).1 ∧
          (info.responseCode = 200 → ∃ read', read' <+: read ++ chunks.flatten ∧
            ProbeReading p read' (Base.feed (probeBodyCallback info) chunks s).1))
  | [], read, s, h => ⟨h.settings_eq, fun _ => by simpa using h, fun hno => by cases hno⟩
  | c :: cs, read, s, h => by
      have hs : s.state.started = true :=
        (ProbeState.field_of_settings (·.started) h.settings_eq).trans hstarted
      have hstep := probeBodyCallback_payload (s := s) hs hcode c
      obtain ⟨hgo, hstop, hsettings⟩ := h.payload hlt info c
      rw [List.flatten_cons, ← List.append_assoc]
      cases hv : (probePayload info c s).2 with
      | true =>
          rw [feed_cons_true (by rw [hstep]; exact hv), hstep]
          exact ProbeReading.feed hlt hstarted hcode cs (hgo hv)
      | false =>
          obtain ⟨hcut, hread⟩ := hstop hv
          rw [feed_cons_false (by rw [hstep]; exact hv), hstep]
          exact ⟨hsettings, fun hno => (by cases hno),
            fun _ => ⟨hcut, fun h200 => ⟨_, List.prefix_append _ _, hread h200⟩⟩⟩

end Reading

/-- The state but for the body of an error. -/
def ProbeState.uncaptured (p : ProbeState) : ProbeState :=
  { p with errorBody := [], errorBodyReceived := 0 }

theorem ProbeState.field_of_uncaptured {γ : Type} (f : ProbeState → γ) {p p' : ProbeState}
    (h : p'.uncaptured = p.uncaptured)
    (hf : ∀ p : ProbeState, f p.uncaptured = f p := by intro; rfl) : f p' = f p :=
  (hf p').symm.trans ((congrArg f h).trans (hf p))

/-- How the body of a response ends, `p` being the state its header lines leave. -/
inductive ProbeEnd (r : Response β) (p : ProbeState) (m : Memory Unit β) : Probing β × Bool → Prop
  | empty : r.chunks = [] → ProbeEnd r p m (⟨p, m⟩, true)
  | error {s : Probing β} {accepted : Bool} : 300 ≤ r.code →
      s.state.uncaptured = p.uncaptured → s.memory = m → ProbeEnd r p m (s, accepted)
  | refused {p' : ProbeState} : r.chunks ≠ [] → r.code < 300 →
      startBody r.info { p with started := true } = (p', false) →
      ProbeEnd r p m (⟨{ p' with cutShort := true }, m⟩, false)
  | whole {p' : ProbeState} {s : Probing β} : r.chunks ≠ [] → r.code < 300 →
      startBody r.info { p with started := true } = (p', true) → ProbeReading p' r.body s →
      s.state.cutShort = p.cutShort →
      (r.code = 200 → s.state.skip = 0 → s.state.stored ≠ s.state.wanted) → ProbeEnd r p m (s, true)
  | cut {p' : ProbeState} {s : Probing β} : r.chunks ≠ [] → r.code < 300 →
      startBody r.info { p with started := true } = (p', true) → s.state.settings = p'.settings →
      ProbeReading.CutOff r.info p' s →
      (r.code = 200 → ∃ read, read <+: r.body ∧ ProbeReading p' read s) → ProbeEnd r p m (s, false)

/-- A body that is let in starts with nothing stored, and is to have less than `2 ^ 64` bytes. -/
theorem startBody_enters {info : Info} {p p' : ProbeState} (h : startBody info p = (p', true)) :
    p'.stored = p.stored ∧ p'.started = p.started ∧ p'.wanted < 2 ^ 64 := by
  have hcases := startBody_cases info p
  rw [h] at hcases
  cases hcases with
  | partly =>
      refine ⟨rfl, rfl, ?_⟩
      exact Nat.mod_lt _ (by decide)
  | whole _ hsame hle =>
      refine ⟨ProbeState.field_of_unstarted (·.stored) hsame,
        ProbeState.field_of_unstarted (·.started) hsame, ?_⟩
      have := p.range.length_lt
      omega

/-- `start_body` cuts nothing short by itself. -/
theorem BodyStart.uncut {info : Info} {p : ProbeState} {x : ProbeState × Bool}
    (h : BodyStart info p x) : x.1.cutShort = p.cutShort := by
  cases h with
  | refused hsame => exact ProbeState.field_of_unstarted (·.cutShort) hsame
  | partly =>
      -- for any number: the kernel would compare the 64-bit difference with `p.wanted` first
      have hwanted : ∀ n, ({ p with wanted := n } : ProbeState).cutShort = p.cutShort :=
        fun _ => rfl
      exact hwanted _
  | whole _ hsame => exact ProbeState.field_of_unstarted (·.cutShort) hsame

theorem BodyStart.blocked {info : Info} {p : ProbeState} {x : ProbeState × Bool}
    (h : BodyStart info p x) : x.1.redirectBlocked = p.redirectBlocked := by
  cases h with
  | refused hsame => exact ProbeState.field_of_unstarted (·.redirectBlocked) hsame
  | partly =>
      have hwanted : ∀ n, ({ p with wanted := n } : ProbeState).redirectBlocked = p.redirectBlocked :=
        fun _ => rfl
      exact hwanted _
  | whole _ hsame => exact ProbeState.field_of_unstarted (·.redirectBlocked) hsame

theorem BodyStart.reset {info : Info} {p : ProbeState} {x : ProbeState × Bool}
    (h : BodyStart info p x) : x.1.resetResponse = p.resetResponse := by
  cases h with
  | refused hsame => exact ProbeState.field_of_unstarted (·.resetResponse) hsame
  | partly =>
      have hwanted : ∀ n, ({ p with wanted := n } : ProbeState).resetResponse = p.resetResponse :=
        fun _ => rfl
      exact hwanted _
  | whole _ hsame => exact ProbeState.field_of_unstarted (·.resetResponse) hsame

theorem probePayload_uncut {info : Info} {data : List β} {s : Probing β}
    (h : (probePayload info data s).2 = true) :
    (probePayload info data s).1.state.cutShort = s.state.cutShort := by
  simp only [probePayload] at h ⊢
  split at h
  · cases h
  · rename_i hroom
    rw [if_neg hroom]
    split at h
    · cases h
    · rename_i hmore
      rw [if_neg hmore]

/-- A piece that is accepted cuts nothing short. -/
theorem probeBodyCallback_uncut [Octet β] {info : Info} {data : List β} {s : Probing β}
    (h : (probeBodyCallback info data s).2 = true) :
    (probeBodyCallback info data s).1.state.cutShort = s.state.cutShort := by
  have hstart := (startBody_cases info { s.state with started := true }).uncut
  unfold probeBodyCallback at h ⊢
  generalize startBody info { s.state with started := true } = x at h hstart ⊢
  obtain ⟨p, proceed⟩ := x
  split at h
  · rename_i hredirect
    rw [if_pos hredirect]
  · rename_i hredirect
    rw [if_neg hredirect]
    split at h
    · rename_i herror
      rw [if_pos herror]
      simp only [probeError]
      split
      · rfl
      · rfl
    · rename_i herror
      rw [if_neg herror]
      split at h
      · rename_i hstarted
        rw [if_pos hstarted]
        exact probePayload_uncut h
      · rename_i hstarted
        rw [if_neg hstarted]
        cases proceed with
        | true => exact (probePayload_uncut h).trans hstart
        | false => cases h

theorem probePayload_open {info : Info} {data : List β} {s : Probing β}
    (h : (probePayload info data s).2 = true) (h200 : info.responseCode = 200)
    (hskip : (probePayload info data s).1.state.skip = 0) :
    (probePayload info data s).1.state.stored ≠ (probePayload info data s).1.state.wanted := by
  simp only [probePayload] at h hskip ⊢
  split at h
  · cases h
  · rename_i hroom
    rw [if_neg hroom] at hskip ⊢
    split at h
    · cases h
    · rename_i hmore
      rw [if_neg hmore] at hskip ⊢
      exact fun hfull => hmore ⟨h200, hskip, hfull⟩

/-- Nor is it the last that a `200` needs. -/
theorem probeBodyCallback_open [Octet β] {info : Info} {data : List β} {s : Probing β}
    (h : (probeBodyCallback info data s).2 = true) (h200 : info.responseCode = 200)
    (hskip : (probeBodyCallback info data s).1.state.skip = 0) :
    (probeBodyCallback info data s).1.state.stored ≠
      (probeBodyCallback info data s).1.state.wanted := by
  have hlow : ¬ (300 : Int) ≤ info.responseCode := by omega
  have hredirect : ¬ (isRedirect info.responseCode && s.state.http.followRedirects) = true := by
    have hno : isRedirect info.responseCode = false := by
      rw [h200]
      decide
    rw [hno, Bool.false_and]
    exact Bool.false_ne_true
  unfold probeBodyCallback at h hskip ⊢
  rw [if_neg hredirect, if_neg hlow] at h hskip ⊢
  generalize startBody info { s.state with started := true } = x at h hskip ⊢
  obtain ⟨p, proceed⟩ := x
  split at h
  · rename_i hstarted
    rw [if_pos hstarted] at hskip ⊢
    exact probePayload_open h h200 hskip
  · rename_i hstarted
    rw [if_neg hstarted] at hskip ⊢
    cases proceed with
    | true => exact probePayload_open h h200 hskip
    | false => cases h

theorem probeBodyCallback_reset [Octet β] (info : Info) (data : List β) (s : Probing β) :
    (probeBodyCallback info data s).1.state.resetResponse = s.state.resetResponse := by
  have hpayload : ∀ s : Probing β,
      (probePayload info data s).1.state.resetResponse = s.state.resetResponse := by
    intro s
    simp only [probePayload]
    split
    · rfl
    · split
      · rfl
      · rfl
  have hstart := (startBody_cases info { s.state with started := true }).reset
  unfold probeBodyCallback
  generalize startBody info { s.state with started := true } = x at hstart ⊢
  obtain ⟨p, proceed⟩ := x
  split
  · rfl
  · split
    · simp only [probeError]
      split
      · rfl
      · rfl
    · split
      · exact hpayload s
      · cases proceed with
        | true => exact (hpayload _).trans hstart
        | false => exact hstart

theorem feed_probeEnd [Octet β] (r : Response β) {p : ProbeState} (hwait : p.started = false)
    (hstored : p.stored = 0) (m : Memory Unit β) :
    ProbeEnd r p m (feed (probeBodyCallback r.info) r.chunks ⟨p, m⟩) := by
  rcases Int.lt_or_le r.code 300 with hcode | hcode
  · cases hchunks : r.chunks with
    | nil => exact .empty hchunks
    | cons c cs =>
        have hne : r.chunks ≠ [] := by simp [hchunks]
        have hcode' : r.info.responseCode < 300 := hcode
        have hlow : ¬ (300 : Int) ≤ r.info.responseCode := by
          show ¬ 300 ≤ r.code
          omega
        have hredirect : isRedirect r.info.responseCode = false := by
          simp only [isRedirect, Bool.and_eq_false_iff, decide_eq_false_iff_not]
          exact Or.inl hlow
        cases hstart : startBody r.info { p with started := true } with
        | mk p' proceed =>
            have hfirst : probeBodyCallback r.info c ⟨p, m⟩ =
                if proceed then probePayload r.info c ⟨p', m⟩
                else (⟨{ p' with cutShort := true }, m⟩, false) := by
              simp only [probeBodyCallback, hredirect, Bool.false_and, Bool.false_eq_true, if_false,
                if_neg hlow, hwait, hstart]
            cases proceed with
            | false =>
                rw [feed_cons_false (by rw [hfirst]; rfl), hfirst]
                exact .refused hne hcode hstart
            | true =>
                obtain ⟨hkept, hstarted, hlt⟩ := startBody_enters hstart
                -- the first piece is read like any other once the body has been let in
                have hsame : probeBodyCallback r.info c ⟨p, m⟩ =
                    probeBodyCallback r.info c ⟨p', m⟩ := by
                  rw [hfirst, probeBodyCallback_payload (s := ⟨p', m⟩) hstarted hcode']
                  rfl
                have hfeed : feed (probeBodyCallback r.info) (c :: cs) ⟨p, m⟩ =
                    feed (probeBodyCallback r.info) (c :: cs) ⟨p', m⟩ := by
                  simp only [feed, hsame]
                obtain ⟨hsettings, hgo, hstop⟩ := ProbeReading.feed hlt hstarted hcode' (c :: cs)
                  (ProbeReading.begin (hkept.trans hstored) m)
                have hbody : [] ++ (c :: cs).flatten = r.body := by
                  rw [List.nil_append, Response.body, hchunks]
                rw [hfeed]
                rw [hbody] at hgo hstop
                have huncut : (feed (probeBodyCallback r.info) (c :: cs) ⟨p, m⟩).2 = true →
                    (feed (probeBodyCallback r.info) (c :: cs) ⟨p, m⟩).1.state.cutShort =
                      p.cutShort :=
                  feed_accepted (P := fun s : Probing β => s.state.cutShort = p.cutShort)
                    (fun data s hs h => (probeBodyCallback_uncut h).trans hs) rfl
                have hopen : (feed (probeBodyCallback r.info) (c :: cs) ⟨p, m⟩).2 = true → r.code = 200 →
                    (feed (probeBodyCallback r.info) (c :: cs) ⟨p, m⟩).1.state.skip = 0 →
                    (feed (probeBodyCallback r.info) (c :: cs) ⟨p, m⟩).1.state.stored ≠
                      (feed (probeBodyCallback r.info) (c :: cs) ⟨p, m⟩).1.state.wanted := by
                  obtain ⟨d, -, s, -, hlast⟩ := feed_ends (P := fun _ : Probing β => True)
                    (f := probeBodyCallback r.info) (List.cons_ne_nil c cs) (fun _ _ _ _ => trivial)
                    (s := ⟨p, m⟩) trivial
                  rw [hlast]
                  exact probeBodyCallback_open
                rw [hfeed] at huncut hopen
                generalize feed (probeBodyCallback r.info) (c :: cs) ⟨p', m⟩ = x
                  at hsettings hgo hstop huncut hopen ⊢
                obtain ⟨s, accepted⟩ := x
                cases accepted with
                | true => exact .whole hne hcode hstart (hgo rfl) (huncut rfl) (hopen rfl)
                | false => exact .cut hne hcode hstart hsettings (hstop rfl).1 (hstop rfl).2
  · -- an error's body, or a redirect's, is stored nowhere
    have hstep : ∀ data ∈ r.chunks, ∀ s : Probing β,
        s.state.uncaptured = p.uncaptured ∧ s.memory = m →
        (probeBodyCallback r.info data s).1.state.uncaptured = p.uncaptured ∧
          (probeBodyCallback r.info data s).1.memory = m := by
      intro data _ s hs
      have hhigh : (300 : Int) ≤ r.info.responseCode := hcode
      simp only [probeBodyCallback, if_pos hhigh]
      split
      · exact hs
      · simp only [probeError]
        split <;> exact hs
    have hend := feed_induct hstep (s := ⟨p, m⟩) ⟨rfl, rfl⟩
    generalize feed (probeBodyCallback r.info) r.chunks ⟨p, m⟩ = x at hend ⊢
    exact .error hcode hend.1 hend.2

end Karu
