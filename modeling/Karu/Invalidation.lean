/-
# `Karu.Invalidation` — rejected credentials stay rejected

What the invariant of the credential cache says about native scopes, in every
interleaving, and about custom providers, in those where no load publishes a
prefix over a path that was invalidated meanwhile.

A native entry is found, and invalidated, by the key of its flight, so a flight
that was marked is all there is to worry about.  A custom entry is found by its
prefix: a load for one path may publish an entry for another, and invalidating
that other path does not mark it.
-/
import Karu.Flights

namespace Karu

open Base

namespace CredentialCache

/-! ## Refresh times -/

/-- A refresh is due after the load, and not after the credential expires. -/
theorem refreshTime_native {v : ProviderCredentials} {now : Int} (h : Unexpired v now) :
    now < refreshTime v now true ∧ (v.expiresAt ≠ 0 → refreshTime v now true ≤ v.expiresAt) := by
  unfold refreshTime
  split
  · rename_i hzero
    exact ⟨by rw [if_pos rfl, staticCredentialTtlSeconds]; omega, fun hne => (hne hzero).elim⟩
  · rename_i hne
    have hlt : now < v.expiresAt := by
      rcases h with h | h
      · exact (hne h).elim
      · exact h
    rw [if_neg (by omega)]
    dsimp only
    omega

theorem reusable_iff {entry : Entry} {now : Int} :
    reusable entry now = true ↔ now < entry.refreshAt ∧ Unexpired entry.credentials now := by
  simp [reusable, Unexpired]

/-! ## Native scopes -/

/-- The targets of native calls. -/
def Target.isNative : Target → Prop
  | .native _ _ => True
  | .custom _ _ => False

/-- What a custom load stores is under another key, and a native one under its own. -/
theorem timely_native (s : Cache) (e : Event) : Timely Target.isNative s e := by
  cases e with
  | publish id room =>
      intro c f v at_ fl key refreshStatic _ _ _ _ _ hstored t m _ hscope hne _
      cases t with
      | custom => exact hscope.elim
      | native kind scope =>
          refine decide_eq_false fun hkey => ?_
          generalize fl.target = u at hstored hne
          cases u with
          | native kind' scope' =>
              simp only [Cache.storedUnder] at hstored
              split at hstored
              · cases hstored
                exact hne (Target.key_inj hkey).symm
              · cases hstored
          | custom kind' path =>
              simp only [Cache.storedUnder] at hstored
              split at hstored
              · cases hstored
              · cases hstored
                exact family_ne _ _ _ _ hkey.symm
  | _ => trivial

/-- What holds of the native side of the cache. -/
structure NativeSound (s : Cache) : Prop where
  /-- At most one load a key that has not been invalidated is in flight. -/
  single : ∀ {f g fl fl'}, s.flight f = some fl → s.flight g = some fl' →
    fl.target.key = fl'.target.key → fl.done = false → fl.invalidated = false →
    fl'.done = false → fl'.invalidated = false → f = g
  /-- An answer was loaded after every invalidation from before the call. -/
  fresh : ∀ {i c r o m t}, s.call i = some c → c.target.isNative → c.phase = .returned r o →
    (t, m) ∈ s.invalidations → t.key = c.target.key → m < c.started →
    ∃ fl, s.flight o.flight = some fl ∧ m < fl.begun
  /-- Stored is a present, unexpired result of a flight for the key, with its refresh time. -/
  stored : ∀ {t entry}, t.isNative → (t.key, entry) ∈ s.entries →
    ∃ fl, s.flight entry.flight = some fl ∧ fl.target = t ∧
      fl.result = some (.ok entry.credentials) ∧ entry.credentials.present = true ∧
      Unexpired entry.credentials entry.loadedAt ∧ entry.loadedAt < entry.refreshAt ∧
      (entry.credentials.expiresAt ≠ 0 → entry.refreshAt ≤ entry.credentials.expiresAt)
  /-- An entry is served before it is due and before it expires. -/
  served : ∀ {i c r entry}, s.call i = some c → c.phase = .returned r (.cached entry) →
    r = .ok entry.credentials ∧ c.checkedAt < entry.refreshAt ∧
      (entry.credentials.expiresAt ≠ 0 → c.checkedAt < entry.credentials.expiresAt)
  /-- A waiter was given the result of its flight, a flight for its own target. -/
  shared : ∀ {i c r f}, s.call i = some c → c.phase = .returned r (.joined f) →
    ∃ fl, s.flight f = some fl ∧ fl.target = c.target ∧ fl.result = some r
  /-- A waiter's flight is still being loaded, or its result is there to be taken. -/
  attended : ∀ {i c f}, s.call i = some c → c.phase = .waiting f →
    ∃ fl, s.flight f = some fl ∧ fl.target = c.target ∧
      (fl.done = false → ∃ j d, s.call j = some d ∧ d.phase.owns f) ∧
      (fl.done = true → ∃ r, fl.result = some r ∧
        (s.step (.wake i)).bind (·.call i) = some { c with phase := .returned r (.joined f) })

/-- A native key holds what a flight for it stored. -/
theorem stored_native {t u : Target} (ht : t.isNative) {v : ProviderCredentials}
    {refreshStatic : Bool} (h : Cache.storedUnder u v = some (t.key, refreshStatic)) :
    u = t ∧ v.present = true ∧ refreshStatic = true := by
  cases u with
  | native kind scope =>
      simp only [Cache.storedUnder] at h
      split at h
      · rename_i hpresent
        obtain ⟨hkey, hstatic⟩ := Prod.mk.inj (Option.some.inj h)
        exact ⟨Target.key_inj hkey, hpresent, hstatic.symm⟩
      · cases h
  | custom kind path =>
      simp only [Cache.storedUnder] at h
      split at h
      · cases h
      · cases t with
        | custom => exact ht.elim
        | native kind' scope' =>
            exact (family_ne _ _ _ _ (Prod.mk.inj (Option.some.inj h)).1.symm).elim

section Sound

variable {scope : Target → Prop} {s : Cache}

/-- What the invariant says about an answer. -/
theorem Inv.answered (h : Inv scope s.events s) {i : Nat} {c : Call} {r : LoadResult} {o : Origin}
    (hc : s.call i = some c) (hphase : c.phase = .returned r o) (hscope : scope c.target) :
    ∃ fl, s.flight o.flight = some fl ∧ Since s.invalidations c fl := by
  have hstand := h.standing hc
  rw [hphase] at hstand
  cases hstand with
  | cached hfl _ _ _ hsince => exact ⟨_, hfl, hsince hscope⟩
  | joined hfl _ _ _ hsince => exact ⟨_, hfl, hsince⟩
  | own hfl _ _ _ hbegun => exact ⟨_, hfl, fun m _ hlt => Nat.lt_of_lt_of_le hlt hbegun⟩

/-- A waiter whose flight is done is given its result. -/
theorem wake_done {i f : Nat} {c : Call} {fl : Flight} {r : LoadResult} (hc : s.call i = some c)
    (hphase : c.phase = .waiting f) (hfl : s.flight f = some fl) (hdone : fl.done = true)
    (hresult : fl.result = some r) :
    (s.step (.wake i)).bind (·.call i) = some { c with phase := .returned r (.joined f) } := by
  obtain ⟨target, started, checkedAt, phase⟩ := c
  obtain ⟨target', begun, done, invalidated, result⟩ := fl
  dsimp only at hphase hdone hresult
  subst hphase hdone hresult
  simp [Cache.step, Cache.perform, hc, hfl, Cache.move]

/-- The native credential cache, over every interleaving. -/
theorem native_cache_sound {now : Int} (h : (system now).Reachable System.Anything s) :
    NativeSound s := by
  have hinv : Inv Target.isNative s.events s := reachable_inv (fun s e _ => timely_native s e) h
  exact {
    single := by
      intro f g fl fl' hf hg hkey hopen hvalid hopen' hvalid'
      have hlive := hinv.listing.live hf hopen hvalid
      rw [hkey, hinv.listing.live hg hopen' hvalid'] at hlive
      exact (Option.some.inj hlive).symm
    fresh := by
      intro i c r o m t hc hnative hphase hm hkey hlt
      obtain ⟨fl, hfl, hsince⟩ := hinv.answered hc hphase hnative
      exact ⟨fl, hfl, hsince m (Target.key_inj hkey ▸ hm) hlt⟩
    stored := by
      intro t entry hnative hmem
      obtain ⟨fl, hfl⟩ := hinv.stocked hmem
      obtain ⟨refreshStatic, hstored, hrefresh⟩ := hfl.stored
      obtain ⟨htarget, hpresent, rfl⟩ := stored_native hnative hstored
      have hdue := refreshTime_native hfl.unexpired
      rw [← hrefresh] at hdue
      exact ⟨fl, hfl.flight, htarget, hfl.result, hpresent, hfl.unexpired, hdue⟩
    served := by
      intro i c r entry hc hphase
      have hstand := hinv.standing hc
      rw [hphase] at hstand
      cases hstand with
      | cached _ _ _ hreusable _ =>
          obtain ⟨hdue, hunexpired⟩ := reusable_iff.mp hreusable
          exact ⟨rfl, hdue, fun hne => hunexpired.resolve_left hne⟩
    shared := by
      intro i c r f hc hphase
      have hstand := hinv.standing hc
      rw [hphase] at hstand
      cases hstand with
      | joined hfl _ hresult htarget _ => exact ⟨_, hfl, htarget, hresult⟩
    attended := by
      intro i c f hc hphase
      have hstand := hinv.standing hc
      rw [hphase] at hstand
      cases hstand with
      | @waiting f fl hfl htarget _ =>
          refine ⟨fl, hfl, htarget, hinv.crewed hfl, fun hdone => ?_⟩
          obtain ⟨r, hresult⟩ := hinv.listing.finished hfl hdone
          exact ⟨r, hresult, wake_done hc hphase hfl hdone hresult⟩ }

end Sound

/-- A rejected credential: the call that loads it is overtaken by an invalidation and by a second
call, and a third one waits for the second. -/
def rejectedRun (t : Target) : List Event :=
  [.call t, .enter 0, .invalidate t, .call t, .enter 1, .call t, .enter 2,
    .load 0 (.result (.ok { accessKeyId := text "old" })), .publish 0 true, .tick 5,
    .load 1 (.result (.ok { accessKeyId := text "new", expiresAt := 900 })), .publish 1 true,
    .wake 2, .call t, .enter 3]

/-- In the end the second credential is cached, and the two last calls have it. -/
theorem native_cache_sound_rejected :
    ∃ s, (system 0).run System.Anything (system 0).start
        (rejectedRun (nativeTarget {} .aws (text "/vsis3/b/x"))) = some s ∧
      NativeSound s := by
  have hsome : ((system 0).run System.Anything (system 0).start
      (rejectedRun (nativeTarget {} .aws (text "/vsis3/b/x")))).isSome =
      true := by decide +kernel
  obtain ⟨s, hs⟩ := Option.isSome_iff_exists.mp hsome
  exact ⟨s, hs, native_cache_sound (System.Reachable.start.run hs)⟩

/-! ## Custom providers -/

/-- The flight is about to store, under the prefix its callback chose, an entry that serves a path
other than its own which was invalidated since the flight began. -/
def Cache.overtaken (s : Cache) (fl : Flight) (v : ProviderCredentials) : Bool :=
  match fl.target with
  | .native _ _ => false
  | .custom kind path =>
      !fl.invalidated && !v.cachePrefix.isEmpty && s.invalidations.any fun (t, m) =>
        match t with
        | .native _ _ => false
        | .custom kind' other =>
            kind' = kind && other ≠ path && fl.begun ≤ m && pathPrefixMatches other v.cachePrefix

/-- The event is not the publication of an overtaken flight. -/
def Undisturbed (s : Cache) : Event → Prop
  | .publish id room =>
      match s.call id with
      | some { phase := .loaded f (.ok v) _, .. } =>
          room = true → (s.flight f).all (fun fl => !s.overtaken fl v) = true
      | _ => True
  | _ => True

instance (s : Cache) (e : Event) : Decidable (Undisturbed s e) := by
  unfold Undisturbed
  split
  · split
    · exact inferInstanceAs (Decidable (_ → _))
    · exact inferInstanceAs (Decidable True)
  · exact inferInstanceAs (Decidable True)

/-- The targets of custom calls. -/
def Target.isCustom : Target → Prop
  | .native _ _ => False
  | .custom _ _ => True

/-- A prefix that a family is followed by is the family of no other kind. -/
theorem family_of_isPrefixOf {kind kind' : CredentialsKind} {x : Text}
    (h : (credentialFamily (text "custom") kind).isPrefixOf
      (credentialFamily (text "custom") kind' ++ x) = true) : kind = kind' := by
  obtain ⟨rest, hrest⟩ := List.isPrefixOf_iff_prefix.mp h
  exact (family_inj hrest).1

theorem timely_undisturbed (s : Cache) (e : Event) (h : Undisturbed s e) :
    Timely Target.isCustom s e := by
  cases e with
  | publish id room =>
      intro c f v at_ fl key refreshStatic hroom hc hphase hfl hvalid hstored t m hm hscope hne hle
      obtain ⟨target, started, checkedAt, phase⟩ := c
      dsimp only at hphase
      subst hphase
      have hnot : s.overtaken fl v = false := by
        simp only [Undisturbed, hc] at h
        simpa [hfl] using h hroom
      cases t with
      | native => exact hscope.elim
      | custom kind' other =>
          refine Bool.eq_false_iff.mpr fun hcovers => ?_
          obtain ⟨hfamily, hmatches⟩ := Bool.and_eq_true_iff.mp hcovers
          obtain ⟨u, begun, done, invalidated, result⟩ := fl
          dsimp only at hstored hne hle hvalid
          subst hvalid
          cases u with
          | native kind scope =>
              simp only [Cache.storedUnder] at hstored
              split at hstored
              · cases hstored
                obtain ⟨rest, hrest⟩ := List.isPrefixOf_iff_prefix.mp hfamily
                exact family_ne _ _ _ _ hrest.symm
              · cases hstored
          | custom kind path =>
              simp only [Cache.storedUnder] at hstored
              split at hstored
              · cases hstored
              · rename_i hpre
                cases hstored
                obtain rfl := family_of_isPrefixOf hfamily
                have hother : other ≠ path := fun heq => hne (by rw [heq])
                have hovertaken : (s.invalidations.any fun (t, m) =>
                    match t with
                    | .native _ _ => false
                    | .custom kind'' other =>
                        kind'' = kind' && other ≠ path && begun ≤ m &&
                          pathPrefixMatches other v.cachePrefix) = true := by
                  refine List.any_eq_true.mpr ⟨_, hm, ?_⟩
                  simp [hother, hle, hmatches]
                simp only [Cache.overtaken, hovertaken, Bool.not_false, Bool.true_and,
                  Bool.and_true, Bool.not_eq_false'] at hnot
                exact hpre hnot
  | _ => trivial

/-- Every answer was loaded after the invalidations of its path from before the call. -/
def CustomSound (s : Cache) : Prop :=
  ∀ {i c kind path r o m}, s.call i = some c → c.target = .custom kind path →
    c.phase = .returned r o → (.custom kind path, m) ∈ s.invalidations → m < c.started →
    ∃ fl, s.flight o.flight = some fl ∧ m < fl.begun

/-- Invalidating a path of a custom provider is effective in every run in which no overtaken flight
publishes. -/
theorem custom_invalidation_effective {now : Int} {s : Cache}
    (h : (system now).Reachable Undisturbed s) : CustomSound s := by
  intro i c kind path r o m hc htarget hphase hm hlt
  have hinv : Inv Target.isCustom s.events s := reachable_inv timely_undisturbed h
  have hscope : c.target.isCustom := by
    rw [htarget]
    trivial
  obtain ⟨fl, hfl, hsince⟩ := hinv.answered hc hphase hscope
  exact ⟨fl, hfl, hsince m (htarget ▸ hm) hlt⟩

/-- The credential for `x` is cached under a prefix over `y`, and rejected at `y`. -/
def prefixRun : List Event :=
  [.call (.custom .aws (text "/vsis3/b/x")), .enter 0,
    .load 0 (.result (.ok { accessKeyId := text "old", cachePrefix := text "/vsis3/b/" })),
    .publish 0 true, .call (.custom .aws (text "/vsis3/b/y")), .enter 1,
    .invalidate (.custom .aws (text "/vsis3/b/y")), .call (.custom .aws (text "/vsis3/b/x")),
    .enter 2, .load 2 (.result (.ok { accessKeyId := text "new", cachePrefix := text "/vsis3/b/" })),
    .publish 2 true, .call (.custom .aws (text "/vsis3/b/y")), .enter 3]

/-- The key that a call was answered with. -/
def Call.keyId (c : Call) : Option Text :=
  match c.phase with
  | .returned (.ok v) _ => some v.accessKeyId
  | _ => none

/-- The cached credential answers `y` before the invalidation, and no call after it. -/
theorem custom_invalidation_effective_rejected :
    ∃ s, (system 0).run Undisturbed (system 0).start prefixRun = some s ∧
      (s.call 1).bind Call.keyId = some (text "old") ∧
      (s.call 2).bind Call.keyId = some (text "new") ∧
      (s.call 3).bind Call.keyId = some (text "new") ∧ CustomSound s := by
  have hrun : ((system 0).run Undisturbed (system 0).start prefixRun).map (fun s =>
      ((s.call 1).bind Call.keyId, (s.call 2).bind Call.keyId, (s.call 3).bind Call.keyId)) =
      some (some (text "old"), some (text "new"), some (text "new")) := by
    decide +kernel
  obtain ⟨s, hs, hkeys⟩ := Option.map_eq_some_iff.mp hrun
  obtain ⟨hone, hrest⟩ := Prod.mk.inj hkeys
  obtain ⟨htwo, hthree⟩ := Prod.mk.inj hrest
  exact ⟨s, hs, hone, htwo, hthree, custom_invalidation_effective (System.Reachable.start.run hs)⟩

/-- While the credential for `x` is being loaded, `y` is invalidated; the load then chooses a
prefix over both, and the next call for `y` is answered with it. -/
def overtakenRun : List Event :=
  [.call (.custom .aws (text "/vsis3/b/x")), .enter 0,
    .invalidate (.custom .aws (text "/vsis3/b/y")),
    .load 0 (.result (.ok { accessKeyId := text "old", cachePrefix := text "/vsis3/b/" })),
    .publish 0 true, .call (.custom .aws (text "/vsis3/b/y")), .enter 1]

theorem custom_invalidation_overtaken :
    ∃ s, (system 0).Reachable System.Anything s ∧ ¬ CustomSound s := by
  have hrun : ((system 0).run System.Anything (system 0).start overtakenRun).map (fun s =>
      ((s.call 1).map fun c => (c.target, c.phase, c.started), (s.flight 0).map (·.begun),
        s.invalidations)) =
      some (some (.custom .aws (text "/vsis3/b/y"),
        .returned (.ok { accessKeyId := text "old", cachePrefix := text "/vsis3/b/" })
          (.cached { credentials := { accessKeyId := text "old", cachePrefix := text "/vsis3/b/" }
                     refreshAt := 2 ^ 63 - 1, flight := 0, loadedAt := 0 }), 5), some 1,
        [(.custom .aws (text "/vsis3/b/y"), 2)]) := by
    decide +kernel
  obtain ⟨s, hs, hfacts⟩ := Option.map_eq_some_iff.mp hrun
  obtain ⟨hcall, hrest⟩ := Prod.mk.inj hfacts
  obtain ⟨hflight, hlog⟩ := Prod.mk.inj hrest
  obtain ⟨c, hc, hfields⟩ := Option.map_eq_some_iff.mp hcall
  obtain ⟨htarget, hfields⟩ := Prod.mk.inj hfields
  obtain ⟨hphase, hstarted⟩ := Prod.mk.inj hfields
  obtain ⟨fl, hfl, hbegun⟩ := Option.map_eq_some_iff.mp hflight
  refine ⟨s, System.Reachable.start.run hs, fun hsound => ?_⟩
  obtain ⟨fl', hfl', hlt⟩ := hsound hc htarget hphase (by rw [hlog]; exact List.mem_singleton.mpr rfl)
    (by rw [hstarted]; decide)
  cases hfl.symm.trans hfl'
  omega

end CredentialCache

end Karu
